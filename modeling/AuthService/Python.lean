import AuthService.Entities

/-!
# Python's strings and datetimes
-/

namespace AuthService

/-- A Python string: its code points, surrogates included. -/
abbrev PyStr := List Nat

abbrev Bytes := List UInt8

def pyStr (s : String) : PyStr := s.toList.map Char.toNat

/-- The exceptions of the decoders. -/
inductive PyException where
  | binasciiError | keyError | typeError | unicodeError | valueError
  | attributeError | overflowError | recursionError | indexError
  | invalidSampleItemCursor
  deriving DecidableEq, Repr

/-- A `datetime`: the wall clock in microseconds, and the offset from UTC when it is aware. -/
structure PyDateTime where
  wall : Int
  offset : Option Int
  deriving DecidableEq, Repr

/-- `datetime.min` and `datetime.max`. -/
def datetimeMin : Int := seconds (-62135596800)

def datetimeMax : Int := seconds 253402300800 - 1

/-- A wall clock that a `datetime` can show. -/
def Representable (t : Int) : Prop := datetimeMin ≤ t ∧ t ≤ datetimeMax

instance (t : Int) : Decidable (Representable t) := inferInstanceAs (Decidable (_ ∧ _))

/-- A representable time stays representable when rounded down. -/
theorem representable_toMillis {t : Int} (h : Representable t) : Representable (toMillis t) := by
  unfold Representable datetimeMin datetimeMax seconds toMillis at *
  omega

/-- An aware datetime in UTC. -/
def utc (t : DateTime) : PyDateTime := ⟨t, some 0⟩

/-- A datetime that exists: its offset is less than a day. -/
def PyDateTime.Valid (d : PyDateTime) : Prop := Representable d.wall ∧ ∀ o ∈ d.offset, -seconds 86400 < o ∧ o < seconds 86400

end AuthService
