import AuthService.Python

/-!
# Timestamps in columns

`UnixTimestampMillis` (libraries/sqlalchemy_types.py): a column keeps the milliseconds since the epoch, and `timedelta` as Python
normalises it.
-/

namespace AuthService

/-! ## Differences of datetimes -/

/-- A `timedelta`, normalised. -/
structure TimeDelta where
  days : Int
  seconds : Int
  microseconds : Int
  seconds_range : 0 ≤ seconds ∧ seconds < 86400
  microseconds_range : 0 ≤ microseconds ∧ microseconds < 1000000

namespace TimeDelta

/-- The `timedelta` of some microseconds. -/
def ofMicroseconds (us : Int) : TimeDelta where
  days := us / 86400000000
  seconds := us % 86400000000 / 1000000
  microseconds := us % 1000000
  seconds_range := by omega
  microseconds_range := by omega

def inMicroseconds (d : TimeDelta) : Int := (d.days * 86400 + d.seconds) * 1000000 + d.microseconds

/-- `timedelta(milliseconds=n)`. -/
def ofMilliseconds (n : Int) : Except PyException TimeDelta :=
  let d := ofMicroseconds (n * 1000)
  if -999999999 ≤ d.days ∧ d.days ≤ 999999999 then .ok d else .error .overflowError

/-- `d // e`. -/
def floorDiv (d e : TimeDelta) : Int := Int.fdiv d.inMicroseconds e.inMicroseconds

/-- A duration of microseconds has that many microseconds. -/
@[simp] theorem inMicroseconds_ofMicroseconds (us : Int) : (ofMicroseconds us).inMicroseconds = us := by
  simp only [inMicroseconds, ofMicroseconds]
  omega

end TimeDelta

/-! ## The column -/

namespace UnixTimestampMillis

/-- `EPOCH`. -/
def epoch : PyDateTime := utc 0

/-- `value.astimezone(UTC)`. -/
def astimezoneUtc (value : PyDateTime) (utcoffset : Int) : Except PyException PyDateTime :=
  if Representable (value.wall - utcoffset) then .ok (utc (value.wall - utcoffset)) else .error .overflowError

/-- The difference of two datetimes in UTC. -/
def sub (value value' : PyDateTime) : TimeDelta := .ofMicroseconds (value.wall - value'.wall)

/-- A datetime in UTC and a `timedelta`. -/
def add (value : PyDateTime) (delta : TimeDelta) : Except PyException PyDateTime :=
  if Representable (value.wall + delta.inMicroseconds) then .ok (utc (value.wall + delta.inMicroseconds))
  else .error .overflowError

/-- `process_bind_param`. -/
def processBindParam : Option PyDateTime → Except PyException (Option Int)
  | none => .ok none
  | some value =>
    match value.offset with
    | none => .error .valueError
    | some utcoffset => do
      let delta := sub (← astimezoneUtc value utcoffset) epoch
      return some (delta.floorDiv (.ofMicroseconds 1000))

/-- `process_result_value`. -/
def processResultValue : Option Int → Except PyException (Option PyDateTime)
  | none => .ok none
  | some value => do return some (← add epoch (← TimeDelta.ofMilliseconds value))

end UnixTimestampMillis

/-- The instant of an aware datetime, in microseconds since the epoch. -/
def PyDateTime.instant (d : PyDateTime) : Option DateTime := d.offset.map fun utcoffset => d.wall - utcoffset

end AuthService
