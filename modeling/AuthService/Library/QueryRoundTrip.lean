import AuthService.Library.Urllib

/-!
# Queries that are written and read again

`parseQsl` undoes `urlencode`. Every character that `quote_plus` writes is ASCII, its escapes decode to the bytes of UTF-8, and
neither `&` nor `=` is among them.
-/

namespace Urllib

/-! ## UTF-8 -/

/-- The bytes of a text. -/
def utf8 (s : List Char) : List Nat := s.flatMap fun c => (String.utf8EncodeChar c).map UInt8.toNat

/-- A number below 256 is the value of its byte. -/
theorem toNat_byte {n : Nat} (h : n < 256) : (UInt8.ofNat n).toNat = n := by
  rw [UInt8.toNat_ofNat']
  exact Nat.mod_eq_of_lt h

/-- A code point is in range and no surrogate. -/
theorem toNat_valid (c : Char) : c.toNat < 0xD800 ∨ 0xDFFF < c.toNat ∧ c.toNat < 0x110000 := c.valid

/-- An ASCII byte decodes to its character. -/
theorem decodeUtf8_one {b fuel : Nat} {bs : List Nat} (h : b < 0x80) :
    decodeUtf8 (fuel + 1) (b :: bs) = Char.ofNat b :: decodeUtf8 fuel bs := by
  rw [decodeUtf8.eq_def]
  exact if_pos h

/-- A well formed pair of bytes decodes to one character. -/
theorem decodeUtf8_two {b c fuel : Nat} {bs : List Nat} (hb : 0xC2 ≤ b ∧ b < 0xE0) (hc : isContinuation c = true) :
    decodeUtf8 (fuel + 1) (b :: c :: bs) = Char.ofNat ((b - 0xC0) * 64 + (c - 0x80)) :: decodeUtf8 fuel bs := by
  have hone : ¬ b < 0x80 := by omega
  rw [decodeUtf8.eq_def]
  dsimp only
  rw [if_neg hone, if_pos hb, if_pos hc]

/-- A well formed triple of bytes decodes to one character. -/
theorem decodeUtf8_three {b c d fuel : Nat} {bs : List Nat} (hb : 0xE0 ≤ b ∧ b < 0xF0) (hc : secondOk b c = true)
    (hd : isContinuation d = true) :
    decodeUtf8 (fuel + 1) (b :: c :: d :: bs) =
      Char.ofNat ((b - 0xE0) * 4096 + (c - 0x80) * 64 + (d - 0x80)) :: decodeUtf8 fuel bs := by
  have hone : ¬ b < 0x80 := by omega
  have htwo : ¬ (0xC2 ≤ b ∧ b < 0xE0) := by omega
  rw [decodeUtf8.eq_def]
  dsimp only
  rw [if_neg hone, if_neg htwo, if_pos hb, if_pos hc, if_pos hd]

/-- A well formed quadruple of bytes decodes to one character. -/
theorem decodeUtf8_four {b c d e fuel : Nat} {bs : List Nat} (hb : 0xF0 ≤ b ∧ b < 0xF5) (hc : secondOk b c = true)
    (hd : isContinuation d = true) (he : isContinuation e = true) :
    decodeUtf8 (fuel + 1) (b :: c :: d :: e :: bs) =
      Char.ofNat ((b - 0xF0) * 262144 + (c - 0x80) * 4096 + (d - 0x80) * 64 + (e - 0x80)) :: decodeUtf8 fuel bs := by
  have hone : ¬ b < 0x80 := by omega
  have htwo : ¬ (0xC2 ≤ b ∧ b < 0xE0) := by omega
  have hthree : ¬ (0xE0 ≤ b ∧ b < 0xF0) := by omega
  rw [decodeUtf8.eq_def]
  dsimp only
  rw [if_neg hone, if_neg htwo, if_neg hthree, if_pos hb, if_pos hc, if_pos hd, if_pos he]

/-- The low six bits over `0x80` make a continuation byte. -/
theorem isContinuation_low (n : Nat) : isContinuation (n % 64 + 128) = true := by
  have hlt := Nat.mod_lt n (show 0 < 64 by decide)
  simp only [isContinuation, Bool.and_eq_true, decide_eq_true_eq]
  omega

/-- The bytes of a character decode to it, whatever follows. -/
theorem decodeUtf8_char (c : Char) (rest : List Nat) (fuel : Nat) :
    decodeUtf8 (fuel + 1) ((String.utf8EncodeChar c).map UInt8.toNat ++ rest) = c :: decodeUtf8 fuel rest := by
  have hvalid := toNat_valid c
  have hchar : Char.ofNat c.toNat = c := Char.ofNat_toNat c
  have hval : c.val.toNat = c.toNat := rfl
  unfold String.utf8EncodeChar
  simp only [hval]
  generalize c.toNat = n at hvalid hchar
  -- the cases are those of the length of the encoding
  split
  · rename_i hone
    rw [List.map_singleton, toNat_byte (by omega), List.singleton_append, decodeUtf8_one (by omega), hchar]
  split
  · rename_i hone htwo
    rw [List.map_cons, List.map_singleton, toNat_byte (by omega), toNat_byte (by omega), List.cons_append, List.singleton_append,
      decodeUtf8_two (by omega) (isContinuation_low n)]
    have heq : (n / 64 % 32 + 192 - 192) * 64 + (n % 64 + 128 - 128) = n := by omega
    rw [heq, hchar]
  split
  · rename_i hone htwo hthree
    have hsecond : secondOk (n / 4096 % 16 + 224) (n / 64 % 64 + 128) = true := by
      unfold secondOk isContinuation
      split_ifs <;> simp only [Bool.and_eq_true, decide_eq_true_eq] <;> omega
    rw [List.map_cons, List.map_cons, List.map_singleton, toNat_byte (by omega), toNat_byte (by omega), toNat_byte (by omega),
      List.cons_append, List.cons_append, List.singleton_append, decodeUtf8_three (by omega) hsecond (isContinuation_low n)]
    have heq : (n / 4096 % 16 + 224 - 224) * 4096 + (n / 64 % 64 + 128 - 128) * 64 + (n % 64 + 128 - 128) = n := by omega
    rw [heq, hchar]
  · rename_i hone htwo hthree
    have hsecond : secondOk (n / 262144 % 8 + 240) (n / 4096 % 64 + 128) = true := by
      unfold secondOk isContinuation
      split_ifs <;> simp only [Bool.and_eq_true, decide_eq_true_eq] <;> omega
    rw [List.map_cons, List.map_cons, List.map_cons, List.map_singleton, toNat_byte (by omega), toNat_byte (by omega),
      toNat_byte (by omega), toNat_byte (by omega), List.cons_append, List.cons_append, List.cons_append, List.singleton_append,
      decodeUtf8_four (by omega) hsecond (isContinuation_low (n / 64)) (isContinuation_low n)]
    have heq : (n / 262144 % 8 + 240 - 240) * 262144 + (n / 4096 % 64 + 128 - 128) * 4096 + (n / 64 % 64 + 128 - 128) * 64 +
        (n % 64 + 128 - 128) = n := by omega
    rw [heq, hchar]

/-- The bytes of a text decode to it. -/
theorem decodeUtf8_utf8 (s : List Char) (fuel : Nat) (h : s.length ≤ fuel) : decodeUtf8 fuel (utf8 s) = s := by
  induction s generalizing fuel with
  | nil =>
    rw [decodeUtf8.eq_def]
    rfl
  | cons c s ih =>
    obtain ⟨fuel, rfl⟩ : ∃ k, fuel = k + 1 := ⟨fuel - 1, by simp only [List.length_cons] at h; omega⟩
    have hstep := decodeUtf8_char c (utf8 s) fuel
    rw [ih fuel (by simpa using h)] at hstep
    exact hstep

/-- A text has no more characters than bytes. -/
theorem length_le_utf8 (s : List Char) : s.length ≤ (utf8 s).length := by
  induction s with
  | nil => exact le_refl _
  | cons c s ih =>
    have hpos : 0 < (String.utf8EncodeChar c).length := List.length_pos_iff.2 String.utf8EncodeChar_ne_nil
    simp only [utf8, List.flatMap_cons, List.length_append, List.length_map, List.length_cons] at ih ⊢
    omega

/-! ## Escapes -/

/-- A hexadecimal digit reads back as its value. -/
theorem hexValue_hexDigit {n : Nat} (h : n < 16) : hexValue (hexDigit n) = some n := by
  have hall : ∀ k : Fin 16, hexValue (hexDigit k) = some k.val := by decide
  exact hall ⟨n, h⟩

/-- A percent-encoded byte is unquoted to its value. -/
theorem unquoteToBytes_percentByte (b : UInt8) (rest : List Char) :
    unquoteToBytes (percentByte b ++ rest) = b.toNat :: unquoteToBytes rest := by
  have hlt := b.toNat_lt
  have hhigh : b.toNat / 16 < 16 := by omega
  have hlow : b.toNat % 16 < 16 := Nat.mod_lt _ (by decide)
  have hsum : 16 * (b.toNat / 16) + b.toNat % 16 = b.toNat := Nat.div_add_mod _ _
  simp only [percentByte, List.cons_append, List.nil_append, unquoteToBytes, hexValue_hexDigit hhigh, hexValue_hexDigit hlow, hsum]

/-- Percent-encoded bytes are unquoted to their values. -/
theorem unquoteToBytes_percentBytes (bytes : List UInt8) (rest : List Char) :
    unquoteToBytes (bytes.flatMap percentByte ++ rest) = bytes.map UInt8.toNat ++ unquoteToBytes rest := by
  induction bytes with
  | nil => rfl
  | cons b bytes ih => rw [List.flatMap_cons, List.append_assoc, unquoteToBytes_percentByte, ih, List.map_cons, List.cons_append]

/-- A character that `quote_plus` leaves alone is ASCII, and none of those that queries are made of. -/
theorem alwaysSafe_spec {c : Char} (h : alwaysSafe c = true) : c.toNat < 128 ∧ c ≠ '%' ∧ c ≠ '+' ∧ c ≠ '&' ∧ c ≠ '=' := by
  have hlt : c.toNat < 128 := by
    have hle : ∀ n : UInt32, c.val ≤ n → c.toNat ≤ n.toNat := fun n hn => UInt32.le_iff_toNat_le.1 hn
    simp only [alwaysSafe, Char.isAlphanum, Char.isAlpha, Char.isUpper, Char.isLower, Char.isDigit, Bool.or_eq_true,
      Bool.and_eq_true, decide_eq_true_eq, beq_iff_eq] at h
    rcases h with ((((((h | h) | h) | h) | h) | h) | h)
    · exact lt_of_le_of_lt (hle _ h.2) (by decide)
    · exact lt_of_le_of_lt (hle _ h.2) (by decide)
    · exact lt_of_le_of_lt (hle _ h.2) (by decide)
    · rw [h]
      decide
    · rw [h]
      decide
    · rw [h]
      decide
    · rw [h]
      decide
  refine ⟨hlt, ?_, ?_, ?_, ?_⟩
  · rintro rfl
    exact absurd h (by decide)
  · rintro rfl
    exact absurd h (by decide)
  · rintro rfl
    exact absurd h (by decide)
  · rintro rfl
    exact absurd h (by decide)

/-- A character other than the percent sign is unquoted to itself. -/
theorem unquoteToBytes_cons {c : Char} (h : c ≠ '%') (rest : List Char) :
    unquoteToBytes (c :: rest) = c.toNat :: unquoteToBytes rest := by
  rw [unquoteToBytes.eq_def]
  split
  · rename_i heq
    exact absurd (List.cons.inj heq).1 h
  · rename_i heq
    obtain ⟨rfl, rfl⟩ := List.cons.inj heq
    rfl
  · rename_i heq
    cases heq

/-- A `+` is read as a space. -/
def plusToSpace (s : List Char) : List Char := s.map fun c => if c = '+' then ' ' else c

/-- A hexadecimal digit is ASCII and none of the separators of a query. -/
theorem hexDigit_spec {n : Nat} (h : n < 16) :
    (hexDigit n).toNat < 128 ∧ hexDigit n ≠ '+' ∧ hexDigit n ≠ '&' ∧ hexDigit n ≠ '=' := by
  have hall : ∀ k : Fin 16, (hexDigit k).toNat < 128 ∧ hexDigit k ≠ '+' ∧ hexDigit k ≠ '&' ∧ hexDigit k ≠ '=' := by decide
  exact hall ⟨n, h⟩

/-- Percent-encoded bytes are ASCII and hold none of the separators of a query. -/
theorem percentBytes_spec {bytes : List UInt8} {c : Char} (h : c ∈ bytes.flatMap percentByte) :
    c.toNat < 128 ∧ c ≠ '+' ∧ c ≠ '&' ∧ c ≠ '=' := by
  obtain ⟨b, _, hc⟩ := List.mem_flatMap.1 h
  have hlt := b.toNat_lt
  simp only [percentByte, List.mem_cons, List.not_mem_nil, or_false] at hc
  rcases hc with rfl | rfl | rfl
  · decide
  · exact hexDigit_spec (by omega)
  · exact hexDigit_spec (by omega)

/-- What `quote_plus` writes is ASCII without separators. -/
theorem quotePlus_spec {s : List Char} {c : Char} (h : c ∈ quotePlus s) : c.toNat < 128 ∧ c ≠ '&' ∧ c ≠ '=' := by
  obtain ⟨d, _, hc⟩ := List.mem_flatMap.1 h
  unfold quotePlusChar at hc
  split at hc
  · rw [List.mem_singleton.1 hc]
    decide
  split at hc
  · rename_i hsafe
    obtain ⟨hlt, _, _, hamp, heq⟩ := alwaysSafe_spec hsafe
    rw [List.mem_singleton.1 hc]
    exact ⟨hlt, hamp, heq⟩
  · obtain ⟨hlt, _, hamp, heq⟩ := percentBytes_spec hc
    exact ⟨hlt, hamp, heq⟩

/-- An ASCII character is encoded as one byte. -/
theorem utf8EncodeChar_ascii {c : Char} (h : c.toNat < 128) : (String.utf8EncodeChar c).map UInt8.toNat = [c.toNat] := by
  have hval : c.val.toNat = c.toNat := rfl
  unfold String.utf8EncodeChar
  simp only [hval]
  rw [if_pos (by omega), List.map_singleton, toNat_byte (by omega)]

/-- The escapes of a character are read as its bytes. -/
theorem unquoteToBytes_quotePlusChar (c : Char) (rest : List Char) :
    unquoteToBytes (plusToSpace (quotePlusChar c) ++ rest) = (String.utf8EncodeChar c).map UInt8.toNat ++ unquoteToBytes rest := by
  unfold quotePlusChar
  split
  · rename_i hspace
    rw [hspace]
    exact unquoteToBytes_cons (by decide) rest
  split
  · rename_i hsafe
    obtain ⟨hlt, hpercent, hplus, _⟩ := alwaysSafe_spec hsafe
    rw [plusToSpace, List.map_singleton, if_neg hplus, List.singleton_append, unquoteToBytes_cons hpercent,
      utf8EncodeChar_ascii hlt, List.singleton_append]
  · have hsame : plusToSpace ((String.utf8EncodeChar c).flatMap percentByte) = (String.utf8EncodeChar c).flatMap percentByte := by
      refine (List.map_congr_left ?_).trans (List.map_id _)
      intro d hd
      rw [if_neg (percentBytes_spec hd).2.1, id]
    rw [hsame, unquoteToBytes_percentBytes]

/-- `quote_plus` is undone to the text's UTF-8 bytes. -/
theorem unquoteToBytes_quotePlus (s : List Char) : unquoteToBytes (plusToSpace (quotePlus s)) = utf8 s := by
  induction s with
  | nil => rfl
  | cons c s ih =>
    have hcons : plusToSpace (quotePlus (c :: s)) = plusToSpace (quotePlusChar c) ++ plusToSpace (quotePlus s) := by
      rw [quotePlus, List.flatMap_cons, plusToSpace, List.map_append]
      rfl
    rw [hcons, unquoteToBytes_quotePlusChar, ih]
    rfl

/-- A text without escapes is read as its own codes. -/
theorem unquoteToBytes_plain {s : List Char} (h : '%' ∉ s) : unquoteToBytes s = s.map Char.toNat := by
  induction s with
  | nil => rfl
  | cons c s ih =>
    have hne : c ≠ '%' := fun heq => h (heq ▸ List.mem_cons_self)
    rw [unquoteToBytes_cons hne, ih fun hmem => h (List.mem_cons_of_mem _ hmem), List.map_cons]

/-- An ASCII text is encoded byte by character. -/
theorem utf8_ascii {s : List Char} (h : ∀ c ∈ s, c.toNat < 128) : utf8 s = s.map Char.toNat := by
  induction s with
  | nil => rfl
  | cons c s ih =>
    rw [utf8, List.flatMap_cons, utf8EncodeChar_ascii (h c List.mem_cons_self), List.map_cons, List.singleton_append]
    exact congrArg _ (ih fun d hd => h d (List.mem_cons_of_mem _ hd))

/-- The characters of an ASCII text decode together. -/
theorem unquote_ascii {s : List Char} (h : ∀ c ∈ s, c.toNat < 128) :
    unquote s = decodeUtf8 (unquoteToBytes s).length (unquoteToBytes s) := by
  have hascii : ∀ c ∈ s, isAscii c = true := fun c hc => decide_eq_true (h c hc)
  unfold unquote
  split
  · rename_i hpercent
    have hne : s ≠ [] := List.ne_nil_of_mem hpercent
    have hchain : s.IsChain fun a b => (isAscii a == isAscii b) = true := by
      refine List.Pairwise.isChain (List.Pairwise.imp_of_mem ?_ (List.pairwise_of_forall (R := fun _ _ => True) fun _ _ => trivial))
      intro a b ha hb _
      rw [hascii a ha, hascii b hb]
      rfl
    rw [List.splitBy_of_isChain hne hchain, List.flatMap_singleton, if_pos (List.all_eq_true.2 hascii)]
  · rename_i hplain
    rw [unquoteToBytes_plain hplain, ← utf8_ascii h, decodeUtf8_utf8 s _ (length_le_utf8 s)]

/-- `unquote_plus` undoes `quote_plus`. -/
theorem unquotePlus_quotePlus (s : List Char) : unquotePlus (quotePlus s) = s := by
  have hascii : ∀ c ∈ plusToSpace (quotePlus s), c.toNat < 128 := by
    intro c hc
    obtain ⟨d, hd, rfl⟩ := List.mem_map.1 hc
    split
    · decide
    · exact (quotePlus_spec hd).1
  have hunquote := unquote_ascii hascii
  rw [unquoteToBytes_quotePlus, decodeUtf8_utf8 s _ (length_le_utf8 s)] at hunquote
  exact hunquote

/-! ## Pairs -/

/-- `partition` splits at the first separator. -/
theorem partition_append {c : Char} {before : List Char} (h : c ∉ before) (after : List Char) :
    partition c (before ++ c :: after) = (before, after) := by
  have hall : ∀ d ∈ before, (decide (d ≠ c)) = true := fun d hd => decide_eq_true fun heq => h (heq ▸ hd)
  rw [partition, List.takeWhile_append_of_pos hall, List.dropWhile_append_of_pos hall, List.takeWhile_cons_of_neg (by simp),
    List.dropWhile_cons_of_neg (by simp), List.append_nil, List.tail_cons]

/-- `partition` returns the whole text where the separator does not occur. -/
theorem partition_of_not_mem {c : Char} {s : List Char} (h : c ∉ s) : partition c s = (s, []) := by
  have hall : ∀ d ∈ s, decide (d ≠ c) = true := fun d hd => decide_eq_true fun heq => h (heq ▸ hd)
  rw [partition, List.takeWhile_eq_self_iff.2 hall, List.dropWhile_eq_nil_iff.2 hall]
  rfl

/-- A part and a rest that is marked only when present split again into both. -/
theorem partition_marked {c : Char} {s : List Char} (h : c ∉ s) (rest : List Char) :
    partition c (s ++ if rest = [] then [] else c :: rest) = (s, rest) := by
  split
  · rename_i hnil
    rw [List.append_nil, partition_of_not_mem h, hnil]
  · exact partition_append h rest

/-- The part before the separator does not contain it. -/
theorem not_mem_partition_fst (c : Char) (s : List Char) : c ∉ (partition c s).1 := by
  intro hmem
  have hne := List.mem_takeWhile_imp (p := fun d => decide (d ≠ c)) hmem
  exact of_decide_eq_true hne rfl

/-- The pair that `urlencode` writes between two `&`. -/
def writtenPair (pair : List Char × List Char) : List Char := quotePlus pair.1 ++ '=' :: quotePlus pair.2

/-- What is encoded is read again: the same pairs in the same order. -/
theorem parseQsl_urlencode (items : List (List Char × List Char)) : parseQsl (urlencode items) = items := by
  cases items with
  | nil => decide
  | cons item items =>
    have hseparator : ∀ part ∈ (item :: items).map writtenPair, '&' ∉ part := by
      rintro part hpart hmem
      obtain ⟨pair, _, rfl⟩ := List.mem_map.1 hpart
      rcases List.mem_append.1 hmem with hmem | hmem
      · exact (quotePlus_spec hmem).2.1 rfl
      · rcases List.mem_cons.1 hmem with heq | hmem
        · exact absurd heq (by decide)
        · exact (quotePlus_spec hmem).2.1 rfl
    have hsplit : splitOn '&' (urlencode (item :: items)) = (item :: items).map writtenPair :=
      List.splitOn_intercalate '&' hseparator (by simp)
    have hfull : ∀ part ∈ (item :: items).map writtenPair, decide (part ≠ []) = true := by
      rintro part hpart
      obtain ⟨pair, _, rfl⟩ := List.mem_map.1 hpart
      simp [writtenPair]
    rw [parseQsl, hsplit, List.filter_eq_self.2 hfull, List.map_map]
    refine (List.map_congr_left ?_).trans (List.map_id _)
    intro pair _
    have hequals : '=' ∉ quotePlus pair.1 := fun hmem => (quotePlus_spec hmem).2.2 rfl
    simp only [Function.comp, writtenPair, partition_append hequals, unquotePlus_quotePlus, id]

end Urllib
