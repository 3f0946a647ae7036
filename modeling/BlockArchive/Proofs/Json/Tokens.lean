import BlockArchive.Json.Document

/-!
# Reading back the tokens of a JSON text

Strings and whole numbers are read back from what is written for them, whatever follows a string,
and whatever follows a number that does not go on with it.

* `Json.Ends` is what may follow a number, `Json.Escaped` the ways in which a character is written;
* `Json.readSimple_ofInt` reads a whole number, of no more digits than the reader takes;
* `Json.readString_escape` reads a character, `Json.readString_string` a string.
-/

namespace BlockArchive

/-! ### Digits -/

@[simp] theorem Number.natOf_decimalDigits (n : Nat) : natOf (Text.decimalDigits n) = n := by
  have hstep : (fun (n : Nat) (c : Char) => n * 10 + (c.toNat - 48)) =
      fun n c => 10 * n + (c.toNat - '0'.toNat) := by
    funext n c
    rw [Nat.mul_comm]
    rfl
  rw [natOf, hstep, ← Nat.ofDigitChars_eq_foldl]
  exact Nat.ofDigitChars_ten_toDigits

namespace Text

theorem isDigit_of_mem_decimalDigits {n : Nat} {c : Char} (h : c ∈ decimalDigits n) :
    c.isDigit = true :=
  Nat.isDigit_of_mem_toDigits (by decide) (by decide) h

theorem length_decimalDigits_le {n k : Nat} (hk : 0 < k) :
    (decimalDigits n).length ≤ k ↔ n < Nat.pow 10 k :=
  Nat.length_toDigits_le_iff (by decide) hk

theorem decimalDigits_eq_cons (n : Nat) :
    ∃ c cs, decimalDigits n = c :: cs ∧ (c = '0' → cs = []) := by
  induction n using Nat.base_induction 10 (by decide) with
  | single m hm => exact ⟨m.digitChar, [], Nat.toDigits_of_lt_base hm, fun _ => rfl⟩
  | digit m k hk hm ih =>
    obtain ⟨c, cs, hcs, hzero⟩ := ih
    have happend : decimalDigits (10 * m + k) = c :: (cs ++ [k.digitChar]) := by
      rw [decimalDigits, ← Nat.toDigits_append_toDigits (by decide) hm hk,
        Nat.toDigits_of_lt_base hk, ← decimalDigits, hcs, List.cons_append]
    refine ⟨c, _, happend, fun hc => ?_⟩
    -- a leading zero makes what stands before the last digit zero
    have hm0 : m = 0 := by
      rw [← Number.natOf_decimalDigits m, hcs, hzero hc, hc]
      rfl
    omega

end Text

theorem Document.isTooLong_eq_false_iff {n : Int} :
    isTooLong n = false ↔ n.natAbs < Nat.pow 10 Json.digitLimit := by
  rw [isTooLong, decide_eq_false_iff_not, Nat.not_lt, Text.length_decimalDigits_le (by decide)]

/-- The first number of too many digits to be written. -/
@[irreducible]
def unwritable : Nat := Nat.pow 10 Json.digitLimit

theorem Document.isTooLong_unwritable : isTooLong unwritable = true := by decide +kernel

theorem Value.ofPoints_map_char (cs : List Char) :
    ofPoints (cs.map .char) = .string (String.ofList cs) := by
  have hany : ¬ (cs.map Text.Point.char).any Text.Point.isHalf = true := by
    simp [Text.Point.isHalf]
  rw [ofPoints, dif_neg hany, List.map_map]
  exact congrArg (fun cs => Value.string (String.ofList cs)) (List.map_id cs)

namespace Json

/-! ### Numbers -/

/-- A character that would go on with a whole number. -/
def goesOn (c : Char) : Bool := c.isDigit || c == '.' || c == 'e' || c == 'E'

/-- What follows does not go on with a whole number. -/
def Ends (rest : List Char) : Prop := ∀ c, rest.head? = some c → goesOn c = false

theorem ends_nil : Ends [] := nofun

theorem ends_cons {c : Char} {rest : List Char} (h : goesOn c = false) : Ends (c :: rest) := by
  rintro _ ⟨⟩
  exact h

theorem readNumberTail_of_ends (negative : Bool) {digits rest : List Char}
    (hlength : digits.length ≤ digitLimit) (hrest : Ends rest) :
    readNumberTail negative digits rest =
      .ok (.int (Binary64.signed negative (Number.natOf digits)), rest) := by
  have hlong : ¬ digitLimit < digits.length := Nat.not_lt.2 hlength
  cases rest with
  | nil => simp [readNumberTail, readFraction, Number.readExponent, hlong]
  | cons c rest =>
    have hc := hrest c rfl
    simp only [goesOn, Bool.or_eq_false_iff, beq_eq_false_iff_ne] at hc
    obtain ⟨⟨⟨-, hpoint⟩, he⟩, hE⟩ := hc
    have hfraction : readFraction (c :: rest) = (none, c :: rest) := by
      unfold readFraction
      split
      · rename_i heq
        exact absurd (List.cons.inj heq).1 hpoint
      · rfl
    simp [readNumberTail, hfraction, Number.readExponent, he, hE, hlong]

theorem span_digits {cs rest : List Char} (hcs : ∀ c ∈ cs, c.isDigit = true) (hrest : Ends rest) :
    (cs ++ rest).takeWhile Char.isDigit = cs ∧ (cs ++ rest).dropWhile Char.isDigit = rest := by
  induction cs with
  | nil =>
    cases rest with
    | nil => exact ⟨rfl, rfl⟩
    | cons c rest =>
      have hc : c.isDigit = false := by
        have := hrest c rfl
        simp only [goesOn, Bool.or_eq_false_iff] at this
        exact this.1.1.1
      simp [hc]
  | cons c cs ih =>
    obtain ⟨htake, hdrop⟩ := ih fun c hc => hcs c (List.mem_cons_of_mem _ hc)
    simp [hcs c List.mem_cons_self, htake, hdrop]

theorem readNumber_decimalDigits (start : List Char) (negative : Bool) {n : Nat}
    (hn : n < Nat.pow 10 digitLimit) {rest : List Char} (hrest : Ends rest) :
    readNumber start negative (Text.decimalDigits n ++ rest) =
      .ok (.int (Binary64.signed negative n), rest) := by
  have hlength := (Text.length_decimalDigits_le (k := digitLimit) (by decide)).2 hn
  obtain ⟨c, cs, hcs, hzero⟩ := Text.decimalDigits_eq_cons n
  have hdigits : ∀ d ∈ c :: cs, d.isDigit = true := fun d hd =>
    Text.isDigit_of_mem_decimalDigits (hcs ▸ hd)
  have hvalue : Number.natOf (c :: cs) = n := by rw [← hcs, Number.natOf_decimalDigits]
  rw [hcs] at hlength ⊢
  rw [List.cons_append]
  -- a zero stands alone: digits behind it would not be read
  by_cases hc : c = '0'
  · obtain rfl := hc
    obtain rfl := hzero rfl
    rw [List.nil_append, readNumber, readNumberTail_of_ends negative hlength hrest, hvalue]
  · obtain ⟨htake, hdrop⟩ := span_digits (fun d hd => hdigits d (List.mem_cons_of_mem _ hd)) hrest
    unfold readNumber
    split
    · rename_i heq
      exact absurd (List.cons.inj heq).1 hc
    · rename_i heq
      obtain ⟨rfl, rfl⟩ := List.cons.inj heq
      rw [if_pos (hdigits c List.mem_cons_self), htake, hdrop,
        readNumberTail_of_ends negative hlength hrest, hvalue]
    · rename_i heq
      cases heq

theorem readSimple_digit {c : Char} (hc : c.isDigit = true) (cs : List Char) :
    readSimple (c :: cs) = readNumber (c :: cs) false (c :: cs) := by
  have hne : ∀ d : Char, d.isDigit = false → ¬ d = c := by
    rintro d hd rfl
    rw [hd] at hc
    cases hc
  have hwords : (words.findSome? fun w =>
      (afterWord? w.1 (c :: cs)).map fun rest => (w.2, rest)) = none := by
    simp [words, afterWord?, hne]
  rw [readSimple, hwords]
  intro rest heq
  exact hne '-' rfl (List.cons.inj heq).1.symm

theorem readSimple_minus {c : Char} (hc : c.isDigit = true) (cs : List Char) :
    readSimple ('-' :: c :: cs) = readNumber ('-' :: c :: cs) true (c :: cs) := by
  have hne : ¬ 'I' = c := by
    rintro rfl
    cases hc
  have hwords : (words.findSome? fun w =>
      (afterWord? w.1 ('-' :: c :: cs)).map fun rest => (w.2, rest)) = none := by
    simp [words, afterWord?, hne]
  rw [readSimple, hwords]

/-- A whole number of few enough digits is read back. -/
theorem readSimple_ofInt {n : Int} (hn : Document.isTooLong n = false) {rest : List Char}
    (hrest : Ends rest) : readSimple ((Text.ofInt n).toList ++ rest) = .ok (.int n, rest) := by
  have hlt : n.natAbs < Nat.pow 10 digitLimit := Document.isTooLong_eq_false_iff.1 hn
  obtain ⟨c, cs, hcs, -⟩ := Text.decimalDigits_eq_cons n.natAbs
  have hc : c.isDigit = true := Text.isDigit_of_mem_decimalDigits (hcs ▸ List.mem_cons_self)
  have hread := fun start negative => readNumber_decimalDigits start negative hlt hrest
  rw [hcs, List.cons_append] at hread
  cases n with
  | ofNat n =>
    rw [Text.ofInt, String.toList_ofList, show Text.decimalDigits n = c :: cs from hcs,
      List.cons_append, readSimple_digit hc, hread]
    rfl
  | negSucc n =>
    rw [Text.ofInt, String.toList_ofList, show Text.decimalDigits (n + 1) = c :: cs from hcs,
      List.cons_append, List.cons_append, readSimple_minus hc, hread]
    rfl

/-! ### Strings -/

theorem nameOf_map_char (cs : List Char) : nameOf (cs.map .char) = String.ofList cs := by
  rw [nameOf, List.map_map]
  exact congrArg String.ofList (List.map_id cs)

theorem quad?_hexDigits {n : Nat} (hn : n < 0x10000) :
    ∃ a b c d, Text.hexDigits 4 n = [a, b, c, d] ∧ quad? a b c d = some n := by
  have h0 := (Hex.digit_spec ⟨n / 16 / 16 / 16 % 16, by omega⟩).1
  have h1 := (Hex.digit_spec ⟨n / 16 / 16 % 16, by omega⟩).1
  have h2 := (Hex.digit_spec ⟨n / 16 % 16, by omega⟩).1
  have h3 := (Hex.digit_spec ⟨n % 16, by omega⟩).1
  refine ⟨_, _, _, _, rfl, ?_⟩
  simp only [quad?, h0, h1, h2, h3, Option.some.injEq]
  omega

theorem toNat_valid (c : Char) : c.toNat < 0xd800 ∨ 0xdfff < c.toNat ∧ c.toNat < 0x110000 := c.valid

/-- The escape of a unit is read as the unit, unless it is the first half of a pair. -/
theorem readUnit_hexDigits (letter : List Char) {n : Nat} (hn : n < 0x10000)
    (hhalf : n < 0xd800 ∨ 0xdfff < n) {tail : List Char} (htail : tail ≠ []) :
    readUnit letter (Text.hexDigits 4 n ++ tail) = .ok (.char (Char.ofNat n), 4) := by
  obtain ⟨a, b, c, d, hdigits, hquad⟩ := quad?_hexDigits hn
  have hempty : tail.isEmpty = false := by simpa using htail
  have hunit : unitPoint n = .char (Char.ofNat n) := by
    rw [unitPoint, dif_neg (by omega)]
  rw [hdigits]
  simp only [List.cons_append, List.nil_append, readUnit, hempty, hquad, Bool.false_eq_true,
    ↓reduceIte]
  split
  · rename_i heq
    cases heq
  · rename_i heq
    obtain rfl := Option.some.inj heq
    rw [if_neg (by omega)]
    exact congrArg Except.ok (by rw [hunit])
  · rename_i heq _
    obtain rfl := Option.some.inj heq
    rw [hunit]

theorem readUnit_pair (letter : List Char) {high low : Nat} (hhigh : 0xd800 ≤ high ∧ high < 0xdc00)
    (hlow : 0xdc00 ≤ low ∧ low < 0xe000) {tail : List Char} (htail : tail ≠ []) :
    readUnit letter (Text.hexDigits 4 high ++ (unitEscape low ++ tail)) =
      .ok (.char (pairChar high low), 10) := by
  obtain ⟨a, b, c, d, hdigits, hquad⟩ := quad?_hexDigits (n := high) (by omega)
  obtain ⟨e, f, g, h, hdigits', hquad'⟩ := quad?_hexDigits (n := low) (by omega)
  have hempty : tail.isEmpty = false := by simpa using htail
  rw [unitEscape, hdigits, hdigits']
  simp [readUnit, hquad, hquad', hempty, hhigh, hlow]

theorem readString_backslash {opening rest : List Char} {e : Text.Point} {n : Nat}
    (h : readEscape opening rest = .ok (e, n)) :
    readString opening ('\\' :: rest) =
      (readString opening (rest.drop n)).map fun p => (e :: p.1, p.2) := by
  rw [readString, h]
  rfl

theorem readEscape_unit (opening : List Char) {rest : List Char} {e : Text.Point} {n : Nat}
    (h : readUnit ('u' :: rest) rest = .ok (e, n)) :
    readEscape opening ('u' :: rest) = .ok (e, n + 1) := by
  rw [readEscape, if_pos (beq_self_eq_true _), h]
  rfl

theorem readString_letter (opening : List Char) {letter e : Char} (tail : List Char)
    (hletter : letter ≠ 'u') (h : escaped? letter = some e) :
    readString opening ('\\' :: letter :: tail) =
      (readString opening tail).map fun p => (.char e :: p.1, p.2) :=
  readString_backslash (n := 1) (by simp [readEscape, hletter, h])

/-- How a character stands in a string. -/
inductive Escaped (c : Char) : List Char → Prop where
  /-- A letter behind a backslash. -/
  | letter {letter : Char} (hletter : letter ≠ 'u') (h : escaped? letter = some c) :
    Escaped c ['\\', letter]
  /-- The character itself. -/
  | self (hquote : c ≠ '"') (hslash : c ≠ '\\') (h : 0x20 ≤ c.toNat ∧ c.toNat < 0x7f) :
    Escaped c [c]
  /-- The code as one unit. -/
  | unit (h : c.toNat < 0x10000) : Escaped c (unitEscape c.toNat)
  /-- The code as two units. -/
  | pair (n : Nat) (h : c.toNat = 0x10000 + n) :
    Escaped c (unitEscape (0xd800 + n / 0x400) ++ unitEscape (0xdc00 + n % 0x400))

theorem escaped_escape (c : Char) : Escaped c (escape c) := by
  have hcode : ∀ n, c.toNat = n → Char.ofNat n = c := by
    rintro n rfl
    exact Char.ofNat_toNat c
  unfold escape
  split
  · rename_i h
    rcases Bool.or_eq_true_iff.1 h with h | h
    · obtain rfl := eq_of_beq h
      exact .letter (by decide) rfl
    · obtain rfl := eq_of_beq h
      exact .letter (by decide) rfl
  rename_i hspecial
  iterate 3
    split
    · rename_i h
      obtain rfl := eq_of_beq h
      exact .letter (by decide) rfl
  iterate 2
    split
    · rename_i h
      exact .letter (by decide) (congrArg some (hcode _ (eq_of_beq h)))
  simp only [Bool.or_eq_true, beq_iff_eq, not_or] at hspecial
  split
  · rename_i h
    simp only [Bool.and_eq_true, decide_eq_true_eq] at h
    exact .self hspecial.1 hspecial.2 h
  split
  · rename_i h
    exact .unit h
  · exact .pair _ (by omega)

/-- A character is read back, whatever follows: at least the closing quote does. -/
theorem readString_escape (opening : List Char) (c : Char) {tail : List Char} (htail : tail ≠ []) :
    readString opening (escape c ++ tail) =
      (readString opening tail).map fun p => (.char c :: p.1, p.2) := by
  have hvalid := toNat_valid c
  generalize hcs : escape c = cs
  have hescaped : Escaped c cs := hcs ▸ escaped_escape c
  cases hescaped with
  | letter hletter h => exact readString_letter opening tail hletter h
  | self hquote hslash h =>
    have hcontrol : ¬ c.toNat < 0x20 := by omega
    simp [readString, hquote, hslash, hcontrol]
  | unit h =>
    have hread := readUnit_hexDigits ('u' :: (Text.hexDigits 4 c.toNat ++ tail)) h (by omega) htail
    rw [Char.ofNat_toNat] at hread
    exact readString_backslash (readEscape_unit opening hread)
  | pair n h =>
    rw [List.append_assoc]
    -- the code above the units is split into ten bits for either half of the pair
    have hchar : pairChar (0xd800 + n / 0x400) (0xdc00 + n % 0x400) = c :=
      (congrArg Char.ofNat (by omega)).trans (Char.ofNat_toNat c)
    have hhigh : 0xd800 ≤ 0xd800 + n / 0x400 ∧ 0xd800 + n / 0x400 < 0xdc00 := by omega
    have hlow : 0xdc00 ≤ 0xdc00 + n % 0x400 ∧ 0xdc00 + n % 0x400 < 0xe000 := by omega
    have hread := fun letter => readUnit_pair letter hhigh hlow htail
    rw [hchar] at hread
    exact readString_backslash (readEscape_unit opening (hread _))

/-- A string is read back. -/
theorem readString_string (opening cs rest : List Char) :
    readString opening (cs.flatMap escape ++ '"' :: rest) = .ok (cs.map .char, rest) := by
  induction cs with
  | nil =>
    rw [List.flatMap_nil, List.nil_append, readString, if_pos (beq_self_eq_true _), List.map_nil]
  | cons c cs ih =>
    rw [List.flatMap_cons, List.append_assoc, readString_escape opening c (by simp), ih]
    rfl

end Json

end BlockArchive
