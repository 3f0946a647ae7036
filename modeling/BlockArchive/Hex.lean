import BlockArchive.Bytes
import BlockArchive.Text.Blank

/-!
# Hex text

Bytes are written as pairs of lower-case hex digits. Scripts are written in their own order,
hashes in reversed order. Reading accepts either case and ASCII blanks before, between and after
the pairs.

* `Hex.encode` and `Hex.decode` convert in natural order, and `Hex.decode_encode` says that reading
  undoes writing;
* `Hash.display` writes a hash as it is shown and stored.
-/

namespace BlockArchive.Hex

/-- The lower-case digit of a value below 16. -/
def digit (n : Nat) : Char := if n < 10 then Char.ofNat (48 + n) else Char.ofNat (87 + n)

/-- The value of a hex digit of either case. -/
def value? (c : Char) : Option Nat :=
  if '0' ≤ c ∧ c ≤ '9' then some (c.toNat - 48)
  else if 'a' ≤ c ∧ c ≤ 'f' then some (c.toNat - 87)
  else if 'A' ≤ c ∧ c ≤ 'F' then some (c.toNat - 55)
  else none

/-- The two digits of each byte. -/
def encodeChars : Bytes → List Char
  | [] => []
  | b :: rest => digit (b.toNat / 16) :: digit (b.toNat % 16) :: encodeChars rest

/-- The hex text of bytes, in their order. -/
def encode (b : Bytes) : String := String.ofList (encodeChars b)

/-- Reads pairs of digits from position `pos` on; the error is the position of the character at
which a digit is missing. -/
def decodePairs (pos : Nat) : List Char → Except Nat Bytes
  | [] => .ok []
  | c :: rest =>
    if Text.isAsciiBlank c then decodePairs (pos + 1) rest
    else match value? c with
      | none => .error pos
      | some high => match rest with
        | [] => .error (pos + 1)
        | d :: rest' => match value? d with
          | none => .error (pos + 1)
          | some low => (decodePairs (pos + 2) rest').map (UInt8.ofNat (high * 16 + low) :: ·)

/-- The position of the first character beyond ASCII. -/
def firstNonAscii? (cs : List Char) : Option Nat := cs.findIdx? fun c => 128 ≤ c.toNat

/-- Reads a hex text; the error is the position of the first character beyond ASCII if there is
one, else of the first character that breaks the pattern. -/
def decode (s : String) : Except Nat Bytes :=
  match firstNonAscii? s.toList with
  | some p => .error p
  | none => decodePairs 0 s.toList

/-! ### Reading what was written -/

/-- A digit is ASCII and no blank, and has the value that it was written for. -/
theorem digit_spec : ∀ n : Fin 16,
    value? (digit n) = some n.val ∧ Text.isAsciiBlank (digit n) = false ∧
      (digit n).toNat < 128 := by
  decide

theorem decodePairs_encodeChars (pos : Nat) (b : Bytes) :
    decodePairs pos (encodeChars b) = .ok b := by
  induction b generalizing pos with
  | nil => rfl
  | cons x rest ih =>
    have hx := x.toNat_lt
    have high := digit_spec ⟨x.toNat / 16, by omega⟩
    have low := digit_spec ⟨x.toNat % 16, by omega⟩
    have hsum : UInt8.ofNat (x.toNat / 16 * 16 + x.toNat % 16) = x := by
      rw [Nat.mul_comm, Nat.div_add_mod, UInt8.ofNat_toNat]
    simp [encodeChars, decodePairs, high, low, ih, hsum, Except.map]

theorem toNat_lt_of_mem_encodeChars {b : Bytes} {c : Char} (h : c ∈ encodeChars b) :
    c.toNat < 128 := by
  induction b with
  | nil => simp [encodeChars] at h
  | cons x rest ih =>
    have hx := x.toNat_lt
    have high := digit_spec ⟨x.toNat / 16, by omega⟩
    have low := digit_spec ⟨x.toNat % 16, by omega⟩
    rcases List.mem_cons.1 h with rfl | h
    · exact high.2.2
    · rcases List.mem_cons.1 h with rfl | h
      · exact low.2.2
      · exact ih h

theorem decode_encode (b : Bytes) : decode (encode b) = .ok b := by
  have h : firstNonAscii? (encodeChars b) = none := by
    simp only [firstNonAscii?, List.findIdx?_eq_none_iff, decide_eq_false_iff_not]
    intro c hc
    have := toNat_lt_of_mem_encodeChars hc
    omega
  simp [decode, encode, h, decodePairs_encodeChars]

end BlockArchive.Hex

namespace BlockArchive

/-- The form in which hashes are shown and stored: hex text of the bytes in reversed order. -/
def Hash.display (h : Hash) : String := Hex.encode h.bytes.reverse

/-- No two hashes are shown alike. -/
@[simp] theorem Hash.display_inj {a b : Hash} : a.display = b.display ↔ a = b := by
  refine ⟨fun h => ?_, congrArg display⟩
  have hbytes := congrArg Hex.decode h
  simp only [display, Hex.decode_encode, Except.ok.injEq, List.reverse_inj] at hbytes
  obtain ⟨x, hx⟩ := a
  obtain ⟨y, hy⟩ := b
  cases hbytes
  rfl

end BlockArchive
