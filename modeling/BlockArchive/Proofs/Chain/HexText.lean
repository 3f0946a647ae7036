import BlockArchive.Proofs.Chain.Fixture
import BlockArchive.Proofs.Chain.Reading

/-!
# Spellings of hex text

Hex text may be written in either case and with blanks between its pairs of digits. What is read of
it does not depend on that, and written out again it has its normal form. The two reversals on the
way of a hash cancel.

* `Hex.normal` is the normal form, and `Hex.encode_of_decode` says that it is what comes out;
* `Hex.Respelled` relates two spellings of the same pairs, of which `Hex.decode_respelled` reads the
  same;
* `Value.toBytes_normal`, `Value.toHash_normal` and `Value.Respelled` are the same for values.
-/

namespace BlockArchive

/-! ### Hex text -/

namespace Hex

/-- The text without ASCII blanks and in lower case. -/
def normal (s : String) : String :=
  String.ofList ((s.toList.filter fun c => !Text.isAsciiBlank c).map Char.toLower)

/-- A hex digit is no blank and stands for the value whose digit it is in lower case. -/
theorem value?_spec {c : Char} {n : Nat} (h : value? c = some n) :
    n < 16 ∧ digit n = c.toLower ∧ Text.isAsciiBlank c = false ∧ c.toNat < 128 := by
  have hascii : c.toNat < 128 := by
    simp only [value?, Char.le_def, UInt32.le_iff_toNat_le] at h
    split_ifs at h with h1 h2 h3
    · exact Nat.lt_of_le_of_lt h1.2 (by decide)
    · exact Nat.lt_of_le_of_lt h2.2 (by decide)
    · exact Nat.lt_of_le_of_lt h3.2 (by decide)
  have hall : ∀ k : Fin 128, ∀ m ∈ value? (Char.ofNat k), m < 16 ∧
      digit m = (Char.ofNat k).toLower ∧ Text.isAsciiBlank (Char.ofNat k) = false := by
    decide
  have hc := hall ⟨c.toNat, hascii⟩ n
  rw [Char.ofNat_toNat] at hc
  obtain ⟨hlt, hdigit, hblank⟩ := hc h
  exact ⟨hlt, hdigit, hblank, hascii⟩

theorem encodeChars_pair {high low : Nat} (hhigh : high < 16) (hlow : low < 16) (rest : Bytes) :
    encodeChars (UInt8.ofNat (high * 16 + low) :: rest) =
      digit high :: digit low :: encodeChars rest := by
  have hbyte : (UInt8.ofNat (high * 16 + low)).toNat = high * 16 + low := by
    rw [UInt8.toNat_ofNat']
    omega
  have hdiv : (high * 16 + low) / 16 = high := by omega
  have hmod : (high * 16 + low) % 16 = low := by omega
  rw [encodeChars, hbyte, hdiv, hmod]

theorem encodeChars_of_decodePairs {pos : Nat} {cs : List Char} {b : Bytes}
    (h : decodePairs pos cs = .ok b) :
    encodeChars b = (cs.filter fun c => !Text.isAsciiBlank c).map Char.toLower := by
  fun_induction decodePairs pos cs generalizing b with
  | case1 =>
    obtain rfl := Except.ok.inj h
    rfl
  | case2 pos c rest hblank ih =>
    rw [List.filter_cons_of_neg (by simp [hblank])]
    exact ih h
  | case6 pos c hblank high hhigh d rest low hlow ih =>
    cases hrest : decodePairs (pos + 2) rest with
    | error p =>
      rw [hrest] at h
      cases h
    | ok bs =>
      rw [hrest] at h
      obtain rfl := Except.ok.inj h
      obtain ⟨hlt, hdigit, hblank, -⟩ := value?_spec hhigh
      obtain ⟨hlt', hdigit', hblank', -⟩ := value?_spec hlow
      rw [encodeChars_pair hlt hlt', List.filter_cons_of_pos (by simp [hblank]),
        List.filter_cons_of_pos (by simp [hblank']), List.map_cons, List.map_cons, hdigit, hdigit',
        ih hrest]
  | case3 | case4 | case5 => cases h

/-- **What was read is written in normal form.** -/
theorem encode_of_decode {s : String} {b : Bytes} (h : decode s = .ok b) : encode b = normal s := by
  unfold decode at h
  split at h
  · cases h
  · rw [encode, normal, encodeChars_of_decodePairs h]

/-! ### Two spellings -/

/-- Two spellings of the same pairs of digits: the digits differ in case at most, and blanks stand
before, between and after the pairs. -/
inductive Respelled : List Char → List Char → Prop where
  /-- There are no pairs left. -/
  | nil : Respelled [] []
  /-- A blank in the first. -/
  | blankLeft {c : Char} {cs ds : List Char} (hc : Text.isAsciiBlank c = true)
    (rest : Respelled cs ds) : Respelled (c :: cs) ds
  /-- A blank in the second. -/
  | blankRight {d : Char} {cs ds : List Char} (hd : Text.isAsciiBlank d = true)
    (rest : Respelled cs ds) : Respelled cs (d :: ds)
  /-- A pair in both. -/
  | pair {c c' d d' : Char} {high low : Nat} {cs ds : List Char} (hc : value? c = some high)
    (hd : value? d = some high) (hc' : value? c' = some low) (hd' : value? d' = some low)
    (rest : Respelled cs ds) : Respelled (c :: c' :: cs) (d :: d' :: ds)

theorem isAsciiBlank_ascii {c : Char} (h : Text.isAsciiBlank c = true) : c.toNat < 128 := by
  simp only [Text.isAsciiBlank, Bool.or_eq_true, beq_iff_eq, Bool.and_eq_true,
    decide_eq_true_eq] at h
  obtain rfl | h := h
  · decide
  · omega

theorem Respelled.symm {cs ds : List Char} (h : Respelled cs ds) : Respelled ds cs := by
  induction h with
  | nil => exact .nil
  | blankLeft hc _ ih => exact .blankRight hc ih
  | blankRight hd _ ih => exact .blankLeft hd ih
  | pair hc hd hc' hd' _ ih => exact .pair hd hc hd' hc' ih

theorem Respelled.ascii {cs ds : List Char} (h : Respelled cs ds) : ∀ c ∈ cs, c.toNat < 128 := by
  induction h with
  | nil => exact nofun
  | blankLeft hc _ ih => exact List.forall_mem_cons.2 ⟨isAsciiBlank_ascii hc, ih⟩
  | blankRight _ _ ih => exact ih
  | pair hc _ hc' _ _ ih =>
    exact List.forall_mem_cons.2 ⟨(value?_spec hc).2.2.2,
      List.forall_mem_cons.2 ⟨(value?_spec hc').2.2.2, ih⟩⟩

theorem Respelled.decodePairs {cs ds : List Char} (h : Respelled cs ds) (p q : Nat) :
    ∃ b, Hex.decodePairs p cs = .ok b ∧ Hex.decodePairs q ds = .ok b := by
  induction h generalizing p q with
  | nil => exact ⟨[], rfl, rfl⟩
  | blankLeft hc _ ih =>
    obtain ⟨b, hcs, hds⟩ := ih (p + 1) q
    exact ⟨b, by rw [Hex.decodePairs, if_pos hc, hcs], hds⟩
  | blankRight hd _ ih =>
    obtain ⟨b, hcs, hds⟩ := ih p (q + 1)
    exact ⟨b, hcs, by rw [Hex.decodePairs, if_pos hd, hds]⟩
  | @pair _ _ _ _ high low _ _ hc hd hc' hd' _ ih =>
    obtain ⟨b, hcs, hds⟩ := ih (p + 2) (q + 2)
    refine ⟨UInt8.ofNat (high * 16 + low) :: b, ?_, ?_⟩
    · simp [Hex.decodePairs, (value?_spec hc).2.2.1, hc, hc', hcs, Except.map]
    · simp [Hex.decodePairs, (value?_spec hd).2.2.1, hd, hd', hds, Except.map]

theorem decode_of_ascii {s : String} (h : ∀ c ∈ s.toList, c.toNat < 128) :
    decode s = Hex.decodePairs 0 s.toList := by
  have hnone : firstNonAscii? s.toList = none := by
    simp only [firstNonAscii?, List.findIdx?_eq_none_iff, decide_eq_false_iff_not]
    intro c hc
    have := h c hc
    omega
  rw [decode, hnone]

theorem decode_respelled {s t : String} (h : Respelled s.toList t.toList) :
    decode s = decode t := by
  obtain ⟨b, hs, ht⟩ := h.decodePairs 0 0
  rw [decode_of_ascii h.ascii, decode_of_ascii h.symm.ascii, hs, ht]

end Hex

/-! ### Values -/

namespace Value

/-- Bytes are read of a text, and its normal form is what they are written as. -/
theorem toBytes_normal {v : Value} {b : Bytes} (h : v.toBytes = .ok b) :
    ∃ s, v = .string s ∧ Hex.encode b = Hex.normal s := by
  cases v with
  | string s => exact ⟨s, rfl, Hex.encode_of_decode (Except.ok_of_mapError h)⟩
  | _ => cases h

/-- A hash is read of a text, and is shown in its normal form. -/
theorem toHash_normal {v : Value} {hash : Hash} (h : v.toHash = .ok hash) :
    ∃ s, v = .string s ∧ hash.display = Hex.normal s := by
  obtain ⟨shown, hshown, h⟩ := Except.bind_ok h
  obtain ⟨s, rfl, hs⟩ := toBytes_normal hshown
  refine ⟨s, rfl, ?_⟩
  unfold Hash.ofBytes? at h
  split_ifs at h
  obtain rfl := Except.ok.inj h
  -- reversed when it was read, and again when it is shown
  rw [Hash.display, List.reverse_reverse, hs]

/-- Two values that are the same, or two spellings of the same hex text. -/
def Respelled (v w : Value) : Prop :=
  v = w ∨ ∃ s t, v = .string s ∧ w = .string t ∧ Hex.Respelled s.toList t.toList

theorem Respelled.toBytes {v w : Value} (h : v.Respelled w) {b : Bytes} (hv : v.toBytes = .ok b) :
    w.toBytes = .ok b := by
  obtain rfl | ⟨s, t, rfl, rfl, hst⟩ := h
  · exact hv
  · have hs := Except.ok_of_mapError hv
    rw [Hex.decode_respelled hst] at hs
    rw [Value.toBytes, hs]
    rfl

theorem Respelled.toHash {v w : Value} (h : v.Respelled w) {hash : Hash}
    (hv : v.toHash = .ok hash) : w.toHash = .ok hash := by
  obtain ⟨shown, hshown, hv⟩ := Except.bind_ok hv
  rw [Value.toHash, h.toBytes hshown]
  -- the fault of a hash of another length tells the text, but there is none
  cases hbytes : Hash.ofBytes? shown.reverse with
  | none =>
    rw [hbytes] at hv
    cases hv
  | some x =>
    rw [hbytes] at hv
    simpa [hbytes, bind, Except.bind] using hv

end Value

end BlockArchive
