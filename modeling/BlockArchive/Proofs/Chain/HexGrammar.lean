import BlockArchive.Proofs.Chain.HexText

/-!
# Which texts are hex

A text is hex if its digits stand in pairs, with blanks before, between and after the pairs only.
Exactly these texts are read, and any other is refused with a report of its own. Reading undoes
writing, and writing undoes reading up to case and blanks; the same holds of hashes, which are shown
in reversed order and have a length of their own.

* `Hex.Paired` is the grammar, and `Hex.decode_ok_iff` says that its texts are read and no others;
* `Value.toBytes_error` and `Value.toHash_error_iff` say how the others are refused;
* `Hex.codec_exact` puts together what holds of all texts, all bytes and all hashes.
-/

namespace BlockArchive

/-- The fault is a problem of a category, reported under a code. -/
def Fault.Reports (f : Fault) (category : Category) (code : String) : Prop :=
  ∃ p, f = .problem p ∧ p.category = category ∧ p.code = .string code

namespace Hex

/-! ### The grammar -/

/-- The hex digits of either case. -/
def digits : List Char :=
  ['0', '1', '2', '3', '4', '5', '6', '7', '8', '9', 'a', 'b', 'c', 'd', 'e', 'f', 'A', 'B', 'C',
    'D', 'E', 'F']

/-- Space, tab, line feed, vertical tab, form feed and carriage return. -/
def blanks : List Char := [' ', '\t', '\n', '\x0b', '\x0c', '\r']

/-- Pairs of adjacent digits, with blanks before, between and after them. -/
inductive Paired : List Char → Prop where
  /-- There is nothing left. -/
  | nil : Paired []
  /-- A blank. -/
  | blank {c : Char} {cs : List Char} (hc : c ∈ blanks) (rest : Paired cs) : Paired (c :: cs)
  /-- A pair. -/
  | pair {c d : Char} {cs : List Char} (hc : c ∈ digits) (hd : d ∈ digits) (rest : Paired cs) :
    Paired (c :: d :: cs)

/-- What holds of all ASCII characters can be seen of their code points. -/
theorem of_ascii (P : Char → Prop) (h : ∀ k : Fin 128, P (Char.ofNat k)) {c : Char}
    (hc : c.toNat < 128) : P c := by
  have hk := h ⟨c.toNat, hc⟩
  rwa [Char.ofNat_toNat] at hk

theorem mem_digits_iff {c : Char} : c ∈ digits ↔ ∃ n, value? c = some n := by
  rw [← Option.isSome_iff_exists]
  constructor
  · have hall : digits.all (fun d => (value? d).isSome) = true := by decide
    exact List.all_eq_true.1 hall c
  · intro h
    obtain ⟨n, hn⟩ := Option.isSome_iff_exists.1 h
    refine of_ascii (fun d => (value? d).isSome = true → d ∈ digits) ?_ (value?_spec hn).2.2.2 h
    decide +kernel

theorem mem_blanks_iff {c : Char} : c ∈ blanks ↔ Text.isAsciiBlank c = true := by
  constructor
  · have hall : blanks.all Text.isAsciiBlank = true := by decide
    exact List.all_eq_true.1 hall c
  · intro h
    refine of_ascii (fun d => Text.isAsciiBlank d = true → d ∈ blanks) ?_ (isAsciiBlank_ascii h) h
    decide +kernel

theorem Paired.respelled {cs : List Char} (h : Paired cs) : Respelled cs cs := by
  induction h with
  | nil => exact .nil
  | blank hc _ ih =>
    have hblank := mem_blanks_iff.1 hc
    exact .blankLeft hblank (.blankRight hblank ih)
  | pair hc hd _ ih =>
    obtain ⟨high, hhigh⟩ := mem_digits_iff.1 hc
    obtain ⟨low, hlow⟩ := mem_digits_iff.1 hd
    exact .pair hhigh hhigh hlow hlow ih

theorem paired_of_decodePairs {pos : Nat} {cs : List Char} {b : Bytes}
    (h : decodePairs pos cs = .ok b) : Paired cs := by
  fun_induction decodePairs pos cs generalizing b with
  | case1 => exact .nil
  | case2 pos c rest hblank ih => exact .blank (mem_blanks_iff.2 hblank) (ih h)
  | case6 pos c hblank high hhigh d rest low hlow ih =>
    cases hrest : decodePairs (pos + 2) rest with
    | error p =>
      rw [hrest] at h
      cases h
    | ok bs =>
      exact .pair (mem_digits_iff.2 ⟨high, hhigh⟩) (mem_digits_iff.2 ⟨low, hlow⟩) (ih hrest)
  | case3 | case4 | case5 => cases h

/-- **The texts of the grammar are read, and no others.** -/
theorem decode_ok_iff {s : String} : (∃ b, decode s = .ok b) ↔ Paired s.toList := by
  constructor
  · rintro ⟨b, h⟩
    unfold decode at h
    split at h
    · cases h
    · exact paired_of_decodePairs h
  · intro h
    obtain ⟨b, hb, -⟩ := h.respelled.decodePairs 0 0
    exact ⟨b, by rw [decode_of_ascii h.respelled.ascii, hb]⟩

theorem encode_injective : Function.Injective encode := by
  intro a b h
  have hread := congrArg decode h
  rw [decode_encode, decode_encode] at hread
  exact Except.ok.inj hread

end Hex

/-! ### How texts are refused -/

namespace Value

theorem toBytes_ok_iff {s : String} {b : Bytes} :
    (string s).toBytes = .ok b ↔ Hex.decode s = .ok b := by
  refine ⟨Except.ok_of_mapError, fun h => ?_⟩
  rw [toBytes, h]
  rfl

/-- A text that is not read is no hex; the report tells its first 80 characters. -/
theorem toBytes_error {s : String} {f : Fault} (h : (string s).toBytes = .error f) :
    ∃ why, f = .problem (.hex why (String.ofList (s.toList.take 80))) := by
  rw [toBytes] at h
  cases hread : Hex.decode s with
  | ok b =>
    rw [hread] at h
    cases h
  | error position =>
    rw [hread] at h
    exact ⟨_, (Except.error.inj h).symm⟩

theorem toHash_ok_iff {v : Value} {hash : Hash} :
    v.toHash = .ok hash ↔
      ∃ shown, v.toBytes = .ok shown ∧ shown.length = hashSize ∧ hash.bytes = shown.reverse := by
  obtain ⟨bytes, hbytes⟩ := hash
  cases hshown : v.toBytes with
  | error f => simp [toHash, hshown, bind, Except.bind]
  | ok shown =>
    by_cases hlength : shown.length = hashSize
    · simp [toHash, hshown, Hash.ofBytes?, hlength, bind, Except.bind, eq_comm]
    · simp [toHash, hshown, Hash.ofBytes?, hlength, bind, Except.bind]

/-- What is no hash is no hex, or has not 32 bytes. -/
theorem toHash_error_iff {v : Value} {f : Fault} :
    v.toHash = .error f ↔ v.toBytes = .error f ∨
      ∃ shown, v.toBytes = .ok shown ∧ shown.length ≠ hashSize ∧
        f = .problem (.hashLength shown.length v) := by
  cases hshown : v.toBytes with
  | error g => simp [toHash, hshown, bind, Except.bind]
  | ok shown =>
    by_cases hlength : shown.length = hashSize
    · simp [toHash, hshown, Hash.ofBytes?, hlength, bind, Except.bind]
    · simp only [toHash, hshown, Hash.ofBytes?, List.length_reverse, hlength, bind, Except.bind]
      simp [hlength, eq_comm (a := f)]

end Value

/-! ### Both ways -/

/-- **Hex text is read exactly if it is well formed, and reading undoes writing.** Of all texts
those whose digits stand in pairs are read as bytes, and written again they have their normal form;
any other is refused as no hex. All bytes are read of what they are written as. A text is read as a
hash exactly if its bytes are 32, and is refused for its length where it is hex; a hash that was
read is shown in normal form, and every hash is read of what it is shown as. No two byte strings are
shown alike in reversed order. -/
theorem Hex.codec_exact :
    (∀ s : String,
      ((∃ b, (Value.string s).toBytes = .ok b) ↔ Paired s.toList) ∧
      (∀ b, (Value.string s).toBytes = .ok b → encode b = normal s) ∧
      ∀ f, (Value.string s).toBytes = .error f → f.Reports .validation "INVALID_HEX") ∧
    (∀ b, (Value.string (encode b)).toBytes = .ok b) ∧
    (∀ s : String,
      ((∃ h, (Value.string s).toHash = .ok h) ↔
        ∃ b, (Value.string s).toBytes = .ok b ∧ b.length = 32) ∧
      (∀ h, (Value.string s).toHash = .ok h → h.display = normal s) ∧
      ∀ f, (Value.string s).toHash = .error f →
        (Value.string s).toBytes = .error f ∧ f.Reports .validation "INVALID_HEX" ∨
        (∃ b, (Value.string s).toBytes = .ok b ∧ b.length ≠ 32) ∧
          f.Reports .validation "INVALID_HASH_LENGTH") ∧
    (∀ h : Hash, (Value.string h.display).toHash = .ok h) ∧
    Function.Injective fun b : Bytes => encode b.reverse := by
  have hrefused (s : String) (f : Fault) (h : (Value.string s).toBytes = .error f) :
      f.Reports .validation "INVALID_HEX" := by
    obtain ⟨why, rfl⟩ := Value.toBytes_error h
    exact ⟨_, rfl, rfl, rfl⟩
  refine ⟨fun s => ⟨?_, fun b h => ?_, hrefused s⟩, Value.toBytes_encode,
    fun s => ⟨?_, fun h hread => ?_, fun f h => ?_⟩, Value.toHash_display, fun a b h => ?_⟩
  · simp only [Value.toBytes_ok_iff, decode_ok_iff]
  · exact encode_of_decode (Value.toBytes_ok_iff.1 h)
  · constructor
    · rintro ⟨h, hread⟩
      obtain ⟨shown, hshown, hlength, -⟩ := Value.toHash_ok_iff.1 hread
      exact ⟨shown, hshown, hlength⟩
    · rintro ⟨shown, hshown, hlength⟩
      have hreversed : shown.reverse.length = hashSize := by rw [List.length_reverse, hlength]; rfl
      exact ⟨⟨shown.reverse, hreversed⟩, Value.toHash_ok_iff.2 ⟨shown, hshown, hlength, rfl⟩⟩
  · obtain ⟨_, ⟨⟩, hshown⟩ := Value.toHash_normal hread
    exact hshown
  · rcases Value.toHash_error_iff.1 h with h | ⟨shown, hshown, hlength, rfl⟩
    · exact .inl ⟨h, hrefused s f h⟩
    · exact .inr ⟨⟨shown, hshown, hlength⟩, _, rfl, rfl, rfl⟩
  · exact List.reverse_injective (encode_injective h)

/-- Blanks may stand around a pair of digits and not inside it. -/
example : Hex.decode " 0A\tfF " = .ok [0x0a, 0xff] ∧ Hex.decode "0 Aff" = .error 1 := by
  decide +kernel

end BlockArchive
