import BlockArchive.Proofs.Json.Tokens
import Mathlib.Data.List.Induction
import Mathlib.Data.List.TakeWhile

/-!
# The digits of numbers in a JSON text

The reader stops at a whole number of more digits than can be written. So there is none in what it
gives, however deep.

* `Value.Short` says that there is no such number in a value;
* `Json.Gives` says what reading a part gives if it does not stop, and `Json.ShortAt` is what all
  parts give up to an amount of fuel;
* `Json.parseChars_short` is about whole texts.
-/

namespace BlockArchive

theorem Number.natOf_lt {digits : List Char} (h : ∀ c ∈ digits, c.isDigit = true) {k : Nat}
    (hlength : digits.length ≤ k) : natOf digits < Nat.pow 10 k := by
  refine Nat.lt_of_lt_of_le ?_ (Nat.pow_le_pow_right (Nat.succ_pos 9) hlength)
  clear hlength
  -- from the end, where the digit of least weight stands
  induction digits using List.reverseRecOn with
  | nil => exact Nat.one_pos
  | append_singleton ds c ih =>
    have hds := ih fun d hd => h d (List.mem_append_left _ hd)
    have hc : c.toNat ≤ 57 := by
      have hdigit := h c (List.mem_append_right _ List.mem_cons_self)
      simp only [Char.isDigit, Bool.and_eq_true, decide_eq_true_eq, UInt32.le_iff_toNat_le]
        at hdigit
      exact hdigit.2
    have hstep : natOf (ds ++ [c]) = natOf ds * 10 + (c.toNat - 48) := by
      simp only [natOf, List.foldl_append, List.foldl_cons, List.foldl_nil]
    rw [hstep, List.length_append, List.length_singleton, Nat.pow_succ]
    omega

namespace Document

theorem isTooLong_signed {n : Nat} (h : n < Nat.pow 10 Json.digitLimit) (negative : Bool) :
    isTooLong (Binary64.signed negative n) = false := by
  rw [isTooLong_eq_false_iff, Binary64.signed]
  cases negative with
  | true => rwa [if_pos rfl, Int.natAbs_neg, Int.natAbs_natCast]
  | false => rwa [if_neg Bool.false_ne_true, Int.natAbs_natCast]

theorem anyLong_eq (xs : List Value) : anyLong xs = xs.any hasLongInteger := by
  induction xs with
  | nil => rfl
  | cons x xs ih => rw [anyLong, ih, List.any_cons]

theorem anyFieldLong_eq (fields : List (String × Value)) :
    anyFieldLong fields = fields.any fun f => hasLongInteger f.2 := by
  induction fields with
  | nil => rfl
  | cons f fields ih => rw [anyFieldLong, ih, List.any_cons]

end Document

namespace Value

/-- No whole number in the value has more digits than can be written. -/
def Short (v : Value) : Prop := Document.hasLongInteger v = false

theorem short_list {xs : List Value} : (list xs).Short ↔ ∀ x ∈ xs, x.Short := by
  simp only [Short, Document.hasLongInteger, Document.anyLong_eq, List.any_eq_false,
    Bool.not_eq_true]

theorem short_mapping {fields : List (String × Value)} :
    (mapping fields).Short ↔ ∀ f ∈ fields, f.2.Short := by
  simp only [Short, Document.hasLongInteger, Document.anyFieldLong_eq, List.any_eq_false,
    Bool.not_eq_true]

theorem short_ofPoints (points : List Text.Point) : (ofPoints points).Short := by
  unfold ofPoints
  split <;> rfl

theorem short_setField {fields : List (String × Value)} (h : ∀ f ∈ fields, f.2.Short)
    (name : String) {v : Value} (hv : v.Short) : ∀ f ∈ setField fields name v, f.2.Short := by
  intro f hf
  unfold setField at hf
  split at hf
  · obtain ⟨g, hg, rfl⟩ := List.mem_map.1 hf
    split
    · exact hv
    · exact h g hg
  · rcases List.mem_append.1 hf with hf | hf
    · exact h f hf
    · obtain rfl := List.mem_singleton.1 hf
      exact hv

end Value

namespace Json

variable {α β : Type}

/-- Whatever the part gives satisfies `Q`. -/
def Gives (Q : α → Prop) (r : Part α) : Prop := ∀ x rest, r = .ok (x, rest) → Q x

variable {Q : α → Prop} {P : β → Prop}

theorem Gives.ok {x : α} {rest : List Char} (h : Q x) : Gives Q (.ok (x, rest)) := by
  rintro _ _ ⟨⟩
  exact h

theorem Gives.error (stop : Stop) : Gives Q (.error stop) := nofun

theorem Gives.map {r : Part α} (h : Gives Q r) {f : α → β} (hf : ∀ x, Q x → P (f x)) :
    Gives P (r.map fun p => (f p.1, p.2)) := by
  cases r with
  | ok p => exact .ok (hf p.1 (h p.1 p.2 rfl))
  | error stop => exact .error stop

theorem readNumberTail_short (negative : Bool) {digits : List Char}
    (hdigits : ∀ c ∈ digits, c.isDigit = true) (rest : List Char) :
    Gives Value.Short (readNumberTail negative digits rest) := by
  unfold readNumberTail
  dsimp only
  split
  · split_ifs with hlong
    · exact .error _
    · have hlt := Number.natOf_lt hdigits (Nat.le_of_not_lt hlong)
      exact .ok (Document.isTooLong_signed hlt negative)
  · exact .ok rfl

theorem readNumber_short (start : List Char) (negative : Bool) (cs : List Char) :
    Gives Value.Short (readNumber start negative cs) := by
  unfold readNumber
  split
  · exact readNumberTail_short negative (List.forall_mem_singleton.2 rfl) _
  · rename_i c rest _
    split
    · rename_i hc
      refine readNumberTail_short negative (List.forall_mem_cons.2 ⟨hc, fun d hd => ?_⟩) _
      exact List.mem_takeWhile_imp hd
    · exact .error _
  · exact .error _

theorem readSimple_short (cs : List Char) : Gives Value.Short (readSimple cs) := by
  have hwords : ∀ w ∈ words, w.2.Short := by
    simp [words, Value.Short, Document.hasLongInteger]
  unfold readSimple
  split
  · rename_i found hfound
    obtain ⟨w, hw, hword⟩ := List.exists_of_findSome?_eq_some hfound
    obtain ⟨rest, -, rfl⟩ := Option.map_eq_some_iff.1 hword
    exact .ok (hwords w hw)
  · split
    · exact readNumber_short _ _ _
    · exact readNumber_short _ _ _

/-! ### Values, items and fields -/

/-- What is read with so much fuel holds no number that is too long. -/
structure ShortAt (fuel : Nat) : Prop where
  value : ∀ room cs, Gives Value.Short (readValue fuel room cs)
  items : ∀ room cs, Gives (∀ x ∈ ·, Value.Short x) (readItems fuel room cs)
  fields : ∀ room fields cs, (∀ f ∈ fields, f.2.Short) →
    Gives (∀ f ∈ ·, Value.Short f.2) (readFields fuel room fields cs)

namespace ShortAt

variable {fuel : Nat} (h : ShortAt fuel)
include h

theorem readValue (room : Nat) (cs : List Char) :
    Gives Value.Short (readValue (fuel + 1) room cs) := by
  unfold Json.readValue
  split
  · rename_i rest
    have hstring : Gives (fun _ => True) (readString ('"' :: rest) rest) := fun _ _ _ => trivial
    exact hstring.map fun points _ => Value.short_ofPoints points
  · split
    · exact .error _
    · split
      · exact .ok rfl
      · exact (h.items _ _).map fun xs => Value.short_list.2
  · split
    · exact .error _
    · split
      · exact .ok rfl
      · exact (h.fields _ [] _ nofun).map fun fields => Value.short_mapping.2
  · exact readSimple_short cs

theorem readItems (room : Nat) (cs : List Char) :
    Gives (∀ x ∈ ·, Value.Short x) (readItems (fuel + 1) room cs) := by
  unfold Json.readItems
  split
  · exact .error _
  · rename_i item rest hitem
    have hshort := h.value room cs item rest hitem
    split
    · exact .ok (List.forall_mem_singleton.2 hshort)
    · exact (h.items _ _).map fun xs hxs => List.forall_mem_cons.2 ⟨hshort, hxs⟩
    · exact .error _

theorem readFields (room : Nat) (fields : List (String × Value)) (cs : List Char)
    (hfields : ∀ f ∈ fields, f.2.Short) :
    Gives (∀ f ∈ ·, Value.Short f.2) (readFields (fuel + 1) room fields cs) := by
  unfold Json.readFields
  split
  · split
    · exact .error _
    · split
      · split
        · exact .error _
        · rename_i v rest hvalue
          have hset := fun name => Value.short_setField hfields name (h.value _ _ v rest hvalue)
          dsimp only
          split
          · exact .ok (hset _)
          · exact h.fields _ _ _ (hset _)
          · exact .error _
      · exact .error _
  · exact .error _

end ShortAt

theorem shortAt (fuel : Nat) : ShortAt fuel := by
  induction fuel with
  | zero =>
    refine ⟨fun room cs => ?_, fun room cs => ?_, fun room fields cs _ => ?_⟩
    · rw [readValue]
      exact .error _
    · rw [readItems]
      exact .error _
    · rw [readFields]
      exact .error _
  | succ fuel ih => exact ⟨ih.readValue, ih.readItems, ih.readFields⟩

/-- **No number of a JSON text has more digits than can be written.** -/
theorem parseChars_short {cs : List Char} {v : Value} (h : parseChars cs = .ok v) : v.Short := by
  unfold parseChars parseWithin at h
  split at h
  · cases h
  · split at h
    · cases h
    · cases h
    · cases h
    · rename_i w rest hread
      dsimp only at h
      split at h
      · obtain rfl := Except.ok.inj h
        exact (shortAt _).value _ _ w rest hread
      · cases h

end Json

end BlockArchive
