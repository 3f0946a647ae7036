import BlockArchive.Ingest.Cache
import BlockArchive.Proofs.Json.Tokens
import BlockArchive.Proofs.Record.WellFormed
import BlockArchive.Record.Construct
import Mathlib.Data.Finset.Card
import Mathlib.Data.List.Induction
import Mathlib.Data.List.Lex

/-!
# Keys of outputs

A key names one output. Its text is the hash as it is shown, which always has the same length, and
the index behind a colon, so no two keys are shown alike. Keys are ordered by the bytes of the hash,
then by the index, and a cache holds under each key what was put last.

* `OutputKey.line_inj` and `OutputKey.before_iff` are about texts and order;
* `Cache.putAll` puts payments one after the other, `Cache.get?_putAll_eq_some_iff` and
  `Cache.size_putAll` say what is then found and how many keys there are;
* `OutputKey.identified` joins them.
-/

namespace BlockArchive

/-! ### Texts -/

namespace Text

theorem decimalDigits_inj {n m : Nat} (h : decimalDigits n = decimalDigits m) : n = m := by
  have hvalue := congrArg Number.natOf h
  rwa [Number.natOf_decimalDigits, Number.natOf_decimalDigits] at hvalue

theorem ofInt_nat_inj {n m : Nat} (h : ofInt n = ofInt m) : n = m :=
  decimalDigits_inj (String.ofList_injective h)

end Text

theorem Hash.length_display (h : Hash) : h.display.toList.length = 64 := by
  rw [String.length_toList, display, Hex.length_encode, List.length_reverse, h.length_eq]
  rfl

namespace OutputKey

theorem text_of_short {k : OutputKey} (h : Document.isTooLong k.index = false) :
    k.text = .ok k.line := by
  rw [text, h, if_neg Bool.false_ne_true]

theorem text_of_long {k : OutputKey} (h : Document.isTooLong k.index = true) :
    k.text = .error .longInteger := by
  rw [text, h, if_pos rfl]

theorem line_inj {a b : OutputKey} : a.line = b.line ↔ a = b := by
  refine ⟨fun h => ?_, congrArg line⟩
  -- both hashes are shown with as many digits, so the colons stand at the same place
  have hchars := congrArg String.toList h
  simp only [line, String.append_assoc, String.toList_append] at hchars
  obtain ⟨hhash, hrest⟩ := List.append_inj hchars (by simp only [Hash.length_display])
  have hhash' : a.hash = b.hash := Hash.display_inj.1 (String.toList_injective hhash)
  have hindex : a.index = b.index :=
    Text.ofInt_nat_inj (String.toList_injective (List.append_cancel_left hrest))
  obtain ⟨x, i⟩ := a
  obtain ⟨y, j⟩ := b
  cases hhash'
  cases hindex
  rfl

end OutputKey

/-! ### Order -/

theorem Bytes.before_iff (a b : Bytes) : a.before b = true ↔ List.Lex (· < ·) a b := by
  induction a generalizing b with
  | nil => cases b <;> simp [before]
  | cons x as ih =>
    cases b with
    | nil => simp [before]
    | cons y bs =>
      rw [before, List.cons_lex_cons_iff]
      by_cases hxy : x < y
      · simp [hxy]
      · by_cases hyx : y < x
        · have hne : x ≠ y := by
            rintro rfl
            exact hxy hyx
          simp [hxy, hyx, hne]
        · have heq : x = y := UInt8.le_antisymm (UInt8.not_lt.1 hyx) (UInt8.not_lt.1 hxy)
          simp [heq, ih]

instance : IsTrans Bytes (List.Lex (· < ·)) := ⟨fun _ _ _ => List.lt_trans⟩

namespace OutputKey

/-- What keys are compared by: the bytes of the hash first. -/
def parts (k : OutputKey) : Bytes × Nat := (k.hash.bytes, k.index)

theorem parts_injective : Function.Injective parts := by
  rintro ⟨⟨x, hx⟩, i⟩ ⟨⟨y, hy⟩, j⟩ h
  cases h
  rfl

theorem before_iff (a b : OutputKey) :
    a.before b = true ↔ Prod.Lex (List.Lex (· < ·)) (· < ·) a.parts b.parts := by
  obtain ⟨⟨x, hx⟩, i⟩ := a
  obtain ⟨⟨y, hy⟩, j⟩ := b
  simp only [before, parts, Prod.lex_def, Hash.mk.injEq]
  by_cases hxy : x = y
  · subst hxy
    have hirrefl : ¬ List.Lex (· < ·) x x := irrefl x
    simp [hirrefl]
  · simp [hxy, Bytes.before_iff]

theorem before_trans {a b c : OutputKey} (h : a.before b = true) (h' : b.before c = true) :
    a.before c = true := by
  rw [before_iff] at *
  exact Prod.Lex.trans h h'

theorem before_self (a : OutputKey) : a.before a = false := by
  rw [Bool.eq_false_iff, Ne, before_iff]
  exact irrefl a.parts

theorem before_asymm {a b : OutputKey} (h : a.before b = true) : b.before a = false := by
  by_contra hba
  have haa := before_trans h (Bool.not_eq_false _ ▸ hba)
  rw [before_self] at haa
  cases haa

theorem before_total {a b : OutputKey} (h : a ≠ b) : a.before b = true ∨ b.before a = true := by
  simp only [before_iff]
  by_contra hneither
  rw [not_or] at hneither
  exact h (parts_injective (Std.Trichotomous.trichotomous _ _ hneither.1 hneither.2))

/-- One of two keys comes before the other, or they are the same, and only one of this. -/
theorem count_before (a b : OutputKey) :
    [a.before b, decide (a = b), b.before a].count true = 1 := by
  by_cases hab : a = b
  · subst hab
    simp [before_self]
  · rcases before_total hab with h | h
    · simp [h, before_asymm h, hab]
    · simp [h, before_asymm h, hab]

end OutputKey

/-! ### Caches -/

theorem Keyed.map_fst_put {κ α : Type} [DecidableEq κ] (key : κ) (x : α)
    (entries : List (κ × α)) :
    (put key x entries).map Prod.fst =
      if key ∈ entries.map Prod.fst then entries.map Prod.fst
      else entries.map Prod.fst ++ [key] := by
  induction entries with
  | nil => simp [put]
  | cons e rest ih =>
    by_cases he : e.1 = key
    · simp [put, he]
    · simp only [put, if_neg he, List.map_cons, ih, List.mem_cons, Ne.symm he, false_or]
      split <;> rfl

namespace Cache

/-- The keys of a cache. -/
def keys (c : Cache) : List OutputKey := c.entries.map Prod.fst

/-- The cache with payments put under keys one after the other. -/
def putAll (c : Cache) (puts : List (OutputKey × Payment)) : Cache :=
  puts.foldl (fun c e => c.put e.1 e.2) c

@[simp] theorem putAll_nil (c : Cache) : c.putAll [] = c := rfl

@[simp] theorem putAll_concat (c : Cache) (puts : List (OutputKey × Payment))
    (e : OutputKey × Payment) : c.putAll (puts ++ [e]) = (c.putAll puts).put e.1 e.2 := by
  simp [putAll]

theorem keys_put (c : Cache) (key : OutputKey) (payment : Payment) :
    (c.put key payment).keys = if key ∈ c.keys then c.keys else c.keys ++ [key] :=
  Keyed.map_fst_put key payment c.entries

/-- Each key stands once, and the keys are those under which something was put. -/
theorem keys_putAll (puts : List (OutputKey × Payment)) :
    (empty.putAll puts).keys.Nodup ∧
      (empty.putAll puts).keys.toFinset = (puts.map Prod.fst).toFinset := by
  induction puts using List.reverseRecOn with
  | nil => exact ⟨List.nodup_nil, rfl⟩
  | append_singleton puts e ih =>
    obtain ⟨hnodup, hkeys⟩ := ih
    have hmem : e.1 ∈ (empty.putAll puts).keys ↔ e.1 ∈ puts.map Prod.fst := by
      rw [← List.mem_toFinset, hkeys, List.mem_toFinset]
    rw [putAll_concat, keys_put, List.map_append, List.toFinset_append, ← hkeys]
    split
    · rename_i hin
      refine ⟨hnodup, ?_⟩
      ext key
      simp only [Finset.mem_union, List.mem_toFinset, List.map_cons, List.map_nil,
        List.mem_singleton]
      exact ⟨.inl, fun h => h.elim id fun h => h ▸ hin⟩
    · rename_i hnew
      refine ⟨List.nodup_append.2 ⟨hnodup, List.nodup_singleton _, ?_⟩, List.toFinset_append⟩
      rintro key hkey _ hone rfl
      exact hnew (List.mem_singleton.1 hone ▸ hkey)

theorem size_putAll (puts : List (OutputKey × Payment)) :
    (empty.putAll puts).size = (puts.map Prod.fst).toFinset.card := by
  obtain ⟨hnodup, hkeys⟩ := keys_putAll puts
  rw [← hkeys, List.toFinset_card_of_nodup hnodup, keys, List.length_map]
  rfl

/-- What is found under a key is found in the puts, read from the last to the first. -/
theorem get?_putAll (puts : List (OutputKey × Payment)) (key : OutputKey) :
    (empty.putAll puts).get? key =
      (puts.reverse.find? fun e => e.1 = key).map Prod.snd := by
  induction puts using List.reverseRecOn with
  | nil => rfl
  | append_singleton puts e ih =>
    rw [putAll_concat, get?_put, ih, List.reverse_concat, List.find?_cons]
    by_cases he : e.1 = key <;> simp [he]

theorem get?_putAll_eq_some_iff {puts : List (OutputKey × Payment)} {key : OutputKey}
    {payment : Payment} :
    (empty.putAll puts).get? key = some payment ↔
      ∃ before after, puts = before ++ (key, payment) :: after ∧ ∀ e ∈ after, e.1 ≠ key := by
  rw [get?_putAll]
  constructor
  · intro h
    obtain ⟨e, hfind, rfl⟩ := Option.map_eq_some_iff.1 h
    obtain ⟨hkey, after, before, hsplit, hafter⟩ := List.find?_eq_some_iff_append.1 hfind
    obtain rfl : e.1 = key := of_decide_eq_true hkey
    refine ⟨before.reverse, after.reverse, ?_, fun x hx => ?_⟩
    · rw [← List.reverse_reverse puts, hsplit]
      simp
    · simpa using hafter x (List.mem_reverse.1 hx)
  · rintro ⟨before, after, rfl, hafter⟩
    have hnone : after.reverse.find? (fun e => decide (e.1 = key)) = none :=
      List.find?_eq_none.2 fun x hx => by simpa using hafter x (List.mem_reverse.1 hx)
    simp [List.find?_append, hnone]

theorem get?_putAll_eq_none_iff {puts : List (OutputKey × Payment)} {key : OutputKey} :
    (empty.putAll puts).get? key = none ↔ ∀ e ∈ puts, e.1 ≠ key := by
  simp [get?_putAll]

end Cache

/-- **Keys identify outputs.** Keys whose indexes can be written are shown, and no two of them
alike; keys are ordered totally, by the bytes of the hash and then by the index; and whatever is put
into a cache, it holds under each key what was put last under it, and its size is the number of keys
that were used. -/
theorem OutputKey.identified :
    (∀ a b : OutputKey, Document.isTooLong a.index = false → Document.isTooLong b.index = false →
      ∃ s t, a.text = .ok s ∧ b.text = .ok t ∧ (s = t ↔ a = b)) ∧
    (∀ k : OutputKey, Document.isTooLong k.index = true → k.text = .error .longInteger) ∧
    (∀ a b : OutputKey, [a.before b, decide (a = b), b.before a].count true = 1) ∧
    (∀ a b c : OutputKey, a.before b = true → b.before c = true → a.before c = true) ∧
    (∀ a b : OutputKey, a.before b = true ↔
      List.Lex (· < ·) a.hash.bytes b.hash.bytes ∨
        a.hash.bytes = b.hash.bytes ∧ a.index < b.index) ∧
    ∀ puts : List (OutputKey × Payment),
      (∀ key payment, (Cache.empty.putAll puts).get? key = some payment ↔
        ∃ before after, puts = before ++ (key, payment) :: after ∧ ∀ e ∈ after, e.1 ≠ key) ∧
      (∀ key, (Cache.empty.putAll puts).get? key = none ↔ ∀ e ∈ puts, e.1 ≠ key) ∧
      (∀ key, (Cache.empty.putAll puts).contains key = true ↔
        (Cache.empty.putAll puts).get? key ≠ none) ∧
      (Cache.empty.putAll puts).size = (puts.map Prod.fst).toFinset.card := by
  refine ⟨fun _ _ ha hb => ⟨_, _, text_of_short ha, text_of_short hb, line_inj⟩,
    fun _ => text_of_long, count_before, fun _ _ _ => before_trans, fun a b => ?_,
    fun puts => ⟨fun _ _ => Cache.get?_putAll_eq_some_iff, fun _ => Cache.get?_putAll_eq_none_iff,
      fun key => ?_, Cache.size_putAll puts⟩⟩
  · rw [before_iff, Prod.lex_def]
    rfl
  · rw [Cache.contains_eq_isSome, Option.isSome_iff_ne_none]

/-- **Not every key is shown, and not by its number.** A truth value serves as an index and counts
as a number, but is shown as it is; an index of too many digits is not shown at all. -/
theorem OutputKey.shown_apart :
    let hash := Hash.null
    let key (index : Value) := Kind.outputKey.construct [.bytes hash.bytes, index]
    (∃ a b, key (.int 1) = .ok a ∧ key (.bool true) = .ok b ∧
        (a.field? "index").map (·.equalsInt 1) = some true ∧
        (b.field? "index").map (·.equalsInt 1) = some true ∧
        a.shown = .ok (hash.display ++ ":1") ∧ b.shown = .ok (hash.display ++ ":True")) ∧
      OutputKey.text ⟨hash, unwritable⟩ = .error .longInteger := by
  refine ⟨⟨_, _, rfl, rfl, rfl, rfl, ?_, ?_⟩, text_of_long Document.isTooLong_unwritable⟩
  all_goals rfl

end BlockArchive
