import BlockArchive.Disk.Path
import Mathlib.Data.List.Basic

/-!
# Paths and their texts

What is read from a text is a proper path: its root is one of three, and its steps are neither empty
nor single points and hold no slash. The text of a proper path leads back to it, so that a path may
be written down and read again.

* `Path.Proper` is the form, `Path.ofString_proper` says that it is what is read;
* `Path.ofString_text` reads a path from its text.
-/

namespace BlockArchive.Path

/-- A path in the form in which paths are read. -/
structure Proper (p : Path) : Prop where
  /-- It begins with no slash, with one or with two. -/
  root : p.root = "" ∨ p.root = "/" ∨ p.root = "//"
  /-- Its steps lead somewhere. -/
  steps : ∀ step ∈ p.steps, step ≠ "" ∧ step ≠ "." ∧ '/' ∉ step.toList

/-! ### The path of a text is proper -/

theorem not_mem_of_mem_splitOn {sep : Char} {cs run : List Char} (h : run ∈ cs.splitOn sep) :
    sep ∉ run := by
  rw [List.splitOn_eq_splitOnP] at h
  induction cs generalizing run with
  | nil =>
    rw [List.splitOnP_nil, List.mem_singleton] at h
    subst h
    exact List.not_mem_nil
  | cons c cs ih =>
    rw [List.splitOnP_cons_eq_if_modifyHead] at h
    split at h
    · rcases List.mem_cons.1 h with rfl | h
      · exact List.not_mem_nil
      · exact ih h
    · -- the character belongs to the first run of the rest
      rename_i hc
      obtain ⟨first, rest, hsplit⟩ :=
        List.exists_cons_of_ne_nil (List.splitOnP_ne_nil (fun x => x == sep) cs)
      rw [hsplit, List.modifyHead_cons] at h
      rcases List.mem_cons.1 h with rfl | h
      · have hfirst : sep ∉ first := ih (hsplit ▸ List.mem_cons_self)
        intro hsep
        rcases List.mem_cons.1 hsep with rfl | hsep
        · exact hc BEq.rfl
        · exact hfirst hsep
      · exact ih (hsplit ▸ List.mem_cons_of_mem first h)

theorem ofString_proper (s : String) : (ofString s).Proper where
  root := by
    simp only [ofString]
    split_ifs <;> simp
  steps := by
    intro step hstep
    obtain ⟨hmem, hkept⟩ := List.mem_filter.1 hstep
    obtain ⟨run, hrun, rfl⟩ := List.mem_map.1 hmem
    simp only [Bool.and_eq_true, bne_iff_ne, ne_eq] at hkept
    exact ⟨hkept.1, hkept.2, by simpa using not_mem_of_mem_splitOn hrun⟩

/-! ### A proper path is read from its text -/

variable {steps : List String}

theorem stepsOf_slash (s : String) : stepsOf ("/" ++ s) = stepsOf s := by
  have hslash : ("/" ++ s).toList = '/' :: s.toList := by simp
  simp [stepsOf, hslash, List.splitOn_eq_splitOnP, List.splitOnP_cons_eq_if_modifyHead]

theorem stepsOf_intercalate (h : ∀ step ∈ steps, step ≠ "" ∧ step ≠ "." ∧ '/' ∉ step.toList) :
    stepsOf ("/".intercalate steps) = steps := by
  have hkept : steps.filter (fun step => step != "" && step != ".") = steps := by
    refine List.filter_eq_self.2 fun step hstep => ?_
    obtain ⟨hempty, hpoint, -⟩ := h step hstep
    simp [hempty, hpoint]
  by_cases hnil : steps = []
  · subst hnil
    rfl
  · have hsplit : ("/".intercalate steps).toList.splitOn '/' = steps.map String.toList := by
      rw [String.toList_intercalate]
      refine List.splitOn_intercalate '/' (fun run hrun => ?_) (by simpa using hnil)
      obtain ⟨step, hstep, rfl⟩ := List.mem_map.1 hrun
      exact (h step hstep).2.2
    have hback : String.ofList ∘ String.toList = id := funext fun _ => String.ofList_toList
    rw [stepsOf, hsplit, List.map_map, hback, List.map_id, hkept]

theorem takeWhile_intercalate
    (h : ∀ step ∈ steps, step ≠ "" ∧ step ≠ "." ∧ '/' ∉ step.toList) :
    ("/".intercalate steps).toList.takeWhile (· == '/') = [] := by
  rw [String.toList_intercalate]
  cases steps with
  | nil => rfl
  | cons step rest =>
    obtain ⟨hempty, -, hslash⟩ := h step List.mem_cons_self
    have hchars : step.toList ≠ [] := fun hnil => hempty (String.toList_eq_nil_iff.1 hnil)
    obtain ⟨c, cs, hchars⟩ := List.exists_cons_of_ne_nil hchars
    have hc : c ≠ '/' := by
      rintro rfl
      exact hslash (hchars ▸ List.mem_cons_self)
    cases rest <;> simp [hchars, hc, List.intercalate]

theorem ofString_append {root s : String} (hroot : root = "" ∨ root = "/" ∨ root = "//")
    (hs : s.toList.takeWhile (· == '/') = []) : ofString (root ++ s) = ⟨root, stepsOf s⟩ := by
  rcases hroot with rfl | rfl | rfl
  · simp [ofString, hs]
  · simp [ofString, hs, stepsOf_slash]
  · have htwo : "//" ++ s = "/" ++ ("/" ++ s) := by
      rw [← String.append_assoc]
      rfl
    simp [ofString, hs, htwo, stepsOf_slash]

theorem ofString_text {p : Path} (h : p.Proper) : ofString p.text = p := by
  unfold text
  split
  · rename_i hbare
    obtain ⟨root, steps⟩ := p
    obtain ⟨rfl, rfl⟩ := hbare
    rfl
  · rw [ofString_append h.root (takeWhile_intercalate h.steps), stepsOf_intercalate h.steps]

end BlockArchive.Path
