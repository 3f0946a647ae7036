import BlockArchive.Disk.Basic

/-!
# Finding what was put on a disk

A path is followed from directory to directory. So it leads to the same place on every disk that
has the same directories and perhaps more, and what was put where a path leads to is found there,
as long as no directory is lost to it.

* `Disk.Extends` compares the directories of two disks, `Disk.locate_of_extends` follows a path on
  both;
* `Disk.entry_put`: what was put under a path is found under it;
* `Disk.makeDirectory_parent` and `Disk.exists_locate`: the directory of a file is there already,
  and once the directory of a path has been made the path leads somewhere.
-/

namespace BlockArchive.Disk

variable {d d' : Disk} {p : Path} {e : Entry} {place steps found : List String}

/-! ### Entries and directories -/

theorem at?_of_isBase (h : isBase steps = true) : d.at? steps = some .directory := by
  rw [at?, if_pos h]

theorem at?_putAt_self (h : isBase steps = false) : (d.putAt steps e).at? steps = some e := by
  have hnone : (d.entries.filter fun x => x.1 != steps).find? (fun x => x.1 == steps) = none := by
    simp [List.find?_eq_none]
  simp [at?, h, putAt, List.find?_append, hnone]

theorem at?_putAt_of_ne {other : List String} (h : other ≠ steps) :
    (d.putAt steps e).at? other = d.at? other := by
  have hkept : (d.entries.filter fun x => x.1 != steps).find? (fun x => x.1 == other) =
      d.entries.find? fun x => x.1 == other := by
    rw [List.find?_filter]
    congr 1
    funext x
    by_cases hx : x.1 = other
    · simp [hx, h]
    · simp [hx]
  have hlast : (steps == other) = false := beq_false_of_ne h.symm
  simp only [at?, putAt, List.find?_append, hkept, List.find?_singleton, hlast,
    Bool.false_eq_true, if_false, Option.or_none]

/-- Every directory of the one disk is one of the other. -/
def Extends (d d' : Disk) : Prop :=
  ∀ steps, d.at? steps = some .directory → d'.at? steps = some .directory

/-- No directory is lost when something takes the place of a file, or a directory is put. -/
theorem extends_putAt (h : e = .directory ∨ d.at? steps ≠ some .directory) :
    d.Extends (d.putAt steps e) := by
  intro other hother
  by_cases hbase : isBase other = true
  · exact at?_of_isBase hbase
  by_cases hsteps : other = steps
  · subst hsteps
    obtain rfl | hne := h
    · exact at?_putAt_self (Bool.eq_false_iff.2 hbase)
    · exact absurd hother hne
  · rwa [at?_putAt_of_ne hsteps]

/-! ### Following a path -/

theorem follow_of_extends (h : d.Extends d') (hfollow : d.follow place steps = .ok found) :
    d'.follow place steps = .ok found := by
  induction steps generalizing place with
  | nil => exact hfollow
  | cons step rest ih =>
    unfold follow at hfollow ⊢
    split at hfollow
    · rename_i hplace
      rw [h place hplace]
      exact ih hfollow
    · cases hfollow
    · cases hfollow

theorem locate_of_extends (h : d.Extends d') (hlocate : d.locate p = .ok found) :
    d'.locate p = .ok found :=
  follow_of_extends h hlocate

theorem follow_append (more : List String) :
    d.follow place (steps ++ more) = d.follow place steps >>= fun there => d.follow there more := by
  induction steps generalizing place with
  | nil => rfl
  | cons step rest ih =>
    rw [List.cons_append, follow, follow]
    split
    · exact ih
    · rfl
    · rfl

theorem locate_eq_parent (h : p.steps ≠ []) :
    d.locate p =
      d.locate p.parent >>= fun there => d.follow there [p.steps.getLast h] := by
  have hsteps : ∀ place : List String, d.follow place p.steps =
      d.follow place p.steps.dropLast >>= fun there => d.follow there [p.steps.getLast h] := by
    intro place
    rw [← follow_append, List.dropLast_concat_getLast h]
  exact hsteps _

theorem entry_eq_ok_iff :
    d.entry p = .ok e ↔ ∃ found, d.locate p = .ok found ∧ d.at? found = some e := by
  unfold entry
  cases d.locate p with
  | error t => simp [bind, Except.bind]
  | ok found =>
    simp only [bind, Except.bind]
    cases hfound : d.at? found <;> simp [hfound]

/-! ### Putting and finding -/

/-- What was put under a path is found under it. -/
theorem entry_put (h : d.put p e = .ok d') (hentry : e = .directory ∨ d.entry p ≠ .ok .directory) :
    d'.entry p = .ok e := by
  unfold put at h
  cases hlocate : d.locate p with
  | error t =>
    rw [hlocate] at h
    cases h
  | ok found =>
    rw [hlocate] at h
    obtain rfl := Except.ok.inj h
    have hplace : e = .directory ∨ d.at? found ≠ some .directory :=
      hentry.imp_right fun hne hfound => hne (entry_eq_ok_iff.2 ⟨found, hlocate, hfound⟩)
    refine entry_eq_ok_iff.2 ⟨found, locate_of_extends (extends_putAt hplace) hlocate, ?_⟩
    cases hbase : isBase found with
    | false => exact at?_putAt_self hbase
    | true =>
      obtain rfl := hplace.resolve_right (absurd (at?_of_isBase hbase))
      exact at?_of_isBase hbase

/-! ### The directory of a path -/

theorem makeSteps_of_directory {root : String}
    (h : d.entry ⟨root, steps.reverse⟩ = .ok .directory) : d.makeSteps root steps = .ok d := by
  cases steps with
  | nil => rfl
  | cons step above => simp only [makeSteps, h]

theorem entry_of_makeSteps {root : String} (h : d.makeSteps root steps = .ok d') :
    d'.entry ⟨root, steps.reverse⟩ = .ok .directory := by
  induction steps generalizing d' with
  | nil =>
    obtain rfl := Except.ok.inj h
    refine entry_eq_ok_iff.2 ⟨_, rfl, at?_of_isBase ?_⟩
    split <;> rfl
  | cons step above ih =>
    unfold makeSteps at h
    dsimp only at h
    split at h
    · rename_i hentry
      obtain rfl := Except.ok.inj h
      exact hentry
    · cases h
    · -- the directories above are made first
      cases habove : d.makeSteps root above with
      | error t =>
        rw [habove] at h
        cases h
      | ok between =>
        simp only [habove, bind, Except.bind] at h
        split at h
        · rename_i hput
          obtain rfl := Except.ok.inj h
          exact entry_put hput (.inl rfl)
        · cases h
    · cases h

theorem steps_ne_nil (h : d.entry p = .ok e) (he : e ≠ .directory) : p.steps ≠ [] := by
  intro hnil
  obtain ⟨found, hlocate, hfound⟩ := entry_eq_ok_iff.1 h
  rw [locate, hnil] at hlocate
  obtain rfl := Except.ok.inj hlocate
  rw [at?_of_isBase (by split <;> rfl)] at hfound
  exact he (Option.some.inj hfound).symm

/-- The directory of a file is there already. -/
theorem makeDirectory_parent (h : d.entry p = .ok e) (he : e ≠ .directory) :
    d.makeDirectory p.parent = .ok d := by
  refine makeSteps_of_directory ?_
  rw [List.reverse_reverse]
  obtain ⟨found, hlocate, -⟩ := entry_eq_ok_iff.1 h
  rw [locate_eq_parent (steps_ne_nil h he)] at hlocate
  cases hparent : d.locate p.parent with
  | error t =>
    rw [hparent] at hlocate
    cases hlocate
  | ok there =>
    simp only [hparent, bind, Except.bind, follow] at hlocate
    refine entry_eq_ok_iff.2 ⟨there, hparent, ?_⟩
    split at hlocate
    · assumption
    · cases hlocate
    · cases hlocate

/-- Once its directory has been made, a path that is no directory itself leads somewhere. -/
theorem exists_locate (h : d.makeDirectory p.parent = .ok d')
    (hentry : d'.entry p ≠ .ok .directory) : ∃ found, d'.locate p = .ok found := by
  have hparent : d'.entry p.parent = .ok .directory := by
    simpa using entry_of_makeSteps h
  have hne : p.steps ≠ [] := by
    intro hnil
    have hsame : p.parent = p := by
      rw [Path.parent, hnil, List.dropLast_nil, ← hnil]
    exact hentry (hsame ▸ hparent)
  obtain ⟨there, hthere, hdirectory⟩ := entry_eq_ok_iff.1 hparent
  rw [locate_eq_parent hne, hthere]
  simp only [bind, Except.bind, follow, hdirectory]
  exact ⟨_, rfl⟩

end BlockArchive.Disk
