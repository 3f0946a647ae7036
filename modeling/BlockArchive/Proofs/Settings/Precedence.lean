import BlockArchive.Settings.Reading
import Mathlib.Data.List.Basic

/-!
# Where the value of a setting comes from

A setting is looked for with the caller, in the environment and in the file of variables, in this
order. What the caller gives as nothing counts as not given, so it hides no variable. Of variables
whose names differ in case only the last one counts.

* `Sources.Holds` is what the file of variables holds, unless it is `Sources.Garbled`;
* `Sources.Gives` and `Sources.Binds` say that the caller or variables have a value for a setting,
  `Sources.Omits` and `Sources.Lacks` that they have none;
* `Sources.Chosen` is the value for a setting, if there is one;
* `Sources.chosen_iff` says that it is the one that is read.
-/

namespace BlockArchive.Sources

variable {α : Type} {given : List (String × Value)} {environment : List (String × String)}
  {file : Variable.Table} {bindings : List (String × α)} {field : String}

/-! ### The file of variables -/

/-- What the file of variables holds: nothing where there is no file. -/
inductive Holds (environment : List (String × String)) (disk : Disk) : Variable.Table → Prop
  /-- There is no file. -/
  | missing {t : FileTrouble} (h : disk.content (.ofString fileName) = .error t) :
    Holds environment disk []
  /-- The text of the file is read. -/
  | text {bytes : Bytes} {cs : List Char} (hbytes : disk.content (.ofString fileName) = .ok bytes)
      (htext : Text.decodeUtf8 bytes = .ok cs) :
    Holds environment disk (Variable.readFile environment (Text.unifyLineEnds cs))

/-- The file of variables is not UTF-8. -/
def Garbled (disk : Disk) (message : String) : Prop :=
  ∃ bytes, disk.content (.ofString fileName) = .ok bytes ∧ Text.decodeUtf8 bytes = .error message

theorem holds_or_garbled (environment : List (String × String)) (disk : Disk) :
    (∃ file, Holds environment disk file) ∨ ∃ message, Garbled disk message := by
  cases hcontent : disk.content (.ofString fileName) with
  | error t => exact .inl ⟨[], .missing hcontent⟩
  | ok bytes =>
    cases htext : Text.decodeUtf8 bytes with
    | ok cs => exact .inl ⟨_, .text hcontent htext⟩
    | error message => exact .inr ⟨message, bytes, hcontent, htext⟩

theorem ofDisk_of_holds {disk : Disk} (h : Holds environment disk file)
    (given : List (String × Value)) :
    ofDisk given environment disk = .ok ⟨given, environment, file⟩ := by
  cases h with
  | missing h => simp only [ofDisk, h]
  | text hbytes htext =>
    simp only [ofDisk, hbytes, htext]
    rfl

theorem ofDisk_of_garbled {disk : Disk} {message : String} (h : Garbled disk message)
    (given : List (String × Value)) (environment : List (String × String)) :
    ofDisk given environment disk = .error (.notUtf8 message) := by
  obtain ⟨bytes, hbytes, htext⟩ := h
  simp only [ofDisk, hbytes, htext]
  rfl

/-! ### Variables -/

/-- The last of the bindings of a setting's variable, in any case of its name, is this one. -/
def Binds (bindings : List (String × α)) (field : String) (a : α) : Prop :=
  ∃ before name after, bindings = before ++ (name, a) :: after ∧
    Text.lower name = variableStart ++ field ∧
      ∀ b ∈ after, Text.lower b.1 ≠ variableStart ++ field

/-- No binding is one of the setting's variable. -/
def Lacks (bindings : List (String × α)) (field : String) : Prop :=
  ∀ b ∈ bindings, Text.lower b.1 ≠ variableStart ++ field

theorem named?_eq_some_iff {a : α} : named? field bindings = some a ↔ Binds bindings field a := by
  unfold named?
  constructor
  · intro h
    obtain ⟨b, hfind, rfl⟩ := Option.map_eq_some_iff.1 h
    obtain ⟨hname, after, before, hsplit, hafter⟩ := List.find?_eq_some_iff_append.1 hfind
    refine ⟨before.reverse, b.1, after.reverse, ?_, by simpa using hname, fun x hx => ?_⟩
    · rw [← List.reverse_reverse bindings, hsplit]
      simp
    · simpa using hafter x (List.mem_reverse.1 hx)
  · rintro ⟨before, name, after, rfl, hname, hafter⟩
    have hnone :
        after.reverse.find? (fun v => Text.lower v.1 == variableStart ++ field) = none :=
      List.find?_eq_none.2 fun x hx => by simpa using hafter x (List.mem_reverse.1 hx)
    simp [List.find?_append, hnone, hname]

theorem named?_eq_none_iff : named? field bindings = none ↔ Lacks bindings field := by
  simp [named?, Lacks]

/-! ### What the caller gives -/

/-- The caller gives a value for a setting; what comes before it for the setting is nothing. -/
def Gives (given : List (String × Value)) (field : String) (v : Value) : Prop :=
  v ≠ .null ∧ ∃ before after, given = before ++ (field, v) :: after ∧
    ∀ b ∈ before, b.1 = field → b.2 = .null

/-- The caller gives at most nothing for a setting. -/
def Omits (given : List (String × Value)) (field : String) : Prop :=
  ∀ b ∈ given, b.1 = field → b.2 = .null

/-- A binding is not one to nothing. -/
def isGiven (b : String × Value) : Bool :=
  match b.2 with
  | .null => false
  | _ => true

theorem isGiven_iff {b : String × Value} : isGiven b = true ↔ b.2 ≠ .null := by
  obtain ⟨name, v⟩ := b
  cases v <;> simp [isGiven]

/-- What is looked up among what is given is found by its name and by not being nothing. -/
theorem lookup?_filter (given : List (String × Value)) (field : String) :
    Value.lookup? field (given.filter isGiven) =
      (given.find? fun b => isGiven b && b.1 == field).map (·.2) := by
  rw [Value.lookup?, List.find?_filter]
  simp only [Bool.decide_and, Bool.decide_eq_true]

theorem lookup?_eq_some_iff {v : Value} :
    Value.lookup? field (given.filter isGiven) = some v ↔ Gives given field v := by
  rw [lookup?_filter, Option.map_eq_some_iff]
  constructor
  · rintro ⟨b, hfind, rfl⟩
    obtain ⟨hb, before, after, hsplit, hbefore⟩ := List.find?_eq_some_iff_append.1 hfind
    rw [Bool.and_eq_true, isGiven_iff, beq_iff_eq] at hb
    obtain ⟨hgiven, rfl⟩ := hb
    refine ⟨hgiven, before, after, hsplit, fun x hx hname => ?_⟩
    by_contra hnull
    have hpassed := hbefore x hx
    simp [isGiven_iff.2 hnull, hname] at hpassed
  · rintro ⟨hv, before, after, rfl, hbefore⟩
    refine ⟨(field, v), ?_, rfl⟩
    refine List.find?_eq_some_iff_append.2
      ⟨by simpa using isGiven_iff.2 hv, before, after, rfl, fun x hx => ?_⟩
    by_cases hname : x.1 = field
    · have hnull : isGiven x = false := by
        rw [← Bool.not_eq_true, isGiven_iff, not_not]
        exact hbefore x hx hname
      simp [hnull]
    · simp [hname]

theorem lookup?_eq_none_iff :
    Value.lookup? field (given.filter isGiven) = none ↔ Omits given field := by
  rw [lookup?_filter, Option.map_eq_none_iff, List.find?_eq_none]
  refine forall₂_congr fun b _ => ?_
  rw [Bool.and_eq_true, isGiven_iff, beq_iff_eq, not_and', not_not]

/-! ### The order of the sources -/

/-- The value that is chosen for a setting, or none if it has its default. -/
inductive Chosen (given : List (String × Value)) (environment : List (String × String))
    (file : Variable.Table) (field : String) : Option Value → Prop
  /-- The caller gives one. -/
  | given {v : Value} (h : Gives given field v) : Chosen given environment file field (some v)
  /-- The environment has one. -/
  | environment {text : String} (homits : Omits given field) (h : Binds environment field text) :
    Chosen given environment file field (some (.string text))
  /-- The file has one. -/
  | file {text : String} (homits : Omits given field) (hlacks : Lacks environment field)
      (h : Binds file field (some text)) :
    Chosen given environment file field (some (.string text))
  /-- There is none, or the variable stands in the file without a value. -/
  | default (homits : Omits given field) (hlacks : Lacks environment field)
      (h : Lacks file field ∨ Binds file field none) : Chosen given environment file field none

theorem chosen_value? (given : List (String × Value)) (environment : List (String × String))
    (file : Variable.Table) (field : String) :
    Chosen given environment file field
      ((⟨given.filter isGiven, environment, file⟩ : Sources).value? field) := by
  unfold value?
  cases hgiven : Value.lookup? field (given.filter isGiven) with
  | some v => exact .given (lookup?_eq_some_iff.1 hgiven)
  | none =>
    have homits := lookup?_eq_none_iff.1 hgiven
    dsimp only
    cases henvironment : named? field environment with
    | some text => exact .environment homits (named?_eq_some_iff.1 henvironment)
    | none =>
      have hlacks := named?_eq_none_iff.1 henvironment
      dsimp only
      rcases hfile : named? field file with - | - | text
      · exact .default homits hlacks (.inl (named?_eq_none_iff.1 hfile))
      · exact .default homits hlacks (.inr (named?_eq_some_iff.1 hfile))
      · exact .file homits hlacks (named?_eq_some_iff.1 hfile)

theorem Chosen.value?_eq {v : Option Value} (h : Chosen given environment file field v) :
    (⟨given.filter isGiven, environment, file⟩ : Sources).value? field = v := by
  unfold value?
  cases h with
  | given h => rw [lookup?_eq_some_iff.2 h]
  | environment homits h => rw [lookup?_eq_none_iff.2 homits, named?_eq_some_iff.2 h]
  | file homits hlacks h =>
    rw [lookup?_eq_none_iff.2 homits, named?_eq_none_iff.2 hlacks, named?_eq_some_iff.2 h]
    rfl
  | default homits hlacks h =>
    rw [lookup?_eq_none_iff.2 homits, named?_eq_none_iff.2 hlacks]
    rcases h with h | h
    · rw [named?_eq_none_iff.2 h]
      rfl
    · rw [named?_eq_some_iff.2 h]
      rfl

/-- The value that is read is the one that is chosen. -/
theorem chosen_iff {v : Option Value} : Chosen given environment file field v ↔
    (⟨given.filter isGiven, environment, file⟩ : Sources).value? field = v :=
  ⟨Chosen.value?_eq, fun h => h ▸ chosen_value? given environment file field⟩

end BlockArchive.Sources
