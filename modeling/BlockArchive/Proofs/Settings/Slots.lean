import BlockArchive.Proofs.Disk.Paths
import BlockArchive.Proofs.Settings.Choices
import Mathlib.Data.List.Nodup

/-!
# The settings one by one

The settings are thirteen slots: each has a name, a way to read a value, a part of the settings and
a way to show it. Settings are read slot by slot, and if any value is refused the refusals of all
are told. What a slot keeps is read again from what it shows.

* `Setting.Slot` is a slot, `Setting.slots` are those of the settings;
* `Settings.ofSources_ok_iff` and `Settings.ofSources_error` say what is read from sources;
* `Setting.stable_of_mem` reads again what one slot shows, `Settings.ofSources_fields` what all
  show.
-/

namespace BlockArchive

namespace Setting

/-- A setting. -/
structure Slot where
  /-- The name of the setting. -/
  field : String
  /-- What it can be. -/
  Part : Type
  /-- How a value is read. -/
  read : Value → Except Refusal Part
  /-- What it is among the settings. -/
  part : Settings → Part
  /-- How it is shown. -/
  view : Part → Value

/-- The settings in their order. -/
def slots : List Slot :=
  [⟨"coin", Coin, readCoin, Settings.coin, fun c => .string c.name⟩,
    ⟨"show_progress", Bool, readTruth, Settings.showProgress, .bool⟩,
    ⟨"data_dir", Path, readPath, Settings.dataDirectory, Settings.pathValue⟩,
    ⟨"db_path", Option Path, readPath?, Settings.database,
      fun p => (p.map Settings.pathValue).getD .null⟩,
    ⟨"db_timeout_seconds", Binary64, readTimeout, Settings.timeout, .real⟩,
    ⟨"coinbase_address", CoinbasePolicy, readPolicy, Settings.policy, fun p => .string p.name⟩,
    ⟨"slow_block_threshold_ms", Int, readPositive, Settings.slowBlock, .int⟩,
    ⟨"log_level", Level, readLevel, Settings.logLevel, fun l => .string l.name⟩,
    ⟨"log_to_file", Bool, readTruth, Settings.logToFile, .bool⟩,
    ⟨"log_dir", Path, readPath, Settings.logDirectory, Settings.pathValue⟩,
    ⟨"log_format", LogFormat, readFormat, Settings.logFormat, fun f => .string f.name⟩,
    ⟨"log_rotation_mb", Int, readPositive, Settings.logRotation, .int⟩,
    ⟨"log_retention_days", Int, readPositive, Settings.logRetention, .int⟩]

theorem nodup_fields : (slots.map Slot.field).Nodup := by
  simp [slots]

namespace Slot

/-- What a setting is for the value that is chosen for it: read from it, or the default. -/
def Keeps (slot : Slot) (v : Option Value) (x : slot.Part) : Prop :=
  match v with
  | some v => slot.read v = .ok x
  | none => x = slot.part {}

/-- What a setting is in sources, or its rejection. -/
def outcome (slot : Slot) (s : Sources) : Except Rejection slot.Part :=
  s.setting slot.field slot.read (slot.part {})

theorem outcome_ok_iff {slot : Slot} {s : Sources} {x : slot.Part} :
    slot.outcome s = .ok x ↔ slot.Keeps (s.value? slot.field) x := by
  unfold outcome Sources.setting Keeps
  cases s.value? slot.field with
  | none => simp [eq_comm]
  | some v =>
    dsimp only
    cases slot.read v <;> simp [Except.mapError]

theorem outcome_error_iff {slot : Slot} {s : Sources} {r : Rejection} :
    slot.outcome s = .error r ↔ ∃ v, s.value? slot.field = some v ∧
      slot.read v = .error r.refusal ∧ r.field = slot.field := by
  obtain ⟨field, refusal⟩ := r
  unfold outcome Sources.setting
  cases s.value? slot.field with
  | none => simp
  | some v =>
    dsimp only
    cases h : slot.read v <;> simp [Except.mapError, h, and_comm, eq_comm]

end Slot

/-- Each choice is one of the settings, which reads values as the choice does. -/
theorem exists_slot_of_choice : ∀ c ∈ Choice.all, ∃ slot ∈ slots, slot.field = c.field ∧
    ∃ name : slot.Part → String, (∀ s, name (slot.part s) = c.kept s) ∧
      ∀ v, (slot.read v).map name = c.read v := by
  simp only [Choice.all, List.forall_mem_cons]
  refine ⟨⟨slots[0], List.getElem_mem _, rfl, Coin.name, fun _ => rfl, readCoin_eq⟩,
    ⟨slots[5], List.getElem_mem _, rfl, CoinbasePolicy.name, fun _ => rfl, readPolicy_eq⟩,
    ⟨slots[7], List.getElem_mem _, rfl, Level.name, fun _ => rfl, readLevel_eq⟩,
    ⟨slots[10], List.getElem_mem _, rfl, LogFormat.name, fun _ => rfl, readFormat_eq⟩,
    List.forall_mem_nil _⟩

end Setting

/-! ### Putting settings together -/

namespace Settings

variable {α β : Type}

/-- The rejections of an outcome. -/
def rejections : Except (List Rejection) α → List Rejection
  | .ok _ => []
  | .error rs => rs

/-- The rejection of a setting, if it has one. -/
def rejection : Except Rejection α → List Rejection
  | .ok _ => []
  | .error r => [r]

theorem also_ok_iff {f : Except (List Rejection) (α → β)} {a : Except Rejection α} {y : β} :
    also f a = .ok y ↔ ∃ g x, f = .ok g ∧ a = .ok x ∧ g x = y := by
  cases f <;> cases a <;> simp [also]

theorem rejections_ok (x : α) : rejections (.ok x) = [] := rfl

theorem rejections_also (f : Except (List Rejection) (α → β)) (a : Except Rejection α) :
    rejections (also f a) = rejections f ++ rejection a := by
  cases f <;> cases a <;> simp [also, rejections, rejection]

theorem also_ne_error_nil {f : Except (List Rejection) (α → β)} (h : f ≠ .error [])
    (a : Except Rejection α) : also f a ≠ .error [] := by
  cases f <;> cases a <;> simp_all [also]

/-- Settings are read where each of them is. -/
theorem ofSources_ok_iff {s : Sources} {t : Settings} :
    ofSources s = .ok t ↔ ∀ slot ∈ Setting.slots, slot.outcome s = .ok (slot.part t) := by
  simp only [Setting.slots, List.forall_mem_cons, Setting.Slot.outcome]
  constructor
  · intro h
    simp only [ofSources, also_ok_iff] at h
    -- a layer for each setting, with that of the coin in the middle
    obtain ⟨_, _, ⟨_, _, ⟨_, _, ⟨_, _, ⟨_, _, ⟨_, _, ⟨_, _, ⟨_, _, ⟨_, _, ⟨_, _, ⟨_, _, ⟨_, _,
      ⟨_, _, ⟨⟩, hcoin, rfl⟩, hprogress, rfl⟩, hdata, rfl⟩, hdatabase, rfl⟩, htimeout, rfl⟩,
      hpolicy, rfl⟩, hslow, rfl⟩, hlevel, rfl⟩, hfile, rfl⟩, hdirectory, rfl⟩, hformat, rfl⟩,
      hrotation, rfl⟩, hretention, rfl⟩ := h
    exact ⟨hcoin, hprogress, hdata, hdatabase, htimeout, hpolicy, hslow, hlevel, hfile, hdirectory,
      hformat, hrotation, hretention, List.forall_mem_nil _⟩
  · rintro ⟨hcoin, hprogress, hdata, hdatabase, htimeout, hpolicy, hslow, hlevel, hfile, hdirectory,
      hformat, hrotation, hretention, -⟩
    simp only [ofSources, hcoin, hprogress, hdata, hdatabase, htimeout, hpolicy, hslow, hlevel,
      hfile, hdirectory, hformat, hrotation, hretention, also]

theorem rejections_ofSources (s : Sources) :
    rejections (ofSources s) = Setting.slots.flatMap fun slot => rejection (slot.outcome s) := by
  simp only [ofSources, rejections_also, rejections_ok, Setting.slots, Setting.Slot.outcome,
    List.flatMap_cons, List.flatMap_nil, List.append_assoc, List.nil_append, List.append_nil]

theorem ofSources_ne_error_nil (s : Sources) : ofSources s ≠ .error [] := by
  unfold ofSources
  iterate 13 refine also_ne_error_nil ?_ _
  intro h
  cases h

/-- Where settings are not read, the rejections are those of the single settings, in their order,
and there is one. -/
theorem ofSources_error {s : Sources} {rs : List Rejection} (h : ofSources s = .error rs) :
    rs ≠ [] ∧ rs = Setting.slots.flatMap fun slot => rejection (slot.outcome s) := by
  refine ⟨?_, ?_⟩
  · rintro rfl
    exact ofSources_ne_error_nil s h
  · rw [← rejections_ofSources, h]
    rfl

theorem fields_rejections_sublist (slots : List Setting.Slot) (s : Sources) :
    ((slots.flatMap fun slot => rejection (slot.outcome s)).map Rejection.field).Sublist
      (slots.map Setting.Slot.field) := by
  induction slots with
  | nil => exact List.Sublist.slnil
  | cons slot rest ih =>
    rw [List.flatMap_cons, List.map_append, List.map_cons]
    cases h : slot.outcome s with
    | ok x => exact ih.cons _
    | error r =>
      obtain ⟨v, -, -, hfield⟩ := Setting.Slot.outcome_error_iff.1 h
      rw [← hfield]
      exact ih.cons_cons _

theorem mem_rejections_iff {slot : Setting.Slot} (hslot : slot ∈ Setting.slots) {s : Sources}
    {r : Refusal} :
    ⟨slot.field, r⟩ ∈ (Setting.slots.flatMap fun slot => rejection (slot.outcome s)) ↔
      slot.outcome s = .error ⟨slot.field, r⟩ := by
  have hmem {other : Setting.Slot} :
      ⟨slot.field, r⟩ ∈ rejection (other.outcome s) ↔
        other.outcome s = .error ⟨slot.field, r⟩ := by
    cases other.outcome s <;> simp [rejection, eq_comm]
  rw [List.mem_flatMap]
  constructor
  · rintro ⟨other, hother, h⟩
    obtain ⟨v, -, -, hfield⟩ := Setting.Slot.outcome_error_iff.1 (hmem.1 h)
    obtain rfl : slot = other :=
      List.inj_on_of_nodup_map Setting.nodup_fields hslot hother hfield
    exact hmem.1 h
  · intro h
    exact ⟨slot, hslot, hmem.2 h⟩

end Settings

/-! ### Reading what is shown -/

namespace Setting

theorem readChoice_found {α : Type} {find : String → Option α} {refusal : String → Refusal}
    {t : String} {a : α} (h : find t = some a) : readChoice find refusal (.string t) = .ok a := by
  rw [readChoice_string, h]

theorem readCoin_name (c : Coin) : readCoin (.string c.name) = .ok c :=
  readChoice_found (by cases c <;> decide +kernel)

theorem readPolicy_name (p : CoinbasePolicy) : readPolicy (.string p.name) = .ok p :=
  readChoice_found (by cases p <;> decide +kernel)

theorem readLevel_name (l : Level) : readLevel (.string l.name) = .ok l :=
  readChoice_found (by cases l <;> decide +kernel)

theorem readFormat_name (f : LogFormat) : readFormat (.string f.name) = .ok f :=
  readChoice_found (by cases f <;> decide +kernel)

theorem readPath_view {p : Path} (h : p.Proper) : readPath (Settings.pathValue p) = .ok p := by
  rw [Settings.pathValue, readPath, Path.ofString_text h]

theorem proper_of_readPath {v : Value} {p : Path} (h : readPath v = .ok p) : p.Proper := by
  cases v with
  | string s =>
    cases h
    exact Path.ofString_proper s
  | _ => cases h

theorem proper_of_step {step : String} (h : step ≠ "" ∧ step ≠ "." ∧ '/' ∉ step.toList) :
    (⟨"", [step]⟩ : Path).Proper :=
  ⟨.inl rfl, by simpa using h⟩

theorem readPath?_view {v : Value} {p : Option Path} (h : readPath? v = .ok p) :
    readPath? ((p.map Settings.pathValue).getD .null) = .ok p := by
  cases p with
  | none => rfl
  | some p =>
    have hread : readPath v = .ok p := by
      cases v <;> simp_all [readPath?, readPath, Except.map]
    have hview := readPath_view (proper_of_readPath hread)
    show readPath? (.string p.text) = _
    rw [Settings.pathValue] at hview
    simp [readPath?, hview, Except.map]

theorem readPositive_ok_iff {v : Value} {n : Int} :
    readPositive v = .ok n ↔ readInt v = .ok n ∧ 1 ≤ n := by
  unfold readPositive
  cases readInt v with
  | error r => simp [bind, Except.bind]
  | ok m =>
    simp only [bind, Except.bind]
    split
    · simp; omega
    · simp; omega

theorem readPositive_view {n : Int} (h : 1 ≤ n) : readPositive (.int n) = .ok n :=
  readPositive_ok_iff.2 ⟨rfl, h⟩

/-- A time to wait lies between its bounds, or is no number. -/
def IsTimeout (x : Binary64) : Prop :=
  x.compareInt? longestTimeout ≠ some .gt ∧ x.compareInt? 0 ≠ some .lt ∧ x.compareInt? 0 ≠ some .eq

theorem readTimeout_ok_iff {v : Value} {x : Binary64} :
    readTimeout v = .ok x ↔ readReal v = .ok x ∧ IsTimeout x := by
  unfold readTimeout IsTimeout
  cases readReal v with
  | error r => simp [bind, Except.bind]
  | ok y =>
    simp only [bind, Except.bind, Except.ok.injEq]
    constructor
    · intro h
      split at h
      · cases h
      · rename_i hgreat
        split at h
        · cases h
        · rename_i hsmall
          cases h
          exact ⟨rfl, hgreat, not_or.1 hsmall⟩
    · rintro ⟨rfl, hgreat, hsmall⟩
      rw [if_neg hgreat, if_neg (not_or.2 hsmall)]

theorem readTimeout_view {x : Binary64} (h : IsTimeout x) : readTimeout (.real x) = .ok x :=
  readTimeout_ok_iff.2 ⟨rfl, h⟩

/-- What holds of the default and of all that is read holds of what a setting keeps. -/
theorem Slot.Keeps.of_read {slot : Slot} {P : slot.Part → Prop} {v : Option Value} {x : slot.Part}
    (h : slot.Keeps v x) (hdefault : P (slot.part {})) (hread : ∀ v x, slot.read v = .ok x → P x) :
    P x := by
  cases v with
  | none =>
    obtain rfl : x = slot.part {} := h
    exact hdefault
  | some v => exact hread v x h

/-- Whatever a setting keeps, it is read again from what it shows. -/
theorem stable_of_mem : ∀ slot ∈ slots, ∀ (v : Option Value) (x : slot.Part), slot.Keeps v x →
    slot.read (slot.view x) = .ok x := by
  -- numbers and paths are kept only in a form in which they are read again
  have hpositive {field : String} {part : Settings → Int} (hdefault : 1 ≤ part {})
      (v : Option Value) (n : Int)
      (h : Slot.Keeps ⟨field, Int, readPositive, part, .int⟩ v n) :
      readPositive (.int n) = .ok n :=
    readPositive_view (h.of_read hdefault fun _ _ hread => (readPositive_ok_iff.1 hread).2)
  have hpath {field : String} {part : Settings → Path} (hdefault : (part {}).Proper)
      (v : Option Value) (p : Path)
      (h : Slot.Keeps ⟨field, Path, readPath, part, Settings.pathValue⟩ v p) :
      readPath (Settings.pathValue p) = .ok p :=
    readPath_view (h.of_read hdefault fun _ _ hread => proper_of_readPath hread)
  simp only [slots, List.forall_mem_cons]
  refine ⟨fun _ c _ => readCoin_name c, fun _ _ _ => rfl, hpath (proper_of_step (by decide)),
    fun _ _ h => h.of_read (P := fun p => readPath? ((p.map Settings.pathValue).getD .null) = .ok p)
      rfl fun _ _ => readPath?_view,
    fun _ x h => readTimeout_view (h.of_read ?_ fun _ _ hread => (readTimeout_ok_iff.1 hread).2),
    fun _ p _ => readPolicy_name p, hpositive (by decide), fun _ l _ => readLevel_name l,
    fun _ _ _ => rfl, hpath (proper_of_step (by decide)), fun _ f _ => readFormat_name f,
    hpositive (by decide), hpositive (by decide), List.forall_mem_nil _⟩
  unfold IsTimeout
  decide +kernel

end Setting

namespace Settings

theorem lookup?_fields (t : Settings) : ∀ slot ∈ Setting.slots,
    Value.lookup? slot.field t.fields = some (slot.view (slot.part t)) := by
  simp [Setting.slots, Value.lookup?, fields]

/-- Settings that are read again one by one are read again from all that they show, whatever the
environment and the file hold. -/
theorem ofSources_fields {t : Settings}
    (h : ∀ slot ∈ Setting.slots, slot.read (slot.view (slot.part t)) = .ok (slot.part t))
    {s : Sources} (hgiven : s.given = t.fields) : ofSources s = .ok t := by
  refine ofSources_ok_iff.2 fun slot hslot => Setting.Slot.outcome_ok_iff.2 ?_
  have hvalue : s.value? slot.field = some (slot.view (slot.part t)) := by
    rw [Sources.value?, hgiven, lookup?_fields t slot hslot]
  rw [hvalue]
  exact h slot hslot

end Settings

end BlockArchive
