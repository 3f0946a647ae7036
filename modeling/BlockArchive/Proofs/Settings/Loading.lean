import BlockArchive.Proofs.Settings.Precedence
import BlockArchive.Proofs.Settings.Slots

/-!
# Loading settings

Whatever the caller gives and whatever the environment and the file of variables hold, settings are
loaded or all values that are refused are reported, unless the file is no text. Each setting comes
from the first source that has it. The names that are kept are canonical, so they are found wherever
they are looked up, and settings that are shown are read again as they are.

* `Settings.Canonical` says of settings that their names are in canonical case and are found;
* `Settings.KeptFrom` and `Settings.Rejects` say what is kept and what is rejected of sources;
* `Settings.Loads` are the outcomes of loading, `Settings.load_decided` says that there are no
  others, and `Settings.load_unreported` that a garbled file is not reported.
-/

namespace BlockArchive

namespace Settings

variable {given : List (String × Value)} {environment : List (String × String)} {disk : Disk}
  {file : Variable.Table} {s : Settings}

/-! ### Names are canonical -/

/-- The names that settings keep are in canonical case and are found where they are looked up. -/
structure Canonical (s : Settings) : Prop where
  /-- Each name is one of its choice, and is its own normal form. -/
  names : ∀ c ∈ Choice.all, c.kept s ∈ c.names ∧ c.normal (c.kept s) = c.kept s
  /-- The coin is found. -/
  coin : Coin.choose (.string s.coin.name) = .ok s.coin
  /-- The policy is found. -/
  policy : CoinbasePolicy.choose (.string s.policy.name) = .ok s.policy
  /-- The level is found. -/
  level : Level.rankOf? (Text.upper s.logLevel.name) = some s.logLevel.rank
  /-- A log that is set up with the level fails only for files. -/
  log : ∀ o : LogOptions, o.level = s.logLevel.name →
    Act.Yields (fun _ => True) (fun _ => True) Logbook.IsFileFault (Logbook.setUp o)

theorem canonical (s : Settings) : s.Canonical where
  names := by
    intro c hc
    exact ⟨Choice.kept_mem c hc s, Choice.normal_of_mem hc (Choice.kept_mem c hc s)⟩
  coin := by simp only [Coin.choose, Coin.ofName?_name]
  policy := by simp only [CoinbasePolicy.choose, CoinbasePolicy.ofName?_name]
  level := Level.rankOf?_name s.logLevel
  log := fun _ => Logbook.setUp_named

/-! ### What is kept and what is rejected -/

theorem read_of_holds (hfile : Sources.Holds environment disk file) :
    read given environment disk =
      (ofSources ⟨given, environment, file⟩).mapError Fault.rejected := by
  rw [read, Sources.ofDisk_of_holds hfile]
  rfl

theorem read_of_garbled {message : String} (h : Sources.Garbled disk message)
    (given : List (String × Value)) (environment : List (String × String)) :
    read given environment disk = .error (.notUtf8 message) := by
  rw [read, Sources.ofDisk_of_garbled h]
  rfl

/-- Each setting is read from the value that is chosen for it, or has its default. -/
def KeptFrom (given : List (String × Value)) (environment : List (String × String))
    (file : Variable.Table) (s : Settings) : Prop :=
  ∀ slot ∈ Setting.slots, ∃ v, Sources.Chosen given environment file slot.field v ∧
    slot.Keeps v (slot.part s)

theorem ofSources_ok_iff_keptFrom :
    ofSources ⟨given.filter Sources.isGiven, environment, file⟩ = .ok s ↔
      KeptFrom given environment file s := by
  rw [ofSources_ok_iff]
  refine forall₂_congr fun slot _ => ?_
  rw [Setting.Slot.outcome_ok_iff]
  constructor
  · intro h
    exact ⟨_, Sources.chosen_value? given environment file slot.field, h⟩
  · rintro ⟨v, hchosen, h⟩
    rwa [hchosen.value?_eq]

/-- A name that is kept is the one that its choice reads from the value that was chosen. -/
theorem KeptFrom.named (h : KeptFrom given environment file s) {c : Choice} (hc : c ∈ Choice.all)
    {v : Value} (hv : Sources.Chosen given environment file c.field (some v)) :
    c.read v = .ok (c.kept s) := by
  obtain ⟨slot, hslot, hfield, name, hname, hread⟩ := Setting.exists_slot_of_choice c hc
  obtain ⟨v', hchosen, hkeeps⟩ := h slot hslot
  rw [hfield] at hchosen
  obtain rfl : v' = some v := by
    rw [← hchosen.value?_eq, hv.value?_eq]
  have hslotRead : slot.read v = .ok (slot.part s) := hkeeps
  rw [← hread, hslotRead, ← hname]
  rfl

/-- What is kept is read again from what is shown, wherever a file of variables can be read. -/
theorem KeptFrom.reread (h : KeptFrom given environment file s)
    (environment' : List (String × String)) (disk' : Disk) :
    read s.fields environment' disk' =
      (Sources.ofDisk s.fields environment' disk').map fun _ => s := by
  rcases Sources.holds_or_garbled environment' disk' with ⟨file', hholds⟩ | ⟨message, hgarbled⟩
  · have hstable : ∀ slot ∈ Setting.slots,
        slot.read (slot.view (slot.part s)) = .ok (slot.part s) := by
      intro slot hslot
      obtain ⟨v, -, hkeeps⟩ := h slot hslot
      exact Setting.stable_of_mem slot hslot v _ hkeeps
    rw [read_of_holds hholds, Sources.ofDisk_of_holds hholds, ofSources_fields hstable rfl]
    rfl
  · rw [read_of_garbled hgarbled, Sources.ofDisk_of_garbled hgarbled]
    rfl

/-- The rejections are those of the settings whose chosen value is refused: one for each, in the
order of the settings. -/
structure Rejects (given : List (String × Value)) (environment : List (String × String))
    (file : Variable.Table) (rs : List Rejection) : Prop where
  /-- There is one. -/
  nonempty : rs ≠ []
  /-- No setting has two, and they are in the order of the settings. -/
  ordered : (rs.map Rejection.field).Sublist (Setting.slots.map Setting.Slot.field)
  /-- A setting is rejected with the refusal of the value that is chosen for it. -/
  refused : ∀ slot ∈ Setting.slots, ∀ r, ⟨slot.field, r⟩ ∈ rs ↔
    ∃ v, Sources.Chosen given environment file slot.field (some v) ∧ slot.read v = .error r

theorem rejects_of_ofSources {rs : List Rejection}
    (h : ofSources ⟨given.filter Sources.isGiven, environment, file⟩ = .error rs) :
    Rejects given environment file rs := by
  obtain ⟨hsome, hrejections⟩ := ofSources_error h
  refine ⟨hsome, ?_, ?_⟩
  · rw [hrejections]
    exact fields_rejections_sublist _ _
  · intro slot hslot r
    rw [hrejections, mem_rejections_iff hslot]
    simp only [Setting.Slot.outcome_error_iff, Sources.chosen_iff, and_true]

/-- The rejection of a choice is that with which the choice refuses the value that was chosen. -/
theorem Rejects.named {rs : List Rejection} (h : Rejects given environment file rs) {c : Choice}
    (hc : c ∈ Choice.all) (r : Refusal) :
    ⟨c.field, r⟩ ∈ rs ↔
      ∃ v, Sources.Chosen given environment file c.field (some v) ∧ c.read v = .error r := by
  obtain ⟨slot, hslot, hfield, name, -, hread⟩ := Setting.exists_slot_of_choice c hc
  have hrefused (v : Value) : slot.read v = .error r ↔ c.read v = .error r := by
    rw [← hread]
    cases slot.read v <;> simp [Except.map]
  rw [← hfield, h.refused slot hslot r]
  simp only [hrefused]

/-! ### Loading -/

/-- The outcomes of loading settings. -/
inductive Loads (given : List (String × Value)) (environment : List (String × String))
    (disk : Disk) : Except Fault Settings → Prop
  /-- All settings are kept: each from the first source that has it, names in canonical case
  whatever letters beyond ASCII become, and so that they are read again from what they show. -/
  | accepted {file : Variable.Table} {s : Settings} (hfile : Sources.Holds environment disk file)
      (hkept : KeptFrom given environment file s) (hcanonical : s.Canonical)
      (hnamed : ∀ c ∈ Choice.all, ∀ fold, Text.AlikeOnAscii c.fold fold → ∀ v,
        Sources.Chosen given environment file c.field (some v) →
          { c with fold := fold }.read v = .ok (c.kept s))
      (hreread : ∀ environment' disk', read s.fields environment' disk' =
        (Sources.ofDisk s.fields environment' disk').map fun _ => s) :
    Loads given environment disk (.ok s)
  /-- Some are rejected, which is reported as a problem of the configuration with a message for each
  of them; names are so whatever letters beyond ASCII become. -/
  | rejected {file : Variable.Table} {rs : List Rejection} {p : Problem}
      (hfile : Sources.Holds environment disk file) (hrejects : Rejects given environment file rs)
      (hcategory : p.category = .config) (hcode : p.code = .string "INVALID_CONFIG")
      (hwords : p.words = "Invalid configuration: " ++ Text.ofInt rs.length ++ " error(s)")
      (hdetails : p.details = [("errors", .list (rs.map fun r => .string r.refusal.message))])
      (hnamed : ∀ c ∈ Choice.all, ∀ fold, Text.AlikeOnAscii c.fold fold → ∀ r,
        ⟨c.field, r⟩ ∈ rs ↔ ∃ v, Sources.Chosen given environment file c.field (some v) ∧
          { c with fold := fold }.read v = .error r) :
    Loads given environment disk (.error (.problem p))
  /-- The file of variables is garbled, which is not reported. -/
  | garbled {message : String} (h : Sources.Garbled disk message) :
    Loads given environment disk (.error (.notUtf8 message))

theorem load_of_holds (hfile : Sources.Holds environment disk file) :
    load given environment disk =
      (ofSources ⟨given.filter Sources.isGiven, environment, file⟩).mapError fun rs =>
        .problem (.settings (rs.map fun r => r.refusal.message)) := by
  show (read (given.filter Sources.isGiven) environment disk).mapError _ = _
  rw [read_of_holds hfile]
  cases ofSources ⟨given.filter Sources.isGiven, environment, file⟩ <;> rfl

theorem load_of_garbled {message : String} (h : Sources.Garbled disk message) :
    load given environment disk = .error (.notUtf8 message) := by
  have hread := read_of_garbled h (given.filter Sources.isGiven) environment
  exact congrArg (Except.mapError _) hread

/-- **Loaded settings are canonical, and what is refused is reported.** For whatever is given and
whatever the environment and the disk hold, either each setting is kept from the first source that
has it, with names that every look-up finds, and is read again from what is shown; or there is a
problem of the configuration with one message for each setting whose value is refused; or the file
of variables is not UTF-8. -/
theorem load_decided (given : List (String × Value)) (environment : List (String × String))
    (disk : Disk) : Loads given environment disk (load given environment disk) := by
  rcases Sources.holds_or_garbled environment disk with ⟨file, hfile⟩ | ⟨message, hgarbled⟩
  · rw [load_of_holds hfile]
    cases hall : ofSources ⟨given.filter Sources.isGiven, environment, file⟩ with
    | ok s =>
      have hkept := ofSources_ok_iff_keptFrom.1 hall
      have hnamed : ∀ c ∈ Choice.all, ∀ fold, Text.AlikeOnAscii c.fold fold → ∀ v,
          Sources.Chosen given environment file c.field (some v) →
            { c with fold := fold }.read v = .ok (c.kept s) :=
        fun c hc fold hfold v hv => (Choice.read_alike hc hfold v).trans (hkept.named hc hv)
      exact .accepted hfile hkept s.canonical hnamed hkept.reread
    | error rs =>
      have hrejects := rejects_of_ofSources hall
      refine .rejected (p := .settings (rs.map fun r => r.refusal.message)) hfile hrejects rfl rfl
        ?_ ?_ fun c hc fold hfold r => ?_
      · have hlength : (rs.map fun r => r.refusal.message).length = rs.length :=
          List.length_map _
        exact congrArg (fun n : Nat => "Invalid configuration: " ++ Text.ofInt n ++ " error(s)")
          hlength
      · simp only [Problem.details, List.map_map, Function.comp_def]
      · simp only [Choice.read_alike hc hfold]
        exact hrejects.named hc r
  · rw [load_of_garbled hgarbled]
    exact .garbled hgarbled

/-- What is given as nothing hides no variable, and names are read in any case. -/
example : (load [("coin", .null)] [("ChainIngest_Coin", " LiteCoin\n")] {}).toOption.map
    Settings.coin = some .litecoin := by
  decide +kernel

/-- **The file of variables is an exception.** A coin of no known name is reported, but not where
the file holds a comment in another encoding. -/
theorem load_unreported :
    let nope : List (String × Value) := [("coin", .string "nope")]
    load nope [] {} =
        .error (.problem (.settings [(Refusal.unknownCoin "nope").message])) ∧
      ∃ message, load nope [] ⟨[([Sources.fileName], .file [0x23, 0x20, 0xe0, 0x0a])]⟩ =
          .error (.notUtf8 message) ∧
        ∀ p, Fault.notUtf8 message ≠ .problem p := by
  intro nope
  have hbytes : Text.decodeUtf8 [0x23, 0x20, 0xe0, 0x0a] =
      .error (Text.Utf8Trouble.continuation.message 0xe0 2 1) := by
    rw [Text.decodeUtf8, Text.decodeUtf8From]
    show (Text.decodeUtf8From 1 [0x20, 0xe0, 0x0a]).map _ = _
    rw [Text.decodeUtf8From]
    show ((Text.decodeUtf8From 2 [0xe0, 0x0a]).map _).map _ = _
    rw [Text.decodeUtf8From]
    rfl
  have hgarbled : Sources.Garbled ⟨[([Sources.fileName], .file [0x23, 0x20, 0xe0, 0x0a])]⟩ _ :=
    ⟨_, rfl, hbytes⟩
  refine ⟨rfl, _, load_of_garbled hgarbled, ?_⟩
  intro p h
  cases h

end Settings

end BlockArchive
