import BlockArchive.Log.Book
import BlockArchive.Proofs.Act.Outcome
import BlockArchive.Settings.Reading
import Mathlib.Data.List.Basic

/-!
# Names of choices

Four settings are names of a choice: the coin, the policy for coinbase inputs, the level and the
format of the log. A text stands for the name that it is once its letter case is changed, and only
that name is kept. Where names are looked up later the kept one is found.

* `Text.AlikeOnAscii` compares two ways to change letter case, which choose the same names where
  they agree on ASCII characters;
* `Choice` is a choice, `Choice.read` keeps the normal form of a text or refuses the text;
  `Choice.normal_of_mem` says that a name is its own normal form;
* `Setting.readCoin_eq` and its likes say that the settings are read so;
* `Choice.kept_mem`, `Level.rankOf?_name` and `Logbook.setUp_named` are about the names that
  settings keep.
-/

namespace BlockArchive

/-! ### Letter case -/

namespace Text

/-- Two ways to change the case of a character agree, unless both lead beyond ASCII. -/
def AlikeOnAscii (f g : Char → List Char) : Prop :=
  ∀ c, f c = g c ∨ (∃ d ∈ f c, 0x80 ≤ d.toNat) ∧ ∃ d ∈ g c, 0x80 ≤ d.toNat

theorem flatMap_ne_of_beyond {f : Char → List Char} {cs name : List Char} {c : Char} (hc : c ∈ cs)
    (hbeyond : ∃ d ∈ f c, 0x80 ≤ d.toNat) (hname : ∀ d ∈ name, d.toNat < 0x80) :
    cs.flatMap f ≠ name := by
  rintro rfl
  obtain ⟨d, hd, hlarge⟩ := hbeyond
  have hsmall := hname d (List.mem_flatMap.2 ⟨c, hc, hd⟩)
  omega

/-- An ASCII name is what a text becomes in the one way exactly where it is so in the other. -/
theorem AlikeOnAscii.flatMap_eq_iff {f g : Char → List Char} (h : AlikeOnAscii f g)
    {cs name : List Char} (hname : ∀ d ∈ name, d.toNat < 0x80) :
    cs.flatMap f = name ↔ cs.flatMap g = name := by
  by_cases hdiffer : ∃ c ∈ cs, f c ≠ g c
  · -- the character leads beyond ASCII in both ways, so neither gives the name
    obtain ⟨c, hc, hne⟩ := hdiffer
    obtain ⟨hf, hg⟩ := (h c).resolve_left hne
    exact iff_of_false (flatMap_ne_of_beyond hc hf hname) (flatMap_ne_of_beyond hc hg hname)
  · have hsame : ∀ c ∈ cs, f c = g c := by
      intro c hc
      by_contra hne
      exact hdiffer ⟨c, hc, hne⟩
    rw [List.flatMap_def, List.map_congr_left hsame, ← List.flatMap_def]

end Text

/-! ### Choices -/

/-- A setting that is one of several names. -/
structure Choice where
  /-- The name of the setting. -/
  field : String
  /-- The names to choose from. -/
  names : List String
  /-- What counts of a text. -/
  trim : List Char → List Char
  /-- The case in which a character is compared. -/
  fold : Char → List Char
  /-- How a text is refused. -/
  refusal : String → Refusal
  /-- The name that settings keep. -/
  kept : Settings → String

namespace Choice

/-- The choice of a coin. -/
def coin : Choice where
  field := "coin"
  names := Coin.all.map Coin.name
  trim := Text.strip Text.isBlank
  fold := fun c => [Text.lowerChar c]
  refusal := .unknownCoin
  kept := fun s => s.coin.name

/-- The choice of a policy. -/
def policy : Choice where
  field := "coinbase_address"
  names := CoinbasePolicy.all.map CoinbasePolicy.name
  trim := id
  fold := fun c => [Text.lowerChar c]
  refusal := .unknownPolicy
  kept := fun s => s.policy.name

/-- The choice of a level. -/
def level : Choice where
  field := "log_level"
  names := Level.all.map Level.name
  trim := id
  fold := Text.upperChar
  refusal := .unknownLevel
  kept := fun s => s.logLevel.name

/-- The choice of a format. -/
def format : Choice where
  field := "log_format"
  names := LogFormat.all.map LogFormat.name
  trim := id
  fold := fun c => [Text.lowerChar c]
  refusal := .unknownFormat
  kept := fun s => s.logFormat.name

/-- All choices among the settings. -/
def all : List Choice := [coin, policy, level, format]

/-- The form of a text that is compared with the names. -/
def normal (c : Choice) (t : String) : String := String.ofList ((c.trim t.toList).flatMap c.fold)

theorem lower_eq (cs : List Char) :
    Text.lower (String.ofList cs) = String.ofList (cs.flatMap fun c => [Text.lowerChar c]) := by
  rw [Text.lower, String.toList_ofList, List.map_eq_flatMap]

theorem normal_coin (t : String) :
    coin.normal t = Text.lower (String.ofList (Text.strip Text.isBlank t.toList)) :=
  (lower_eq _).symm

theorem normal_policy (t : String) : policy.normal t = Text.lower t := by
  rw [← String.ofList_toList (s := t), lower_eq, String.ofList_toList]
  rfl

theorem normal_level (t : String) : level.normal t = Text.upper t := rfl

theorem normal_format (t : String) : format.normal t = Text.lower t := normal_policy t

/-- Reads a name: the normal form of a text is kept if it is one of the names. -/
def read (c : Choice) : Value → Except Refusal String
  | .string t => if c.normal t ∈ c.names then .ok (c.normal t) else .error (c.refusal t)
  | _ => .error .notText

/-- The names are their own normal forms. -/
theorem normal_of_mem {c : Choice} (hc : c ∈ all) {name : String} (h : name ∈ c.names) :
    c.normal name = name := by
  have hnames : ∀ c ∈ all, ∀ name ∈ c.names, c.normal name = name := by
    decide +kernel
  exact hnames c hc name h

theorem ascii_of_mem {c : Choice} (hc : c ∈ all) {name : String} (h : name ∈ c.names) :
    ∀ d ∈ name.toList, d.toNat < 0x80 := by
  have hascii : (all.all fun c => c.names.all fun name => name.toList.all fun d =>
      d.toNat < 0x80) = true := by
    decide +kernel
  intro d hd
  have hname := List.all_eq_true.1 (List.all_eq_true.1 hascii c hc) name h
  exact of_decide_eq_true (List.all_eq_true.1 hname d hd)

theorem read_alike {c : Choice} (hc : c ∈ all) {fold : Char → List Char}
    (h : Text.AlikeOnAscii c.fold fold) (v : Value) :
    { c with fold := fold }.read v = c.read v := by
  have hnormal {t name : String} (hname : name ∈ c.names) :
      c.normal t = name ↔ { c with fold := fold }.normal t = name := by
    rw [normal, normal, ← String.toList_inj, ← String.toList_inj, String.toList_ofList,
      String.toList_ofList]
    exact h.flatMap_eq_iff (ascii_of_mem hc hname)
  cases v with
  | string t =>
    by_cases hmem : c.normal t ∈ c.names
    · have heq := (hnormal hmem).1 rfl
      simp only [read, heq]
    · have hmem' : { c with fold := fold }.normal t ∉ c.names := fun hmem' =>
        hmem ((hnormal hmem').2 rfl ▸ hmem')
      simp only [read, if_neg hmem, if_neg hmem']
  | _ => rfl

end Choice

/-! ### Reading the settings that are choices -/

theorem Coin.ofName?_name (c : Coin) : ofName? c.name = some c := by
  cases c <;> decide

theorem CoinbasePolicy.ofName?_name (p : CoinbasePolicy) : ofName? p.name = some p := by
  cases p <;> decide

theorem Level.ofName?_name (l : Level) : ofName? l.name = some l := by
  cases l <;> decide

theorem LogFormat.ofName?_name (f : LogFormat) : ofName? f.name = some f := by
  cases f <;> decide

namespace Setting

theorem readChoice_string {α : Type} (find : String → Option α) (refusal : String → Refusal)
    (t : String) : readChoice find refusal (.string t) =
      match find t with
      | some a => .ok a
      | none => .error (refusal t) := rfl

/-- What is found by the normal form of a text among things that are found by their names is read as
a choice of these names. -/
theorem readChoice_eq {α : Type} (c : Choice) (all : List α) (name : α → String)
    {find : String → Option α} (hnames : c.names = all.map name)
    (hself : ∀ a, all.find? (fun b => name b == name a) = some a)
    (hfind : ∀ t, find t = all.find? fun b => name b == c.normal t) (v : Value) :
    (readChoice find c.refusal v).map name = c.read v := by
  cases v with
  | string t =>
    rw [readChoice_string, hfind, Choice.read, hnames]
    cases h : all.find? fun b => name b == c.normal t with
    | some a =>
      have hname : name a = c.normal t := by simpa using List.find?_some h
      rw [if_pos (List.mem_map.2 ⟨a, List.mem_of_find?_eq_some h, hname⟩), ← hname]
      rfl
    | none =>
      have hnot : c.normal t ∉ all.map name := by
        intro hmem
        obtain ⟨a, -, hname⟩ := List.mem_map.1 hmem
        rw [← hname, hself] at h
        cases h
      rw [if_neg hnot]
      rfl
  | _ => rfl

theorem readCoin_eq (v : Value) : (readCoin v).map Coin.name = Choice.coin.read v := by
  refine readChoice_eq Choice.coin Coin.all Coin.name rfl Coin.ofName?_name (fun t => ?_) v
  rw [Choice.normal_coin, Coin.ofText?, Coin.ofName?]

theorem readPolicy_eq (v : Value) :
    (readPolicy v).map CoinbasePolicy.name = Choice.policy.read v := by
  refine readChoice_eq Choice.policy CoinbasePolicy.all CoinbasePolicy.name rfl
    CoinbasePolicy.ofName?_name (fun t => ?_) v
  rw [Choice.normal_policy, CoinbasePolicy.ofName?]

theorem readLevel_eq (v : Value) : (readLevel v).map Level.name = Choice.level.read v := by
  refine readChoice_eq Choice.level Level.all Level.name rfl Level.ofName?_name (fun t => ?_) v
  rw [Choice.normal_level, Level.ofName?]

theorem readFormat_eq (v : Value) : (readFormat v).map LogFormat.name = Choice.format.read v := by
  refine readChoice_eq Choice.format LogFormat.all LogFormat.name rfl LogFormat.ofName?_name
    (fun t => ?_) v
  rw [Choice.normal_format, LogFormat.ofName?]

end Setting

/-! ### Names that are kept -/

/-- The names that settings keep are names of their choices. -/
theorem Choice.kept_mem : ∀ c ∈ all, ∀ s, c.kept s ∈ c.names := by
  simp only [all, List.forall_mem_cons]
  refine ⟨fun s => ?_, fun s => ?_, fun s => ?_, fun s => ?_, List.forall_mem_nil _⟩
  · exact List.mem_map_of_mem (List.mem_of_find?_eq_some (Coin.ofName?_name s.coin))
  · exact List.mem_map_of_mem (List.mem_of_find?_eq_some (CoinbasePolicy.ofName?_name s.policy))
  · exact List.mem_map_of_mem (List.mem_of_find?_eq_some (Level.ofName?_name s.logLevel))
  · exact List.mem_map_of_mem (List.mem_of_find?_eq_some (LogFormat.ofName?_name s.logFormat))

theorem Level.rankOf?_name (l : Level) : rankOf? (Text.upper l.name) = some l.rank := by
  cases l <;> decide +kernel

namespace Logbook

/-- A fault of files. -/
def IsFileFault (f : Fault) : Prop := ∃ t p, f = .file t p

theorem append_yields (p : Path) (bytes : Bytes) :
    Act.Yields (fun _ => True) (fun _ => True) IsFileFault (append p bytes) := by
  refine .state_bind fun b _ => .bind (Q := fun _ => True) (.lift ?_) fun content _ =>
    .bind (Q := fun _ => True) (.lift ?_) fun disk _ => .update fun _ _ => trivial
  · split
    · trivial
    · trivial
    · exact ⟨_, _, rfl⟩
  · cases b.disk.put p (.file (content ++ bytes)) with
    | ok d => trivial
    | error t => exact ⟨t, p.text, rfl⟩

theorem openFile_yields (o : LogOptions) :
    Act.Yields (fun _ => True) (fun _ => True) IsFileFault (openFile o) := by
  refine .state_bind fun b _ => .bind (Q := fun _ => True) (.lift ?_) fun disk _ =>
    .bind (.update fun _ _ => trivial) fun _ _ => .bind (append_yields _ _) fun _ _ =>
      .update fun _ _ => trivial
  cases b.disk.makeDirectory o.directory with
  | ok d => trivial
  | error e => exact ⟨e.1, e.2.text, rfl⟩

/-- Setting the log up with the name of a level as threshold can only fail for files. -/
theorem setUp_named {o : LogOptions} {l : Level} (h : o.level = l.name) :
    Act.Yields (fun _ => True) (fun _ => True) IsFileFault (setUp o) := by
  have hrank : Level.rankOf? (Text.upper o.level) = some l.rank := by
    rw [h, Level.rankOf?_name]
  have hconsole : Act.Yields (fun _ => True) (fun _ => True) IsFileFault
      (if o.toConsole then Act.update fun b : Logbook => { b with toConsole := true }
        else pure ()) := by
    split
    · exact .update fun _ _ => trivial
    · exact .pure trivial
  simp only [setUp, hrank]
  refine .bind (.update fun _ _ => trivial) fun _ _ => ?_
  split
  · exact .bind (openFile_yields o) fun _ _ => hconsole
  · exact hconsole

end Logbook

end BlockArchive
