import BlockArchive.Coin.Reading
import BlockArchive.Disk.Basic
import BlockArchive.Settings.Basic
import BlockArchive.Settings.Variable

/-!
# Reading settings

A setting is taken from what the caller gives, else from the environment, else from the file of
variables in the working directory, else it has its default. The value is read as the setting's
type; names of choices may be written in any case. All refusals are collected.

* `Sources` is where values come from, `Sources.value?` the value for a setting;
* `Settings.read` reads all settings, `Settings.load` reports refusals as a problem and leaves out
  what the caller gives as nothing.
-/

namespace BlockArchive

/-! ### Types of settings -/

namespace Setting

/-- Reads a text. -/
def readText : Value → Except Refusal String
  | .string s => .ok s
  | _ => .error .notText

/-- Reads a path. -/
def readPath : Value → Except Refusal Path
  | .string s => .ok (.ofString s)
  | _ => .error .notPath

/-- Reads a path or nothing. -/
def readPath? : Value → Except Refusal (Option Path)
  | .null => .ok none
  | v => (readPath v).map some

/-- The texts for false. -/
def falseTexts : List String := ["0", "off", "f", "false", "n", "no"]

/-- The texts for true. -/
def trueTexts : List String := ["1", "on", "t", "true", "y", "yes"]

/-- The truth value of a text in any case. -/
def truthOfText (s : String) : Except Refusal Bool :=
  let s := String.ofList (s.toList.map Char.toLower)
  if falseTexts.contains s then .ok false
  else if trueTexts.contains s then .ok true
  else .error .unclearTruth

/-- The truth value of a number. -/
def truthOfInt (n : Int) : Except Refusal Bool :=
  if n = 0 then .ok false else if n = 1 then .ok true else .error .unclearTruth

/-- The whole number that a double is. -/
def whole? (x : Binary64) : Option Int :=
  x.truncate?.filter fun n => x.compareInt? n == some .eq

/-- Reads a truth value. -/
def readTruth : Value → Except Refusal Bool
  | .bool b => .ok b
  | .string s => truthOfText s
  | .int n => truthOfInt n
  | .real x =>
    match whole? x with
    | some n => truthOfInt n
    | none => .error .notTruth
  | _ => .error .notTruth

/-- The value of digits with single underscores between them. -/
def natOfRun? (cs : List Char) : Option Nat :=
  if cs.all Number.isRunChar ∧ cs.any Char.isDigit ∧ cs.head? ≠ some '_' ∧
      cs.getLast? ≠ some '_' ∧ Number.hasDoubleUnderscore cs = false then
    some (Number.natOf (cs.filter Char.isDigit))
  else none

/-- A text without a point that only zeros follow. -/
def withoutZeroPlaces (cs : List Char) : List Char :=
  match cs.dropWhile (· != '.') with
  | '.' :: places => if places.all (· == '0') then cs.takeWhile (· != '.') else cs
  | _ => cs

/-- The whole number of a text, which may have a sign, blanks around it and zeros behind a
point. -/
def intOfText (s : String) : Except Refusal Int :=
  let cs := Text.strip Text.isSpace s.toList
  if Number.integerDigitLimit < cs.length then .error .longWhole
  else
    let signed := Number.readSign cs
    match natOfRun? (withoutZeroPlaces signed.2) with
    | some n => .ok (Binary64.signed signed.1 n)
    | none => .error .unclearWhole

/-- Reads a whole number. -/
def readInt : Value → Except Refusal Int
  | .int n => .ok n
  | .bool b => .ok (if b then 1 else 0)
  | .string s => intOfText s
  | .real x =>
    match x.truncate? with
    | none => .error .notFinite
    | some n => if x.compareInt? n == some .eq then .ok n else .error .fractional
  | _ => .error .notWhole

/-- Reads a whole number that is at least one. -/
def readPositive (v : Value) : Except Refusal Int := do
  let n ← readInt v
  if n < 1 then .error (.tooSmall 1) else .ok n

/-- The double of a text: a decimal number, or a word for infinity or no number, with a sign and
blanks around it. Single underscores may stand inside a number. -/
def realOfText (s : String) : Except Refusal Binary64 :=
  let cs := Text.strip Text.isSpace s.toList
  let signed := Number.readSign cs
  let word := String.ofList (signed.2.map Char.toLower)
  let unmarked := s.toList.filter (· != '_')
  let isMarked := s.toList.head? ≠ some '_' ∧ s.toList.getLast? ≠ some '_' ∧
    Number.hasDoubleUnderscore s.toList = false
  if word = "inf" ∨ word = "infinity" then .ok (.infinity signed.1)
  else if word = "nan" then .ok .nan
  else match Number.Literal.read? cs, Number.Literal.read? unmarked with
    | some l, _ => .ok l.toBinary64
    | none, some l => if isMarked then .ok l.toBinary64 else .error .unclearNumber
    | none, none => .error .unclearNumber

/-- Reads a number. -/
def readReal : Value → Except Refusal Binary64
  | .real x => .ok x
  | .int n => .ok (.ofInt n)
  | .bool b => .ok (.ofInt (if b then 1 else 0))
  | .string s => realOfText s
  | _ => .error .notNumber

/-- The greatest time to wait. -/
def longestTimeout : Int := 600

/-- Reads a time to wait in seconds: above zero and at most ten minutes. -/
def readTimeout (v : Value) : Except Refusal Binary64 := do
  let x ← readReal v
  if x.compareInt? longestTimeout = some .gt then .error (.tooGreat longestTimeout)
  else if x.compareInt? 0 = some .lt ∨ x.compareInt? 0 = some .eq then .error (.notAbove 0)
  else .ok x

/-- Reads the name of one of a choice. -/
def readChoice {α : Type} (find : String → Option α) (refusal : String → Refusal) (v : Value) :
    Except Refusal α := do
  let s ← readText v
  match find s with
  | some a => .ok a
  | none => .error (refusal s)

/-- Reads the name of a coin. -/
def readCoin : Value → Except Refusal Coin := readChoice Coin.ofText? .unknownCoin

/-- Reads the name of a policy in any case. -/
def readPolicy : Value → Except Refusal CoinbasePolicy :=
  readChoice (fun s => CoinbasePolicy.ofName? (Text.lower s)) .unknownPolicy

/-- Reads the name of a level in any case. -/
def readLevel : Value → Except Refusal Level :=
  readChoice (fun s => Level.ofName? (Text.upper s)) .unknownLevel

/-- Reads the name of a format in any case. -/
def readFormat : Value → Except Refusal LogFormat :=
  readChoice (fun s => LogFormat.ofName? (Text.lower s)) .unknownFormat

end Setting

/-! ### Sources of values -/

/-- Where the values of settings come from. -/
structure Sources where
  /-- What the caller gives. -/
  given : List (String × Value) := []
  /-- The variables of the environment. -/
  environment : List (String × String) := []
  /-- The variables of the file. -/
  file : Variable.Table := []

namespace Sources

/-- What the name of a setting's variable starts with. -/
def variableStart : String := "chainingest_"

/-- The last of bindings that is named after a setting in any case. -/
def named? {α : Type} (field : String) (bindings : List (String × α)) : Option α :=
  (bindings.reverse.find? fun v => Text.lower v.1 == variableStart ++ field).map (·.2)

/-- The value for a setting. -/
def value? (s : Sources) (field : String) : Option Value :=
  match Value.lookup? field s.given with
  | some v => some v
  | none =>
    match named? field s.environment with
    | some text => some (.string text)
    | none => (named? field s.file).join.map .string

/-- The setting of a name, or its default if there is no value for it. -/
def setting {α : Type} (s : Sources) (field : String) (read : Value → Except Refusal α)
    (default : α) : Except Rejection α :=
  match s.value? field with
  | none => .ok default
  | some v => (read v).mapError fun r => ⟨field, r⟩

/-- The name of the file of variables. -/
def fileName : String := ".env"

/-- The sources with the file of variables on a disk. -/
def ofDisk (given : List (String × Value)) (environment : List (String × String)) (disk : Disk) :
    Except Fault Sources :=
  match disk.content (.ofString fileName) with
  | .error _ => .ok ⟨given, environment, []⟩
  | .ok bytes => do
    let text ← (Text.decodeUtf8 bytes).mapError Fault.notUtf8
    return ⟨given, environment, Variable.readFile environment (Text.unifyLineEnds text)⟩

end Sources

namespace Settings

/-- Hands a further setting to what is being put together; rejections are collected. -/
def also {α β : Type} (f : Except (List Rejection) (α → β)) (a : Except Rejection α) :
    Except (List Rejection) β :=
  match f, a with
  | .ok f, .ok a => .ok (f a)
  | .ok _, .error r => .error [r]
  | .error rs, .ok _ => .error rs
  | .error rs, .error r => .error (rs ++ [r])

/-- The settings of given sources, or all rejections in the order of the settings. -/
def ofSources (s : Sources) : Except (List Rejection) Settings :=
  let d : Settings := {}
  also (also (also (also (also (also (also (also (also (also (also (also (also (.ok Settings.mk)
    (s.setting "coin" Setting.readCoin d.coin))
    (s.setting "show_progress" Setting.readTruth d.showProgress))
    (s.setting "data_dir" Setting.readPath d.dataDirectory))
    (s.setting "db_path" Setting.readPath? d.database))
    (s.setting "db_timeout_seconds" Setting.readTimeout d.timeout))
    (s.setting "coinbase_address" Setting.readPolicy d.policy))
    (s.setting "slow_block_threshold_ms" Setting.readPositive d.slowBlock))
    (s.setting "log_level" Setting.readLevel d.logLevel))
    (s.setting "log_to_file" Setting.readTruth d.logToFile))
    (s.setting "log_dir" Setting.readPath d.logDirectory))
    (s.setting "log_format" Setting.readFormat d.logFormat))
    (s.setting "log_rotation_mb" Setting.readPositive d.logRotation))
    (s.setting "log_retention_days" Setting.readPositive d.logRetention)

/-- Reads the settings from what is given, the environment and the file of variables. -/
def read (given : List (String × Value)) (environment : List (String × String)) (disk : Disk) :
    Except Fault Settings := do
  (ofSources (← Sources.ofDisk given environment disk)).mapError Fault.rejected

/-- Reads the settings; what is given as nothing is left out, and rejections are reported as a
problem. -/
def load (given : List (String × Value)) (environment : List (String × String)) (disk : Disk) :
    Except Fault Settings :=
  let isGiven : String × Value → Bool := fun f => match f.2 with
    | .null => false
    | _ => true
  (read (given.filter isGiven) environment disk).mapError fun f => match f with
    | .rejected rs => .problem (.settings (rs.map fun r => r.refusal.message))
    | f => f

end Settings

end BlockArchive
