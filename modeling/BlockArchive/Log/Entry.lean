import BlockArchive.Log.Row
import BlockArchive.Log.Template
import BlockArchive.Number.Quantity
import BlockArchive.Json.Printer

/-!
# Lines of the log

An entry of the log is a row together with when and where it was written. It is laid out in one of
three ways: as a JSON object, as plain text, or with its level in colour.

* `LogEntry` is the type, `LogEntry.ofRow` the entry of a row written now;
* `LogEntry.json`, `LogEntry.plain` and `LogEntry.coloured` are the layouts.
-/

namespace BlockArchive

/-- An entry of the log. -/
structure LogEntry where
  /-- The full name of the reporter. -/
  logger : String
  /-- The rank of the level. -/
  rank : Int
  /-- The message, which is a template if there are arguments. -/
  message : Value
  /-- The arguments of the message. -/
  args : List Value := []
  /-- Seconds since 1970. -/
  created : Quantity
  /-- The name of the file in which the entry was written. -/
  module : String
  /-- The function in which it was written, if known. -/
  function : Value
  /-- The line at which it was written. -/
  line : Value
  /-- Extra data, if any was attached. -/
  extra : Option Value := none
  /-- The fault that is reported, if one is. -/
  fault : Option Fault := none

namespace LogEntry

/-- The name of a file without its directory and what stands behind the last point; points at its
beginning do not count. -/
def moduleOf (path : String) : String :=
  let name := (path.toList.reverse.takeWhile (· != '/')).reverse
  let start := name.takeWhile (· == '.')
  let behind := name.dropWhile (· == '.')
  if behind.contains '.' then
    String.ofList (start ++ ((behind.reverse.dropWhile (· != '.')).drop 1).reverse)
  else String.ofList name

/-- The entry of a row. -/
def ofRow (now : Quantity) (r : Row) : LogEntry where
  logger := r.logger
  rank := r.level.rank
  message := .string r.message
  created := now
  module := "logging_setup"
  function := .string "_log"
  line := .nat 1
  extra := if r.extra.isEmpty then none else some (.mapping r.extra)

/-- The name of the level. -/
def levelName (e : LogEntry) : String := Level.rankName e.rank

/-- The message with its arguments. -/
def text (e : LogEntry) : Except Fault String := do
  Template.fill (← e.message.shown) e.args

/-- When the entry was written; a date has a year of four digits at most. -/
def moment (e : LogEntry) : Except Fault Moment :=
  let seconds := e.created.toReal
  let year := Moment.yearOf seconds
  if 1 ≤ year ∧ year ≤ 9999 then .ok (.ofSeconds seconds)
  else .error (.value ("year " ++ Text.ofInt year ++ " is out of range"))

/-- A fault as the JSON layout shows it. -/
def faultValue (f : Fault) : Value :=
  .mapping [("type", .string f.name), ("message", .string f.message),
    ("traceback", .list [.string (f.trace ++ "\n")])]

/-- The entry as a JSON object, with or without extra data and fault. -/
def json (e : LogEntry) (withExtra withFault : Bool) : Except Fault String := do
  let t ← e.moment
  let message ← e.text
  let extra := if withExtra then e.extra else none
  let fault := if withFault then e.fault else none
  let line : Value := .mapping
    ([("timestamp", .string (t.plainDateText ++ "T" ++ t.timeText ++ "." ++ t.microText ++ "Z")),
      ("level", .string e.levelName), ("logger", .string e.logger), ("message", .string message),
      ("module", .string e.module), ("function", e.function), ("line", e.line)] ++
    (extra.map fun v => ("extra_data", v)).toList ++
    (fault.map fun f => ("exception", faultValue f)).toList)
  if Document.hasLongInteger line then .error .longInteger
  else .ok (Json.render Json.logged line)

/-- The number of a level's colour on a terminal. -/
def colour? (level : String) : Option String :=
  match Level.ofName? level with
  | some .debug => some "90"
  | some .info => some "92"
  | some .warning => some "93"
  | some .error => some "91"
  | some .critical => some "1;91"
  | none => none

/-- The name of a level in its colour. -/
def colouredLevel (level : String) : String :=
  match colour? level with
  | some c => "\x1b[" ++ c ++ "m" ++ level ++ "\x1b[0m"
  | none => level

/-- The entry as text for a terminal. -/
def coloured (e : LogEntry) : Except Fault String := do
  let t ← e.moment
  let message ← e.text
  let extra ← match e.extra with
    | some v => v.shown.map (" | " ++ ·)
    | none => .ok ""
  return t.plainDateText ++ " " ++ t.timeText ++ " [" ++ colouredLevel e.levelName ++ "] " ++
    e.logger ++ ": " ++ message ++ extra ++
    ((e.fault.map fun f => "\n" ++ f.trace).getD "")

/-- The whole milliseconds of the second in which the entry was written. -/
def milliseconds (e : LogEntry) : Int :=
  ((e.created.toReal.fraction.mul (.ofInt 1000)).truncate?).getD 0

/-- Milliseconds have three characters at least. -/
def millisecondLayout : Template.Layout := { zeros := true, width := 3 }

/-- The entry as plain text. -/
def plain (e : LogEntry) : Except Fault String := do
  let t := Moment.ofSeconds (.ofInt ((e.created.toReal.floor?).getD 0))
  let message ← e.text
  return t.plainDateText ++ " " ++ t.timeText ++ "," ++
    String.ofList (millisecondLayout.whole 10 "" e.milliseconds) ++ " - " ++ e.logger ++ " - " ++
    e.levelName ++ " - " ++ message

end LogEntry

end BlockArchive
