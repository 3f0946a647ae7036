import BlockArchive.Act
import BlockArchive.Disk.Basic
import BlockArchive.Log.Entry
import BlockArchive.Settings.Basic
import BlockArchive.Text.Case

/-!
# The logbook

Rows of the log whose level reaches a threshold are written to a file, to the console or to both.
Where neither is set up, the messages of warnings and failures alone go to the console.

* `Logbook` is the log with the disk and the console that it writes to;
* `Logbook.setUp` sets it up anew, `Logbook.write` writes a row.
-/

namespace BlockArchive

/-- How a log is set up. -/
structure LogOptions where
  /-- The name of the threshold, in any case. -/
  level : String := Level.info.name
  /-- Rows are written to a file. -/
  toFile : Bool := true
  /-- The directory of the file. -/
  directory : Path := ⟨"", ["logs"]⟩
  /-- How rows are written to the file. -/
  format : LogFormat := .json
  /-- Rows are written to the console. -/
  toConsole : Bool := true

/-- A log. -/
structure Logbook where
  /-- The rank from which on rows are written, zero if none is set. -/
  threshold : Int := Level.debug.rank
  /-- The file and how rows are written to it, if they are. -/
  file : Option (Path × LogFormat) := none
  /-- Rows are written to the console. -/
  toConsole : Bool := false
  /-- The disk. -/
  disk : Disk := {}
  /-- What has been written to the console. -/
  console : String := ""

namespace Logbook

/-- The name of the log file. -/
def fileName : String := "chainingest.log"

/-- Adds bytes at the end of a file, which is made if it is missing. -/
def append (p : Path) (bytes : Bytes) : Act Logbook Unit := do
  let disk := (← Act.state).disk
  let content ← Act.lift (match disk.content p with
    | .ok b => .ok b
    | .error .missing => .ok []
    | .error t => .error (.file t p.text))
  let disk ← Act.lift ((disk.put p (.file (content ++ bytes))).mapError fun t => .file t p.text)
  Act.update fun b => { b with disk := disk }

/-- Makes the directory of the log file and the file itself. -/
def openFile (o : LogOptions) : Act Logbook Unit := do
  let disk ← Act.lift (((← Act.state).disk.makeDirectory o.directory).mapError fun e =>
    .file e.1 e.2.text)
  Act.update fun b => { b with disk := disk }
  let p := o.directory.join fileName
  append p []
  Act.update fun b => { b with file := some (p, o.format) }

/-- Sets the log up anew. A threshold without a name leaves it as it was. -/
def setUp (o : LogOptions) : Act Logbook Unit := do
  let name := Text.upper o.level
  match Level.rankOf? name with
  | none => Act.stop (.unknownLevel name)
  | some rank =>
    Act.update fun b => { b with threshold := rank, file := none, toConsole := false }
    if o.toFile then openFile o
    if o.toConsole then Act.update fun b => { b with toConsole := true }

/-- Writes a line to the console. -/
def print (line : String) : Act Logbook Unit :=
  Act.update fun b => { b with console := b.console ++ line ++ "\n" }

/-- Writes an entry to the file, if there is one. -/
def writeFile (e : LogEntry) : Act Logbook Unit := do
  match (← Act.state).file with
  | none => pure ()
  | some (p, format) =>
    let line ← Act.lift (match format with
      | .json => e.json true true
      | .text => e.plain)
    append p (Text.encodeUtf8 (line ++ "\n"))

/-- Writes an entry that reaches the threshold. -/
def writeEntry (e : LogEntry) : Act Logbook Unit := do
  let b ← Act.state
  writeFile e
  if b.toConsole then print (← Act.lift e.coloured)
  else if b.file.isNone ∧ Level.warning.rank ≤ e.rank then print (← Act.lift e.text)

/-- The rank from which on rows are written: where none is set, that of warnings. -/
def leastRank (b : Logbook) : Int := if b.threshold = 0 then Level.warning.rank else b.threshold

/-- Writes a row, if its level reaches the threshold. -/
def write (now : Quantity) (r : Row) : Act Logbook Unit := do
  if (← Act.state).leastRank ≤ r.level.rank then writeEntry (.ofRow now r)

/-- Writes rows in order. -/
def writeAll (now : Quantity) : List Row → Act Logbook Unit
  | [] => pure ()
  | r :: rest => do
    write now r
    writeAll now rest

end Logbook

end BlockArchive
