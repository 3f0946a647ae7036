import BlockArchive.Ingest.Source
import BlockArchive.Log.Book
import BlockArchive.Settings.Reading
import BlockArchive.Store.Guarded

/-!
# The terminal

A command works on a disk, prints lines, and reports through the log. Rows are written to the log
in the order in which they arise, when the command is over.

* `Terminal` is what a command finds and leaves behind, `Terminal.execute` runs one;
* `Terminal.settings` reads the settings, `Terminal.onLog` works on the log;
* `Terminal.ingest` takes in a fixture, `Terminal.onStore` works on a store.
-/

namespace BlockArchive

/-- What a command finds and leaves behind. -/
structure Terminal where
  /-- The variables of the environment. -/
  environment : List (String × String)
  /-- The time of day. -/
  clock : Clock
  /-- The log with the disk and the error output. -/
  log : Logbook := {}
  /-- The output. -/
  output : String := ""

namespace Terminal

/-- Prints a line. -/
def say (line : String) : Act Terminal Unit :=
  Act.update fun t => { t with output := t.output ++ line ++ "\n" }

/-- Works on the log. -/
def onLog {α : Type} (a : Act Logbook α) : Act Terminal α :=
  Act.within Terminal.log (fun b t => { t with log := b }) a

/-- Prints a line to the error output. -/
def complain (line : String) : Act Terminal Unit := onLog (Logbook.print line)

/-- The disk. -/
def disk : Act Terminal Disk := return (← Act.state).log.disk

/-- The settings with what the caller gives. -/
def settings (given : List (String × Value)) : Act Terminal Settings := do
  Act.lift (Settings.load given (← Act.state).environment (← disk))

/-- A store in the tables of the database that the settings name. -/
def tableStore (s : Settings) : Act Terminal AnyStore :=
  return .tables { location := .ofPath s.databasePath, disk := ← disk }

/-- The terminal with the disk as a store leaves it. -/
def keepDisk (s : AnyStore) (t : Terminal) : Terminal :=
  match s.tables? with
  | some tables => { t with log := { t.log with disk := tables.disk } }
  | none => t

/-- Works on a store, which is closed afterwards in any case; `onProblem` is done before that if
the archive reports a problem. -/
def onStore {α σ : Type} (state : Terminal → σ) (store : σ → AnyStore) (work : Act σ α)
    (onProblem : Problem → Act σ Unit) (close : Act σ Unit) : Act Terminal α :=
  Act.within state (fun s t => keepDisk (store s) t) do
    let outcome ← Act.attempt work
    match outcome with
    | .error (.problem p) => onProblem p
    | _ => pure ()
    close
    Act.lift outcome

/-- Takes in the fixture in a file. -/
def ingest (fixture : Path) (s : Settings) (store : AnyStore)
    (onProblem : Problem → Act (Station AnyStore) Unit) : Act Terminal Totals := do
  let t ← Act.state
  onStore
    (fun _ => ⟨.idle s.policy s.slowBlock t.clock.now, store, t.clock⟩) Station.store
    (do (← Source.load t.log.disk fixture).run) onProblem (Pipeline.onStore AnyStore.close)

/-- Runs a command and writes its rows to the log. -/
def execute (a : Act Terminal Nat) (t : Terminal) : Except Fault Nat × Terminal :=
  let r := a.perform t
  let t := r.2.state
  let written := (Logbook.writeAll t.clock.now r.2.rows).perform t.log
  (r.1, { t with log := written.2.state })

end Terminal

end BlockArchive
