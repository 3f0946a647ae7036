import BlockArchive.Text.Digit

/-!
# Levels

How important a row of the log is. Levels have names and ranks; a row is written where its rank
reaches that of a threshold.

* `Level` is the type, `Level.rank` and `Level.name` its views;
* `Level.rankName` names any rank, `Level.rankOf?` is the rank of a threshold's name.
-/

namespace BlockArchive

/-- A level of importance. -/
inductive Level where
  /-- Details. -/
  | debug
  /-- Progress. -/
  | info
  /-- Something that needs attention. -/
  | warning
  /-- A failure. -/
  | error
  /-- A failure after which nothing goes on. -/
  | critical
deriving DecidableEq, Repr

namespace Level

/-- All levels. -/
def all : List Level := [.debug, .info, .warning, .error, .critical]

/-- The rank of a level. -/
def rank : Level → Int
  | .debug => 10
  | .info => 20
  | .warning => 30
  | .error => 40
  | .critical => 50

/-- The name of a level. -/
def name : Level → String
  | .debug => "DEBUG"
  | .info => "INFO"
  | .warning => "WARNING"
  | .error => "ERROR"
  | .critical => "CRITICAL"

/-- The level of exactly this name. -/
def ofName? (s : String) : Option Level := all.find? fun l => l.name == s

/-- The name of a rank; ranks without a level are numbered. -/
def rankName (n : Int) : String :=
  match all.find? fun l => l.rank == n with
  | some l => l.name
  | none => if n = 0 then "NOTSET" else "Level " ++ Text.ofInt n

/-- The rank of a threshold: that of a level, by its name or one of two short names, or zero. -/
def rankOf? (s : String) : Option Int :=
  if s = "WARN" then some warning.rank
  else if s = "FATAL" then some critical.rank
  else if s = "NOTSET" then some 0
  else (ofName? s).map rank

end Level

end BlockArchive
