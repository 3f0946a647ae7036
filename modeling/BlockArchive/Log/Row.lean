import BlockArchive.Log.Level
import BlockArchive.Value

/-!
# Log rows

What the archive reports while it works: a row has a level, the category of the reporter, a
message and perhaps extra data.

* `Row` is the type;
* `Row.logger` is the full name of the reporter.
-/

namespace BlockArchive

/-- The name of the root of all reporters. -/
def rootLogger : String := "chainingest"

/-- A row of the log. -/
structure Row where
  /-- The level. -/
  level : Level
  /-- The category of the reporter; none for the root itself. -/
  category : Option String
  /-- The message. -/
  message : String
  /-- Extra data; empty where there is none. -/
  extra : List (String × Value)

namespace Row

/-- The full name of the reporter. -/
def logger (r : Row) : String :=
  match r.category with
  | none => rootLogger
  | some c => rootLogger ++ "." ++ c

end Row

end BlockArchive
