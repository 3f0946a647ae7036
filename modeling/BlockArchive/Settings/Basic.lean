import BlockArchive.Coin
import BlockArchive.Disk.Path
import BlockArchive.Log.Level
import BlockArchive.Value

/-!
# Settings

What a user may choose: the coin, where the database lies, which address coinbase inputs get, when
a block counts as slow, and how the log is written.

* `Settings` holds the choices, with the values that hold where nothing is chosen;
* `Settings.databasePath` is where the database lies;
* `Settings.fields` shows the settings by name.
-/

namespace BlockArchive

/-- How the lines of a log file are written. -/
inductive LogFormat where
  /-- A JSON object a line. -/
  | json
  /-- Plain text. -/
  | text
deriving DecidableEq, Repr

namespace LogFormat

/-- All formats. -/
def all : List LogFormat := [.json, .text]

/-- The name of a format. -/
def name : LogFormat → String
  | .json => "json"
  | .text => "text"

/-- The format of exactly this name. -/
def ofName? (s : String) : Option LogFormat := all.find? fun f => f.name == s

end LogFormat

/-- The settings. -/
structure Settings where
  /-- The coin of the blocks. -/
  coin : Coin := .bitcoin
  /-- Progress is shown. -/
  showProgress : Bool := true
  /-- The directory of data. -/
  dataDirectory : Path := ⟨"", ["data"]⟩
  /-- The path of the database, if it is not in the directory of data. -/
  database : Option Path := none
  /-- How many seconds to wait for a database that is locked. -/
  timeout : Binary64 := .ofInt 30
  /-- The address of coinbase inputs. -/
  policy : CoinbasePolicy := .sentinel
  /-- Milliseconds above which a block is slow. -/
  slowBlock : Int := 5000
  /-- The least level that is logged. -/
  logLevel : Level := .info
  /-- The log is written to a file. -/
  logToFile : Bool := false
  /-- The directory of log files. -/
  logDirectory : Path := ⟨"", ["logs"]⟩
  /-- How the lines of a log file are written. -/
  logFormat : LogFormat := .json
  /-- Megabytes after which a new log file is begun. -/
  logRotation : Int := 100
  /-- The number of old log files that are kept. -/
  logRetention : Int := 30
deriving DecidableEq, Repr

namespace Settings

/-- The name of the database in the directory of data. -/
def databaseName : String := "chainingest.db"

/-- Where the database lies. -/
def databasePath (s : Settings) : Path := s.database.getD (s.dataDirectory.join databaseName)

/-- A path as a value. -/
def pathValue (p : Path) : Value := .string p.text

/-- The settings under their names. -/
def fields (s : Settings) : List (String × Value) :=
  [("coin", .string s.coin.name), ("show_progress", .bool s.showProgress),
    ("data_dir", pathValue s.dataDirectory),
    ("db_path", (s.database.map pathValue).getD .null), ("db_timeout_seconds", .real s.timeout),
    ("coinbase_address", .string s.policy.name), ("slow_block_threshold_ms", .int s.slowBlock),
    ("log_level", .string s.logLevel.name), ("log_to_file", .bool s.logToFile),
    ("log_dir", pathValue s.logDirectory), ("log_format", .string s.logFormat.name),
    ("log_rotation_mb", .int s.logRotation), ("log_retention_days", .int s.logRetention)]

/-- The text that shows settings. -/
def text (s : Settings) : String :=
  "IngestSettings(coin=" ++ s.coin.name ++ ", db_path=" ++ s.databasePath.text ++
    ", coinbase_address=" ++ s.policy.name ++ ")"

end Settings

end BlockArchive
