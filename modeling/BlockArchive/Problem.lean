import BlockArchive.Ingest.Phase
import BlockArchive.Value

/-!
# Problems

A `Problem` is a failure that the archive itself reports. It says what happened; its category,
code, text and details are functions of that.

* `Problem.category`, `Problem.code`, `Problem.text` and `Problem.details` are the parts of its
  report;
* `Problem.message` joins them in one line, `Problem.report` is the report as an object.
-/

namespace BlockArchive

/-- A failure that the archive reports. -/
inductive Problem where
  /-- The value of a field is no hash. -/
  | hashSize (field : String)
  /-- The value of an output is not an unsigned 64-bit number. -/
  | outputValue (value : Value)
  /-- An outpoint has a negative index. -/
  | outpointIndex (index : Value)
  /-- A key of an output has a negative index. -/
  | outputIndex (index : Value)
  /-- A value is no hex text; `shown` is the beginning of its text. -/
  | hex (why shown : String)
  /-- A hex text has a number of bytes that is not that of a hash. -/
  | hashLength (length : Nat) (value : Value)
  /-- A fixture is not an object with a list of blocks. -/
  | fixtureShape
  /-- A fixture's coin or start height cannot be read. -/
  | fixtureHeader (why : String)
  /-- The block at a position of a fixture cannot be read. -/
  | fixtureBlock (position : Nat) (why : String) (details : List (String × Value))
  /-- A fixture starts at a negative height. -/
  | startHeight (height : Int)
  /-- A fixture's file cannot be read. -/
  | fixtureUnreadable (path why : String)
  /-- A fixture's file is not JSON. -/
  | fixtureSyntax (path why : String)
  /-- A database cannot be opened. -/
  | connect (path why : String)
  /-- A database does not answer. -/
  | ping (path why : String)
  /-- A store in memory is marked as not available. -/
  | unavailable
  /-- A block cannot be written. -/
  | insertBlock (hash height : Value) (why : String)
  /-- A batch of transactions cannot be written. -/
  | insertTransactions (count : Nat) (blockHash : Value) (why : String)
  /-- A transaction cannot be looked up. -/
  | loadTransaction (hash : Value) (why : String)
  /-- A block cannot be looked up. -/
  | loadBlock (why : String)
  /-- The blocks cannot be counted. -/
  | countBlocks (why : String)
  /-- The transactions cannot be counted. -/
  | countTransactions (why : String)
  /-- An entry about the database cannot be read. -/
  | readMetadata (why : String)
  /-- The latest height cannot be read. -/
  | latestHeight (why : String)
  /-- A database cannot be closed. -/
  | close (why : String)
  /-- The run has already been started. -/
  | alreadyStarted (phase : Phase)
  /-- No block is taken in this phase. -/
  | notStreaming (phase : Phase) (height : Int)
  /-- The run cannot complete in this phase. -/
  | notStarted (phase : Phase)
  /-- Settings are rejected, each with its message. -/
  | settings (messages : List String)
  /-- A failure reported by other code in the archive's own terms. -/
  | other (category : Category) (code message : Value) (details : List (String × Value))

namespace Problem

/-- The category of a problem. -/
def category : Problem → Category
  | .hashSize _ | .outputValue _ | .outpointIndex _ | .outputIndex _ | .hex .. | .hashLength .. =>
    .validation
  | .fixtureShape | .fixtureHeader _ | .fixtureBlock .. | .startHeight _ | .fixtureUnreadable ..
  | .fixtureSyntax .. => .fixture
  | .connect .. | .ping .. | .unavailable => .connection
  | .insertBlock .. | .insertTransactions .. => .write
  | .loadTransaction .. | .loadBlock _ | .countBlocks _ | .countTransactions _ | .readMetadata _
  | .latestHeight _ => .query
  | .close _ => .database
  | .alreadyStarted _ | .notStreaming .. | .notStarted _ => .phase
  | .settings _ => .config
  | .other c .. => c

/-- The code of a problem: the name of its category where it has none of its own. -/
def code : Problem → Value
  | .hashSize _ => .string "INVALID_HASH"
  | .outputValue _ => .string "INVALID_OUTPUT_VALUE"
  | .outpointIndex _ => .string "INVALID_OUTPOINT_INDEX"
  | .outputIndex _ => .string "INVALID_OUTPUT_INDEX"
  | .hex .. => .string "INVALID_HEX"
  | .hashLength .. => .string "INVALID_HASH_LENGTH"
  | .fixtureShape | .fixtureHeader _ => .string "INVALID_FIXTURE"
  | .fixtureBlock .. => .string "INVALID_FIXTURE_BLOCK"
  | .startHeight _ => .string "INVALID_START_HEIGHT"
  | .fixtureUnreadable .. => .string "FIXTURE_READ_FAILED"
  | .fixtureSyntax .. => .string "FIXTURE_DECODE_FAILED"
  | .connect .. => .string "DB_CONNECTION_FAILED"
  | .ping .. | .unavailable => .string "DB_PING_FAILED"
  | .insertBlock .. => .string "BLOCK_INSERT_FAILED"
  | .insertTransactions .. => .string "TX_BULK_INSERT_FAILED"
  | .loadTransaction .. => .string "TX_QUERY_FAILED"
  | .loadBlock _ => .string "BLOCK_QUERY_FAILED"
  | .countBlocks _ | .countTransactions _ | .readMetadata _ | .latestHeight _ =>
    .string (Category.name .query)
  | .close _ => .string (Category.name .database)
  | .alreadyStarted _ => .string "PIPELINE_ALREADY_STARTED"
  | .notStreaming .. => .string "PIPELINE_NOT_STREAMING"
  | .notStarted _ => .string "PIPELINE_NOT_STARTED"
  | .settings _ => .string "INVALID_CONFIG"
  | .other c code .. => if code.isTruthy then code else .string c.name

/-- What happened, in words. -/
def words : Problem → String
  | .hashSize field => field ++ " must be 32 bytes"
  | .outputValue v =>
    "Invalid output value: " ++ v.text ++ ". Must be an unsigned 64-bit integer."
  | .outpointIndex i => "Outpoint index must be non-negative, got " ++ i.text
  | .outputIndex i => "index must be non-negative, got " ++ i.text
  | .hex why _ => "Invalid hex string: " ++ why
  | .hashLength n _ => "Hash must be 32 bytes, got " ++ Text.ofInt n
  | .fixtureShape => "Fixture must be an object with a 'blocks' list"
  | .fixtureHeader why => "Invalid fixture header: " ++ why
  | .fixtureBlock position why _ =>
    "Invalid block at position " ++ Text.ofInt position ++ ": " ++ why
  | .startHeight h => "start_height must be non-negative, got " ++ Text.ofInt h
  | .fixtureUnreadable path why => "Cannot read fixture " ++ path ++ ": " ++ why
  | .fixtureSyntax path why => "Invalid JSON in " ++ path ++ ": " ++ why
  | .connect _ why => "Failed to connect to database: " ++ why
  | .ping _ why => "Database ping failed: " ++ why
  | .unavailable => "In-memory store marked unavailable"
  | .insertBlock _ _ why => "Failed to insert block: " ++ why
  | .insertTransactions _ _ why => "Failed to insert transactions: " ++ why
  | .loadTransaction _ why => "Failed to load transaction: " ++ why
  | .loadBlock why => "Failed to load block: " ++ why
  | .countBlocks why => "Failed to count blocks: " ++ why
  | .countTransactions why => "Failed to count transactions: " ++ why
  | .readMetadata why => "Failed to read metadata: " ++ why
  | .latestHeight why => "Failed to get latest height: " ++ why
  | .close why => "Failed to close database: " ++ why
  | .alreadyStarted phase => "Cannot start pipeline in state " ++ phase.name
  | .notStreaming phase _ => "Cannot ingest block in state " ++ phase.name
  | .notStarted phase => "Cannot complete pipeline in state " ++ phase.name
  | .settings messages =>
    "Invalid configuration: " ++ Text.ofInt messages.length ++ " error(s)"
  | .other _ _ message _ => message.text

/-- The values of other code that the words of a problem show. -/
def shown : Problem → List Value
  | .outputValue v | .outpointIndex v | .outputIndex v => [v]
  | .startHeight h => [.int h]
  | _ => []

/-- The text of a problem as a value. -/
def text : Problem → Value
  | .other _ _ message _ => message
  | p => .string p.words

/-- What a problem tells beside its text. -/
def details : Problem → List (String × Value)
  | .hashSize field => [("field", .string field)]
  | .outputValue v => [("value", v)]
  | .hex _ shown => [("value", .string shown)]
  | .hashLength _ v => [("value", v)]
  | .fixtureBlock position _ details => ("position", .nat position) :: details
  | .connect path _ | .ping path _ => [("db_path", .string path)]
  | .insertBlock hash height _ => [("hash", hash), ("height", height)]
  | .insertTransactions count hash _ => [("count", .nat count), ("block_hash", hash)]
  | .loadTransaction hash _ => [("tx_hash", hash)]
  | .notStreaming _ height => [("height", .int height)]
  | .settings messages => [("errors", .list (messages.map .string))]
  | .other _ _ _ details => details
  | _ => []

/-- The fields of a problem's report. -/
def reportFields (p : Problem) : List (String × Value) :=
  [("error", p.code), ("message", p.text), ("details", .mapping p.details)]

/-- The report of a problem as an object. -/
def report (p : Problem) : Value :=
  .object (.report p.category)
    [("code", p.code), ("message", p.text), ("details", .mapping p.details)]
    (some (.mapping p.reportFields))

/-- The problem in one line: code, text and, if there are any, details. -/
def message (p : Problem) : String := p.report.text

end Problem

end BlockArchive
