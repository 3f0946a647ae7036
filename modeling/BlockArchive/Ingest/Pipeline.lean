import BlockArchive.Coin.Reading
import BlockArchive.Ingest.Assembly
import BlockArchive.Ingest.Resolution
import BlockArchive.Ingest.Totals

/-!
# The pipeline

Blocks are taken in one by one. For each block its transactions are turned into records in order:
outputs first, which enter the block's cache, then inputs, which are resolved through cache and
store. Then the block is written, and its transactions in one batch if there are any. Only when
both are written do the totals change, so a block that fails leaves them as they were.

* `Pipeline` holds phase, coin and totals; `Station` puts it beside its store and clock;
* `Pipeline.start`, `Pipeline.take` and `Pipeline.complete` are the steps of a run;
* `Pipeline.batch` is the batch of records of a block.
-/

namespace BlockArchive

/-- A run in progress. -/
structure Pipeline where
  /-- Which address inputs get that spend no output. -/
  policy : CoinbasePolicy
  /-- Milliseconds above which taking in a block is reported as slow. -/
  slowBlock : Int
  /-- The phase. -/
  phase : Phase := .idle
  /-- The coin, once the run has been started. -/
  coin : Option Coin := none
  /-- The totals. -/
  totals : Totals

/-- A pipeline beside the store that it writes to and the clock. -/
structure Station (σ : Type) where
  /-- The pipeline. -/
  pipeline : Pipeline
  /-- The store. -/
  store : σ
  /-- The clock. -/
  clock : Clock

namespace Pipeline

variable {σ : Type}

/-- A pipeline that has done nothing yet. -/
def idle (policy : CoinbasePolicy) (slowBlock : Int) (now : Quantity) : Pipeline where
  policy := policy
  slowBlock := slowBlock
  totals := { startedAt := now }

/-- Works on the store. -/
def onStore {α : Type} (a : Act σ α) : Act (Station σ) α :=
  Act.within Station.store (fun s p => { p with store := s }) a

/-- Changes the pipeline. -/
def update (f : Pipeline → Pipeline) : Act (Station σ) Unit :=
  Act.update fun p => { p with pipeline := f p.pipeline }

/-- Changes the totals. -/
def updateTotals (f : Totals → Totals) : Act (Station σ) Unit :=
  update fun p => { p with totals := f p.totals }

/-- Writes a row of the pipeline. -/
def log (level : Level) (message : String) (extra : List (String × Value)) : Act (Station σ) Unit :=
  Act.log ⟨level, some "pipeline", message, extra⟩

/-- Starts the run with the coin of a name at a height: the store must answer. -/
def start [Store σ] (coinName : Value) (height : Int) : Act (Station σ) Unit := do
  let phase := (← Act.state).pipeline.phase
  if phase ≠ .idle then Act.stop (.problem (.alreadyStarted phase))
  let coin ← Act.lift (Coin.choose coinName)
  update fun p => { p with coin := some coin }
  log .info "Using \x60chainingest\x60 pipeline"
    [("coin", .string coin.name), ("start_height", .int height)]
  onStore Store.probe
  log .info "Connected successfully." []
  updateTotals fun t => { t with startHeight := height, endHeight := height }
  update fun p => { p with phase := .connected }

/-- The payments of outputs put into a cache under the keys of a transaction, the first at the
given position. -/
def cacheOutputs (hash : Hash) : Nat → Cache → List KeptOutput → Except Fault Cache
  | _, cache, [] => .ok cache
  | index, cache, o :: rest => do
    cacheOutputs hash (index + 1) (cache.put ⟨hash, index⟩ (← o.payment)) rest

/-- The records of transactions of a block, whose cache grows as they are worked through. -/
def batchFrom [Store σ] (policy : CoinbasePolicy) (blockHash : String) :
    Cache → List Transaction → Act (Resolution σ) (List TransactionRecord)
  | _, [] => return []
  | cache, t :: rest => do
    let outputs ← t.keepOutputs
    let cache ← Act.lift (cacheOutputs t.hash 0 cache outputs)
    let inputs ← Resolution.resolveAll policy cache t
    let others ← batchFrom policy blockHash cache rest
    return t.record blockHash inputs outputs :: others

/-- The records of the transactions of a block. -/
def batch [Store σ] (policy : CoinbasePolicy) (b : Block) :
    Act (Resolution σ) (List TransactionRecord) :=
  batchFrom policy b.header.hash.display .empty b.transactions

/-- The batch of a block and the tally of its resolution, which counts by itself. -/
def resolveBlock [Store σ] (b : Block) : Act (Station σ) (List TransactionRecord × Tally) := do
  let policy := (← Act.state).pipeline.policy
  Act.within (fun p => ⟨p.store, {}⟩) (fun r p => { p with store := r.store }) do
    let records ← batch policy b
    return (records, (← Act.state).tally)

/-- The totals with a block that has been written. -/
def count (b : Block) (height : Int) (records : List TransactionRecord) (tally : Tally)
    (t : Totals) : Totals :=
  { t with
    blocks := t.blocks + 1
    transactions := t.transactions + b.transactions.length
    endHeight := height
    inputs := t.inputs + (records.flatMap TransactionRecord.inputs).length
    outputs := t.outputs + (records.flatMap TransactionRecord.outputs).length
    unrecognised := t.unrecognised + unrecognisedCount (records.flatMap TransactionRecord.outputs)
    tally := t.tally.add tally }

/-- Turns a block into records, writes them and counts them. -/
def ingest [Store σ] (b : Block) (height : Int) : Act (Station σ) Unit := do
  let resolved ← resolveBlock b
  let records := resolved.1
  onStore (Store.insertBlock (.ofBlock b (.int height)))
  if !records.isEmpty then onStore (Store.insertTransactions records)
  updateTotals (count b height records resolved.2)
  log .debug "Inserted block into db"
    [("height", .int height), ("hash", .string b.header.hash.display),
      ("tx_count", .nat records.length)]

/-- Performs an act of the run at a height; a storage failure is reported before it is passed
on. -/
def reporting (height : Int) (a : Act (Station σ) Unit) : Act (Station σ) Unit := do
  match ← Act.attempt a with
  | .ok _ => pure ()
  | .error (.problem p) =>
    if p.category.isStorage then
      if Document.isTooLong height then Act.stop .longInteger
      log .error ("Aborting run at block " ++ Text.ofInt height ++ ": " ++ p.text.text)
        (("height", .int height) :: p.reportFields)
    Act.stop (.problem p)
  | .error f => Act.stop f

/-- Takes in a block at a height. -/
def take [Store σ] (b : Block) (height : Int) : Act (Station σ) Unit := do
  let p := (← Act.state).pipeline
  if !p.phase.accepts then Act.stop (.problem (.notStreaming p.phase height))
  update fun p => { p with phase := .streaming }
  Act.timed Station.clock (fun c s => { s with clock := c }) "pipeline" "ingest_block"
    (some (.whole p.slowBlock))
    [("height", .int height), ("tx_count", .nat b.transactions.length)]
    (reporting height (ingest b height))

/-- Completes the run at a height and gives the totals. -/
def complete (height : Int) : Act (Station σ) Totals := do
  let s ← Act.state
  if !s.pipeline.phase.accepts then Act.stop (.problem (.notStarted s.pipeline.phase))
  updateTotals fun t => { t with endHeight := height, finishedAt := some s.clock.now }
  update fun p => { p with phase := .finished }
  let totals := (← Act.state).pipeline.totals
  log .info (← Act.lift totals.summary) (totals.fields s.clock.now)
  return totals

end Pipeline

end BlockArchive
