import BlockArchive.Disk.Basic
import BlockArchive.Ingest.Pipeline
import BlockArchive.Chain.Reading

/-!
# Sources of blocks

A fixture names a coin, the height of its first block and its blocks. Run against a receiver it
announces the start, hands over the blocks at consecutive heights and announces the end; the
first fault of the receiver ends the run.

* `Source.read` reads a fixture, `Source.load` the file of one;
* `Source.drive` runs a source against any receiver, `Source.run` against a pipeline.
-/

namespace BlockArchive

/-- A sequence of blocks of a coin from a height on. -/
structure Source where
  /-- The coin. -/
  coin : Coin
  /-- The height of the first block. -/
  startHeight : Nat
  /-- The blocks. -/
  blocks : List Block

/-- What receives the blocks of a source. -/
structure Receiver (σ α : Type) where
  /-- The start, with the coin and the height of the first block. -/
  onStart : Coin → Int → Act σ Unit
  /-- A block and its height. -/
  onBlock : Block → Int → Act σ Unit
  /-- The end, with the height of the last block. -/
  onComplete : Int → Act σ α

namespace Source

variable {σ α : Type}

/-- The fault of a block at a position of a fixture: what the archive reports is passed on with
its details, and of anything else kind and wording are told. An overflow is not reported so. -/
def blockFault (position : Nat) : Fault → Fault
  | .problem p =>
    if p.category.ancestry.contains .validation then
      .problem (.fixtureBlock position p.text.text p.details)
    else .problem p
  | .infiniteInteger => .infiniteInteger
  | f => .problem (.fixtureBlock position f.literal [])

/-- Reads the blocks of a fixture, the first at the given position. -/
def readBlocks : Nat → List Value → Except Fault (List Block)
  | _, [] => .ok []
  | position, v :: rest => do
    let b ← (Block.read v).mapError (blockFault position)
    return b :: (← readBlocks (position + 1) rest)

/-- The fault of a fixture's coin or height; an overflow is not reported so. -/
def headerFault : Fault → Fault
  | .infiniteInteger => .infiniteInteger
  | f => .problem (.fixtureHeader f.message)

/-- Reads coin and start height of a fixture. -/
def readHeader (v : Value) : Except Fault (Coin × Int) := do
  let coin ← Coin.read (← v.optional "coin" (.string Coin.bitcoin.name))
  let height ← (← v.optional "start_height" (.int 0)).toInteger
  return (coin, height)

/-- Reads a fixture: an object with a list of blocks. -/
def read (v : Value) : Except Fault Source :=
  match v, v.field? "blocks" with
  | .mapping _, some (.list items) => do
    let header ← (readHeader v).mapError headerFault
    let blocks ← readBlocks 0 items
    if 0 ≤ header.2 then return ⟨header.1, header.2.toNat, blocks⟩
    else .error (.ofProblem (.startHeight header.2))
  | _, _ => .error (.problem .fixtureShape)

/-- The value in a JSON file, whose line ends all count as line feeds. What the archive reports is
that the file cannot be read or is not JSON. -/
def readFile (disk : Disk) (path : Path) : Except Fault Value := do
  let bytes ← (disk.content path).mapError fun t =>
    .problem (.fixtureUnreadable path.text (t.message path.text))
  let text ← (Text.decodeUtf8 bytes).mapError Fault.notUtf8
  (Json.parseChars (Text.unifyLineEnds text)).mapError fun t => match t with
    | .syntaxAt .. => .problem (.fixtureSyntax path.text t.message)
    | .longInteger _ | .deep _ => .json t

/-- Reads the fixture in a file. -/
def load (disk : Disk) (path : Path) : Act σ Source := do
  let s ← Act.lift do read (← readFile disk path)
  Act.log ⟨.info, some "replay",
    "Loaded " ++ Text.ofInt s.blocks.length ++ " blocks from " ++ path.text,
    [("coin", .string s.coin.name), ("start_height", .int s.startHeight)]⟩
  return s

/-- The height of the last block, or of the start if there is none. -/
def endHeight (s : Source) : Int := s.startHeight + (s.blocks.length - 1 : Nat)

/-- Hands over blocks at consecutive heights from the given one on. -/
def handOver (r : Receiver σ α) : Int → List Block → Act σ Unit
  | _, [] => pure ()
  | height, b :: rest => do
    r.onBlock b height
    handOver r (height + 1) rest

/-- Runs the source against a receiver. -/
def drive (s : Source) (r : Receiver σ α) : Act σ α := do
  r.onStart s.coin s.startHeight
  handOver r s.startHeight s.blocks
  r.onComplete s.endHeight

/-- A pipeline as a receiver. -/
def pipelineReceiver [Store σ] : Receiver (Station σ) Totals where
  onStart coin height := Pipeline.start (.string coin.name) height
  onBlock := Pipeline.take
  onComplete := Pipeline.complete

/-- Runs the source through a pipeline. -/
def run [Store σ] (s : Source) : Act (Station σ) Totals := s.drive pipelineReceiver

end Source

end BlockArchive
