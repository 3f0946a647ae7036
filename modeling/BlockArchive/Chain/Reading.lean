import BlockArchive.Chain.Block
import BlockArchive.Value.Reading

/-!
# Reading blocks

A fixture writes a block as an object with named fields: hashes in the reversed order in which
they are shown, scripts as hex text, and most fields with a default. Fields are read in a fixed
order, and the first fault stops the reading.

* `Block.read` reads a block, and `Transaction.read`, `TxInput.read` and `EvaluatedOutput.read`
  its parts.
-/

namespace BlockArchive

/-- Reads an optional whole number. -/
def Value.optionalInteger (v : Value) (name : String) (default : Int) : Except Fault Int := do
  (← v.optional name (.int default)).toInteger

/-- Reads an optional script; a missing one is empty. -/
def Value.optionalScript (v : Value) (name : String) : Except Fault Bytes := do
  (← v.optional name (.string "")).toBytes

/-- Reads an optional hash; a missing one is null. -/
def Value.optionalHash (v : Value) (name : String) : Except Fault Hash := do
  (← v.optional name (.string Hash.null.display)).toHash

/-- An outpoint, whose index must not be negative. -/
def OutPoint.make (hash : Hash) (index : Int) : Except Fault OutPoint :=
  if 0 ≤ index then .ok ⟨hash, index.toNat⟩ else .error (.ofProblem (.outpointIndex (.int index)))

/-- The sequence number of an input that states none. -/
def defaultSequence : Int := 0xFFFFFFFF

/-- Reads an input. -/
def TxInput.read (v : Value) : Except Fault TxInput := do
  let hash ← (← v.require "prev_hash").toHash
  let index ← (← v.require "prev_index").toInteger
  let source ← OutPoint.make hash index
  let script ← v.optionalScript "script_sig"
  let sequence ← v.optionalInteger "sequence" defaultSequence
  return ⟨source, script, sequence⟩

/-- Reads an output with its evaluation. An address that counts as false is none; the pattern
of an output without a stated one depends on whether there is an address. -/
def EvaluatedOutput.read (v : Value) : Except Fault EvaluatedOutput := do
  let stated ← v.optional "address" .null
  let address := if stated.isTruthy then stated else .null
  let pattern := if stated.isTruthy then "Unknown" else "NotRecognised"
  let amount ← (← v.require "value").toInteger
  let script ← v.optionalScript "script_pubkey"
  let value ← (Value.int amount).toAmount
  let pattern ← v.optional "pattern" (.string pattern)
  return ⟨⟨value, script⟩, ⟨address, pattern⟩⟩

/-- Reads a transaction. -/
def Transaction.read (v : Value) : Except Fault Transaction := do
  let hash ← (← v.require "hash").toHash
  let version ← v.optionalInteger "version" 1
  let locktime ← v.optionalInteger "locktime" 0
  let inputs ← v.optionalList "inputs" TxInput.read
  let outputs ← v.optionalList "outputs" EvaluatedOutput.read
  return ⟨hash, version, locktime, inputs, outputs⟩

/-- Reads the header of a block from the block's fields. -/
def BlockHeader.read (v : Value) : Except Fault BlockHeader := do
  let hash ← (← v.require "hash").toHash
  let version ← v.optionalInteger "version" 1
  let previous ← v.optionalHash "prev_hash"
  let merkleRoot ← v.optionalHash "merkle_root"
  let timestamp ← v.optionalInteger "timestamp" 0
  let bits ← v.optionalInteger "bits" 0
  let nonce ← v.optionalInteger "nonce" 0
  return ⟨hash, version, previous, merkleRoot, timestamp, bits, nonce⟩

/-- Reads a block. -/
def Block.read (v : Value) : Except Fault Block := do
  let header ← BlockHeader.read v
  let size ← v.optionalInteger "size" 0
  let transactions ← v.optionalList "txs" Transaction.read
  return ⟨header, size, transactions⟩

end BlockArchive
