import BlockArchive.Chain.Reading
import BlockArchive.Value.Reading

/-!
# Records

What the archive keeps of blocks and transactions. Hashes and scripts are kept as text, hashes in
the order in which they are shown. A record is stored as a document, and reading a document back
does not check its fields: they are values.

* `OutputKey` names an output among all of the chain's, `Payment` is its value and address;
* `KeptOutput`, `ResolvedInput`, `TransactionRecord` and `BlockRecord` are the records, each with
  its `document` and a function `ofDocument` that reads one;
* `StoredTransaction` is what a look-up gives, and `StoredTransaction.output` finds an output in
  it by its index.
-/

namespace BlockArchive

/-- The key of an output: the hash of its transaction, in internal order, and its position. -/
structure OutputKey where
  /-- The hash of the transaction. -/
  hash : Hash
  /-- The position of the output. -/
  index : Nat
deriving DecidableEq

namespace OutputKey

/-- The key of the output that an outpoint refers to. -/
def ofOutPoint (o : OutPoint) : OutputKey := ⟨o.hash, o.index⟩

/-- Hash and index of the key with a colon between them. -/
def line (k : OutputKey) : String := k.hash.display ++ ":" ++ Text.ofInt k.index

/-- The key as it is shown, if its index can be written. -/
def text (k : OutputKey) : Except Fault String :=
  if Document.isTooLong k.index then .error .longInteger else .ok k.line

/-- The order of keys: by the bytes of the hash, then by the index. -/
def before (a b : OutputKey) : Bool :=
  if a.hash = b.hash then a.index < b.index else a.hash.bytes.before b.hash.bytes

/-- The key as an object. -/
def view (k : OutputKey) : Value :=
  .object .outputKey [("tx_hash", .bytes k.hash.bytes), ("index", .nat k.index)] none

end OutputKey

/-- Value and address of an output. -/
structure Payment where
  /-- The value. -/
  value : UInt64
  /-- The address, empty where none was recognised. -/
  address : Value

namespace Payment

/-- The payment as an object. -/
def view (p : Payment) : Value :=
  .object .outputRecord [("value", .nat p.value.toNat), ("address", p.address)] none

end Payment

/-- An output as it is kept inside a transaction's document. -/
structure KeptOutput where
  /-- The hash of the transaction. -/
  txHash : Value
  /-- The position of the output. -/
  index : Value
  /-- The value. -/
  value : Value
  /-- The locking script. -/
  script : Value
  /-- The address, empty where none was recognised. -/
  address : Value

namespace KeptOutput

/-- Value and address of the output; the value must be an unsigned 64-bit number. -/
def payment (o : KeptOutput) : Except Fault Payment := do
  let value ← o.value.toAmount
  return ⟨value, o.address⟩

/-- The document of an output. -/
def document (o : KeptOutput) : Value :=
  .mapping [("txHash", o.txHash), ("indexOut", o.index), ("value", o.value),
    ("scriptPubKey", o.script), ("address", o.address)]

/-- Reads the document of an output. -/
def ofDocument (v : Value) : Except Fault KeptOutput := do
  let txHash ← v.require "txHash"
  let index ← v.require "indexOut"
  let value ← v.require "value"
  let script ← v.optional "scriptPubKey" (.string "")
  let address ← v.optional "address" (.string "")
  return ⟨txHash, index, value, script, address⟩

/-- The output as an object. -/
def view (o : KeptOutput) : Value :=
  .object .txOutputRecord
    [("tx_hash", o.txHash), ("index_out", o.index), ("value", o.value),
      ("script_pubkey", o.script), ("address", o.address)] (some o.document)

end KeptOutput

/-- An input as it is kept: with value and address of the output that it spends. -/
structure ResolvedInput where
  /-- The hash of the spending transaction. -/
  txHash : Value
  /-- The position of the input. -/
  index : Value
  /-- The hash of the transaction whose output is spent. -/
  previousHash : Value
  /-- The position of the output spent. -/
  previousIndex : Value
  /-- The unlocking script. -/
  script : Value
  /-- The sequence number. -/
  sequence : Value
  /-- The value spent: zero where no output was found. -/
  value : Value
  /-- The address spent from. -/
  address : Value

namespace ResolvedInput

/-- The document of an input. -/
def document (i : ResolvedInput) : Value :=
  .mapping [("txHash", i.txHash), ("hashPrevOut", i.previousHash),
    ("indexPrevOut", i.previousIndex), ("indexIn", i.index), ("scriptSig", i.script),
    ("sequenceNumber", i.sequence), ("value", i.value), ("address", i.address)]

/-- Reads the document of an input. -/
def ofDocument (v : Value) : Except Fault ResolvedInput := do
  let txHash ← v.require "txHash"
  let index ← v.require "indexIn"
  let previousHash ← v.require "hashPrevOut"
  let previousIndex ← v.require "indexPrevOut"
  let script ← v.optional "scriptSig" (.string "")
  let sequence ← v.optional "sequenceNumber" (.int 0)
  let value ← v.optional "value" (.int 0)
  let address ← v.optional "address" (.string "")
  return ⟨txHash, index, previousHash, previousIndex, script, sequence, value, address⟩

/-- The input as an object. -/
def view (i : ResolvedInput) : Value :=
  .object .resolvedInput
    [("tx_hash", i.txHash), ("index_in", i.index), ("hash_prev_out", i.previousHash),
      ("index_prev_out", i.previousIndex), ("script_sig", i.script),
      ("sequence_number", i.sequence), ("value", i.value), ("address", i.address)]
    (some i.document)

end ResolvedInput

/-- A transaction as it is kept. -/
structure TransactionRecord where
  /-- The hash. -/
  hash : Value
  /-- The hash of the block. -/
  blockHash : Value
  /-- The version. -/
  version : Value
  /-- The lock time. -/
  lockTime : Value
  /-- The inputs in order. -/
  inputs : List ResolvedInput
  /-- The outputs in order. -/
  outputs : List KeptOutput

namespace TransactionRecord

/-- The document of a transaction; it states the numbers of inputs and outputs. -/
def document (t : TransactionRecord) : Value :=
  .mapping [("txHash", t.hash), ("blockHash", t.blockHash), ("version", t.version),
    ("lockTime", t.lockTime), ("inputCount", .nat t.inputs.length),
    ("txInputs", .list (t.inputs.map ResolvedInput.document)),
    ("outputCount", .nat t.outputs.length),
    ("txOutputs", .list (t.outputs.map KeptOutput.document))]

/-- Reads the document of a transaction; the stated numbers are not looked at. -/
def ofDocument (v : Value) : Except Fault TransactionRecord := do
  let hash ← v.require "txHash"
  let blockHash ← v.require "blockHash"
  let version ← v.optional "version" (.int 1)
  let lockTime ← v.optional "lockTime" (.int 0)
  let inputs ← v.optionalList "txInputs" ResolvedInput.ofDocument
  let outputs ← v.optionalList "txOutputs" KeptOutput.ofDocument
  return ⟨hash, blockHash, version, lockTime, inputs, outputs⟩

/-- The transaction as an object. -/
def view (t : TransactionRecord) : Value :=
  .object .transactionRecord
    [("tx_hash", t.hash), ("block_hash", t.blockHash), ("version", t.version),
      ("lock_time", t.lockTime), ("inputs", .frozen (t.inputs.map ResolvedInput.view)),
      ("outputs", .frozen (t.outputs.map KeptOutput.view))] (some t.document)

end TransactionRecord

/-- A kept transaction as a look-up gives it. -/
structure StoredTransaction where
  /-- The hash. -/
  hash : Value
  /-- The hash of the block. -/
  blockHash : Value
  /-- The outputs in the order in which they are kept. -/
  outputs : List KeptOutput

namespace StoredTransaction

/-- The output of an index: the one at that position if it bears the index, else the first that
does. -/
def select? (t : StoredTransaction) (index : Int) : Option KeptOutput :=
  let placed := if 0 ≤ index then t.outputs[index.toNat]? else none
  match placed.filter fun o => o.index.equalsInt index with
  | some o => some o
  | none => t.outputs.find? fun o => o.index.equalsInt index

/-- Value and address of the output of an index, if there is one. -/
def output (t : StoredTransaction) (index : Int) : Except Fault (Option Payment) :=
  match t.select? index with
  | some o => o.payment.map some
  | none => .ok none

/-- What a look-up gives of a record. -/
def ofRecord (r : TransactionRecord) : StoredTransaction := ⟨r.hash, r.blockHash, r.outputs⟩

/-- Reads the document of a transaction as far as a look-up needs it. -/
def ofDocument (v : Value) : Except Fault StoredTransaction := do
  let hash ← v.require "txHash"
  let blockHash ← v.require "blockHash"
  let outputs ← v.optionalList "txOutputs" KeptOutput.ofDocument
  return ⟨hash, blockHash, outputs⟩

/-- The transaction as an object. -/
def view (t : StoredTransaction) : Value :=
  .object .storedTransaction
    [("tx_hash", t.hash), ("block_hash", t.blockHash),
      ("outputs", .frozen (t.outputs.map KeptOutput.view))] none

end StoredTransaction

/-- A block as it is kept. -/
structure BlockRecord where
  /-- The hash. -/
  hash : Value
  /-- The height. -/
  height : Value
  /-- The version. -/
  version : Value
  /-- The size. -/
  size : Value
  /-- The hash of the block before. -/
  previousHash : Value
  /-- The root of the tree of transaction hashes. -/
  merkleRootHash : Value
  /-- The time stamp. -/
  timestamp : Value
  /-- The packed target. -/
  bits : Value
  /-- The number of transactions. -/
  transactionCount : Value
  /-- The nonce. -/
  nonce : Value

namespace BlockRecord

/-- The record of a block at a height. -/
def ofBlock (b : Block) (height : Value) : BlockRecord where
  hash := .string b.header.hash.display
  height := height
  version := .int b.header.version
  size := .int b.size
  previousHash := .string b.header.previous.display
  merkleRootHash := .string b.header.merkleRoot.display
  timestamp := .int b.header.timestamp
  bits := .int b.header.bits
  transactionCount := .nat b.transactions.length
  nonce := .int b.header.nonce

/-- The document of a block. -/
def document (b : BlockRecord) : Value :=
  .mapping [("hash", b.hash), ("blockHeight", b.height), ("version", b.version), ("size", b.size),
    ("previousHash", b.previousHash), ("merkleRootHash", b.merkleRootHash),
    ("timestamp", b.timestamp), ("nBits", b.bits), ("txCount", b.transactionCount),
    ("nNonce", b.nonce)]

/-- Reads the document of a block. -/
def ofDocument (v : Value) : Except Fault BlockRecord := do
  let hash ← v.require "hash"
  let height ← v.require "blockHeight"
  let version ← v.require "version"
  let size ← v.require "size"
  let previousHash ← v.require "previousHash"
  let merkleRootHash ← v.require "merkleRootHash"
  let timestamp ← v.require "timestamp"
  let bits ← v.require "nBits"
  let transactionCount ← v.require "txCount"
  let nonce ← v.require "nNonce"
  return ⟨hash, height, version, size, previousHash, merkleRootHash, timestamp, bits,
    transactionCount, nonce⟩

/-- The block as an object. -/
def view (b : BlockRecord) : Value :=
  .object .blockRecord
    [("hash", b.hash), ("height", b.height), ("version", b.version), ("size", b.size),
      ("previous_hash", b.previousHash), ("merkle_root_hash", b.merkleRootHash),
      ("timestamp", b.timestamp), ("bits", b.bits), ("tx_count", b.transactionCount),
      ("nonce", b.nonce)] (some b.document)

end BlockRecord

end BlockArchive
