import BlockArchive.Value

/-!
# Blocks as delivered

A block arrives with its transactions taken apart and the scripts of their outputs evaluated.
Hashes are in internal order. An evaluated script has the address it pays to, or nothing where its
pattern was not recognised; address and pattern are whatever the evaluation gave.

* `OutPoint`, `TxInput`, `TxOutput`, `Evaluation`, `EvaluatedOutput`, `Transaction`,
  `BlockHeader` and `Block` are the parts;
* each has a `view` as an object with named fields.
-/

namespace BlockArchive

/-- A reference to an output of an earlier transaction. -/
structure OutPoint where
  /-- The hash of the transaction. -/
  hash : Hash
  /-- The position of the output in it. -/
  index : Nat
deriving DecidableEq

/-- An input: the output that it spends and the script that unlocks it. -/
structure TxInput where
  /-- The output spent. -/
  source : OutPoint
  /-- The unlocking script. -/
  script : Bytes
  /-- The sequence number. -/
  sequence : Int
deriving DecidableEq

/-- An output: its value and the script that locks it. -/
structure TxOutput where
  /-- The value in the least unit. -/
  value : UInt64
  /-- The locking script. -/
  script : Bytes
deriving DecidableEq

/-- What the evaluation of a locking script gave. -/
structure Evaluation where
  /-- The address, or nothing. -/
  address : Value
  /-- The name of the script's pattern. -/
  pattern : Value

/-- An output with its evaluation. -/
structure EvaluatedOutput where
  /-- The output. -/
  output : TxOutput
  /-- The evaluation of its script. -/
  evaluation : Evaluation

/-- A transaction. -/
structure Transaction where
  /-- The hash. -/
  hash : Hash
  /-- The version. -/
  version : Int
  /-- The lock time. -/
  locktime : Int
  /-- The inputs in order. -/
  inputs : List TxInput
  /-- The outputs in order. -/
  outputs : List EvaluatedOutput

/-- The header of a block. -/
structure BlockHeader where
  /-- The hash of the block. -/
  hash : Hash
  /-- The version. -/
  version : Int
  /-- The hash of the block before. -/
  previous : Hash
  /-- The root of the tree of transaction hashes. -/
  merkleRoot : Hash
  /-- The time stamp. -/
  timestamp : Int
  /-- The packed target. -/
  bits : Int
  /-- The nonce. -/
  nonce : Int
deriving DecidableEq

/-- A block. -/
structure Block where
  /-- The header. -/
  header : BlockHeader
  /-- The size in bytes. -/
  size : Int
  /-- The transactions in order. -/
  transactions : List Transaction

namespace OutPoint

/-- The outpoint of an input that spends no output. -/
def isNull (o : OutPoint) : Bool := o.hash == Hash.null

/-- The outpoint as an object. -/
def view (o : OutPoint) : Value :=
  .object .outPoint [("txid", .bytes o.hash.bytes), ("index", .nat o.index)] none

end OutPoint

/-- The input as an object. -/
def TxInput.view (i : TxInput) : Value :=
  .object .txInput
    [("outpoint", i.source.view), ("script_sig", .bytes i.script), ("seq_no", .int i.sequence)] none

/-- The output as an object. -/
def TxOutput.view (o : TxOutput) : Value :=
  .object .txOutput [("value", .nat o.value.toNat), ("script_pubkey", .bytes o.script)] none

/-- The evaluation as an object. -/
def Evaluation.view (e : Evaluation) : Value :=
  .object .evaluatedScript [("address", e.address), ("pattern", e.pattern)] none

/-- The evaluated output as an object. -/
def EvaluatedOutput.view (o : EvaluatedOutput) : Value :=
  .object .evaluatedTxOut [("out", o.output.view), ("script", o.evaluation.view)] none

/-- The transaction as an object. -/
def Transaction.view (t : Transaction) : Value :=
  .object .evaluatedTx
    [("hash", .bytes t.hash.bytes), ("version", .int t.version), ("locktime", .int t.locktime),
      ("inputs", .frozen (t.inputs.map TxInput.view)),
      ("outputs", .frozen (t.outputs.map EvaluatedOutput.view))] none

/-- The header as an object. -/
def BlockHeader.view (h : BlockHeader) : Value :=
  .object .blockHeader
    [("hash", .bytes h.hash.bytes), ("version", .int h.version),
      ("prev_hash", .bytes h.previous.bytes), ("merkle_root", .bytes h.merkleRoot.bytes),
      ("timestamp", .int h.timestamp), ("bits", .int h.bits), ("nonce", .int h.nonce)] none

/-- The block as an object. -/
def Block.view (b : Block) : Value :=
  .object .block
    [("header", b.header.view), ("size", .int b.size),
      ("txs", .frozen (b.transactions.map Transaction.view))] none

end BlockArchive
