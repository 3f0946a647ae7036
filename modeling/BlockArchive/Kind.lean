import BlockArchive.Category

/-!
# Kinds of objects

The objects that can stand inside a value: the parts of a block as delivered, the records kept of
them, and reports of failures.

* `Kind.name` is the name under which a kind is shown.
-/

namespace BlockArchive

/-- A kind of object. -/
inductive Kind where
  /-- A reference to an output. -/
  | outPoint
  /-- An input as delivered. -/
  | txInput
  /-- An output as delivered. -/
  | txOutput
  /-- The outcome of evaluating a script. -/
  | evaluatedScript
  /-- An output with its evaluated script. -/
  | evaluatedTxOut
  /-- A transaction as delivered. -/
  | evaluatedTx
  /-- The header of a block. -/
  | blockHeader
  /-- A block as delivered. -/
  | block
  /-- The key of an output. -/
  | outputKey
  /-- Value and address of an output. -/
  | outputRecord
  /-- An output as kept. -/
  | txOutputRecord
  /-- An input as kept. -/
  | resolvedInput
  /-- A transaction as kept. -/
  | transactionRecord
  /-- A kept transaction as it is looked up. -/
  | storedTransaction
  /-- A block as kept. -/
  | blockRecord
  /-- A report of a failure. -/
  | report (category : Category)
deriving DecidableEq, Repr

namespace Kind

/-- The name under which a kind is shown. -/
def name : Kind → String
  | .outPoint => "OutPoint"
  | .txInput => "TxInput"
  | .txOutput => "TxOutput"
  | .evaluatedScript => "EvaluatedScript"
  | .evaluatedTxOut => "EvaluatedTxOut"
  | .evaluatedTx => "EvaluatedTx"
  | .blockHeader => "BlockHeader"
  | .block => "Block"
  | .outputKey => "OutputKey"
  | .outputRecord => "OutputRecord"
  | .txOutputRecord => "TxOutputRecord"
  | .resolvedInput => "ResolvedInput"
  | .transactionRecord => "TransactionRecord"
  | .storedTransaction => "StoredTransaction"
  | .blockRecord => "BlockRecord"
  | .report c => c.name

/-- The kinds of blocks, their parts and their records. -/
def chainKinds : List Kind :=
  [.outPoint, .txInput, .txOutput, .evaluatedScript, .evaluatedTxOut, .evaluatedTx, .blockHeader,
    .block, .outputKey, .outputRecord, .txOutputRecord, .resolvedInput, .transactionRecord,
    .storedTransaction, .blockRecord]

/-- The kind of a name among blocks, parts and records. -/
def ofName? (s : String) : Option Kind := chainKinds.find? fun k => k.name == s

end Kind

end BlockArchive
