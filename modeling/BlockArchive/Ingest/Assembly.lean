import BlockArchive.Act
import BlockArchive.Record.Basic

/-!
# Assembly of records

The records of a transaction's outputs and of the transaction itself. An output whose script has
no recognised address is kept with an empty one, and reported.

* `KeptOutput.ofOutput` is the record of an output, `Transaction.keepOutputs` those of all
  outputs;
* `Transaction.record` puts the parts together.
-/

namespace BlockArchive

/-- The address that is kept: empty where the evaluation gave none. -/
def Evaluation.keptAddress (e : Evaluation) : Value :=
  if e.address.isTruthy then e.address else .string ""

/-- The record of the output at a position. -/
def KeptOutput.ofOutput (txHash : String) (index : Nat) (o : EvaluatedOutput) : KeptOutput where
  txHash := .string txHash
  index := .nat index
  value := .nat o.output.value.toNat
  script := .string (Hex.encode o.output.script)
  address := o.evaluation.keptAddress

/-- The row that tells of an output without a recognised address, whose pattern is shown as
`pattern`. -/
def Evaluation.notice (e : Evaluation) (txHash : String) (index : Nat) (pattern : String) :
    Row where
  level := .debug
  category := some "records"
  message := "Unable to evaluate address for utxo in txid: " ++ txHash ++ " (" ++ pattern ++ ")"
  extra := [("txid", .string txHash), ("index_out", .nat index), ("pattern", e.pattern)]

/-- The row that reports an output without a recognised address. -/
def Evaluation.unrecognisedRow (e : Evaluation) (txHash : String) (index : Nat) :
    Except Fault Row := do
  return e.notice txHash index (← e.pattern.shown)

namespace Transaction

variable {σ : Type}

/-- The records of outputs in order, the first at the given position. -/
def keepFrom (txHash : String) : Nat → List EvaluatedOutput → Act σ (List KeptOutput)
  | _, [] => return []
  | index, o :: rest => do
    if !o.evaluation.address.isTruthy then
      Act.log (← Act.lift (o.evaluation.unrecognisedRow txHash index))
    let others ← keepFrom txHash (index + 1) rest
    return .ofOutput txHash index o :: others

/-- The records of the outputs of a transaction. -/
def keepOutputs (t : Transaction) : Act σ (List KeptOutput) := keepFrom t.hash.display 0 t.outputs

/-- The record of a transaction in a block. -/
def record (t : Transaction) (blockHash : String) (inputs : List ResolvedInput)
    (outputs : List KeptOutput) : TransactionRecord where
  hash := .string t.hash.display
  blockHash := .string blockHash
  version := .int t.version
  lockTime := .int t.locktime
  inputs := inputs
  outputs := outputs

end Transaction

/-- The number of outputs without an address. -/
def unrecognisedCount (outputs : List KeptOutput) : Nat :=
  outputs.countP fun o => !o.address.isTruthy

end BlockArchive
