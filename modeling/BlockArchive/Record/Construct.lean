import BlockArchive.Record.Basic

/-!
# Objects from loose values

Code outside the archive may put together blocks, parts and records from values of any type. Only
three things are then checked: that hashes are byte strings of 32 bytes, that indexes are not
below zero, and that values of outputs are unsigned 64-bit numbers.

* `Kind.construct` makes an object of a kind from the values of its fields in order;
* `Transaction.ofView?` takes an object back as a transaction, if its parts have their types.
-/

namespace BlockArchive

namespace Kind

/-- The fields of a kind in order, each with the value it has if none is given. -/
def parameters : Kind → List (String × Option Value)
  | .outPoint => [("txid", none), ("index", none)]
  | .txInput =>
    [("outpoint", none), ("script_sig", some (.bytes [])), ("seq_no", some (.int 0xFFFFFFFF))]
  | .txOutput => [("value", none), ("script_pubkey", some (.bytes []))]
  | .evaluatedScript => [("address", none), ("pattern", some (.string "NotRecognised"))]
  | .evaluatedTxOut => [("out", none), ("script", none)]
  | .evaluatedTx =>
    [("hash", none), ("version", none), ("locktime", none), ("inputs", some (.frozen [])),
      ("outputs", some (.frozen []))]
  | .blockHeader =>
    [("hash", none), ("version", none), ("prev_hash", none), ("merkle_root", none),
      ("timestamp", none), ("bits", none), ("nonce", none)]
  | .block => [("header", none), ("size", none), ("txs", some (.frozen []))]
  | .outputKey => [("tx_hash", none), ("index", none)]
  | .outputRecord => [("value", none), ("address", some (.string ""))]
  | .txOutputRecord =>
    [("tx_hash", none), ("index_out", none), ("value", none), ("script_pubkey", none),
      ("address", none)]
  | .resolvedInput =>
    [("tx_hash", none), ("index_in", none), ("hash_prev_out", none), ("index_prev_out", none),
      ("script_sig", none), ("sequence_number", none), ("value", none), ("address", none)]
  | .transactionRecord =>
    [("tx_hash", none), ("block_hash", none), ("version", none), ("lock_time", none),
      ("inputs", some (.frozen [])), ("outputs", some (.frozen []))]
  | .storedTransaction => [("tx_hash", none), ("block_hash", none), ("outputs", some (.frozen []))]
  | .blockRecord =>
    [("hash", none), ("height", none), ("version", none), ("size", none),
      ("previous_hash", none), ("merkle_root_hash", none), ("timestamp", none), ("bits", none),
      ("tx_count", none), ("nonce", none)]
  | .report _ => []

/-- Gives the fields their values in order. -/
def assign : List (String × Option Value) → List Value → List (String × Value)
  | [], _ => []
  | (name, default) :: rest, [] => (name, default.getD .null) :: assign rest []
  | (name, _) :: rest, v :: vs => (name, v) :: assign rest vs

/-- The value of a field, nothing if there is none. -/
def at? (fields : List (String × Value)) (name : String) : Value :=
  (Value.lookup? name fields).getD .null

/-- The field holds the bytes of a hash. -/
def checkHash (fields : List (String × Value)) (name shown : String) : Except Fault Unit :=
  match (at? fields name).bytes? with
  | some b => if b.length = hashSize then .ok () else .error (.problem (.hashSize shown))
  | none => .error (.problem (.hashSize shown))

/-- The field holds no negative number. -/
def checkIndex (fields : List (String × Value)) (name : String) (problem : Value → Problem) :
    Except Fault Unit := do
  let v := at? fields name
  if ← v.isNegative then .error (.ofProblem (problem v)) else .ok ()

/-- The checks of a kind. -/
def check (kind : Kind) (fields : List (String × Value)) : Except Fault Unit :=
  match kind with
  | .outPoint => do
    checkHash fields "txid" "outpoint.txid"
    checkIndex fields "index" .outpointIndex
  | .evaluatedTx => checkHash fields "hash" "tx.hash"
  | .blockHeader => do
    checkHash fields "hash" "header.hash"
    checkHash fields "prev_hash" "header.prev_hash"
    checkHash fields "merkle_root" "header.merkle_root"
  | .outputKey => do
    checkHash fields "tx_hash" "output_key.tx_hash"
    checkIndex fields "index" .outputIndex
  | .txOutput | .outputRecord => do
    let _ ← (at? fields "value").toAmount
    return ()
  | _ => .ok ()

/-- The document of an item of a list. -/
def itemDocument : Value → Value
  | .object _ _ (some d) => d
  | v => v

/-- The documents of the items of a field. -/
def itemDocuments (fields : List (String × Value)) (name : String) : List Value :=
  ((at? fields name).items?.getD []).map itemDocument

/-- The kept output with these fields. -/
def keptOutput (fields : List (String × Value)) : KeptOutput :=
  ⟨at? fields "tx_hash", at? fields "index_out", at? fields "value", at? fields "script_pubkey",
    at? fields "address"⟩

/-- The kept input with these fields. -/
def resolvedInputOf (fields : List (String × Value)) : ResolvedInput :=
  ⟨at? fields "tx_hash", at? fields "index_in", at? fields "hash_prev_out",
    at? fields "index_prev_out", at? fields "script_sig", at? fields "sequence_number",
    at? fields "value", at? fields "address"⟩

/-- The kept block with these fields. -/
def blockRecordOf (fields : List (String × Value)) : BlockRecord :=
  ⟨at? fields "hash", at? fields "height", at? fields "version", at? fields "size",
    at? fields "previous_hash", at? fields "merkle_root_hash", at? fields "timestamp",
    at? fields "bits", at? fields "tx_count", at? fields "nonce"⟩

/-- The document of a kept transaction with these fields. -/
def transactionDocument (fields : List (String × Value)) : Value :=
  let inputs := itemDocuments fields "inputs"
  let outputs := itemDocuments fields "outputs"
  .mapping [("txHash", at? fields "tx_hash"), ("blockHash", at? fields "block_hash"),
    ("version", at? fields "version"), ("lockTime", at? fields "lock_time"),
    ("inputCount", .nat inputs.length), ("txInputs", .list inputs),
    ("outputCount", .nat outputs.length), ("txOutputs", .list outputs)]

/-- The document of a kind that has one. -/
def documentOf? (kind : Kind) (fields : List (String × Value)) : Option Value :=
  match kind with
  | .txOutputRecord => some (keptOutput fields).document
  | .resolvedInput => some (resolvedInputOf fields).document
  | .blockRecord => some (blockRecordOf fields).document
  | .transactionRecord => some (transactionDocument fields)
  | _ => none

/-- An object of a kind with the values of its fields in order. -/
def construct (kind : Kind) (args : List Value) : Except Fault Value := do
  let fields := assign kind.parameters args
  kind.check fields
  return .object kind fields (kind.documentOf? fields)

/-- Reads a document of a kind that is stored as one, and shows what was read as an object. -/
def viewOfDocument (kind : Kind) (document : Value) : Except Fault Value :=
  match kind with
  | .txOutputRecord => (KeptOutput.ofDocument document).map KeptOutput.view
  | .resolvedInput => (ResolvedInput.ofDocument document).map ResolvedInput.view
  | .transactionRecord => (TransactionRecord.ofDocument document).map TransactionRecord.view
  | .blockRecord => (BlockRecord.ofDocument document).map BlockRecord.view
  | .storedTransaction => (StoredTransaction.ofDocument document).map StoredTransaction.view
  | _ => .error (.noAttribute "type" "from_document")

/-- Reads a fixture's form of a kind that fixtures hold, and shows what was read as an object. -/
def viewOfFixture (kind : Kind) (data : Value) : Except Fault Value :=
  match kind with
  | .txInput => (TxInput.read data).map TxInput.view
  | .evaluatedTxOut => (EvaluatedOutput.read data).map EvaluatedOutput.view
  | .evaluatedTx => (Transaction.read data).map Transaction.view
  | .block => (Block.read data).map Block.view
  | _ => .error (.noAttribute "type" "from_dict")

end Kind

/-- A whole number as a value, back. -/
def Value.int? : Value → Option Int
  | .int n => some n
  | _ => none

/-- The hash in a field of an object. -/
def Value.hashField? (v : Value) (name : String) : Option Hash :=
  ((v.field? name).bind Value.bytes?).bind Hash.ofBytes?

/-- The input that an object shows. -/
def TxInput.ofView? (v : Value) : Option TxInput := do
  let source ← v.field? "outpoint"
  let hash ← source.hashField? "txid"
  let index ← (← source.field? "index").int?
  let script ← (← v.field? "script_sig").bytes?
  let sequence ← (← v.field? "seq_no").int?
  return ⟨⟨hash, index.toNat⟩, script, sequence⟩

/-- The evaluated output that an object shows. -/
def EvaluatedOutput.ofView? (v : Value) : Option EvaluatedOutput := do
  let output ← v.field? "out"
  let value ← (← output.field? "value").int?
  let script ← (← output.field? "script_pubkey").bytes?
  let evaluation ← v.field? "script"
  let address ← evaluation.field? "address"
  let pattern ← evaluation.field? "pattern"
  return ⟨⟨UInt64.ofNat value.toNat, script⟩, ⟨address, pattern⟩⟩

/-- The transaction that an object shows, if its parts have their types. -/
def Transaction.ofView? (v : Value) : Option Transaction := do
  let hash ← v.hashField? "hash"
  let version ← (← v.field? "version").int?
  let locktime ← (← v.field? "locktime").int?
  let inputs ← (← (← v.field? "inputs").items?).mapM TxInput.ofView?
  let outputs ← (← (← v.field? "outputs").items?).mapM EvaluatedOutput.ofView?
  return ⟨hash, version, locktime, inputs, outputs⟩

end BlockArchive
