import BlockArchive.Coin
import BlockArchive.Ingest.Cache
import BlockArchive.Ingest.Tally
import BlockArchive.Store.Basic

/-!
# Resolution of inputs

For each input the value and address of the output that it spends are found: an input that spends
none gets value zero and the address of the policy; else the cache of the block is asked, and only
if it has nothing the store, once. What is found nowhere gets value zero and no address, with a
warning. Nothing is written to the store.

* `Resolution.resolve` resolves an input, `Resolution.resolveAll` those of a transaction;
* `Resolution` is the state: the store and the counters.
-/

namespace BlockArchive

/-- The address kept for inputs that spend no output. -/
def CoinbasePolicy.address : CoinbasePolicy → String
  | .sentinel => Hash.null.display
  | .empty => ""

/-- A store and the counters of the resolution that asks it. -/
structure Resolution (σ : Type) where
  /-- The store. -/
  store : σ
  /-- The counters. -/
  tally : Tally

namespace Resolution

variable {σ : Type}

/-- Works on the store. -/
def onStore {α : Type} (a : Act σ α) : Act (Resolution σ) α :=
  Act.within Resolution.store (fun s r => { r with store := s }) a

/-- Changes the counters. -/
def tick (f : Tally → Tally) : Act (Resolution σ) Unit :=
  Act.update fun r => { r with tally := f r.tally }

/-- The payment of the output that an input spends, from the cache or else from the store. -/
def lookup [Store σ] (cache : Cache) (source : OutPoint) : Act (Resolution σ) (Option Payment) := do
  match cache.get? (.ofOutPoint source) with
  | some payment => do
    tick fun t => { t with cacheHits := t.cacheHits + 1 }
    return some payment
  | none => do
    tick fun t => { t with storeQueries := t.storeQueries + 1 }
    match ← onStore (Store.find source.hash.display) with
    | none => return none
    | some stored => do
      match ← Act.lift (stored.output source.index) with
      | none => return none
      | some payment => do
        tick fun t => { t with storeHits := t.storeHits + 1 }
        return some payment

/-- The row that warns of an input whose output, shown as `key`, was not found. -/
def warning (txHash : String) (index : Nat) (source : OutPoint) (key : String) : Row where
  level := .warning
  category := some "resolver"
  message :=
    "Unable to resolve previous output " ++ key ++ " spent by txid: " ++ txHash ++ " (input " ++
      Text.ofInt index ++ ")"
  extra :=
    [("txid", .string txHash), ("index_in", .nat index),
      ("hash_prev_out", .string source.hash.display), ("index_prev_out", .nat source.index)]

/-- The row that reports an input whose output was not found. -/
def unresolvedRow (txHash : String) (index : Nat) (source : OutPoint) : Except Fault Row := do
  return warning txHash index source (← (OutputKey.ofOutPoint source).text)

/-- The payment of an input. -/
def payment [Store σ] (policy : CoinbasePolicy) (cache : Cache) (txHash : String) (index : Nat)
    (source : OutPoint) : Act (Resolution σ) Payment := do
  if source.isNull then
    tick fun t => { t with coinbase := t.coinbase + 1 }
    return ⟨0, .string policy.address⟩
  match ← lookup cache source with
  | some found => return found
  | none =>
    tick fun t => { t with unresolved := t.unresolved + 1 }
    Act.log (← Act.lift (unresolvedRow txHash index source))
    return ⟨0, .string ""⟩

/-- The record of an input with its payment. -/
def record (txHash : String) (index : Nat) (input : TxInput) (p : Payment) : ResolvedInput where
  txHash := .string txHash
  index := .nat index
  previousHash := .string input.source.hash.display
  previousIndex := .nat input.source.index
  script := .string (Hex.encode input.script)
  sequence := .int input.sequence
  value := .nat p.value.toNat
  address := p.address

/-- Resolves the input at a position of a transaction. -/
def resolve [Store σ] (policy : CoinbasePolicy) (cache : Cache) (txHash : String) (index : Nat)
    (input : TxInput) : Act (Resolution σ) ResolvedInput := do
  let p ← payment policy cache txHash index input.source
  return record txHash index input p

/-- Resolves inputs in order; the first has the given position. -/
def resolveFrom [Store σ] (policy : CoinbasePolicy) (cache : Cache) (txHash : String) :
    Nat → List TxInput → Act (Resolution σ) (List ResolvedInput)
  | _, [] => return []
  | index, input :: rest => do
    let first ← resolve policy cache txHash index input
    let others ← resolveFrom policy cache txHash (index + 1) rest
    return first :: others

/-- Resolves the inputs of a transaction. -/
def resolveAll [Store σ] (policy : CoinbasePolicy) (cache : Cache) (t : Transaction) :
    Act (Resolution σ) (List ResolvedInput) :=
  resolveFrom policy cache t.hash.display 0 t.inputs

end Resolution

end BlockArchive
