import BlockArchive.Proofs.Ingest.Notices
import BlockArchive.Proofs.Ingest.Taking
import BlockArchive.Proofs.Store.Memory
import Mathlib

/-!
# How inputs come by their payments

An input is settled in one of four ways: it spends no output, its output is in the cache, its output
is in the store, or it is found nowhere. Over a store in memory whose values are all amounts the way
depends only on the cache and on what look-ups find, and everything that the resolution of a block
does follows from it: the records, the counters, the questions put to the store and the rows.

* `Settlement` is the way, with the payment, the tally, the look-ups and the rows that go with it;
* `MemoryStore.Sound` says that all stored values are amounts, `MemoryStore.paid?` is what the store
  has under an outpoint;
* `Settled` is a transaction with the settlement of each outpoint, and `settleFrom` settles the
  transactions of a block, whose cache grows as they are worked through;
* `Pipeline.take_runAt`: what taking in a block does at a station.
-/

namespace BlockArchive

/-! ### Tallies add up -/

attribute [ext] Tally

namespace Tally

instance : Zero Tally := ⟨{}⟩

instance : Add Tally := ⟨add⟩

@[simp] theorem add_eq (a b : Tally) : a.add b = a + b := rfl

theorem add_mk (a : Tally) (cacheHits storeHits storeQueries unresolved coinbase : Int) :
    a + ⟨cacheHits, storeHits, storeQueries, unresolved, coinbase⟩ =
      ⟨a.cacheHits + cacheHits, a.storeHits + storeHits, a.storeQueries + storeQueries,
        a.unresolved + unresolved, a.coinbase + coinbase⟩ := rfl

@[simp] theorem empty_add (a : Tally) : ({} : Tally) + a = a := by
  ext <;> exact Int.zero_add _

@[simp] theorem cacheHits_add (a b : Tally) : (a + b).cacheHits = a.cacheHits + b.cacheHits := rfl

@[simp] theorem storeHits_add (a b : Tally) : (a + b).storeHits = a.storeHits + b.storeHits := rfl

@[simp] theorem storeQueries_add (a b : Tally) :
    (a + b).storeQueries = a.storeQueries + b.storeQueries := rfl

@[simp] theorem unresolved_add (a b : Tally) :
    (a + b).unresolved = a.unresolved + b.unresolved := rfl

@[simp] theorem coinbase_add (a b : Tally) : (a + b).coinbase = a.coinbase + b.coinbase := rfl

instance : AddCommMonoid Tally where
  add_assoc a b c := by ext <;> simp [Int.add_assoc]
  zero_add a := by ext <;> exact Int.zero_add _
  add_zero a := by ext <;> exact Int.add_zero _
  add_comm a b := by ext <;> simp [Int.add_comm]
  nsmul := nsmulRec

end Tally

/-! ### Settlements -/

/-- How an input comes by its payment. -/
inductive Settlement where
  /-- It spends no output. -/
  | coinbase
  /-- Its output is in the cache. -/
  | cached (p : Payment)
  /-- Its output is in the store. -/
  | stored (p : Payment)
  /-- Its output is found nowhere. -/
  | unresolved

namespace Settlement

/-- The payment that the input gets. -/
def payment (policy : CoinbasePolicy) : Settlement → Payment
  | .coinbase => ⟨0, .string policy.address⟩
  | .cached p | .stored p => p
  | .unresolved => ⟨0, .string ""⟩

/-- What the settlement counts as. -/
def tally : Settlement → Tally
  | .coinbase => { coinbase := 1 }
  | .cached _ => { cacheHits := 1 }
  | .stored _ => { storeQueries := 1, storeHits := 1 }
  | .unresolved => { storeQueries := 1, unresolved := 1 }

/-- The number of questions put to the store. -/
def asked : Settlement → Nat
  | .coinbase | .cached _ => 0
  | .stored _ | .unresolved => 1

/-- The rows that report the settlement. -/
def rows (txHash : String) (index : Nat) (source : OutPoint) : Settlement → List Row
  | .unresolved => [Resolution.lossRow txHash index source]
  | _ => []

/-- If the output is found nowhere, its index can be shown. -/
def Reportable (source : OutPoint) (w : Settlement) : Prop :=
  w = .unresolved → Document.isTooLong source.index = false

/-- The settlement of an input by a cache and what a store has. -/
def of (paid : OutPoint → Option Payment) (c : Cache) (source : OutPoint) : Settlement :=
  if source.isNull then .coinbase
  else match c.get? (.ofOutPoint source) with
    | some p => .cached p
    | none => match paid source with
      | some p => .stored p
      | none => .unresolved

end Settlement

/-! ### Stores of amounts -/

namespace MemoryStore

/-- All stored values are unsigned 64-bit numbers. -/
def Sound (m : MemoryStore) : Prop :=
  ∀ r ∈ m.transactions, ∀ o ∈ r.outputs, ∃ n : UInt64, o.value = .nat n.toNat

/-- The payment of the stored output that an outpoint refers to. -/
def paid? (m : MemoryStore) (source : OutPoint) : Option Payment := do
  let stored ← m.lookup? source.hash.display
  let o ← stored.select? source.index
  o.payment.toOption

@[simp] theorem paid?_ask (m : MemoryStore) (n : Nat) : (m.ask n).paid? = m.paid? := rfl

theorem Sound.ask {m : MemoryStore} (hm : m.Sound) (n : Nat) : (m.ask n).Sound := hm

end MemoryStore

theorem StoredTransaction.mem_of_select? {t : StoredTransaction} {index : Int} {o : KeptOutput}
    (h : t.select? index = some o) : o ∈ t.outputs ∧ o.index.equalsInt index = true := by
  simp only [select?] at h
  split at h
  · rename_i o' hplaced
    obtain ⟨hget, hindex⟩ := Option.filter_eq_some_iff.1 hplaced
    obtain rfl : o' = o := Option.some.inj h
    split at hget
    · exact ⟨List.mem_of_getElem? hget, hindex⟩
    · cases hget
  · have hindex := List.find?_some h
    exact ⟨List.mem_of_find?_eq_some h, hindex⟩

/-- Over a sound store the output of an index can be given wherever there is one. -/
theorem MemoryStore.Sound.output {m : MemoryStore} (hm : m.Sound) {hash : String}
    {t : StoredTransaction} (h : m.lookup? hash = some t) (index : Int) :
    t.output index = .ok (do (← t.select? index).payment.toOption) := by
  obtain ⟨r, hmem, -, rfl⟩ := MemoryStore.exists_of_lookup? h
  cases ho : (StoredTransaction.ofRecord r).select? index with
  | none => simp [StoredTransaction.output, ho]
  | some o =>
    obtain ⟨n, hn⟩ := hm r hmem o (StoredTransaction.mem_of_select? ho).1
    have hp : o.payment = .ok ⟨n, o.address⟩ := by
      simp only [KeptOutput.payment, hn, Value.toAmount_nat]
      rfl
    simp [StoredTransaction.output, ho, hp, Except.map, Except.toOption]

/-- Of a transaction that is found, the output of an outpoint is what the store has under it. -/
theorem MemoryStore.Sound.output_paid? {m : MemoryStore} (hm : m.Sound) {source : OutPoint}
    {t : StoredTransaction} (h : m.lookup? source.hash.display = some t) :
    t.output source.index = .ok (m.paid? source) := by
  rw [hm.output h, paid?, h]
  rfl

theorem MemoryStore.paid?_of_not_found {m : MemoryStore} {source : OutPoint}
    (h : m.lookup? source.hash.display = none) : m.paid? source = none := by
  rw [paid?, h]
  rfl

/-! ### Settled transactions -/

/-- A transaction with the settlement of each outpoint. -/
structure Settled where
  /-- The transaction. -/
  transaction : Transaction
  /-- The settlements. -/
  settle : OutPoint → Settlement

/-- Transactions settled one after the other, each by the cache with its own outputs entered. -/
def settleFrom (paid : OutPoint → Option Payment) : Cache → List Transaction → List Settled
  | _, [] => []
  | c, t :: rest => ⟨t, .of paid (c.enter t)⟩ :: settleFrom paid (c.enter t) rest

@[simp] theorem length_settleFrom (paid : OutPoint → Option Payment) (c : Cache)
    (ts : List Transaction) : (settleFrom paid c ts).length = ts.length := by
  induction ts generalizing c with
  | nil => rfl
  | cons t rest ih => simp [settleFrom, ih]

theorem settleFrom_append (paid : OutPoint → Option Payment) (c : Cache)
    (ts us : List Transaction) :
    settleFrom paid c (ts ++ us) = settleFrom paid c ts ++ settleFrom paid (c.after ts) us := by
  induction ts generalizing c with
  | nil => rfl
  | cons t rest ih => simp [settleFrom, ih]

theorem getElem?_settleFrom (paid : OutPoint → Option Payment) (c : Cache) (ts : List Transaction)
    (k : Nat) :
    (settleFrom paid c ts)[k]? =
      (ts[k]?).map fun t => ⟨t, .of paid (c.after (ts.take (k + 1)))⟩ := by
  induction ts generalizing c k with
  | nil => rfl
  | cons t rest ih =>
    cases k with
    | zero => simp [settleFrom]
    | succ k => simp [settleFrom, ih]

namespace Settled

/-- The resolved inputs. -/
def inputs (policy : CoinbasePolicy) (s : Settled) : List ResolvedInput :=
  s.transaction.inputs.mapIdx fun j i =>
    Resolution.record s.transaction.hash.display j i ((s.settle i.source).payment policy)

/-- The record of the transaction in a block. -/
def record (policy : CoinbasePolicy) (blockHash : String) (s : Settled) : TransactionRecord :=
  s.transaction.record blockHash (s.inputs policy) s.transaction.kept

/-- What the inputs count as. -/
def tally (s : Settled) : Tally := (s.transaction.inputs.map fun i => (s.settle i.source).tally).sum

/-- The number of questions put to the store. -/
def asked (s : Settled) : Nat := (s.transaction.inputs.map fun i => (s.settle i.source).asked).sum

/-- The rows that report the outputs without an address, then the inputs that are not resolved. -/
def rows (s : Settled) : List Row :=
  (s.transaction.outputs.mapIdx fun j o => o.rows s.transaction.hash.display j).flatten ++
  (s.transaction.inputs.mapIdx fun j i =>
    (s.settle i.source).rows s.transaction.hash.display j i.source).flatten

/-- All these rows can be written. -/
structure Reportable (s : Settled) : Prop where
  outputs : ∀ o ∈ s.transaction.outputs, o.Reportable
  inputs : ∀ i ∈ s.transaction.inputs, (s.settle i.source).Reportable i.source

end Settled

/-! ### What resolution does -/

theorem Pipeline.batchFrom_cons {σ : Type} [Store σ] (policy : CoinbasePolicy) (blockHash : String)
    (c : Cache) (t : Transaction) (rest : List Transaction) :
    (batchFrom policy blockHash c (t :: rest) : Act (Resolution σ) _) = (do
      let _ ← t.keepOutputs
      let inputs ← Resolution.resolveAll policy (c.enter t) t
      let others ← batchFrom policy blockHash (c.enter t) rest
      return t.record blockHash inputs t.kept :: others) := by
  refine Act.ext_runAt fun d => ?_
  simp only [batchFrom, Act.runAt_bind]
  cases hkept : ((t.keepOutputs : Act (Resolution σ) _).runAt d).1 with
  | error f => rfl
  | ok kept =>
    obtain rfl := Transaction.kept_of_keepOutputs_ok hkept
    simp only [Act.runAt_lift, Cache.cacheOutputs_kept]

namespace Resolution

variable {m : MemoryStore} (hm : m.Sound)
include hm

theorem lookup_runAt (c : Cache) (source : OutPoint) (tally : Tally) (rows : List Row)
    (hc : c.get? (.ofOutPoint source) = none) :
    (lookup c source).runAt ⟨⟨m, tally⟩, rows⟩ =
      (.ok (m.paid? source),
        ⟨⟨m.ask 1, tally +
            { storeQueries := 1, storeHits := if (m.paid? source).isSome then 1 else 0 }⟩,
          rows⟩) := by
  simp only [lookup, hc, tick, onStore, Act.runAt_bind, Act.runAt_update, Act.runAt_within,
    MemoryStore.find_runAt, Tally.add_mk, Int.add_zero]
  cases hl : m.lookup? source.hash.display with
  | none => simp [MemoryStore.paid?_of_not_found hl]
  | some stored =>
    have ho := hm.output_paid? hl
    cases hs : m.paid? source <;> simp [ho, hs, Except.map]

theorem payment_runAt (policy : CoinbasePolicy) (c : Cache) (txHash : String) (index : Nat)
    {source : OutPoint} (hrow : (Settlement.of m.paid? c source).Reportable source) (tally : Tally)
    (rows : List Row) :
    (payment policy c txHash index source).runAt ⟨⟨m, tally⟩, rows⟩ =
      (.ok ((Settlement.of m.paid? c source).payment policy),
        ⟨⟨m.ask (Settlement.of m.paid? c source).asked,
            tally + (Settlement.of m.paid? c source).tally⟩,
          rows ++ (Settlement.of m.paid? c source).rows txHash index source⟩) := by
  unfold Settlement.of at hrow ⊢
  unfold payment
  by_cases hnull : source.isNull = true
  · simp [hnull, tick, Settlement.payment, Settlement.tally, Settlement.asked, Settlement.rows,
      Tally.add_mk, Except.map]
  · cases hc : c.get? (.ofOutPoint source) with
    | some p =>
      simp [hnull, lookup, hc, tick, Settlement.payment, Settlement.tally, Settlement.asked,
        Settlement.rows, Tally.add_mk, Except.map]
    | none =>
      simp only [hnull, Bool.false_eq_true, ↓reduceIte, hc] at hrow
      simp only [hnull, Bool.false_eq_true, ↓reduceIte, Act.runAt_bind, lookup_runAt hm _ _ _ _ hc]
      cases hs : m.paid? source with
      | some p =>
        simp [Settlement.payment, Settlement.tally, Settlement.asked, Settlement.rows]
      | none =>
        rw [hs] at hrow
        simp [unresolvedRow_of_short txHash index (hrow rfl), tick, Settlement.payment,
          Settlement.tally, Settlement.asked, Settlement.rows, Tally.add_mk, Except.map]

theorem reportable_of_payment_ok {policy : CoinbasePolicy} {c : Cache} {txHash : String}
    {index : Nat} {source : OutPoint} {tally : Tally} {rows : List Row} {p : Payment}
    (hok : ((payment policy c txHash index source).runAt ⟨⟨m, tally⟩, rows⟩).1 = .ok p) :
    (Settlement.of m.paid? c source).Reportable source := by
  intro hw
  unfold Settlement.of at hw
  split at hw
  · cases hw
  · rename_i hnull
    split at hw
    · cases hw
    · rename_i hc
      split at hw
      · cases hw
      · rename_i hs
        rw [payment, if_neg hnull] at hok
        obtain ⟨found, hlookup, hok⟩ := Act.runAt_bind_ok hok
        rw [lookup_runAt hm _ _ _ _ hc, hs] at hlookup
        obtain rfl := Except.ok.inj hlookup
        obtain ⟨⟨⟩, -, hok⟩ := Act.runAt_bind_ok hok
        obtain ⟨row, hrow, -⟩ := Act.runAt_bind_ok hok
        rw [Act.runAt_lift] at hrow
        cases hlong : Document.isTooLong source.index with
        | false => rfl
        | true =>
          rw [unresolvedRow_of_long txHash index hlong] at hrow
          cases hrow

theorem resolveFrom_runAt (policy : CoinbasePolicy) (c : Cache) (txHash : String) (index : Nat)
    {inputs : List TxInput}
    (hrows : ∀ i ∈ inputs, (Settlement.of m.paid? c i.source).Reportable i.source) (tally : Tally)
    (rows : List Row) :
    (resolveFrom policy c txHash index inputs).runAt ⟨⟨m, tally⟩, rows⟩ =
      (.ok (inputs.mapIdx fun j i =>
          record txHash (index + j) i ((Settlement.of m.paid? c i.source).payment policy)),
        ⟨⟨m.ask (inputs.map fun i => (Settlement.of m.paid? c i.source).asked).sum,
            tally + (inputs.map fun i => (Settlement.of m.paid? c i.source).tally).sum⟩,
          rows ++ (inputs.mapIdx fun j i =>
            (Settlement.of m.paid? c i.source).rows txHash (index + j) i.source).flatten⟩) := by
  induction inputs generalizing m index tally rows with
  | nil => simp [resolveFrom]
  | cons i rest ih =>
    obtain ⟨hrow, hrest⟩ := List.forall_mem_cons.1 hrows
    rw [mapIdx_cons_add (fun j i =>
        record txHash j i ((Settlement.of m.paid? c i.source).payment policy)),
      mapIdx_cons_add (fun j (i : TxInput) =>
        (Settlement.of m.paid? c i.source).rows txHash j i.source)]
    simp only [resolveFrom, resolve, Act.runAt_bind, Act.runAt_pure,
      payment_runAt hm policy c txHash index hrow, ih (hm.ask _) _ hrest, MemoryStore.paid?_ask,
      MemoryStore.ask_ask, List.map_cons, List.sum_cons, List.flatten_cons, List.append_assoc,
      add_assoc]

theorem reportable_of_resolveFrom_ok {policy : CoinbasePolicy} {c : Cache} {txHash : String}
    {index : Nat} {inputs : List TxInput} {tally : Tally} {rows : List Row}
    {resolved : List ResolvedInput}
    (hok : ((resolveFrom policy c txHash index inputs).runAt ⟨⟨m, tally⟩, rows⟩).1 =
      .ok resolved) :
    ∀ i ∈ inputs, (Settlement.of m.paid? c i.source).Reportable i.source := by
  induction inputs generalizing m index tally rows resolved with
  | nil => exact List.forall_mem_nil _
  | cons i rest ih =>
    obtain ⟨first, hfirst, hok⟩ := Act.runAt_bind_ok hok
    obtain ⟨others, hrest, -⟩ := Act.runAt_bind_ok hok
    obtain ⟨p, hp, -⟩ := Act.runAt_bind_ok hfirst
    have hrow := reportable_of_payment_ok hm hp
    -- the store is asked on the way, which changes nothing that it has
    simp only [resolve, Act.runAt_bind, payment_runAt hm policy c txHash index hrow,
      Act.runAt_pure] at hrest
    exact List.forall_mem_cons.2 ⟨hrow, ih (m := m.ask _) (hm.ask _) hrest⟩

end Resolution

namespace Pipeline

variable {m : MemoryStore} (hm : m.Sound)
include hm

theorem batchFrom_runAt (policy : CoinbasePolicy) (blockHash : String) {c : Cache}
    {ts : List Transaction} (hrows : ∀ s ∈ settleFrom m.paid? c ts, s.Reportable) (tally : Tally)
    (rows : List Row) :
    (batchFrom policy blockHash c ts).runAt ⟨⟨m, tally⟩, rows⟩ =
      (.ok ((settleFrom m.paid? c ts).map (Settled.record policy blockHash)),
        ⟨⟨m.ask ((settleFrom m.paid? c ts).map Settled.asked).sum,
            tally + ((settleFrom m.paid? c ts).map Settled.tally).sum⟩,
          rows ++ (settleFrom m.paid? c ts).flatMap Settled.rows⟩) := by
  induction ts generalizing m c tally rows with
  | nil => simp [batchFrom, settleFrom]
  | cons t rest ih =>
    obtain ⟨hrow, hrest⟩ := List.forall_mem_cons.1 hrows
    have hresolve := fun rows => Resolution.resolveFrom_runAt hm policy (c.enter t) t.hash.display 0
      hrow.inputs tally rows
    -- the store is asked on the way, which changes nothing that it has
    simp only [batchFrom, Resolution.resolveAll, Act.runAt_bind,
      Transaction.keepOutputs_runAt hrow.outputs, Act.runAt_lift, Cache.cacheOutputs_kept, hresolve,
      ih (hm.ask _) hrest, MemoryStore.paid?_ask, MemoryStore.ask_ask, Act.runAt_pure, settleFrom,
      List.map_cons, List.sum_cons, List.flatMap_cons, List.append_assoc, add_assoc]
    simp [Settled.record, Settled.inputs, Settled.tally, Settled.asked, Settled.rows]

/-- Transactions are worked through only where the rows about them can be written. -/
theorem reportable_of_batchFrom_ok {policy : CoinbasePolicy} {blockHash : String} {c : Cache}
    {ts : List Transaction} {tally : Tally} {rows : List Row} {records : List TransactionRecord}
    (hok : ((batchFrom policy blockHash c ts).runAt ⟨⟨m, tally⟩, rows⟩).1 = .ok records) :
    ∀ s ∈ settleFrom m.paid? c ts, s.Reportable := by
  induction ts generalizing m c tally rows records with
  | nil => exact List.forall_mem_nil _
  | cons t rest ih =>
    rw [batchFrom_cons] at hok
    obtain ⟨kept, hkept, hok⟩ := Act.runAt_bind_ok hok
    have houtputs := Transaction.reportable_of_keepOutputs_ok hkept
    rw [Transaction.keepOutputs_runAt houtputs] at hok
    obtain ⟨inputs, hresolved, hok⟩ := Act.runAt_bind_ok hok
    have hinputs := Resolution.reportable_of_resolveFrom_ok hm hresolved
    rw [Resolution.resolveAll, Resolution.resolveFrom_runAt hm policy _ _ 0 hinputs] at hok
    obtain ⟨others, hothers, -⟩ := Act.runAt_bind_ok hok
    exact List.forall_mem_cons.2 ⟨⟨houtputs, hinputs⟩, ih (hm.ask _) hothers⟩

end Pipeline

/-! ### What taking in a block does -/

namespace Block

/-- The transactions of a block settled by what a store has. -/
def settled (paid : OutPoint → Option Payment) (b : Block) : List Settled :=
  settleFrom paid .empty b.transactions

/-- The batch of a block. -/
def records (policy : CoinbasePolicy) (paid : OutPoint → Option Payment) (b : Block) :
    List TransactionRecord :=
  (b.settled paid).map (Settled.record policy b.header.hash.display)

/-- What the inputs of a block count as. -/
def tally (paid : OutPoint → Option Payment) (b : Block) : Tally :=
  ((b.settled paid).map Settled.tally).sum

/-- The number of questions that a block puts to the store. -/
def asked (paid : OutPoint → Option Payment) (b : Block) : Nat :=
  ((b.settled paid).map Settled.asked).sum

@[simp] theorem length_records (policy : CoinbasePolicy) (paid : OutPoint → Option Payment)
    (b : Block) : (b.records policy paid).length = b.transactions.length := by
  simp [records, settled]

theorem hash_of_mem_records {policy : CoinbasePolicy} {paid : OutPoint → Option Payment}
    {b : Block} {r : TransactionRecord} (h : r ∈ b.records policy paid) :
    ∃ s, r.hash = .string s := by
  obtain ⟨s, -, rfl⟩ := List.mem_map.1 h
  exact ⟨_, rfl⟩

/-- All rows about outputs and inputs of the block can be written. -/
def Reportable (paid : OutPoint → Option Payment) (b : Block) : Prop :=
  ∀ s ∈ b.settled paid, s.Reportable

theorem reportable_of_showable {b : Block} (h : ∀ t ∈ b.transactions, t.Showable)
    (paid : OutPoint → Option Payment) : b.Reportable paid := by
  intro s hs
  obtain ⟨k, hk⟩ := List.mem_iff_getElem?.1 hs
  rw [settled, getElem?_settleFrom] at hk
  obtain ⟨t, ht, rfl⟩ := Option.map_eq_some_iff.1 hk
  have hshow := h t (List.mem_of_getElem? ht)
  exact ⟨fun o ho _ => hshow.outputs o ho, fun i hi _ => hshow.inputs i hi⟩

/-- The row that reports a block as written. -/
def writtenRow (b : Block) (height : Int) : Row :=
  ⟨.debug, some "pipeline", "Inserted block into db",
    [("height", .int height), ("hash", .string b.header.hash.display),
      ("tx_count", .nat b.transactions.length)]⟩

/-- The row that reports how long a block took. -/
def durationRow (b : Block) (height : Int) (slowBlock : Int) (c : Clock) : Row :=
  Clock.durationRow "pipeline" "ingest_block" (some (.whole slowBlock))
    [("height", .int height), ("tx_count", .nat b.transactions.length)]
    (Clock.milliseconds c.tick.1 c.tick.2.tick.1)

end Block

namespace Pipeline

variable {m : MemoryStore} (hm : m.Sound)
include hm

theorem resolveBlock_runAt {b : Block} {p : Pipeline} (hb : b.Reportable m.paid?) (c : Clock)
    (rows : List Row) :
    (resolveBlock b).runAt ⟨⟨p, m, c⟩, rows⟩ =
      (.ok (b.records p.policy m.paid?, b.tally m.paid?),
        ⟨⟨p, m.ask (b.asked m.paid?), c⟩, rows ++ (b.settled m.paid?).flatMap Settled.rows⟩) := by
  simp only [resolveBlock, batch, Act.runAt_bind, Act.runAt_state, Act.runAt_within,
    batchFrom_runAt hm p.policy b.header.hash.display hb, Act.runAt_pure, Tally.empty_add]
  rfl

theorem reportable_of_resolveBlock_ok {b : Block} {p : Pipeline} {c : Clock} {rows : List Row}
    {x : List TransactionRecord × Tally}
    (hok : ((resolveBlock b).runAt ⟨⟨p, m, c⟩, rows⟩).1 = .ok x) : b.Reportable m.paid? := by
  simp only [resolveBlock, Act.runAt_bind, Act.runAt_state, Act.runAt_within] at hok
  rw [← Act.runAt_bind] at hok
  obtain ⟨records, hbatch, -⟩ := Act.runAt_bind_ok hok
  exact reportable_of_batchFrom_ok hm hbatch

theorem ingest_runAt {b : Block} (hb : b.Reportable m.paid?) (height : Int) (p : Pipeline)
    (c : Clock) (rows : List Row) :
    (ingest b height).runAt ⟨⟨p, m, c⟩, rows⟩ =
      (.ok (),
        ⟨⟨{ p with totals :=
              count b height (b.records p.policy m.paid?) (b.tally m.paid?) p.totals },
            (m.ask (b.asked m.paid?)).write (.ofBlock b (.int height))
              (b.records p.policy m.paid?), c⟩,
          rows ++ (b.settled m.paid?).flatMap Settled.rows ++ [b.writtenRow height]⟩) := by
  simp only [ingest, Act.runAt_bind, resolveBlock_runAt hm hb, onStore, Act.runAt_within,
    Store.insertBlock, Act.runAt_update]
  -- an empty batch is not written at all
  cases hr : (b.records p.policy m.paid?).isEmpty with
  | true =>
    have hlength : b.transactions.length = 0 := by
      rw [← b.length_records p.policy m.paid?, List.isEmpty_iff.1 hr, List.length_nil]
    simp [updateTotals, update, log, MemoryStore.write, MemoryStore.withTransactions,
      MemoryStore.index_holding, ← MemoryStore.indexed, List.isEmpty_iff.1 hr, Block.writtenRow,
      hlength]
  | false =>
    simp [updateTotals, update, log, MemoryStore.write, MemoryStore.withTransactions, hr,
      Block.writtenRow, MemoryStore.insertTransactions_runAt _ fun r => Block.hash_of_mem_records]

theorem take_runAt {b : Block} (hb : b.Reportable m.paid?) (height : Int) (p : Pipeline)
    (hp : p.phase.accepts = true) (c : Clock) (rows : List Row) :
    (take b height).runAt ⟨⟨p, m, c⟩, rows⟩ =
      (.ok (),
        ⟨⟨{ p with
              phase := .streaming
              totals := count b height (b.records p.policy m.paid?) (b.tally m.paid?) p.totals },
            (m.ask (b.asked m.paid?)).write (.ofBlock b (.int height))
              (b.records p.policy m.paid?), c.tick.2.tick.2⟩,
          rows ++ (b.settled m.paid?).flatMap Settled.rows ++
            [b.writtenRow height, b.durationRow height p.slowBlock c]⟩) := by
  have hi := ingest_runAt hm hb height { p with phase := .streaming } c.tick.2 rows
  rw [take_runAt_of_accepts b height hp, Act.timed_runAt]
  simp only
  rw [reporting_runAt_of_ok (by rw [hi]), hi]
  simp [Block.durationRow]

theorem reportable_of_take_ok {b : Block} {height : Int} {p : Pipeline} {c : Clock}
    {rows : List Row} (hok : ((take b height).runAt ⟨⟨p, m, c⟩, rows⟩).1 = .ok ()) :
    b.Reportable m.paid? := by
  have hp : p.phase.accepts = true := accepts_of_take_ok hok
  rw [take_runAt_of_accepts b height hp, Act.timed_runAt] at hok
  obtain ⟨x, hx, -⟩ := Act.runAt_bind_ok (ok_of_reporting_ok hok)
  exact reportable_of_resolveBlock_ok hm (p := { p with phase := .streaming }) (c := c.tick.2) hx

end Pipeline

end BlockArchive
