import BlockArchive.Proofs.Ingest.Cut
import BlockArchive.Proofs.Ingest.Handover
import BlockArchive.Proofs.Ingest.Ledger
import BlockArchive.Proofs.Store.Database

/-!
# What has no say in resolution

Two runs over memories with the same transactions take in blocks that agree, transaction by
transaction, in hashes, in the outputs that inputs spend and in value and address of the outputs
that they have. All else may differ: hashes, heights and headers of blocks, sizes, versions, lock
times, scripts, sequence numbers, pattern names, the policy and what is reported as slow. Then
corresponding inputs get the same value and the same address, except that inputs which spend nothing
get the address of each run's own policy; and after every block the runs have counted the same.

* `Transaction.Akin` and `Block.Akin` are the agreement of what comes in, `TransactionRecord.Akin`
  that of what is written, and `Totals.Akin` that of what is counted;
* `settleFrom_akin`: caches filled by such transactions are equal, so that inputs are settled alike;
* `Station.Akin` relates the two stations between blocks, and `Pipeline.take_akin` says that taking
  in blocks that agree keeps it;
* `Pipeline.run` is a run over blocks at any heights, and `Pipeline.run_akin` compares two.
-/

namespace BlockArchive

/-! ### What agrees -/

/-- The transactions have the same hash, spend the same outputs and have outputs of the same values
and addresses. -/
structure Transaction.Akin (t u : Transaction) : Prop where
  hash : t.hash = u.hash
  sources : t.sources = u.sources
  payments : t.outputs.map EvaluatedOutput.payment = u.outputs.map EvaluatedOutput.payment

/-- The blocks have as many transactions, which agree one by one. -/
def Block.Akin (b c : Block) : Prop := List.Forall₂ Transaction.Akin b.transactions c.transactions

/-- The inputs spend the same output and got the same payment; if they spend nothing, each got the
address of its own policy. -/
structure ResolvedInput.Akin (policy policy' : CoinbasePolicy) (i j : ResolvedInput) : Prop where
  previousHash : i.previousHash = j.previousHash
  previousIndex : i.previousIndex = j.previousIndex
  value : i.value = j.value
  address :
    if i.spendsNothing then
      i.address = .string policy.address ∧ j.address = .string policy'.address
    else i.address = j.address

/-- The outputs have the same value and the same address. -/
structure KeptOutput.Akin (o p : KeptOutput) : Prop where
  value : o.value = p.value
  address : o.address = p.address

/-- The records have the same hash and inputs and outputs that agree one by one. -/
structure TransactionRecord.Akin (policy policy' : CoinbasePolicy) (r s : TransactionRecord) :
    Prop where
  hash : r.hash = s.hash
  inputs : List.Forall₂ (ResolvedInput.Akin policy policy') r.inputs s.inputs
  outputs : List.Forall₂ KeptOutput.Akin r.outputs s.outputs

/-- The totals count the same transactions, inputs and outputs, and the same ways in which inputs
were resolved. -/
structure Totals.Akin (a b : Totals) : Prop where
  transactions : a.transactions = b.transactions
  inputs : a.inputs = b.inputs
  outputs : a.outputs = b.outputs
  unrecognised : a.unrecognised = b.unrecognised
  tally : a.tally = b.tally

/-- Lists that correspond do so when each is worked through with its positions. -/
theorem forall₂_mapIdx {α β γ δ : Type} {R : α → β → Prop} {S : γ → δ → Prop} {f : Nat → α → γ}
    {g : Nat → β → δ} {xs : List α} {ys : List β} (h : List.Forall₂ R xs ys)
    (hfg : ∀ j x y, R x y → S (f j x) (g j y)) : List.Forall₂ S (xs.mapIdx f) (ys.mapIdx g) := by
  induction h generalizing f g with
  | nil => exact .nil
  | cons hxy _ ih =>
    rw [List.mapIdx_cons, List.mapIdx_cons]
    exact .cons (hfg 0 _ _ hxy) (ih fun j => hfg (j + 1))

/-! ### Settling transactions that agree -/

theorem Cache.enterFrom_congr (hash : Hash) (index : Nat) (c : Cache)
    {xs ys : List EvaluatedOutput}
    (h : xs.map EvaluatedOutput.payment = ys.map EvaluatedOutput.payment) :
    enterFrom hash index c xs = enterFrom hash index c ys := by
  induction xs generalizing index c ys with
  | nil =>
    obtain rfl : ys = [] := List.map_eq_nil_iff.1 h.symm
    rfl
  | cons x xs ih =>
    obtain ⟨y, ys, rfl, hy, hys⟩ := List.map_eq_cons_iff.1 h.symm
    rw [enterFrom, enterFrom, hy, ih _ _ hys.symm]

theorem Transaction.Akin.enter {t u : Transaction} (h : t.Akin u) (c : Cache) :
    c.enter t = c.enter u := by
  rw [Cache.enter, Cache.enter, h.hash, Cache.enterFrom_congr u.hash 0 c h.payments]

/-- Settled transactions that agree, and are settled by the same cache and store. -/
structure Settled.Akin (s u : Settled) : Prop where
  transaction : s.transaction.Akin u.transaction
  settle : ∃ paid c, s.settle = .of paid c ∧ u.settle = .of paid c

/-- **Transactions that agree are settled alike.** -/
theorem settleFrom_akin (paid : OutPoint → Option Payment) (c : Cache) {ts us : List Transaction}
    (h : List.Forall₂ Transaction.Akin ts us) :
    List.Forall₂ Settled.Akin (settleFrom paid c ts) (settleFrom paid c us) := by
  induction h generalizing c with
  | nil => exact .nil
  | @cons t u _ _ htu _ ih =>
    rw [settleFrom, settleFrom, ← htu.enter c]
    exact .cons ⟨htu, paid, c.enter t, rfl, rfl⟩ (ih _)

theorem Resolution.spendsNothing_record (txHash : String) (index : Nat) (i : TxInput)
    (p : Payment) : (record txHash index i p).spendsNothing = i.source.isNull := by
  rw [Bool.eq_iff_iff, OutPoint.isNull, beq_iff_eq, ← Hash.display_inj, Hash.display_null]
  exact beq_iff_eq

/-- Inputs that spend the same output and are settled by the same cache and store get the same
payment, but for the policy. -/
theorem Resolution.record_akin (policy policy' : CoinbasePolicy) (txHash txHash' : String)
    (index : Nat) {i j : TxInput} (h : i.source = j.source) (paid : OutPoint → Option Payment)
    (c : Cache) :
    ResolvedInput.Akin policy policy'
      (record txHash index i ((Settlement.of paid c i.source).payment policy))
      (record txHash' index j ((Settlement.of paid c j.source).payment policy')) := by
  rw [← h, Settlement.payment_of, Settlement.payment_of]
  refine ⟨by simp only [record, h], by simp only [record, h], ?_, ?_⟩
  · cases hnull : i.source.isNull <;> simp [record]
  · rw [spendsNothing_record]
    cases hnull : i.source.isNull <;> simp [record]

namespace Transaction.Akin

variable {t u : Transaction} (h : t.Akin u)
include h

theorem inputs : List.Forall₂ (fun i j : TxInput => i.source = j.source) t.inputs u.inputs := by
  have hsources := List.forall₂_eq_eq_eq ▸ h.sources
  exact List.forall₂_map_left_iff.1 (List.forall₂_map_right_iff.1 hsources)

theorem kept : List.Forall₂ KeptOutput.Akin t.kept u.kept := by
  have hpayments : List.Forall₂ (fun o p : EvaluatedOutput => o.payment = p.payment)
      t.outputs u.outputs := by
    have hpayments := List.forall₂_eq_eq_eq ▸ h.payments
    exact List.forall₂_map_left_iff.1 (List.forall₂_map_right_iff.1 hpayments)
  refine forall₂_mapIdx hpayments fun j o p hop => ?_
  obtain ⟨hvalue, haddress⟩ := Payment.mk.inj hop
  exact ⟨by simp only [KeptOutput.ofOutput, hvalue], haddress⟩

end Transaction.Akin

namespace Settled.Akin

variable {s u : Settled} (h : s.Akin u)
include h

theorem record (policy policy' : CoinbasePolicy) (blockHash blockHash' : String) :
    TransactionRecord.Akin policy policy' (s.record policy blockHash)
      (u.record policy' blockHash') := by
  obtain ⟨paid, c, hs, hu⟩ := h.settle
  refine ⟨congrArg (fun hash : Hash => Value.string hash.display) h.transaction.hash, ?_,
    h.transaction.kept⟩
  refine forall₂_mapIdx h.transaction.inputs fun k i j hij => ?_
  rw [hs, hu]
  exact Resolution.record_akin policy policy' _ _ k hij paid c

theorem tally : s.tally = u.tally := by
  obtain ⟨paid, c, hs, hu⟩ := h.settle
  have hsources : s.transaction.inputs.map TxInput.source =
      u.transaction.inputs.map TxInput.source := h.transaction.sources
  have hof : ∀ is : List TxInput,
      is.map (fun i => (Settlement.of paid c i.source).tally) =
        (is.map TxInput.source).map fun source => (Settlement.of paid c source).tally := by
    intro is
    rw [List.map_map]
    rfl
  rw [Settled.tally, Settled.tally, hs, hu, hof, hof, hsources]

end Settled.Akin

namespace Block.Akin

variable {b c : Block} (h : b.Akin c) (paid : OutPoint → Option Payment)
include h

theorem settled : List.Forall₂ Settled.Akin (b.settled paid) (c.settled paid) :=
  settleFrom_akin paid .empty h

theorem records (policy policy' : CoinbasePolicy) :
    List.Forall₂ (TransactionRecord.Akin policy policy') (b.records policy paid)
      (c.records policy' paid) := by
  refine List.forall₂_map_left_iff.2 (List.forall₂_map_right_iff.2 ?_)
  exact (h.settled paid).imp fun s u hsu => hsu.record policy policy' _ _

theorem tally : b.tally paid = c.tally paid := by
  have htallies : (b.settled paid).map Settled.tally = (c.settled paid).map Settled.tally := by
    rw [← List.forall₂_eq_eq_eq, List.forall₂_map_left_iff, List.forall₂_map_right_iff]
    exact (h.settled paid).imp fun s u hsu => hsu.tally
  rw [Block.tally, Block.tally, htallies]

end Block.Akin

/-! ### Counting records that agree -/

theorem KeptOutput.Akin.unrecognisedCount {os ps : List KeptOutput}
    (h : List.Forall₂ KeptOutput.Akin os ps) :
    BlockArchive.unrecognisedCount os = BlockArchive.unrecognisedCount ps := by
  induction h with
  | nil => rfl
  | cons hop _ ih =>
    simp only [BlockArchive.unrecognisedCount, List.countP_cons, hop.address] at ih ⊢
    rw [ih]

/-- Counting blocks that agree, with records that do, keeps totals in agreement. -/
theorem Totals.Akin.count {a a' : Totals} (h : a.Akin a') {b b' : Block} (hb : b.Akin b')
    (height height' : Int) {policy policy' : CoinbasePolicy} {rs rs' : List TransactionRecord}
    (hrs : List.Forall₂ (TransactionRecord.Akin policy policy') rs rs') (tally : Tally) :
    (Pipeline.count b height rs tally a).Akin (Pipeline.count b' height' rs' tally a') := by
  have hinputs := List.rel_flatMap hrs fun r u hru => hru.inputs
  have houtputs := List.rel_flatMap hrs fun r u hru => hru.outputs
  refine ⟨?_, ?_, ?_, ?_, ?_⟩
  · simp only [Pipeline.count, h.transactions, hb.length_eq]
  · simp only [Pipeline.count, h.inputs, hinputs.length_eq]
  · simp only [Pipeline.count, h.outputs, houtputs.length_eq]
  · simp only [Pipeline.count, h.unrecognised, KeptOutput.Akin.unrecognisedCount houtputs]
  · simp only [Pipeline.count, h.tally]

/-! ### Records and their transactions -/

theorem Settled.record_recorded (policy : CoinbasePolicy) (blockHash : String) (s : Settled) :
    s.transaction.Recorded blockHash (s.record policy blockHash) := by
  refine ⟨rfl, rfl, rfl, rfl, s.length_inputs policy, fun j i hi => ?_, rfl⟩
  exact ⟨_, by rw [record, Transaction.record, getElem?_inputs, hi, Option.map_some]⟩

theorem Block.records_recorded (policy : CoinbasePolicy) (paid : OutPoint → Option Payment)
    (b : Block) :
    List.Forall₂ (Transaction.Recorded b.header.hash.display) b.transactions
      (b.records policy paid) := by
  have hts : b.transactions = (b.settled paid).map Settled.transaction :=
    (map_transaction_settleFrom ..).symm
  rw [hts, records, List.forall₂_map_left_iff, List.forall₂_map_right_iff]
  exact List.forall₂_same.2 fun s _ => s.record_recorded policy _

/-- Two lists of records are those of two lists of transactions in order, each in some block, and
agree one by one. -/
structure TransactionRecord.AllAkin (policy policy' : CoinbasePolicy) (ts ts' : List Transaction)
    (rs rs' : List TransactionRecord) : Prop where
  recorded : List.Forall₂ (fun t r => ∃ blockHash, t.Recorded blockHash r) ts rs
  recorded' : List.Forall₂ (fun t r => ∃ blockHash, t.Recorded blockHash r) ts' rs'
  akin : List.Forall₂ (Akin policy policy') rs rs'

namespace TransactionRecord.AllAkin

variable {policy policy' : CoinbasePolicy} {ts ts' us us' : List Transaction}
  {rs rs' qs qs' : List TransactionRecord}

theorem append (h : AllAkin policy policy' ts ts' rs rs')
    (h' : AllAkin policy policy' us us' qs qs') :
    AllAkin policy policy' (ts ++ us) (ts' ++ us') (rs ++ qs) (rs' ++ qs') :=
  ⟨List.rel_append h.recorded h'.recorded, List.rel_append h.recorded' h'.recorded',
    List.rel_append h.akin h'.akin⟩

theorem records {b b' : Block} (hb : b.Akin b') (policy policy' : CoinbasePolicy)
    (paid : OutPoint → Option Payment) :
    AllAkin policy policy' b.transactions b'.transactions (b.records policy paid)
      (b'.records policy' paid) :=
  ⟨(b.records_recorded policy paid).imp fun _ _ h => ⟨_, h⟩,
    (b'.records_recorded policy' paid).imp fun _ _ h => ⟨_, h⟩, hb.records paid policy policy'⟩

end TransactionRecord.AllAkin

/-! ### Stores that have the same -/

/-- After blocks that agree, stores that had the same under an outpoint have the same again. -/
theorem MemoryStore.paid?_write_akin {m m' : MemoryStore} (hpaid : m.paid? = m'.paid?)
    {b b' : Block} (hb : b.Akin b') (r r' : BlockRecord) (policy policy' : CoinbasePolicy)
    (paid paid' : OutPoint → Option Payment) :
    (m.write r (b.records policy paid)).paid? = (m'.write r' (b'.records policy' paid')).paid? := by
  funext source
  rw [paid?_write, paid?_write, hpaid]
  -- the transactions found by a hash agree, or neither block has one
  have hfind := Database.Holds.find?_rel (p := fun t : Transaction => t.hash = source.hash)
    (q := fun t : Transaction => t.hash = source.hash) (List.rel_reverse hb)
    fun t u htu => by rw [htu.hash]
  rw [← List.findRev?_eq_find?_reverse, ← List.findRev?_eq_find?_reverse] at hfind
  generalize b.transactions.findRev? _ = found, b'.transactions.findRev? _ = found' at hfind ⊢
  cases hfind with
  | none => rfl
  | some htu =>
    dsimp only
    rw [← List.getElem?_map, ← List.getElem?_map, htu.payments]

/-! ### Runs side by side -/

/-- Two stations between blocks: both take blocks, over sound stores that have the same, with totals
that agree. -/
structure Station.Akin (policy policy' : CoinbasePolicy) (s s' : Station MemoryStore) : Prop where
  policy : s.pipeline.policy = policy
  policy' : s'.pipeline.policy = policy'
  accepts : s.pipeline.phase.accepts = true
  accepts' : s'.pipeline.phase.accepts = true
  sound : s.store.Sound
  sound' : s'.store.Sound
  paid : s.store.paid? = s'.store.paid?
  totals : s.pipeline.totals.Akin s'.pipeline.totals

namespace Pipeline

section Runs

variable {σ : Type} [Store σ]

/-- Blocks are taken in one after the other, each at a height of its own. -/
def takeAll : List (Block × Int) → Act (Station σ) Unit
  | [] => pure ()
  | (b, height) :: rest => do
    take b height
    takeAll rest

/-- A run is started at a height and has taken in blocks. -/
def streamed (coin : Value) (first : Int) (bs : List (Block × Int)) : Act (Station σ) Unit := do
  start coin first
  takeAll bs

/-- A run over blocks that is started at one height and completed at another. -/
def run (coin : Value) (first : Int) (bs : List (Block × Int)) (last : Int) :
    Act (Station σ) Totals := do
  streamed coin first bs
  complete last

end Runs

variable {policy policy' : CoinbasePolicy} {d d' : Desk (Station MemoryStore)}

/-- **Taking in blocks that agree keeps stations in agreement**, and what is written agrees. -/
theorem take_akin (h : Station.Akin policy policy' d.state d'.state) {b b' : Block}
    (hb : b.Akin b') {height height' : Int} (hok : ((take b height).runAt d).1 = .ok ())
    (hok' : ((take b' height').runAt d').1 = .ok ()) :
    ∃ rs rs',
      ((take b height).runAt d).2.state.store.transactions = d.state.store.transactions ++ rs ∧
      ((take b' height').runAt d').2.state.store.transactions =
        d'.state.store.transactions ++ rs' ∧
      TransactionRecord.AllAkin policy policy' b.transactions b'.transactions rs rs' ∧
      Station.Akin policy policy' ((take b height).runAt d).2.state
        ((take b' height').runAt d').2.state := by
  obtain ⟨⟨p, m, c⟩, rows⟩ := d
  obtain ⟨⟨p', m', c'⟩, rows'⟩ := d'
  obtain ⟨rfl, rfl, hp, hp', hm, hm', hpaid, htotals⟩ := h
  dsimp only at hp hp' hm hm' hpaid htotals
  have hrecords := TransactionRecord.AllAkin.records hb p.policy p'.policy m.paid?
  rw [take_runAt hm (reportable_of_take_ok hm hok) height p hp c rows,
    take_runAt hm' (reportable_of_take_ok hm' hok') height' p' hp' c' rows', ← hpaid, ← hb.tally]
  refine ⟨_, _, rfl, rfl, hrecords, rfl, rfl, rfl, rfl, hm.write _ _ _ _ _,
    hm'.write _ _ _ _ _, ?_, htotals.count hb height height' hrecords.akin _⟩
  have hasked : (m.ask (b.asked m.paid?)).paid? = (m'.ask (b'.asked m.paid?)).paid? := hpaid
  exact MemoryStore.paid?_write_akin hasked hb _ _ _ _ _ _

theorem takeAll_akin {bs bs' : List (Block × Int)}
    (hbs : List.Forall₂ (fun x x' => x.1.Akin x'.1) bs bs')
    (h : Station.Akin policy policy' d.state d'.state) (hok : ((takeAll bs).runAt d).1 = .ok ())
    (hok' : ((takeAll bs').runAt d').1 = .ok ()) :
    ∃ rs rs',
      ((takeAll bs).runAt d).2.state.store.transactions = d.state.store.transactions ++ rs ∧
      ((takeAll bs').runAt d').2.state.store.transactions = d'.state.store.transactions ++ rs' ∧
      TransactionRecord.AllAkin policy policy' (bs.flatMap fun x => x.1.transactions)
        (bs'.flatMap fun x => x.1.transactions) rs rs' ∧
      Station.Akin policy policy' ((takeAll bs).runAt d).2.state
        ((takeAll bs').runAt d').2.state := by
  induction hbs generalizing d d' with
  | nil => exact ⟨[], [], (List.append_nil _).symm, (List.append_nil _).symm, ⟨.nil, .nil, .nil⟩, h⟩
  | @cons x x' rest rest' hx _ ih =>
    obtain ⟨⟨⟩, htake, hothers⟩ := Act.runAt_bind_ok hok
    obtain ⟨⟨⟩, htake', hothers'⟩ := Act.runAt_bind_ok hok'
    obtain ⟨rs, rs', hwritten, hwritten', hrs, hnext⟩ := take_akin h hx htake htake'
    obtain ⟨us, us', hmore, hmore', hus, hlast⟩ := ih hnext hothers hothers'
    have hrun : (takeAll (x :: rest)).runAt d =
        (takeAll rest).runAt ((take x.1 x.2).runAt d).2 := by
      rw [takeAll, Act.runAt_bind, htake]
    have hrun' : (takeAll (x' :: rest')).runAt d' =
        (takeAll rest').runAt ((take x'.1 x'.2).runAt d').2 := by
      rw [takeAll, Act.runAt_bind, htake']
    rw [hrun, hrun']
    refine ⟨rs ++ us, rs' ++ us', ?_, ?_, hrs.append hus, hlast⟩
    · rw [hmore, hwritten, List.append_assoc]
    · rw [hmore', hwritten', List.append_assoc]

theorem takeAll_take_ok {σ : Type} [Store σ] {bs : List (Block × Int)} {d : Desk (Station σ)}
    (hok : ((takeAll bs).runAt d).1 = .ok ()) (k : Nat) :
    ((takeAll (bs.take k)).runAt d).1 = .ok () := by
  induction bs generalizing d k with
  | nil =>
    rw [List.take_nil]
    exact hok
  | cons x rest ih =>
    cases k with
    | zero => rfl
    | succ k =>
      obtain ⟨⟨⟩, htake, hrest⟩ := Act.runAt_bind_ok hok
      rw [List.take_succ_cons, takeAll, Act.runAt_bind, htake]
      exact ih hrest k

theorem streamed_take_ok {σ : Type} [Store σ] {coin : Value} {first : Int}
    {bs : List (Block × Int)} {d : Desk (Station σ)}
    (hok : ((streamed coin first bs).runAt d).1 = .ok ()) (k : Nat) :
    ((streamed coin first (bs.take k)).runAt d).1 = .ok () := by
  obtain ⟨⟨⟩, hstart, hall⟩ := Act.runAt_bind_ok hok
  rw [streamed, Act.runAt_bind, hstart]
  exact takeAll_take_ok hall k

theorem start_memory {m : MemoryStore} {w : Setting} {coin : Value} {first : Int}
    (hok : ((start coin first).runAt (w.desk policy m)).1 = .ok ()) :
    ∃ c, ((start coin first).runAt (w.desk policy m)).2.state =
      ⟨started c first (.idle policy w.slowBlock w.now), m, w.clock⟩ := by
  obtain ⟨c, rows, -, -, hstate⟩ := start_ok hok
  have hprobe : ((Store.probe : Act MemoryStore Unit).runAt ⟨m, rows⟩).2.state = m := by
    simp only [Store.probe, Act.runAt_bind, Act.runAt_state]
    split <;> rfl
  refine ⟨c, hstate.trans ?_⟩
  simp only [Setting.desk, hprobe]

section Started

variable {m m' : MemoryStore} {w w' : Setting} {coin coin' : Value} {first first' : Int}
  {bs bs' : List (Block × Int)} (hsame : m.transactions = m'.transactions) (hm : m.Sound)
  (hbs : List.Forall₂ (fun x x' => x.1.Akin x'.1) bs bs')
  (hok : ((streamed coin first bs).runAt (w.desk policy m)).1 = .ok ())
  (hok' : ((streamed coin' first' bs').runAt (w'.desk policy' m')).1 = .ok ())
include hsame hm hbs hok hok'

/-- Two new runs that are started and take in blocks that agree are in agreement. -/
theorem streamed_akin :
    ∃ rs rs',
      ((streamed coin first bs).runAt (w.desk policy m)).2.state.store.transactions =
        m.transactions ++ rs ∧
      ((streamed coin' first' bs').runAt (w'.desk policy' m')).2.state.store.transactions =
        m'.transactions ++ rs' ∧
      TransactionRecord.AllAkin policy policy' (bs.flatMap fun x => x.1.transactions)
        (bs'.flatMap fun x => x.1.transactions) rs rs' ∧
      Station.Akin policy policy' ((streamed coin first bs).runAt (w.desk policy m)).2.state
        ((streamed coin' first' bs').runAt (w'.desk policy' m')).2.state := by
  obtain ⟨⟨⟩, hstart, hall⟩ := Act.runAt_bind_ok hok
  obtain ⟨⟨⟩, hstart', hall'⟩ := Act.runAt_bind_ok hok'
  obtain ⟨c, hstate⟩ := start_memory hstart
  obtain ⟨c', hstate'⟩ := start_memory hstart'
  have hpaid : m.paid? = m'.paid? := by
    funext source
    simp only [MemoryStore.paid?, MemoryStore.lookup?_eq, hsame]
  have hm' : m'.Sound := by rwa [MemoryStore.Sound, ← hsame]
  have hbegun : Station.Akin policy policy' ((start coin first).runAt (w.desk policy m)).2.state
      ((start coin' first').runAt (w'.desk policy' m')).2.state := by
    rw [hstate, hstate']
    exact ⟨rfl, rfl, rfl, rfl, hm, hm', hpaid, ⟨rfl, rfl, rfl, rfl, rfl⟩⟩
  have hrun : (streamed coin first bs).runAt (w.desk policy m) =
      (takeAll bs).runAt ((start coin first).runAt (w.desk policy m)).2 := by
    rw [streamed, Act.runAt_bind, hstart]
  have hrun' : (streamed coin' first' bs').runAt (w'.desk policy' m') =
      (takeAll bs').runAt ((start coin' first').runAt (w'.desk policy' m')).2 := by
    rw [streamed, Act.runAt_bind, hstart']
  have hakin := takeAll_akin hbs hbegun hall hall'
  rw [hrun, hrun']
  rwa [hstate, hstate'] at hakin

end Started

/-- **Only hashes, outpoints, values and addresses have a say.** Two runs over memories with the
same transactions, all of whose values are amounts, are completed over as many blocks, which agree
one by one. Then what they have written agrees record by record, and each record is that of its
transaction: inputs have the same value and the same address, but for those that spend nothing,
which have the address of each run's own policy. And after any number of blocks the runs have
counted the same. -/
theorem run_akin {m m' : MemoryStore} {w w' : Setting} {coin coin' : Value}
    {first first' last last' : Int} {bs bs' : List (Block × Int)} {t t' : Totals}
    (hsame : m.transactions = m'.transactions) (hm : m.Sound)
    (hbs : List.Forall₂ (fun x x' => x.1.Akin x'.1) bs bs')
    (hrun : ((run coin first bs last).runAt (w.desk policy m)).1 = .ok t)
    (hrun' : ((run coin' first' bs' last').runAt (w'.desk policy' m')).1 = .ok t') :
    (∃ rs rs',
      ((run coin first bs last).runAt (w.desk policy m)).2.state.store.transactions =
        m.transactions ++ rs ∧
      ((run coin' first' bs' last').runAt (w'.desk policy' m')).2.state.store.transactions =
        m'.transactions ++ rs' ∧
      TransactionRecord.AllAkin policy policy' (bs.flatMap fun x => x.1.transactions)
        (bs'.flatMap fun x => x.1.transactions) rs rs') ∧
    ∀ k,
      let p := ((streamed coin first (bs.take k)).runAt (w.desk policy m)).2.state.pipeline
      let p' := ((streamed coin' first' (bs'.take k)).runAt (w'.desk policy' m')).2.state.pipeline
      p.totals.Akin p'.totals := by
  obtain ⟨⟨⟩, hstreamed, -⟩ := Act.runAt_bind_ok hrun
  obtain ⟨⟨⟩, hstreamed', -⟩ := Act.runAt_bind_ok hrun'
  refine ⟨?_, fun k => ?_⟩
  · obtain ⟨rs, rs', hwritten, hwritten', hrs, hakin⟩ :=
      streamed_akin hsame hm hbs hstreamed hstreamed'
    -- completing a run leaves the store as it is
    rw [run, run, Act.runAt_bind, Act.runAt_bind, hstreamed, hstreamed']
    dsimp only
    rw [complete_state last hakin.accepts, complete_state last' hakin.accepts']
    exact ⟨rs, rs', hwritten, hwritten', hrs⟩
  · obtain ⟨-, -, -, -, -, hakin⟩ :=
      streamed_akin hsame hm (List.forall₂_take k hbs) (streamed_take_ok hstreamed k)
        (streamed_take_ok hstreamed' k)
    exact hakin.totals

/-- Two runs over the same archive, under either policy, over blocks that differ in their hashes,
their sizes and in versions, lock times and unlocking scripts of their transactions. -/
theorem run_akin_hops :
    let a := Hash.repeated 1
    let m : MemoryStore := { transactions := [minted a 5 "first"] }
    let w : Setting := ⟨0, .whole 0, ⟨.whole 0, []⟩, []⟩
    let block := Block.holding
      [.hop (.repeated 2) ⟨.null, 0⟩ 4 "second", .hop (.repeated 3) ⟨a, 0⟩ 3 "third"]
    let other : Block :=
      { header := { block.header with hash := .repeated 5 }
        size := 80
        transactions := block.transactions.map fun t =>
          { t with
            version := 2
            locktime := 9
            inputs := t.inputs.map fun i => { i with script := [1, 2], sequence := 3 } } }
    let one := (run (.string "bitcoin") 7 [(block, 7)] 7).runAt (w.desk .sentinel m)
    let two := (run (.string "litecoin") 0 [(other, 1)] 1).runAt (w.desk .empty m)
    block.Akin other ∧ ∃ rs rs',
      one.2.state.store.transactions = m.transactions ++ rs ∧
      two.2.state.store.transactions = m.transactions ++ rs' ∧
      rs.length = 2 ∧ List.Forall₂ (TransactionRecord.Akin .sentinel .empty) rs rs' := by
  intro a m w block other one two
  have hakin : block.Akin other := by
    refine List.forall₂_map_right_iff.2 (List.forall₂_same.2 fun t _ => ⟨rfl, ?_, rfl⟩)
    simp only [Transaction.sources, List.map_map, Function.comp_def]
  have hblocks : List.Forall₂ (fun x x' : Block × Int => x.1.Akin x'.1) [(block, 7)] [(other, 1)] :=
    .cons hakin .nil
  obtain ⟨t, hone⟩ := Act.exists_of_isOk (r := one.1) (by decide +kernel)
  obtain ⟨t', htwo⟩ := Act.exists_of_isOk (r := two.1) (by decide +kernel)
  have hsame : m.transactions = m.transactions := rfl
  have hsound : m.Sound := sound_minted a 5 "first"
  have hruns := (run_akin hsame hsound hblocks hone htwo).1
  refine ⟨hakin, hruns.imp fun rs => Exists.imp fun rs' hrs => ?_⟩
  simp only [one, two]
  exact ⟨hrs.1, hrs.2.1, hrs.2.2.recorded.length_eq.symm, hrs.2.2.akin⟩

end Pipeline

end BlockArchive
