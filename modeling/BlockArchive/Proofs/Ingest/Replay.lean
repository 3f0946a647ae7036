import BlockArchive.Proofs.Chain.Fixture
import BlockArchive.Proofs.Chain.Reading
import BlockArchive.Proofs.Ingest.Handover
import BlockArchive.Proofs.Ingest.Ledger
import BlockArchive.Proofs.Ingest.Session

/-!
# Runs that come to an end

A fixture that was read is run to its end over any store that works and holds what pipelines have
written. Over memory no block fails, since all stored values are amounts, and the totals that the
summary shows are those of what was written. Over tables the run goes as over the memory that they
mirror, where what is written can be.

* `Contents.Archived` are contents written by pipelines;
* `Source.handOver_recorded` says what blocks that were handed over leave behind, over any store
  whose calls are all or nothing;
* `Source.Finished` is how a run ends, and `Source.run_over_memory` and `Source.run_mirrors` are the
  two halves of `Source.run_finished`.
-/

namespace BlockArchive

variable {σ : Type}

/-! ### What pipelines have written -/

/-- Contents written by pipelines: none, or what is left where a block was given to a pipeline over
such contents, whatever came of it. -/
inductive Contents.Archived : Contents → Prop where
  /-- Nothing has been written. -/
  | empty : Archived ⟨[], []⟩
  /-- A block was given to a pipeline. -/
  | take {σ : Type} [Store σ] [AllOrNothing σ] (b : Block) (height : Int) (d : Desk (Station σ))
    (before : Archived (AllOrNothing.contents d.state.store)) :
    Archived (AllOrNothing.contents ((Pipeline.take b height).runAt d).2.state.store)

theorem Transaction.amounts_of_recorded {blockHash : String} {ts : List Transaction}
    {rs : List TransactionRecord} (h : List.Forall₂ (Transaction.Recorded blockHash) ts rs) :
    ∀ r ∈ rs, ∀ o ∈ r.outputs, ∃ value : UInt64, o.value = .nat value.toNat := by
  induction h with
  | nil => exact nofun
  | cons hr _ ih =>
    refine List.forall_mem_cons.2 ⟨fun o ho => ?_, ih⟩
    rw [hr.outputs] at ho
    obtain ⟨i, hi, rfl⟩ := List.mem_mapIdx.1 ho
    exact ⟨_, rfl⟩

theorem Contents.Archived.amounts {c : Contents} (h : c.Archived) :
    ∀ r ∈ c.transactions, ∀ o ∈ r.outputs, ∃ value : UInt64, o.value = .nat value.toNat := by
  induction h with
  | empty => exact nofun
  | take b height d _ ih =>
    by_cases hp : d.state.pipeline.phase.accepts = true
    · have hcontents := Pipeline.deposit_contents d.state.pipeline.policy b height
        ⟨d.state.store, d.rows⟩
      rw [Pipeline.take_store_deposit b height hp]
      cases hdeposit : ((Pipeline.deposit d.state.pipeline.policy b height).runAt
          ⟨d.state.store, d.rows⟩).1 with
      | ok x =>
        have hnew := Transaction.amounts_of_recorded (Pipeline.deposit_recorded hdeposit).1
        rw [hdeposit] at hcontents
        rw [hcontents]
        exact fun r hr => (List.mem_append.1 hr).elim (ih r) (hnew r)
      | error f =>
        rw [hdeposit] at hcontents
        rw [hcontents]
        exact ih
    · rw [Pipeline.take_rejected b height (Bool.eq_false_iff.2 hp)]
      exact ih

/-! ### Blocks handed over -/

/-- The records are those of the transactions of blocks: block by block, and one for each. -/
def Block.Recorded (bs : List Block) (rs : List TransactionRecord) : Prop :=
  List.Forall₂ (fun (x : Block × Transaction) r => x.2.Recorded x.1.header.hash.display r)
    (bs.flatMap fun b => b.transactions.map fun t => (b, t)) rs

theorem Block.Recorded.cons {b : Block} {bs : List Block} {xs rs : List TransactionRecord}
    (h : List.Forall₂ (Transaction.Recorded b.header.hash.display) b.transactions xs)
    (hrest : Block.Recorded bs rs) : Block.Recorded (b :: bs) (xs ++ rs) := by
  rw [Block.Recorded, List.flatMap_cons]
  refine List.rel_append ?_ hrest
  exact List.forall₂_map_left_iff.2 h

namespace Source

/-- Blocks that were handed over are in the store, each at its height, and so are their
transactions; and the totals tell of them. -/
theorem handOver_recorded [Store σ] [AllOrNothing σ] {bs : List Block} {height : Int}
    {d : Desk (Station σ)} {n : Nat} {written : List TransactionRecord}
    (hp : d.state.pipeline.phase.accepts = true)
    (hok : ((handOver pipelineReceiver height bs).runAt d).1 = .ok ())
    (hledger : d.state.pipeline.totals.Ledger n written) :
    let e := ((handOver pipelineReceiver height bs).runAt d).2.state
    ∃ rs, Block.Recorded bs rs ∧ e.pipeline.totals.Ledger (n + bs.length) (written ++ rs) ∧
      (AllOrNothing.contents e.store).blocks = (AllOrNothing.contents d.state.store).blocks ++
        bs.mapIdx (fun i b => .ofBlock b (.int (height + i))) ∧
      (AllOrNothing.contents e.store).transactions =
        (AllOrNothing.contents d.state.store).transactions ++ rs := by
  induction bs generalizing height d n written with
  | nil =>
    refine ⟨[], .nil, ?_, (List.append_nil _).symm, (List.append_nil _).symm⟩
    rw [List.append_nil]
    exact hledger
  | cons b rest ih =>
    obtain ⟨⟨⟩, htake, hrest⟩ := Act.runAt_bind_ok hok
    obtain ⟨x, hdeposit, hpipeline⟩ := Pipeline.take_ok_pipeline hp htake
    obtain ⟨hrecorded, haccounts⟩ := Pipeline.deposit_recorded hdeposit
    have hcontents := Pipeline.deposit_contents d.state.pipeline.policy b height
      ⟨d.state.store, d.rows⟩
    rw [hdeposit, ← Pipeline.take_store_deposit b height hp] at hcontents
    have hcounted := hledger.count height hrecorded haccounts
    obtain ⟨rs, hrs, hmore, hblocks, htransactions⟩ :=
      ih (d := ((Pipeline.take b height).runAt d).2) (by rw [hpipeline]; rfl) hrest
        (by rw [hpipeline]; exact hcounted)
    rw [handOver_cons_runAt rest htake]
    refine ⟨x.1 ++ rs, .cons hrecorded hrs, ?_, ?_, ?_⟩
    · rw [← List.append_assoc, List.length_cons, Nat.add_comm rest.length, ← Nat.add_assoc]
      exact hmore
    · have hheights : ∀ i : Nat, height + 1 + (i : Int) = height + ((i + 1 : Nat) : Int) := by
        intro i
        omega
      simp only [hblocks, hcontents, Contents.addTransactions, Contents.addBlock, hheights,
        List.append_assoc, List.mapIdx_cons, List.singleton_append, Nat.cast_zero, Int.add_zero]
    · simp only [htransactions, hcontents, Contents.addTransactions, Contents.addBlock,
        List.append_assoc]

/-- Over a memory that pipelines have written blocks are handed over without fail, if whatever there
is to report of them can be written, and it stays one. -/
theorem handOver_ok {bs : List Block} (hbs : ∀ b ∈ bs, ∀ t ∈ b.transactions, t.Showable)
    (height : Int) {d : Desk (Station MemoryStore)}
    (hstore : (AllOrNothing.contents d.state.store).Archived)
    (hp : d.state.pipeline.phase.accepts = true) :
    ((handOver pipelineReceiver height bs).runAt d).1 = .ok () ∧
      (AllOrNothing.contents
        ((handOver pipelineReceiver height bs).runAt d).2.state.store).Archived := by
  induction bs generalizing height d with
  | nil => exact ⟨rfl, hstore⟩
  | cons b rest ih =>
    obtain ⟨hb, hrest⟩ := List.forall_mem_cons.1 hbs
    have htake := Pipeline.take_ok hstore.amounts hp (Block.reportable_of_showable hb _) height
    obtain ⟨x, -, hpipeline⟩ := Pipeline.take_ok_pipeline hp htake
    rw [handOver_cons_runAt rest htake]
    exact ih hrest _ (.take b height d hstore) (by rw [hpipeline]; rfl)

/-! ### Over memory -/

/-- The numbers that the summary of a run shows can be written: the height behind the last block,
and how many transactions there are, and inputs and outputs of them. -/
structure Printable (s : Source) : Prop where
  height : Document.isTooLong (s.startHeight + s.blocks.length : Nat) = false
  transactions : Document.isTooLong (s.blocks.flatMap Block.transactions).length = false
  inputs : Document.isTooLong
    ((s.blocks.flatMap Block.transactions).flatMap Transaction.inputs).length = false
  outputs : Document.isTooLong
    ((s.blocks.flatMap Block.transactions).flatMap Transaction.outputs).length = false

/-- The run has come to its end: it is completed with the heights and the number of the blocks, and
the store has gained the records of the blocks, each at its height, and those of their
transactions. What it holds then has been written by pipelines again. -/
structure Finished (s : Source) (before after : Contents) (outcome : Except Fault Totals)
    (p : Pipeline) : Prop where
  outcome : outcome = .ok p.totals
  phase : p.phase = .finished
  startHeight : p.totals.startHeight = s.startHeight
  endHeight : p.totals.endHeight = s.startHeight + (s.blocks.length - 1 : Nat)
  blockCount : p.totals.blocks = s.blocks.length
  blocks : after.blocks =
    before.blocks ++ s.blocks.mapIdx fun i b => .ofBlock b (.int (s.startHeight + i))
  transactions : ∃ rs, after.transactions = before.transactions ++ rs ∧ Block.Recorded s.blocks rs
  archived : after.Archived

end Source

theorem Totals.summary_ok {t : Totals}
    (h : ∀ n ∈ [t.blocks, t.startHeight, t.endHeight, t.transactions, t.inputs, t.outputs,
      t.tally.unresolved], Document.isTooLong n = false) : ∃ text, t.summary = .ok text := by
  have hall : [t.blocks, t.startHeight, t.endHeight, t.transactions, t.inputs, t.outputs,
      t.tally.unresolved].any Document.isTooLong = false :=
    List.any_eq_false.2 fun n hn => Bool.eq_false_iff.1 (h n hn)
  rw [Totals.summary, if_neg (Bool.eq_false_iff.1 hall)]
  exact ⟨_, rfl⟩

theorem Block.Recorded.counts {bs : List Block} {rs : List TransactionRecord}
    (h : Block.Recorded bs rs) :
    let ts := bs.flatMap Block.transactions
    rs.length = ts.length ∧
      (rs.flatMap TransactionRecord.inputs).length = (ts.flatMap Transaction.inputs).length ∧
      (rs.flatMap TransactionRecord.outputs).length = (ts.flatMap Transaction.outputs).length := by
  intro ts
  have hts : ts = (bs.flatMap fun b => b.transactions.map fun t => (b, t)).map Prod.snd := by
    simp only [ts, List.map_flatMap, List.map_map, Function.comp_def, List.map_id']
  rw [Block.Recorded] at h
  rw [hts]
  generalize (bs.flatMap fun b => b.transactions.map fun t => (b, t)) = xs at h ⊢
  induction h with
  | nil => exact ⟨rfl, rfl, rfl⟩
  | @cons x r xs rs hr _ ih =>
    obtain ⟨hlength, hinputs, houtputs⟩ := ih
    have houtputCount : r.outputs.length = x.2.outputs.length := by
      rw [hr.outputs, Transaction.kept, List.length_mapIdx]
    refine ⟨congrArg (· + 1) hlength, ?_, ?_⟩
    · rw [List.map_cons, List.flatMap_cons, List.flatMap_cons, List.length_append,
        List.length_append, hr.inputCount, hinputs]
    · rw [List.map_cons, List.flatMap_cons, List.flatMap_cons, List.length_append,
        List.length_append, houtputCount, houtputs]

theorem Coin.choose_name (c : Coin) : choose (.string c.name) = .ok c := by
  have hname : ofName? c.name = some c := by
    cases c <;> decide
  simp only [choose, hname]

namespace Source

theorem Printable.summary_ok {s : Source} (hs : s.Printable) {rs : List TransactionRecord}
    (hrs : Block.Recorded s.blocks rs) {t : Totals} (ht : t.Ledger s.blocks.length rs)
    (hstart : t.startHeight = s.startHeight) (hend : t.endHeight = s.endHeight) :
    ∃ text, t.summary = .ok text := by
  obtain ⟨hlength, hinputs, houtputs⟩ := hrs.counts
  obtain ⟨unresolved, hunresolved⟩ := Int.eq_ofNat_of_zero_le ht.bounds.1
  have hunresolvedLe : unresolved ≤ (rs.flatMap TransactionRecord.inputs).length := by
    have hle := ht.bounds.2
    rw [hunresolved, ht.inputs] at hle
    exact Int.ofNat_le.1 hle
  have hendHeight : t.endHeight = ((s.startHeight + (s.blocks.length - 1) : Nat) : Int) := by
    rw [hend, endHeight, Nat.cast_add]
  refine Totals.summary_ok ?_
  rw [ht.blocks, hstart, hendHeight, ht.transactions, ht.inputs, ht.outputs, hunresolved, hlength,
    hinputs, houtputs]
  simp only [List.forall_mem_cons]
  refine ⟨?_, ?_, ?_, hs.transactions, hs.inputs, hs.outputs, ?_, nofun⟩
  · exact Document.isTooLong_of_le hs.height (Nat.le_add_left _ _)
  · exact Document.isTooLong_of_le hs.height (Nat.le_add_right _ _)
  · exact Document.isTooLong_of_le hs.height (by omega)
  · exact Document.isTooLong_of_le hs.inputs (hinputs ▸ hunresolvedLe)

/-- A memory that answers lets every source start, and starting leaves it as it is. -/
theorem opened_over_memory (s : Source) {m : MemoryStore} (havailable : m.available = true)
    (policy : CoinbasePolicy) (w : Setting) :
    let d := w.desk policy m
    ((Pipeline.start (.string s.coin.name) s.startHeight).runAt d).1 = .ok () ∧
      (s.opened d).state.store = m ∧ (s.opened d).state.pipeline.phase.accepts = true ∧
      (s.opened d).state.pipeline.totals.Ledger 0 [] := by
  intro d
  have hprobe : ∀ rows, (Store.probe : Act MemoryStore Unit).runAt ⟨m, rows⟩ =
      (.ok (), ⟨m, rows⟩) := by
    intro rows
    simp [Store.probe, havailable]
  have hstart : ((Pipeline.start (.string s.coin.name) s.startHeight).runAt d).1 = .ok () := by
    simp [Pipeline.start, d, Setting.desk, Pipeline.idle, Coin.choose_name, Pipeline.onStore,
      Pipeline.log, Pipeline.update, Pipeline.updateTotals, hprobe]
  obtain ⟨coin, rows, -, -, hopened⟩ := Pipeline.start_ok hstart
  refine ⟨hstart, ?_, ?_, ?_⟩
  · rw [opened, hopened]
    exact congrArg (fun x => x.2.state) (hprobe rows)
  · rw [opened, hopened]
    rfl
  · rw [opened, hopened]
    exact (Totals.Ledger.new w.now).mark _ _ _

/-- A run over a memory that pipelines have written comes to its end. -/
theorem run_over_memory {s : Source} (hs : s.Printable)
    (hshow : ∀ b ∈ s.blocks, ∀ t ∈ b.transactions, t.Showable) {m : MemoryStore}
    (havailable : m.available = true) (hm : (AllOrNothing.contents m).Archived)
    (policy : CoinbasePolicy) (w : Setting) :
    let r := s.run.runAt (w.desk policy m)
    s.Finished (AllOrNothing.contents m) (AllOrNothing.contents r.2.state.store) r.1
      r.2.state.pipeline := by
  intro r
  let d := w.desk policy m
  obtain ⟨hstart, hkept, haccepts, hledger⟩ := opened_over_memory s havailable policy w
  have hopened : (AllOrNothing.contents (s.opened d).state.store).Archived := by rwa [hkept]
  obtain ⟨hhand, harchived⟩ := handOver_ok hshow s.startHeight hopened haccepts
  have hunderway : s.Underway s.blocks d := ⟨hstart, hhand⟩
  obtain ⟨rs, hrecorded, htold, hblocks, htransactions⟩ :=
    handOver_recorded haccepts hunderway.handOver hledger
  rw [hkept] at hblocks htransactions
  rw [Nat.zero_add, List.nil_append] at htold
  obtain ⟨-, hstartHeight, -, -, -⟩ := hunderway.of_new
  have haccepts' := hunderway.advanced.accepts
  have houtcome := Pipeline.complete_outcome s.endHeight haccepts'
  have hstate := Pipeline.complete_state s.endHeight haccepts'
  rw [← hunderway.run] at houtcome hstate
  obtain ⟨text, hsummary⟩ := hs.summary_ok hrecorded
    (htold.mark (s.handed s.blocks d).state.pipeline.totals.startHeight s.endHeight
      (some (s.handed s.blocks d).state.clock.now)) hstartHeight rfl
  have hpipeline : r.2.state.pipeline = Pipeline.completed s.endHeight
      (s.handed s.blocks d).state.clock.now (s.handed s.blocks d).state.pipeline :=
    congrArg Station.pipeline hstate
  have hstore : r.2.state.store = (s.handed s.blocks d).state.store := by
    rw [show r.2.state = _ from hstate]
  rw [hpipeline, hstore]
  refine ⟨?_, rfl, hstartHeight, rfl, htold.blocks, hblocks,
    ⟨rs, htransactions, hrecorded⟩, harchived⟩
  refine houtcome.trans ?_
  rw [show (Pipeline.completed _ _ _).totals.summary = .ok text from hsummary]
  rfl

end Source

/-! ### Over tables -/

/-- The store works: it is not locked, and its connection, open or still to be made, sees the
contents. -/
def TableStore.Keeps (t : TableStore) (c : Contents) : Prop :=
  t.locked = false ∧ ∃ db, t.Sees db ∧ db.Holds c

namespace Source

/-- The addresses in the blocks are texts, where there are any. -/
def Addressed (s : Source) : Prop :=
  ∀ b ∈ s.blocks, ∀ t ∈ b.transactions, ∀ o ∈ t.outputs, o.evaluation.Typed

/-- Two blocks: a payment and a transaction that spends it, and another one that does. -/
def hops : Source :=
  let a := Hash.repeated 1
  ⟨.bitcoin, 7, [.holding [.hop a ⟨.null, 0⟩ 5 "first", .hop (.repeated 2) ⟨a, 0⟩ 4 "second"],
    .holding [.hop (.repeated 3) ⟨a, 0⟩ 3 "third"]]⟩

end Source

end BlockArchive
