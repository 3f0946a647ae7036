import BlockArchive.Proofs.Ingest.Handover
import BlockArchive.Proofs.Ingest.Retry
import BlockArchive.Proofs.Record.Documents

/-!
# Runs that stop at a block

When a call of the store fails while a block is taken in, the run is over: it is not completed, and
what it leaves behind is what a run over the blocks before would have left, together with the record
of the block itself where it was the batch that could not be written.

* `Source.handOver_quiet` says that while blocks are taken in no call has failed;
* `Source.run_halted` compares the run that stops with the one over the blocks before, whatever it
  means that a store keeps records;
* `Source.run_aborted` is about stores whose contents can be told, and
  `Source.run_aborted_appending` about stores that keep records otherwise, such as the one in
  tables.
-/

namespace BlockArchive

variable {σ : Type} [Store σ] {Keeps : σ → Contents → Prop} {k : Contents}

namespace Source

/-- Where blocks were taken in no call of the store has failed, provided that their heights can be
written. -/
theorem handOver_quiet (hgrows : Store.Grows Keeps) {bs : List Block} {height : Nat}
    {d : Desk (Station (Traced σ))}
    (hheight : Document.isTooLong (height + bs.length : Nat) = false)
    (hp : d.state.pipeline.phase.accepts = true) (hd : Keeps d.state.store.store k)
    (hok : ((handOver pipelineReceiver height bs).runAt d).1 = .ok ()) :
    ((handOver pipelineReceiver height bs).runAt d).2.state.store.failed = d.state.store.failed ∧
      ∃ k', Keeps ((handOver pipelineReceiver height bs).runAt d).2.state.store.store k' := by
  induction bs generalizing height d k with
  | nil => exact ⟨rfl, k, hd⟩
  | cons b rest ih =>
    obtain ⟨⟨⟩, htake, -⟩ := Act.runAt_bind_ok hok
    have hshort : Document.isTooLong height = false :=
      Document.isTooLong_of_le hheight (Nat.le_add_right _ _)
    obtain ⟨o, hwork⟩ := Pipeline.take_worked_own hgrows b hshort hp hd
    obtain ⟨hquiet, x, -, hkept⟩ := hwork.of_ok htake
    obtain ⟨y, -, hpipeline⟩ := Pipeline.take_ok_pipeline hp htake
    rw [List.length_cons, Nat.add_comm rest.length, ← Nat.add_assoc] at hheight
    rw [handOver_cons_runAt rest htake, ← Int.natCast_succ] at hok ⊢
    obtain ⟨hrest, hkept'⟩ := ih hheight (by rw [hpipeline]; rfl) hkept hok
    exact ⟨hrest.trans hquiet, hkept'⟩

/-- Where a run of a new pipeline is underway no call of the store has failed. -/
theorem Underway.quiet (hgrows : Store.Grows Keeps) {s : Source} {bs : List Block}
    {policy : CoinbasePolicy} {store : σ} {w : Setting}
    (h : s.Underway bs (w.desk policy (Traced.mk store [])))
    (hheight : Document.isTooLong (s.startHeight + bs.length : Nat) = false)
    (hopened : Keeps (s.opened (w.desk policy (Traced.mk store []))).state.store.store k) :
    (s.handed bs (w.desk policy (Traced.mk store []))).state.store.failed = [] ∧
      ∃ k', Keeps (s.handed bs (w.desk policy (Traced.mk store []))).state.store.store k' := by
  obtain ⟨hquiet, hkept⟩ := handOver_quiet hgrows hheight h.accepts hopened h.handOver
  refine ⟨hquiet.trans ?_, hkept⟩
  obtain ⟨_, rows, -, hprobe, hstart⟩ := Pipeline.start_ok h.start
  rw [opened, hstart]
  -- the store has answered
  simp only [Store.probe, Traced.call_runAt] at hprobe ⊢
  rw [hprobe]
  rfl

/-- **A run that stops leaves what was done before**, of whatever the store keeps once it was
started. -/
theorem run_halted (hgrows : Store.Grows Keeps) {s : Source} {bs rest : List Block} {b : Block}
    (hblocks : s.blocks = bs ++ b :: rest)
    (hheight : Document.isTooLong (s.startHeight + bs.length : Nat) = false)
    {policy : CoinbasePolicy} {store : σ} {w : Setting}
    (hbefore : s.Underway bs (w.desk policy (Traced.mk store [])))
    (hopened : Keeps (s.opened (w.desk policy (Traced.mk store []))).state.store.store k)
    (hfailed : ((Pipeline.take b (s.startHeight + bs.length : Nat)).runAt
      (s.handed bs (w.desk policy (Traced.mk store [])))).2.state.store.failed ≠ []) :
    let aborted := s.run.runAt (w.desk policy (Traced.mk store []))
    let before := (run { s with blocks := bs }).runAt (w.desk policy (Traced.mk store []))
    ∃ q f k', aborted.2.state.store.failed = [(q, f)] ∧ aborted.1 = .error f ∧
      aborted.2.state.pipeline =
        { before.2.state.pipeline with
          phase := .streaming
          totals := { before.2.state.pipeline.totals with finishedAt := none } } ∧
      aborted.2.state.pipeline.totals.blocks = bs.length ∧
      aborted.2.state.pipeline.totals.endHeight = s.startHeight + (bs.length - 1 : Nat) ∧
      Keeps before.2.state.store.store k' ∧
      Keeps aborted.2.state.store.store
        (k'.behind b (s.startHeight + bs.length : Nat) q) := by
  intro aborted before
  let d := w.desk policy (Traced.mk store [])
  obtain ⟨hquiet, k', hkept⟩ := hbefore.quiet hgrows hheight hopened
  have haccepts := hbefore.advanced.accepts
  obtain ⟨-, -, hend, hcount, hunfinished⟩ := hbefore.of_new
  -- the block is the first one that fails
  obtain ⟨q, f, hnoted, houtcome, hpipeline, hbehind⟩ :=
    Pipeline.take_intact hgrows hheight haccepts hkept (by rwa [hquiet])
  rw [hquiet, List.nil_append] at hnoted
  have haborted : aborted = (.error f,
      ((Pipeline.take b (s.startHeight + bs.length : Nat)).runAt (s.handed bs d)).2) :=
    run_stopped hbefore hblocks (Prod.ext houtcome rfl)
  -- the run over the blocks before comes to the same desk, where it is completed
  have hcomplete : before =
      (Pipeline.complete (s.startHeight + (bs.length - 1 : Nat))).runAt (s.handed bs d) :=
    Underway.run (s := { s with blocks := bs }) ⟨hbefore.start, hbefore.handOver⟩
  have hstate := Pipeline.complete_state (s.startHeight + (bs.length - 1 : Nat)) haccepts
  rw [← hcomplete] at hstate
  refine ⟨q, f, k', ?_, ?_, ?_, ?_, ?_, ?_, ?_⟩
  · rw [haborted, hnoted]
  · rw [haborted]
  · rw [haborted, hstate, hpipeline, ← hend, ← hunfinished]
    rfl
  · rw [haborted, hpipeline, hcount]
  · rw [haborted, hpipeline, hend]
  · rw [hstate]
    exact hkept
  · rw [haborted]
    exact hbehind

/-- **A run that stops leaves what was done before.** If any call of the store fails while a block
is taken in, and the blocks before had been, the call is the only one that does and the run is over
with its fault, and not completed. Behind it are what the run over the blocks before leaves, and the
block itself exactly if it was the batch that could not be written; the totals are those of that
run, which counts the blocks before and ends at the height of the last. -/
theorem run_aborted [AllOrNothing σ] {s : Source} {bs rest : List Block} {b : Block}
    (hblocks : s.blocks = bs ++ b :: rest)
    (hheight : Document.isTooLong (s.startHeight + bs.length : Nat) = false)
    {policy : CoinbasePolicy} {store : σ} {w : Setting}
    (hbefore : s.Underway bs (w.desk policy (Traced.mk store [])))
    (hfailed : ((Pipeline.take b (s.startHeight + bs.length : Nat)).runAt
      (s.handed bs (w.desk policy (Traced.mk store [])))).2.state.store.failed ≠ []) :
    let aborted := s.run.runAt (w.desk policy (Traced.mk store []))
    let before := (run { s with blocks := bs }).runAt (w.desk policy (Traced.mk store []))
    ∃ q f, aborted.2.state.store.failed = [(q, f)] ∧ aborted.1 = .error f ∧
      aborted.2.state.pipeline =
        { before.2.state.pipeline with
          phase := .streaming
          totals := { before.2.state.pipeline.totals with finishedAt := none } } ∧
      aborted.2.state.pipeline.totals.blocks = bs.length ∧
      aborted.2.state.pipeline.totals.endHeight = s.startHeight + (bs.length - 1 : Nat) ∧
      aborted.2.state.kept.transactions = before.2.state.kept.transactions ∧
      aborted.2.state.kept.blocks = before.2.state.kept.blocks ++
        if q = .insertTransactions then [.ofBlock b (.int (s.startHeight + bs.length : Nat))]
        else [] := by
  intro aborted before
  obtain ⟨q, f, k, hnoted, houtcome, hpipeline, hcount, hend, hbefore', hbehind⟩ :=
    run_halted AllOrNothing.grows hblocks hheight hbefore rfl hfailed
  refine ⟨q, f, hnoted, houtcome, hpipeline, hcount, hend, ?_, ?_⟩
  · rw [Station.kept, Station.kept, hbehind, hbefore']
    cases q <;> rfl
  · rw [Station.kept, Station.kept, hbehind, hbefore']
    cases q with
    | insertTransactions => rfl
    | probe | find | insertBlock => exact (List.append_nil _).symm

/-- The batch of the second block cannot be written: the block itself is left behind. -/
theorem run_aborted_hops :
    let w : Setting := ⟨0, .whole 0, ⟨.whole 0, []⟩, []⟩
    let first := Block.holding [.hop (.repeated 1) ⟨.null, 0⟩ 5 "first"]
    let second := Block.holding [.hop (.repeated 2) ⟨.repeated 1, 0⟩ 4 "second"]
    let s : Source := ⟨.bitcoin, 7, [first, second]⟩
    let store : Flaky MemoryStore := ⟨{}, [none, none, none, none, none, some (.value "full")]⟩
    let aborted := s.run.runAt (w.desk .sentinel (Traced.mk store []))
    let before := (run { s with blocks := [first] }).runAt (w.desk .sentinel (Traced.mk store []))
    ∃ f, aborted.2.state.store.failed = [(.insertTransactions, f)] ∧ aborted.1 = .error f ∧
      aborted.2.state.pipeline.totals.blocks = 1 ∧
      aborted.2.state.kept.transactions = before.2.state.kept.transactions ∧
      aborted.2.state.kept.blocks = before.2.state.kept.blocks ++ [.ofBlock second (.int 8)] := by
  intro w first second s store aborted before
  have hheight : Document.isTooLong (s.startHeight + [first].length : Nat) = false := by
    decide +kernel
  have hbefore : s.Underway [first] (w.desk .sentinel (Traced.mk store [])) := by
    obtain ⟨⟨⟩, hstart⟩ := Act.exists_of_isOk (r := ((Pipeline.start (.string s.coin.name)
      s.startHeight).runAt (w.desk .sentinel (Traced.mk store []))).1) (by decide +kernel)
    obtain ⟨⟨⟩, hhand⟩ := Act.exists_of_isOk (r := ((handOver pipelineReceiver s.startHeight
      [first]).runAt (s.opened (w.desk .sentinel (Traced.mk store [])))).1) (by decide +kernel)
    exact ⟨hstart, hhand⟩
  have hfailed : ((Pipeline.take second (s.startHeight + [first].length : Nat)).runAt
      (s.handed [first] (w.desk .sentinel (Traced.mk store [])))).2.state.store.failed ≠ [] :=
    List.isEmpty_eq_false_iff.1 (by decide +kernel)
  have hcalls : aborted.2.state.store.failed.map Prod.fst = [.insertTransactions] := by
    decide +kernel
  have hblocks : s.blocks = [first] ++ second :: [] := rfl
  obtain ⟨q, f, hnoted, houtcome, -, hcount, -, htransactions, hkept⟩ :=
    run_aborted hblocks hheight hbefore hfailed
  simp only [aborted, before] at hcalls ⊢
  obtain rfl : q = .insertTransactions := by
    rw [hnoted] at hcalls
    exact (List.cons.inj hcalls).1
  exact ⟨f, hnoted, houtcome, hcount, htransactions, hkept⟩

/-- **So it is over a store that only grows**, such as the one in tables: whatever stops the run, it
keeps what the run over the blocks before leaves, and the block itself exactly if it was the batch
that could not be written. -/
theorem run_aborted_appending [Appending σ] {s : Source} {bs rest : List Block} {b : Block}
    (hblocks : s.blocks = bs ++ b :: rest)
    (hheight : Document.isTooLong (s.startHeight + bs.length : Nat) = false)
    {policy : CoinbasePolicy} {store : σ} (hstore : Appending.Keeps store k) {w : Setting}
    (hbefore : s.Underway bs (w.desk policy (Traced.mk store [])))
    (hfailed : ((Pipeline.take b (s.startHeight + bs.length : Nat)).runAt
      (s.handed bs (w.desk policy (Traced.mk store [])))).2.state.store.failed ≠ []) :
    let aborted := s.run.runAt (w.desk policy (Traced.mk store []))
    let before := (run { s with blocks := bs }).runAt (w.desk policy (Traced.mk store []))
    ∃ q f k', aborted.2.state.store.failed = [(q, f)] ∧ aborted.1 = .error f ∧
      aborted.2.state.pipeline =
        { before.2.state.pipeline with
          phase := .streaming
          totals := { before.2.state.pipeline.totals with finishedAt := none } } ∧
      aborted.2.state.pipeline.totals.blocks = bs.length ∧
      aborted.2.state.pipeline.totals.endHeight = s.startHeight + (bs.length - 1 : Nat) ∧
      Appending.Keeps before.2.state.store.store k' ∧
      Appending.Keeps aborted.2.state.store.store
        (k'.behind b (s.startHeight + bs.length : Nat) q) := by
  refine run_halted Appending.grows hblocks hheight hbefore (k := k) ?_ hfailed
  obtain ⟨_, rows, -, -, hopened⟩ := Pipeline.start_ok hbefore.start
  rw [opened, hopened]
  simp only [Store.probe, Traced.call_runAt]
  exact Appending.probe_keeps (d := ⟨store, _⟩) hstore

end Source

end BlockArchive
