import BlockArchive.Proofs.Ingest.Handover
import BlockArchive.Proofs.Ingest.History
import BlockArchive.Proofs.Store.Steady

/-!
# A run that is cut in two

A pipeline remembers nothing of the blocks it has taken in but what it counts. So a run may be
completed after any block and the rest of the blocks be given to a new pipeline over the same store:
the store ends up the same, and the counters of the two runs add up to those of the one.

* `Totals.SumOf` says that counters add up;
* `Station.Beside` relates a station in the middle of a run to one that began there, and
  `Pipeline.take_beside` says that taking in a block keeps them so;
* `Source.run_restarted` compares the runs.
-/

namespace BlockArchive

/-! ### Counters that add up -/

/-- Each counter of `t` is the sum of those of `a` and `b`. -/
structure Totals.SumOf (t a b : Totals) : Prop where
  blocks : t.blocks = a.blocks + b.blocks
  transactions : t.transactions = a.transactions + b.transactions
  inputs : t.inputs = a.inputs + b.inputs
  outputs : t.outputs = a.outputs + b.outputs
  unrecognised : t.unrecognised = a.unrecognised + b.unrecognised
  tally : t.tally = a.tally + b.tally

namespace Totals.SumOf

variable {t a b : Totals}

theorem new (t : Totals) (now : Quantity) : t.SumOf t { startedAt := now } :=
  ⟨(Int.add_zero _).symm, (Int.add_zero _).symm, (Int.add_zero _).symm, (Int.add_zero _).symm,
    (Int.add_zero _).symm, (add_zero t.tally).symm⟩

theorem mark (h : t.SumOf a b) (start stop start' stop' : Int)
    (finished finished' : Option Quantity) :
    { t with startHeight := start, endHeight := stop, finishedAt := finished }.SumOf a
      { b with startHeight := start', endHeight := stop', finishedAt := finished' } :=
  ⟨h.blocks, h.transactions, h.inputs, h.outputs, h.unrecognised, h.tally⟩

/-- Sums stay sums where a block is counted on both sides. -/
theorem count (h : t.SumOf a b) (block : Block) (height : Int) (rs : List TransactionRecord)
    (tally : Tally) :
    (Pipeline.count block height rs tally t).SumOf a (Pipeline.count block height rs tally b) := by
  refine ⟨?_, ?_, ?_, ?_, ?_, ?_⟩
  · simp only [Pipeline.count, h.blocks, Int.add_assoc]
  · simp only [Pipeline.count, h.transactions, Int.add_assoc]
  · simp only [Pipeline.count, h.inputs, Int.add_assoc]
  · simp only [Pipeline.count, h.outputs, Int.add_assoc]
  · simp only [Pipeline.count, h.unrecognised, Int.add_assoc]
  · simp only [Pipeline.count, Tally.add_eq, h.tally, add_assoc]

theorem counted {p q : Pipeline} (h : p.totals.SumOf a q.totals) (block : Block) (height : Int)
    (o : Except Fault (List TransactionRecord × Tally)) :
    (Pipeline.counted block height p o).totals.SumOf a
      (Pipeline.counted block height q o).totals := by
  cases o with
  | ok x => exact h.count block height x.1 x.2
  | error f => exact h

theorem of_new {now : Quantity} {u c : Totals} (h : t.SumOf { startedAt := now } u)
    (hc : c.SumOf t b) : c.SumOf u b := by
  refine ⟨?_, ?_, ?_, ?_, ?_, ?_⟩
  · rw [hc.blocks, h.blocks, Int.zero_add]
  · rw [hc.transactions, h.transactions, Int.zero_add]
  · rw [hc.inputs, h.inputs, Int.zero_add]
  · rw [hc.outputs, h.outputs, Int.zero_add]
  · rw [hc.unrecognised, h.unrecognised, Int.zero_add]
  · rw [hc.tally, h.tally, Tally.empty_add]

end Totals.SumOf

/-! ### Two pipelines over one store -/

/-- Two stations with the same store, which has been reached, where the pipelines take blocks and
differ by what one of them had counted before. -/
structure Station.Beside (base : Totals) (s s' : Station AnyStore) : Prop where
  store : s.store.Steady s'.store
  policy : s.pipeline.policy = s'.pipeline.policy
  accepts : s.pipeline.phase.accepts = true
  accepts' : s'.pipeline.phase.accepts = true
  totals : s.pipeline.totals.SumOf base s'.pipeline.totals

theorem Pipeline.take_beside (base : Totals) (b : Block) (height : Int) :
    Act.Matches (Station.Beside base) (take b height : Act (Station AnyStore) Unit)
      (take b height) := by
  rw [Act.matches_iff]
  intro d e h
  obtain ⟨houtcome, hstore⟩ := Act.matches_iff.1
    (deposit_matches AnyStore.find_steady d.state.pipeline.policy b height
      AnyStore.insertBlock_steady AnyStore.insertTransactions_steady)
    ⟨d.state.store, d.rows⟩ ⟨e.state.store, e.rows⟩ h.store
  have hd := take_pipeline_deposit b height h.accepts
  have he := take_pipeline_deposit b height h.accepts'
  rw [houtcome] at hd
  rw [← h.policy] at he
  rw [take_outcome_deposit b height h.accepts, take_outcome_deposit b height h.accepts', houtcome,
    ← h.policy]
  refine ⟨rfl, ?_, ?_, ?_, ?_, ?_⟩
  · rw [take_store_deposit b height h.accepts, take_store_deposit b height h.accepts', ← h.policy]
    exact hstore
  · rw [hd, he, counted_policy, counted_policy]
    exact h.policy
  · rw [hd, counted_phase]
    rfl
  · rw [he, counted_phase]
    rfl
  · rw [hd, he]
    exact Totals.SumOf.counted (p := { d.state.pipeline with phase := .streaming })
      (q := { e.state.pipeline with phase := .streaming }) h.totals b height _

namespace Source

theorem handOver_beside {base : Totals} {d e : Desk (Station AnyStore)}
    (h : d.state.Beside base e.state) (height : Int) (bs : List Block) :
    ((handOver pipelineReceiver height bs).runAt d).1 =
        ((handOver pipelineReceiver height bs).runAt e).1 ∧
      ((handOver pipelineReceiver height bs).runAt d).2.state.Beside base
        ((handOver pipelineReceiver height bs).runAt e).2.state :=
  Act.matches_iff.1 (handOver_refines fun _ b _ => Pipeline.take_beside base b _) d e h

/-- New pipelines that have been started over the same store are beside each other. -/
theorem opened_beside {s s' : Source} {policy : CoinbasePolicy} {store : AnyStore} {w w' : Setting}
    {bs bs' : List Block} (h : s.Underway bs (w.desk policy store))
    (h' : s'.Underway bs' (w'.desk policy store)) :
    (s.opened (w.desk policy store)).state.Beside { startedAt := w.now }
      (s'.opened (w'.desk policy store)).state := by
  obtain ⟨coin, rows, -, hprobe, hstate⟩ := Pipeline.start_ok h.start
  obtain ⟨coin', rows', -, -, hstate'⟩ := Pipeline.start_ok h'.start
  obtain ⟨-, hsame, hreached⟩ := AnyStore.probe_reached store rows rows'
  rw [opened, opened, hstate, hstate']
  exact ⟨⟨hsame, hreached hprobe⟩, rfl, rfl, rfl,
    (Totals.SumOf.new { startedAt := w.now } w'.now).mark _ _ _ _ none none⟩

/-- A new pipeline that has been started over the store of a run is beside that run. -/
theorem opened_beside_run {s : Source} {policy : CoinbasePolicy} {w : Setting} {bs : List Block}
    {e : Station AnyStore} (hpolicy : e.pipeline.policy = policy)
    (haccepts : e.pipeline.phase.accepts = true) (hreached : e.store.Reached)
    (h : s.Underway bs (w.desk policy e.store)) :
    e.Beside e.pipeline.totals (s.opened (w.desk policy e.store)).state := by
  obtain ⟨coin, rows, -, -, hstate⟩ := Pipeline.start_ok h.start
  rw [opened, hstate]
  refine ⟨⟨?_, hreached⟩, hpolicy, haccepts, rfl,
    (Totals.SumOf.new e.pipeline.totals w.now).mark _ _ _ _ _ none⟩
  exact (AnyStore.probe_runAt_of_reached (d := ⟨e.store, rows⟩) hreached).symm

/-- **A run remembers nothing but what is in the store.** Blocks that are run through one pipeline
leave the store as they do if the run is completed after some of them and the others are run through
a new pipeline, provided that all runs come to an end: the same records in the same order, and in
tables the same rows with the same numbers. The counters of the two runs add up to those of the
one. -/
theorem run_restarted (coin coin' : Coin) (start : Nat) (xs ys : List Block)
    (policy : CoinbasePolicy) (store : AnyStore) (w w₁ w₂ : Setting) :
    let single := (run ⟨coin, start, xs ++ ys⟩).runAt (w.desk policy store)
    let first := (run ⟨coin, start, xs⟩).runAt (w₁.desk policy store)
    let second := (run ⟨coin', start + xs.length, ys⟩).runAt
      (w₂.desk policy first.2.state.store)
    ∀ t t₁ t₂, single.1 = .ok t → first.1 = .ok t₁ → second.1 = .ok t₂ →
      single.2.state.store = second.2.state.store ∧ t.SumOf t₁ t₂ := by
  intro single first second t t₁ t₂ hsingle hfirst hsecond
  let s : Source := ⟨coin, start, xs ++ ys⟩
  let s₁ : Source := ⟨coin, start, xs⟩
  let s₂ : Source := ⟨coin', start + xs.length, ys⟩
  let d := w.desk policy store
  let d₁ := w₁.desk policy store
  let d₂ := w₂.desk policy first.2.state.store
  obtain ⟨hunder, hrest⟩ := (run_ok hsingle : s.Underway (xs ++ ys) d).split
  have hunder₁ : s₁.Underway xs d₁ := run_ok hfirst
  have hunder₂ : s₂.Underway ys d₂ := run_ok hsecond
  obtain ⟨ht, hstate⟩ := run_ok_state hsingle
  obtain ⟨ht₁, hstate₁⟩ := run_ok_state hfirst
  obtain ⟨ht₂, hstate₂⟩ := run_ok_state hsecond
  -- up to the cut the runs are beside each other, and both have counted from nothing
  obtain ⟨-, hcut⟩ := handOver_beside (opened_beside hunder hunder₁) start xs
  have hstore : first.2.state.store = (s.handed xs d).state.store := by
    rw [show first.2.state = _ from hstate₁]
    exact hcut.store.1.symm
  -- then the new pipeline goes on beside the old one
  have hunder₂' : s₂.Underway ys (w₂.desk policy (s.handed xs d).state.store) := hstore ▸ hunder₂
  have hbeside := opened_beside_run hunder.of_new.1 hcut.accepts hcut.store.2 hunder₂'
  rw [← hstore] at hbeside
  obtain ⟨-, hend⟩ := handOver_beside hbeside (start + xs.length) ys
  rw [show (handOver pipelineReceiver (start + xs.length) ys).runAt (s.handed xs d) = _ from hrest]
    at hend
  refine ⟨?_, ?_⟩
  · rw [show single.2.state = _ from hstate, show second.2.state = _ from hstate₂]
    exact hend.store.1
  · have hsum := hcut.totals.of_new hend.totals
    rw [ht, ht₁, ht₂]
    exact ⟨hsum.blocks, hsum.transactions, hsum.inputs, hsum.outputs, hsum.unrecognised, hsum.tally⟩

/-- A payment is spent by the next block: the new pipeline finds it in the store. -/
theorem run_restarted_hops :
    let w : Setting := ⟨0, .whole 0, ⟨.whole 0, []⟩, []⟩
    let xs : List Block := [.holding [.hop (.repeated 1) ⟨.null, 0⟩ 5 "first"]]
    let ys : List Block := [.holding [.hop (.repeated 2) ⟨.repeated 1, 0⟩ 4 "second"]]
    let single := (run ⟨.bitcoin, 7, xs ++ ys⟩).runAt (w.desk .sentinel (AnyStore.memory {}))
    let first := (run ⟨.bitcoin, 7, xs⟩).runAt (w.desk .sentinel (AnyStore.memory {}))
    let second := (run ⟨.bitcoin, 7 + xs.length, ys⟩).runAt
      (w.desk .sentinel first.2.state.store)
    ∃ t t₁ t₂, (single.1 = .ok t ∧ first.1 = .ok t₁ ∧ second.1 = .ok t₂) ∧
      single.2.state.store = second.2.state.store ∧ t.SumOf t₁ t₂ := by
  intro w xs ys single first second
  obtain ⟨t, ht⟩ : ∃ t, single.1 = .ok t := Act.exists_of_isOk (by decide +kernel)
  obtain ⟨t₁, ht₁⟩ : ∃ t, first.1 = .ok t := Act.exists_of_isOk (by decide +kernel)
  obtain ⟨t₂, ht₂⟩ : ∃ t, second.1 = .ok t := Act.exists_of_isOk (by decide +kernel)
  refine ⟨t, t₁, t₂, ⟨ht, ht₁, ht₂⟩, ?_⟩
  simp only [single, first, second] at ht ht₁ ht₂ ⊢
  exact run_restarted .bitcoin .bitcoin 7 xs ys .sentinel (.memory {}) w w w t t₁ t₂ ht ht₁ ht₂

end Source

end BlockArchive
