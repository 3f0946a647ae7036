import BlockArchive.Ingest.Source
import BlockArchive.Proofs.Act.Refinement
import BlockArchive.Proofs.Ingest.Deposit

/-!
# Runs of sources, step by step

A run of a source that is completed was started, had all its blocks handed over and was completed at
the height of the last; one that is not stopped at the first of these steps that did. Handing over
blocks does not depend on how they are cut into lists.

* `Source.handOver_append` and `Source.handOver_refines` are about any receiver;
* `Pipeline.Advanced` is a pipeline further on in its run, and `Source.handOver_advanced` says that
  blocks that were handed over are counted, with the height of the last;
* `Source.run_ok` and `Source.run_stopped` take a run apart.
-/

namespace BlockArchive

variable {σ τ α β : Type}

theorem Act.exists_of_isOk {r : Except Fault α} (h : r.isOk = true) : ∃ x, r = .ok x := by
  cases r with
  | ok x => exact ⟨x, rfl⟩
  | error f => cases h

/-! ### Any receiver -/

namespace Source

theorem handOver_append (r : Receiver σ α) (height : Int) (xs ys : List Block) :
    handOver r height (xs ++ ys) = (do
      handOver r height xs
      handOver r (height + xs.length) ys) := by
  induction xs generalizing height with
  | nil => simp [handOver]
  | cons b rest ih =>
    have hheight : height + ((b :: rest).length : Int) = height + 1 + rest.length := by
      simp only [List.length_cons]
      omega
    rw [List.cons_append, handOver, handOver, ih, bind_assoc, hheight]

/-- Receivers that deal alike with each block at its height deal alike with all. -/
theorem handOver_refines {R : σ → τ → Prop} {S : σ → Fault → Prop} {r : Receiver σ α}
    {q : Receiver τ β} {height : Int} {bs : List Block}
    (h : ∀ (i : Nat) b, bs[i]? = some b →
      Act.Refines R S (r.onBlock b (height + i)) (q.onBlock b (height + i))) :
    Act.Refines R S (handOver r height bs) (handOver q height bs) := by
  induction bs generalizing height with
  | nil => exact .pure ()
  | cons b rest ih =>
    have hfirst := h 0 b rfl
    rw [show height + ((0 : Nat) : Int) = height by omega] at hfirst
    refine hfirst.bind fun _ => ih fun i b' hb' => ?_
    have hrest := h (i + 1) b' hb'
    rw [show height + ((i + 1 : Nat) : Int) = height + 1 + i by omega] at hrest
    exact hrest

end Source

/-! ### Pipelines further on -/

/-- The pipeline `q` has come from `p` by taking in so many blocks, the first at a height. -/
structure Pipeline.Advanced (p q : Pipeline) (height : Int) (n : Nat) : Prop where
  policy : q.policy = p.policy
  accepts : q.phase.accepts = true
  startHeight : q.totals.startHeight = p.totals.startHeight
  endHeight : q.totals.endHeight = if n = 0 then p.totals.endHeight else height + (n - 1 : Nat)
  blocks : q.totals.blocks = p.totals.blocks + n
  startedAt : q.totals.startedAt = p.totals.startedAt
  finishedAt : q.totals.finishedAt = p.totals.finishedAt

namespace Pipeline

variable [Store σ]

theorem take_ok_pipeline {b : Block} {height : Int} {d : Desk (Station σ)}
    (hp : d.state.pipeline.phase.accepts = true) (hok : ((take b height).runAt d).1 = .ok ()) :
    ∃ x, ((deposit d.state.pipeline.policy b height).runAt ⟨d.state.store, d.rows⟩).1 = .ok x ∧
      ((take b height).runAt d).2.state.pipeline =
        { d.state.pipeline with
          phase := .streaming
          totals := count b height x.1 x.2 d.state.pipeline.totals } := by
  obtain ⟨x, hx⟩ := (take_ok_iff b height hp).1 hok
  refine ⟨x, hx, ?_⟩
  rw [take_pipeline_deposit b height hp, hx]
  rfl

theorem start_ok {coinName : Value} {height : Int} {d : Desk (Station σ)}
    (hok : ((start coinName height).runAt d).1 = .ok ()) :
    ∃ coin rows, Coin.choose coinName = .ok coin ∧
      ((Store.probe : Act σ Unit).runAt ⟨d.state.store, rows⟩).1 = .ok () ∧
      ((start coinName height).runAt d).2.state =
        { d.state with
          store := ((Store.probe : Act σ Unit).runAt ⟨d.state.store, rows⟩).2.state
          pipeline := started coin height d.state.pipeline } := by
  rcases start_cases coinName height d with ⟨f, hrun⟩ | ⟨-, coin, rows, hcoin, houtcome, hstate⟩
  · rw [hrun] at hok
    cases hok
  · rw [hok] at houtcome
    refine ⟨coin, rows, hcoin, houtcome.symm, ?_⟩
    rw [hstate, ← houtcome]

end Pipeline

namespace Source

variable [Store σ]

/-- Where the first block is taken in, the others are handed over from there. -/
theorem handOver_cons_runAt {b : Block} {height : Int} {d : Desk (Station σ)} (rest : List Block)
    (htake : ((Pipeline.take b height).runAt d).1 = .ok ()) :
    (handOver pipelineReceiver height (b :: rest)).runAt d =
      (handOver pipelineReceiver (height + 1) rest).runAt ((Pipeline.take b height).runAt d).2 := by
  have hfirst : (pipelineReceiver.onBlock b height : Act (Station σ) Unit).runAt d =
      (.ok (), ((Pipeline.take b height).runAt d).2) := Prod.ext htake rfl
  rw [handOver, Act.runAt_bind, hfirst]

theorem handOver_advanced {bs : List Block} {height : Int} {d : Desk (Station σ)}
    (hp : d.state.pipeline.phase.accepts = true)
    (hok : ((handOver pipelineReceiver height bs).runAt d).1 = .ok ()) :
    d.state.pipeline.Advanced ((handOver pipelineReceiver height bs).runAt d).2.state.pipeline
      height bs.length := by
  induction bs generalizing height d with
  | nil => exact ⟨rfl, hp, rfl, rfl, (Int.add_zero _).symm, rfl, rfl⟩
  | cons b rest ih =>
    obtain ⟨⟨⟩, htake, hrest⟩ := Act.runAt_bind_ok hok
    obtain ⟨x, -, hpipeline⟩ := Pipeline.take_ok_pipeline hp htake
    have hmore := ih (d := ((Pipeline.take b height).runAt d).2) (by rw [hpipeline]; rfl) hrest
    rw [handOver_cons_runAt rest htake]
    refine ⟨?_, hmore.accepts, ?_, ?_, ?_, ?_, ?_⟩
    · rw [hmore.policy, hpipeline]
    · rw [hmore.startHeight, hpipeline, Pipeline.count]
    · rw [hmore.endHeight, hpipeline, Pipeline.count]
      -- the height of this block, if it is the last
      cases rest with
      | nil => simp
      | cons b' rest =>
        simp only [List.length_cons, Nat.add_one_ne_zero, ↓reduceIte, Nat.add_sub_cancel]
        omega
    · rw [hmore.blocks, hpipeline, Pipeline.count]
      simp only [List.length_cons]
      omega
    · rw [hmore.startedAt, hpipeline, Pipeline.count]
    · rw [hmore.finishedAt, hpipeline, Pipeline.count]

/-- The desk once the run of a source has been started. -/
def opened (s : Source) (d : Desk (Station σ)) : Desk (Station σ) :=
  ((Pipeline.start (.string s.coin.name) s.startHeight).runAt d).2

/-- The desk once blocks have been handed over from the start of a source on. -/
def handed (s : Source) (bs : List Block) (d : Desk (Station σ)) : Desk (Station σ) :=
  ((handOver pipelineReceiver s.startHeight bs).runAt (s.opened d)).2

/-- The run of a source has been started, and blocks have been handed over. -/
structure Underway (s : Source) (bs : List Block) (d : Desk (Station σ)) : Prop where
  start : ((Pipeline.start (.string s.coin.name) s.startHeight).runAt d).1 = .ok ()
  handOver : ((handOver pipelineReceiver s.startHeight bs).runAt (s.opened d)).1 = .ok ()

variable {s : Source} {d : Desk (Station σ)} {bs : List Block}

theorem Underway.accepts (h : s.Underway bs d) :
    (s.opened d).state.pipeline.phase.accepts = true := by
  obtain ⟨coin, rows, -, -, hstate⟩ := Pipeline.start_ok h.start
  rw [opened, hstate]
  rfl

theorem Underway.advanced (h : s.Underway bs d) :
    (s.opened d).state.pipeline.Advanced (s.handed bs d).state.pipeline s.startHeight bs.length :=
  handOver_advanced h.accepts h.handOver

theorem Underway.of_new {policy : CoinbasePolicy} {store : σ} {w : Setting}
    (h : s.Underway bs (w.desk policy store)) :
    let p := (s.handed bs (w.desk policy store)).state.pipeline
    p.policy = policy ∧ p.totals.startHeight = s.startHeight ∧
      p.totals.endHeight = s.startHeight + (bs.length - 1 : Nat) ∧
      p.totals.blocks = bs.length ∧ p.totals.finishedAt = none := by
  obtain ⟨coin, _, -, -, hopened⟩ := Pipeline.start_ok h.start
  have hadvanced := h.advanced
  rw [opened, hopened] at hadvanced
  refine ⟨hadvanced.policy, hadvanced.startHeight, ?_, ?_, hadvanced.finishedAt⟩
  · rw [hadvanced.endHeight]
    cases bs with
    | nil => exact (Int.add_zero _).symm
    | cons b rest => rfl
  · rw [hadvanced.blocks]
    exact Int.zero_add _

/-- Where more blocks were handed over, some were, and the others from there on. -/
theorem Underway.split {cs : List Block} (h : s.Underway (bs ++ cs) d) :
    s.Underway bs d ∧
      (Source.handOver pipelineReceiver (s.startHeight + bs.length) cs).runAt (s.handed bs d) =
        (.ok (), s.handed (bs ++ cs) d) := by
  have hall : (Source.handOver pipelineReceiver s.startHeight (bs ++ cs)).runAt (s.opened d) =
      (.ok (), s.handed (bs ++ cs) d) := Prod.ext h.handOver rfl
  rw [handOver_append] at hall
  obtain ⟨⟨⟩, hbs, -⟩ := Act.runAt_bind_ok (congrArg Prod.fst hall)
  refine ⟨⟨h.start, hbs⟩, ?_⟩
  rw [Act.runAt_bind, hbs] at hall
  exact hall

theorem Underway.runAt_rest {cs : List Block} (h : s.Underway bs d)
    (hblocks : s.blocks = bs ++ cs) :
    s.run.runAt d = (do
      Source.handOver pipelineReceiver (s.startHeight + bs.length) cs
      Pipeline.complete s.endHeight).runAt (s.handed bs d) := by
  have hstart : (pipelineReceiver.onStart s.coin s.startHeight : Act (Station σ) Unit).runAt d =
      (.ok (), s.opened d) := Prod.ext h.start rfl
  have hhand : (Source.handOver pipelineReceiver s.startHeight bs).runAt (s.opened d) =
      (.ok (), s.handed bs d) := Prod.ext h.handOver rfl
  rw [Source.run, drive, Act.runAt_bind, hstart]
  dsimp only
  rw [hblocks, handOver_append, bind_assoc, Act.runAt_bind, hhand]
  rfl

/-- Where all blocks are handed over, the run comes to what its completion does. -/
theorem Underway.run (h : s.Underway s.blocks d) :
    s.run.runAt d = (Pipeline.complete s.endHeight).runAt (s.handed s.blocks d) := by
  rw [h.runAt_rest (List.append_nil _).symm, Source.handOver, pure_bind]

theorem run_ok {t : Totals} (hok : (s.run.runAt d).1 = .ok t) : s.Underway s.blocks d := by
  obtain ⟨⟨⟩, hstart, hrest⟩ := Act.runAt_bind_ok hok
  obtain ⟨⟨⟩, hhand, -⟩ := Act.runAt_bind_ok hrest
  exact ⟨hstart, hhand⟩

/-- A run that comes to totals is completed with them at the height of the last block. -/
theorem run_ok_state {t : Totals} (hok : (s.run.runAt d).1 = .ok t) :
    let e := (s.handed s.blocks d).state
    t = (Pipeline.completed s.endHeight e.clock.now e.pipeline).totals ∧
      (s.run.runAt d).2.state =
        { e with pipeline := Pipeline.completed s.endHeight e.clock.now e.pipeline } := by
  have hunderway := run_ok hok
  have haccepts := hunderway.advanced.accepts
  rw [hunderway.run, Pipeline.complete_outcome _ haccepts] at hok
  rw [hunderway.run, Pipeline.complete_state _ haccepts]
  refine ⟨?_, rfl⟩
  generalize Totals.summary _ = summary at hok
  cases summary with
  | ok text => exact (Except.ok.inj hok).symm
  | error f => cases hok

/-- A run stops where a block that is handed over does, and nothing follows. -/
theorem run_stopped {b : Block} {rest : List Block} {f : Fault} {e : Desk (Station σ)}
    (h : s.Underway bs d) (hblocks : s.blocks = bs ++ b :: rest)
    (hstop : (Pipeline.take b (s.startHeight + bs.length)).runAt (s.handed bs d) = (.error f, e)) :
    s.run.runAt d = (.error f, e) := by
  rw [h.runAt_rest hblocks, Source.handOver, bind_assoc, Act.runAt_bind]
  simp only [pipelineReceiver, hstop]

end Source

end BlockArchive
