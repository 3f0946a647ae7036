import BlockArchive.Proofs.Ingest.History
import BlockArchive.Proofs.Ingest.Worked

/-!
# Blocks that fail and are taken again

Whatever call of the store fails while a block is taken in, the fault comes out and the run stands
as before: the counters move only when everything is written, and what the resolution has gathered
is dropped with it. At most the block's own record is left behind, when it was the batch that could
not be written. So the block may be taken again, as often as it takes.

* `Failures` are runs in which the same block fails again and again;
* `Pipeline.take_intact` and `Pipeline.take_again` say what becomes of one failure, and of attempts
  that end in success, whatever it means that a store keeps records;
* `Pipeline.take_retried` puts them together for stores whose contents can be told, and
  `Pipeline.take_retried_answering` for stores that keep records otherwise, such as the one in
  tables.
-/

namespace BlockArchive

variable {σ : Type} [Store σ]

/-! ### Failing again and again -/

/-- Runs in which the same block is taken in again and again, and a call of the store fails each
time: the calls, and the desk at which the next attempt begins. -/
inductive Failures (b : Block) (height : Int) :
    Desk (Station (Traced σ)) → List StoreCall → Desk (Station (Traced σ)) → Prop
  /-- No attempt was made. -/
  | nil (d : Desk (Station (Traced σ))) : Failures b height d [] d
  /-- An attempt failed at a call, and then others. -/
  | cons {d e : Desk (Station (Traced σ))} {q : StoreCall} {f : Fault} {qs : List StoreCall}
      (failed : ((Pipeline.take b height).runAt d).2.state.store.failed =
        d.state.store.failed ++ [(q, f)])
      (rest : Failures b height ((Pipeline.take b height).runAt d).2 qs e) :
      Failures b height d (q :: qs) e

/-- The contents with a block added a number of times. -/
def Contents.addBlocks (k : Contents) (b : Block) (height : Int) (n : Nat) : Contents :=
  { k with blocks := k.blocks ++ List.replicate n (.ofBlock b (.int height)) }

/-- One attempt that failed and others after it add as many copies as their batches failed. -/
theorem Contents.addBlocks_behind (k : Contents) (b : Block) (height : Int) (q : StoreCall)
    (qs : List StoreCall) :
    (k.behind b height q).addBlocks b height (qs.count .insertTransactions) =
      k.addBlocks b height ((q :: qs).count .insertTransactions) := by
  cases q <;> simp [behind, addBlock, addBlocks, List.replicate_succ]

namespace Pipeline

variable {Keeps : σ → Contents → Prop} {k : Contents} {b : Block} {height : Int}
  {d e : Desk (Station (Traced σ))} {qs : List StoreCall}

/-- A call that fails is the only one that does, and leaves the run as it was. -/
theorem take_intact (hgrows : Store.Grows Keeps) (hheight : Document.isTooLong height = false)
    (hp : d.state.pipeline.phase.accepts = true) (hd : Keeps d.state.store.store k)
    (hne : ((take b height).runAt d).2.state.store.failed ≠ d.state.store.failed) :
    ∃ q f, ((take b height).runAt d).2.state.store.failed = d.state.store.failed ++ [(q, f)] ∧
      ((take b height).runAt d).1 = .error f ∧
      ((take b height).runAt d).2.state.pipeline = { d.state.pipeline with phase := .streaming } ∧
      Keeps ((take b height).runAt d).2.state.store.store (k.behind b height q) := by
  obtain ⟨o, hwork⟩ := take_worked_own hgrows b hheight hp hd
  exact hwork.of_noted_ne hne

/-- Attempts that fail leave copies of the block behind, one for each batch that failed, and nothing
else. -/
theorem failures_intact (hgrows : Store.Grows Keeps) (hheight : Document.isTooLong height = false)
    (h : Failures b height d qs e) (hp : d.state.pipeline.phase.accepts = true)
    (hd : Keeps d.state.store.store k) :
    e.state.pipeline.phase.accepts = true ∧
      { e.state.pipeline with phase := .streaming } =
        { d.state.pipeline with phase := .streaming } ∧
      Keeps e.state.store.store (k.addBlocks b height (qs.count .insertTransactions)) := by
  induction h generalizing k with
  | nil d => exact ⟨hp, rfl, by simpa [Contents.addBlocks] using hd⟩
  | @cons d e q f qs hfailed rest ih =>
    have hne : ((take b height).runAt d).2.state.store.failed ≠ d.state.store.failed := by
      simp [hfailed]
    obtain ⟨q', f', hfailed', -, hpipeline, hkept⟩ := take_intact hgrows hheight hp hd hne
    -- the call noted is the one that the attempt stopped at
    obtain ⟨rfl, rfl⟩ : q = q' ∧ f = f' := by
      simpa using hfailed.symm.trans hfailed'
    obtain ⟨haccepts, hsame, hkept⟩ := ih (by rw [hpipeline]; rfl) hkept
    refine ⟨haccepts, by rw [hsame, hpipeline], ?_⟩
    rwa [Contents.addBlocks_behind] at hkept

/-- An attempt that succeeds after others have failed has the effect of one that succeeds at once,
over the same records, where no call fails. -/
theorem take_again {τ : Type} [Store τ] {Keeps' : τ → Contents → Prop}
    (hgrows : Store.Grows Keeps) (hgrows' : Store.Grows Keeps')
    (htells : Store.Tells Keeps k.transactions) (htells' : Store.Tells Keeps' k.transactions)
    (hheight : Document.isTooLong height = false) (hp : d.state.pipeline.phase.accepts = true)
    (hd : Keeps d.state.store.store k) (hfailures : Failures b height d qs e)
    (hok : ((take b height).runAt e).1 = .ok ()) {d' : Desk (Station (Traced τ))}
    (hpipeline : d'.state.pipeline = d.state.pipeline) (hd' : Keeps' d'.state.store.store k)
    (hquiet : ((take b height).runAt d').2.state.store.failed = d'.state.store.failed) :
    ((take b height).runAt d').1 = .ok () ∧
      ((take b height).runAt e).2.state.pipeline = ((take b height).runAt d').2.state.pipeline ∧
      ∃ rs, Keeps' ((take b height).runAt d').2.state.store.store
          ((k.addBlock (.ofBlock b (.int height))).addTransactions rs) ∧
        Keeps ((take b height).runAt e).2.state.store.store
          (((k.addBlocks b height (qs.count .insertTransactions)).addBlock
            (.ofBlock b (.int height))).addTransactions rs) := by
  obtain ⟨hpe, hsame, he⟩ := failures_intact hgrows hheight hfailures hp hd
  -- both resolve the block over the same transactions, and so come to the same
  have hretry := take_worked_told (k := k.addBlocks b height (qs.count .insertTransactions)) hgrows
    htells b hheight hpe he hsame
  have hsingle := take_worked_told hgrows' htells' b hheight (hpipeline ▸ hp) hd'
    (by rw [hpipeline])
  obtain ⟨hquiet', x, hx, hkept⟩ := hretry.of_ok hok
  obtain ⟨-, hpipeline₁, -⟩ := hretry.of_noted_eq hquiet' hx
  obtain ⟨hok', hpipeline₂, hkept'⟩ := hsingle.of_noted_eq hquiet hx
  exact ⟨hok', hpipeline₁.trans hpipeline₂.symm, x.1, hkept', hkept⟩

end Pipeline

/-! ### Stores whose contents can be told -/

/-- What the store of a station keeps. -/
def Station.kept [AllOrNothing σ] (s : Station (Traced σ)) : Contents :=
  AllOrNothing.contents s.store.store

namespace Pipeline

/-- **A failure leaves the run intact, and the block can be taken again.** If any call of the store
fails while a block is taken in, it is the only one that does and the call is over with its fault;
coin and totals stand as before, no transaction has been added, and the block has been exactly if it
was the batch that could not be written. However many attempts have failed, one that succeeds has
the effect that taking the block in has on a store of the same contents where no call fails: the
same transactions and totals, with no other trace of the failures than copies of the block. -/
theorem take_retried [AllOrNothing σ] {τ : Type} [Store τ] [AllOrNothing τ] (b : Block)
    {height : Int} (hheight : Document.isTooLong height = false) {d : Desk (Station (Traced σ))}
    (hp : d.state.pipeline.phase.accepts = true) :
    (((take b height).runAt d).2.state.store.failed ≠ d.state.store.failed →
      ∃ q f, ((take b height).runAt d).2.state.store.failed = d.state.store.failed ++ [(q, f)] ∧
        ((take b height).runAt d).1 = .error f ∧
        ((take b height).runAt d).2.state.pipeline =
          { d.state.pipeline with phase := .streaming } ∧
        ((take b height).runAt d).2.state.kept.transactions = d.state.kept.transactions ∧
        ((take b height).runAt d).2.state.kept.blocks =
          d.state.kept.blocks ++
            if q = .insertTransactions then [.ofBlock b (.int height)] else []) ∧
    ∀ qs e, Failures b height d qs e → ((take b height).runAt e).1 = .ok () →
      ∀ d' : Desk (Station (Traced τ)), d'.state.pipeline = d.state.pipeline →
        d'.state.kept = d.state.kept →
        ((take b height).runAt d').2.state.store.failed = d'.state.store.failed →
        ((take b height).runAt d').1 = .ok () ∧
          ((take b height).runAt e).2.state.pipeline =
            ((take b height).runAt d').2.state.pipeline ∧
          ((take b height).runAt e).2.state.kept.transactions =
            ((take b height).runAt d').2.state.kept.transactions ∧
          ((take b height).runAt e).2.state.kept.blocks =
            ((take b height).runAt d').2.state.kept.blocks ++
              List.replicate (qs.count .insertTransactions) (.ofBlock b (.int height)) := by
  refine ⟨fun hne => ?_, fun qs e hfailures hok d' hpipeline hkept hquiet => ?_⟩
  · obtain ⟨q, f, hfailed, hf, hpipeline, hkept⟩ :=
      take_intact AllOrNothing.grows hheight hp rfl hne
    refine ⟨q, f, hfailed, hf, hpipeline, ?_, ?_⟩
    · rw [Station.kept, hkept]
      cases q <;> rfl
    · rw [Station.kept, hkept]
      cases q <;> simp [Contents.behind, Contents.addBlock, Station.kept]
  · obtain ⟨hok', hsame, rs, hkept₂, hkept₁⟩ := take_again AllOrNothing.grows AllOrNothing.grows
      (AllOrNothing.tells _) (AllOrNothing.tells _) hheight hp rfl hfailures hok hpipeline hkept
      hquiet
    refine ⟨hok', hsame, ?_, ?_⟩
    · rw [Station.kept, Station.kept, hkept₁, hkept₂]
      rfl
    · rw [Station.kept, Station.kept, hkept₁, hkept₂]
      simp [Contents.addTransactions, Contents.addBlock, Contents.addBlocks, List.append_assoc,
        ← List.replicate_succ, List.replicate_succ']

/-- A desk at which blocks are taken, over a store that fails by a script. -/
def flaky (m : MemoryStore) (script : List (Option Fault)) (failed : List (StoreCall × Fault)) :
    Desk (Station (Traced (Flaky MemoryStore))) where
  state := {
    pipeline := { idle .sentinel 0 (.whole 0) with phase := .streaming }
    store := ⟨⟨m, script⟩, failed⟩
    clock := ⟨.whole 0, []⟩ }
  rows := []

/-- First a look-up fails and then the batch; the third attempt succeeds, and there are two copies
of the block. -/
theorem take_retried_twice :
    let b := Block.holding [.hop (.repeated 1) ⟨.repeated 2, 0⟩ 5 "a"]
    let d := flaky {} [some (.value "first"), none, none, some (.value "second")] []
    let d₁ := ((take b 7).runAt d).2
    let d₂ := ((take b 7).runAt d₁).2
    let d₃ := ((take b 7).runAt d₂).2
    let single := ((take b 7).runAt (flaky {} [] [])).2
    d₁.state.pipeline = d.state.pipeline ∧
      d₃.state.pipeline = single.state.pipeline ∧
      d₃.state.kept.transactions = single.state.kept.transactions ∧
      d₃.state.kept.blocks = single.state.kept.blocks ++ [.ofBlock b (.int 7)] := by
  intro b d d₁ d₂ d₃ single
  have hheight : Document.isTooLong 7 = false := by decide +kernel
  let first := (StoreCall.find (Hash.repeated 2).display, Fault.value "first")
  let second := (StoreCall.insertTransactions, Fault.value "second")
  -- each attempt is run by itself: what it comes to does not depend on clock and rows
  have hfirst : d₁.state.pipeline = d.state.pipeline ∧
      d₁.state.store = (flaky {} [none, none, some second.2] [first]).state.store := ⟨rfl, rfl⟩
  have hsecond : ∀ e : Desk (Station (Traced (Flaky MemoryStore))),
      e.state.pipeline = d.state.pipeline →
      e.state.store = (flaky {} [none, none, some second.2] [first]).state.store →
      ((take b 7).runAt e).2.state.pipeline = d.state.pipeline ∧
        ((take b 7).runAt e).2.state.store =
          (flaky { blocks := [.ofBlock b (.int 7)], lookups := 1 } []
            [first, second]).state.store := by
    rintro ⟨⟨p, s, c⟩, rows⟩ rfl rfl
    exact ⟨rfl, rfl⟩
  have hthird : ∀ e : Desk (Station (Traced (Flaky MemoryStore))),
      e.state.pipeline = d.state.pipeline →
      e.state.store =
        (flaky { blocks := [.ofBlock b (.int 7)], lookups := 1 } [] [first, second]).state.store →
      ((take b 7).runAt e).1 = .ok () := by
    rintro ⟨⟨p, s, c⟩, rows⟩ rfl rfl
    rfl
  obtain ⟨hpipeline₂, hstore₂⟩ := hsecond d₁ hfirst.1 hfirst.2
  have hok := hthird _ hpipeline₂ hstore₂
  have hfailures : Failures b 7 d [first.1, second.1] d₂ := by
    refine .cons (f := first.2) ?_ (.cons (f := second.2) ?_ (.nil d₂))
    · rw [hfirst.2]
      rfl
    · rw [hstore₂, hfirst.2]
      rfl
  obtain ⟨hintact, hretried⟩ :=
    @take_retried (Flaky MemoryStore) _ _ (Flaky MemoryStore) _ _ b 7 hheight d rfl
  have hnoted : d₁.state.store.failed ≠ d.state.store.failed := by
    rw [hfirst.2]
    nofun
  obtain ⟨q, f, -, -, hpipeline, -⟩ := hintact hnoted
  obtain ⟨-, hsame, htransactions, hblocks⟩ :=
    hretried _ d₂ hfailures hok (flaky {} [] []) rfl rfl rfl
  simp only [d₃, single]
  exact ⟨hpipeline, hsame, htransactions, hblocks⟩

end Pipeline

/-! ### Stores that answer from what they keep -/

namespace Pipeline

/-- **So it is with a store that answers from what it keeps**, such as the one in tables: what is
kept where a call fails is what was kept before, with the block exactly if it was the batch that
could not be written; and an attempt that succeeds in the end leaves what one that succeeds at once
does, and copies of the block. -/
theorem take_retried_answering [Answering σ] {τ : Type} [Store τ] [Answering τ] (b : Block)
    {height : Int} (hheight : Document.isTooLong height = false) {d : Desk (Station (Traced σ))}
    (hp : d.state.pipeline.phase.accepts = true) {k : Contents}
    (hd : Appending.Keeps d.state.store.store k) :
    (((take b height).runAt d).2.state.store.failed ≠ d.state.store.failed →
      ∃ q f, ((take b height).runAt d).2.state.store.failed = d.state.store.failed ++ [(q, f)] ∧
        ((take b height).runAt d).1 = .error f ∧
        ((take b height).runAt d).2.state.pipeline =
          { d.state.pipeline with phase := .streaming } ∧
        Appending.Keeps ((take b height).runAt d).2.state.store.store (k.behind b height q)) ∧
    ((∀ r ∈ k.transactions, Answering.Readable σ r ∧ Answering.Readable τ r) →
      ∀ qs e, Failures b height d qs e → ((take b height).runAt e).1 = .ok () →
        ∀ d' : Desk (Station (Traced τ)), d'.state.pipeline = d.state.pipeline →
          Appending.Keeps d'.state.store.store k →
          ((take b height).runAt d').2.state.store.failed = d'.state.store.failed →
          ((take b height).runAt d').1 = .ok () ∧
            ((take b height).runAt e).2.state.pipeline =
              ((take b height).runAt d').2.state.pipeline ∧
            ∃ rs, Appending.Keeps ((take b height).runAt d').2.state.store.store
                ((k.addBlock (.ofBlock b (.int height))).addTransactions rs) ∧
              Appending.Keeps ((take b height).runAt e).2.state.store.store
                (((k.addBlocks b height (qs.count .insertTransactions)).addBlock
                  (.ofBlock b (.int height))).addTransactions rs)) := by
  refine ⟨take_intact Appending.grows hheight hp hd,
    fun hreadable qs e hfailures hok d' hpipeline hd' hquiet => ?_⟩
  exact take_again Appending.grows Appending.grows
    (Answering.tells fun r hr => (hreadable r hr).1)
    (Answering.tells fun r hr => (hreadable r hr).2) hheight hp hd hfailures hok hpipeline hd'
    hquiet

end Pipeline

end BlockArchive
