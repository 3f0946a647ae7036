import BlockArchive.Proofs.Ingest.History
import BlockArchive.Proofs.Ingest.Ledger
import BlockArchive.Proofs.Ingest.Lookups

/-!
# The phases of a run

Whatever is asked of a pipeline in whatever order, and whichever calls of its store fail on the way,
a run goes through its phases in their order. It is started once, takes blocks in while it has been
started and is not complete, and is completed once. What its phase does not allow is refused, and
then nothing is done.

* `Signal.refusal?` is the problem with which a phase refuses a signal, `Signal.heeded` are the
  signals that came about, and `Called` is a store that notes the calls made of it;
* `Signal.Course` is what a signal that is not refused can come to, and `Signal.act_course` says
  that it does;
* `Pipeline.Standing` is how phase, heights and time stand after the signals that came about, and
  `Signal.act_standing` and `Signal.follow_standing` carry it through one signal and through all;
* `Signal.Obeyed` is what a signal does and leaves undone in any phase; over the store in memory it
  is refused exactly where the phase does not allow it (`Signal.refused_iff`);
* `Signal.follow_phases` says all of this of a new pipeline that follows any signals.
-/

namespace BlockArchive

variable {σ : Type}

/-- The place of a phase in the course of a run. -/
def Phase.rank : Phase → Nat
  | .idle => 0
  | .connected => 1
  | .streaming => 2
  | .finished => 3

/-- A call to write. -/
def StoreCall.writes : StoreCall → Bool
  | .insertBlock | .insertTransactions => true
  | .probe | .find _ => false

/-! ### Noting calls -/

/-- A store and the calls made of it, each with the fault with which it stopped, if it did. -/
structure Called (σ : Type) where
  /-- The store. -/
  store : σ
  /-- The calls, in order. -/
  calls : List (StoreCall × Option Fault) := []

namespace Called

variable {α : Type}

/-- The fault of an outcome, if it is one. -/
def fault? : Except Fault α → Option Fault
  | .ok _ => none
  | .error f => some f

/-- Makes a call, and notes it. -/
def call (q : StoreCall) (a : Act σ α) : Act (Called σ) α := do
  let outcome ← Act.attempt (Act.within store (fun s c => { c with store := s }) a)
  Act.update fun c => { c with calls := c.calls ++ [(q, fault? outcome)] }
  Act.lift outcome

instance [Store σ] : Store (Called σ) where
  probe := call .probe Store.probe
  insertBlock r := call .insertBlock (Store.insertBlock r)
  insertTransactions rs := call .insertTransactions (Store.insertTransactions rs)
  find hash := call (.find hash) (Store.find hash)

theorem call_runAt (q : StoreCall) (a : Act σ α) (d : Desk (Called σ)) :
    (call q a).runAt d =
      let r := a.runAt ⟨d.state.store, d.rows⟩
      (r.1, ⟨⟨r.2.state, d.state.calls ++ [(q, fault? r.1)]⟩, r.2.rows⟩) := by
  simp only [call, Act.runAt_bind, Act.runAt_attempt, Act.runAt_within, Act.runAt_update,
    Act.runAt_lift]

theorem call_yields {Q : α → Prop} {F : Fault → Prop} {q : StoreCall} {a : Act σ α}
    (h : Act.Yields (fun _ => True) Q F a) : Act.Yields (fun _ => True) Q F (call q a) := by
  intro d _
  rw [call_runAt]
  exact ⟨trivial, (h ⟨d.state.store, d.rows⟩ trivial).2⟩

end Called

/-! ### Refusals -/

/-- The fault is a problem about the phase of a run. -/
def Fault.isRefusal : Fault → Bool
  | .problem p => p.category == .phase
  | _ => false

theorem Fault.isRefusal_ofProblem {p : Problem} (h : p.category ≠ .phase) :
    (ofProblem p).isRefusal = false := by
  unfold ofProblem
  split
  · rfl
  · exact beq_false_of_ne h

/-- No call of the store stops with a problem about the phase of a run, which is not its own. -/
structure Discreet (σ : Type) [Store σ] : Prop where
  probe : Act.Yields (fun _ => True) (fun _ => True) (fun f => f.isRefusal = false)
    (Store.probe : Act σ Unit)
  insertBlock (r : BlockRecord) :
    Act.Yields (fun _ => True) (fun _ => True) (fun f => f.isRefusal = false)
      (Store.insertBlock r : Act σ Unit)
  insertTransactions (rs : List TransactionRecord) :
    Act.Yields (fun _ => True) (fun _ => True) (fun f => f.isRefusal = false)
      (Store.insertTransactions rs : Act σ Unit)
  find (hash : String) :
    Act.Yields (fun _ => True) (fun _ => True) (fun f => f.isRefusal = false)
      (Store.find hash : Act σ (Option StoredTransaction))

theorem Discreet.called [Store σ] (h : Discreet σ) : Discreet (Called σ) where
  probe := Called.call_yields h.probe
  insertBlock r := Called.call_yields (h.insertBlock r)
  insertTransactions rs := Called.call_yields (h.insertTransactions rs)
  find hash := Called.call_yields (h.find hash)

theorem Value.notMember_isRefusal (v : Value) (choice : String) :
    (v.notMember choice).isRefusal = false := by
  unfold notMember displayed
  cases Document.hasLongInteger v with
  | false => rfl
  | true => rfl

theorem Coin.choose_error {v : Value} {f : Fault} (h : Coin.choose v = .error f) :
    f.isRefusal = false := by
  unfold choose at h
  split at h
  · split at h
    · cases h
    · cases h
      exact Value.notMember_isRefusal ..
  · cases h
    exact Value.notMember_isRefusal ..

namespace Pipeline

theorem deposit_discreet [Store σ] (hstore : Discreet σ) (policy : CoinbasePolicy) (b : Block)
    (height : Int) :
    Act.Yields (fun _ => True) (fun _ => True) (fun f => f.isRefusal = false)
      (deposit policy b height : Act σ _) := by
  have hfind (hash : String) : Act.Yields (fun _ => True)
      (∀ t ∈ ·, StoredTransaction.Faulty (fun f => f.isRefusal = false) t)
      (fun f => f.isRefusal = false) (Store.find hash : Act σ _) := by
    refine (hstore.find hash).imp (fun _ _ t _ o _ => ?_) fun _ => id
    exact Fault.isRefusal_ofProblem (p := .outputValue o.value) nofun
  refine (resolveOver_yields hfind policy (.inr rfl)).bind fun x _ => ?_
  refine (hstore.insertBlock _).bind fun _ _ => ?_
  split
  · exact (hstore.insertTransactions _).bind fun _ _ => .pure trivial
  · exact .pure trivial

theorem relayed_isRefusal (height : Int) {f : Fault} (h : f.isRefusal = false) :
    (relayed height f).isRefusal = false := by
  unfold relayed
  split
  · split
    · rfl
    · exact h
  · exact h

end Pipeline

namespace Signal

/-- The problem with which a phase refuses a signal, if it does. -/
def refusal? (phase : Phase) : Signal → Option Problem
  | start _ _ => if phase = .idle then none else some (.alreadyStarted phase)
  | take _ height => if phase.accepts then none else some (.notStreaming phase height)
  | complete _ => if phase.accepts then none else some (.notStarted phase)

theorem act_refused [Store σ] {s : Signal} {d : Desk (Station σ)} {p : Problem}
    (h : s.refusal? d.state.pipeline.phase = some p) :
    s.act.runAt d = (.error (.problem p), d) := by
  cases s with
  | start coin height =>
    simp only [refusal?] at h
    split at h
    · cases h
    · rename_i hphase
      cases h
      simp [act, Pipeline.start, hphase]
  | take b height =>
    simp only [refusal?] at h
    split at h
    · cases h
    · rename_i hphase
      cases h
      exact Pipeline.take_rejected b height (Bool.eq_false_iff.2 hphase)
  | complete height =>
    simp only [refusal?] at h
    split at h
    · cases h
    · rename_i hphase
      cases h
      rw [act, Act.runAt_bind, Pipeline.complete_rejected height (Bool.eq_false_iff.2 hphase)]

/-! ### What signals come to -/

/-- What a signal that is not refused comes to at a station, and the station that it leaves. -/
inductive Course [Store σ] (s : Station (Called σ)) :
    Signal → Except Fault Unit → Station (Called σ) → Prop
  /-- There is no coin of that name. -/
  | unnamed {coin : Value} {height : Int} {f : Fault} (hidle : s.pipeline.phase = .idle)
      (hf : f.isRefusal = false) : Course s (.start coin height) (.error f) s
  /-- The store does not answer: only the coin is kept. -/
  | unanswered {coin : Value} {height : Int} {c : Coin} {f : Fault} {rows : List Row}
      (hidle : s.pipeline.phase = .idle) (hf : Discreet σ → f.isRefusal = false) :
      Course s (.start coin height) (.error f)
        { s with
          pipeline := { s.pipeline with coin := some c }
          store := ⟨((Store.probe : Act σ Unit).runAt ⟨s.store.store, rows⟩).2.state,
            s.store.calls ++ [(.probe, some f)]⟩ }
  /-- The run is started. -/
  | started {coin : Value} {height : Int} {c : Coin} {rows : List Row}
      (hidle : s.pipeline.phase = .idle) :
      Course s (.start coin height) (.ok ())
        { s with
          pipeline := Pipeline.started c height s.pipeline
          store := ⟨((Store.probe : Act σ Unit).runAt ⟨s.store.store, rows⟩).2.state,
            s.store.calls ++ [(.probe, none)]⟩ }
  /-- The block is taken in. -/
  | taken {b : Block} {height : Int} {t : Station (Called σ)}
      (x : List TransactionRecord × Tally) (haccepts : s.pipeline.phase.accepts = true)
      (hpipeline : t.pipeline = { s.pipeline with
        phase := .streaming, totals := Pipeline.count b height x.1 x.2 s.pipeline.totals }) :
      Course s (.take b height) (.ok ()) t
  /-- The block is not taken in, but it was taken up. -/
  | failed {b : Block} {height : Int} {f : Fault} {t : Station (Called σ)}
      (haccepts : s.pipeline.phase.accepts = true) (hf : Discreet σ → f.isRefusal = false)
      (hpipeline : t.pipeline = { s.pipeline with phase := .streaming }) :
      Course s (.take b height) (.error f) t
  /-- The run is complete, although its summary may be too long to be given. -/
  | completed {height : Int} {o : Except Fault Unit} (haccepts : s.pipeline.phase.accepts = true)
      (ho : ∀ f, o = .error f → f = .longInteger) :
      Course s (.complete height) o
        { s with pipeline := Pipeline.completed height s.clock.now s.pipeline }

section Course

variable [Store σ] {d : Desk (Station (Called σ))}

theorem start_course (coin : Value) (height : Int) (hidle : d.state.pipeline.phase = .idle) :
    Course d.state (start coin height) ((Pipeline.start coin height).runAt d).1
      ((Pipeline.start coin height).runAt d).2.state := by
  cases hcoin : Coin.choose coin with
  | error f =>
    have hrun : (Pipeline.start coin height).runAt d = (.error f, d) := by
      simp [Pipeline.start, hidle, hcoin]
    rw [hrun]
    exact .unnamed hidle (Coin.choose_error hcoin)
  | ok c =>
    obtain ⟨rows, houtcome, hstate⟩ := Pipeline.start_named height hidle hcoin
    rw [houtcome, hstate]
    have hmeets : Discreet σ → Act.Meets (fun _ => True) (fun f => f.isRefusal = false)
        ((Store.probe : Act σ Unit).runAt ⟨d.state.store.store, rows⟩).1 :=
      fun hstore => (hstore.probe _ trivial).2
    simp only [Store.probe, Called.call_runAt]
    cases ho : ((Store.probe : Act σ Unit).runAt ⟨d.state.store.store, rows⟩).1 with
    | ok u => exact .started hidle
    | error f =>
      rw [ho] at hmeets
      exact .unanswered hidle hmeets

theorem take_course (b : Block) (height : Int) (haccepts : d.state.pipeline.phase.accepts = true) :
    Course d.state (take b height) ((Pipeline.take b height).runAt d).1
      ((Pipeline.take b height).runAt d).2.state := by
  have hpipeline := Pipeline.take_pipeline_deposit b height haccepts
  have hmeets : Discreet σ → Act.Meets (fun _ => True) (fun f => f.isRefusal = false)
      ((Pipeline.deposit d.state.pipeline.policy b height).runAt ⟨d.state.store, d.rows⟩).1 :=
    fun hstore => (Pipeline.deposit_discreet hstore.called _ b height _ trivial).2
  rw [Pipeline.take_outcome_deposit b height haccepts]
  cases hdeposit : ((Pipeline.deposit d.state.pipeline.policy b height).runAt
      ⟨d.state.store, d.rows⟩).1 with
  | ok x =>
    rw [hdeposit] at hpipeline
    exact .taken x haccepts hpipeline
  | error f =>
    rw [hdeposit] at hpipeline hmeets
    exact .failed haccepts (fun hstore => Pipeline.relayed_isRefusal height (hmeets hstore))
      hpipeline

theorem complete_course (height : Int) (haccepts : d.state.pipeline.phase.accepts = true) :
    Course d.state (complete height) (((complete height).act.runAt d).1)
      ((complete height).act.runAt d).2.state := by
  have hact : ((complete height).act : Act (Station (Called σ)) Unit).runAt d =
      (((Pipeline.complete height).runAt d).1.map fun _ => (),
        ((Pipeline.complete height).runAt d).2) := by
    simp only [act, Act.runAt_bind]
    cases ((Pipeline.complete height).runAt d).1 <;> rfl
  rw [hact, Pipeline.complete_outcome height haccepts]
  dsimp only
  rw [Pipeline.complete_state height haccepts]
  refine .completed haccepts fun f hf => ?_
  unfold Totals.summary at hf
  split at hf
  · cases hf
    rfl
  · cases hf

/-- **What is not refused takes its course.** -/
theorem act_course {s : Signal} (h : s.refusal? d.state.pipeline.phase = none) :
    Course d.state s (s.act.runAt d).1 (s.act.runAt d).2.state := by
  cases s with
  | start coin height =>
    refine start_course coin height (Decidable.of_not_not fun hphase => ?_)
    simp [refusal?, hphase] at h
  | take b height =>
    refine take_course b height (Decidable.of_not_not fun hphase => ?_)
    simp [refusal?, hphase] at h
  | complete height =>
    refine complete_course height (Decidable.of_not_not fun hphase => ?_)
    simp [refusal?, hphase] at h

end Course

/-! ### What a signal does and leaves undone -/

/-- A signal to take in a block. -/
def isTake : Signal → Bool
  | take .. => true
  | start .. | complete .. => false

namespace Course

variable [Store σ] {s t : Station (Called σ)} {g : Signal} {o : Except Fault Unit}

theorem forward (h : Course s g o t) : s.pipeline.phase.rank ≤ t.pipeline.phase.rank := by
  have haccepted (hp : s.pipeline.phase.accepts = true) : s.pipeline.phase.rank ≤ 2 := by
    cases hphase : s.pipeline.phase with
    | finished =>
      rw [hphase] at hp
      cases hp
    | idle | connected | streaming => decide
  cases h with
  | unnamed | unanswered => exact Nat.le_refl _
  | started hidle =>
    rw [hidle]
    exact Nat.zero_le _
  | taken x haccepts hpipeline =>
    rw [hpipeline]
    exact haccepted haccepts
  | failed haccepts _ hpipeline =>
    rw [hpipeline]
    exact haccepted haccepts
  | completed haccepts _ => exact Nat.le_succ_of_le (haccepted haccepts)

theorem isRefusal (h : Course s g o t) (hstore : Discreet σ) {f : Fault} (ho : o = .error f) :
    f.isRefusal = false := by
  cases h with
  | unnamed _ hf =>
    cases ho
    exact hf
  | unanswered _ hf | failed _ hf _ =>
    cases ho
    exact hf hstore
  | started | taken => cases ho
  | completed _ hlong =>
    rw [hlong f ho]
    rfl

theorem calls (h : Course s g o t) (htake : g.isTake = false) :
    ∃ made, t.store.calls = s.store.calls ++ made ∧ ∀ q ∈ made, q.1.writes = false := by
  cases h with
  | unnamed | completed => exact ⟨[], (List.append_nil _).symm, List.forall_mem_nil _⟩
  | unanswered => exact ⟨_, rfl, List.forall_mem_singleton.2 rfl⟩
  | started => exact ⟨_, rfl, List.forall_mem_singleton.2 rfl⟩
  | taken | failed => cases htake

theorem kept (h : Course s g o t) (htake : g.isTake = false) {κ : Type} {kept : σ → κ}
    (hprobe : ∀ e : Desk σ, kept ((Store.probe : Act σ Unit).runAt e).2.state = kept e.state) :
    kept t.store.store = kept s.store.store := by
  cases h with
  | unnamed | completed => rfl
  | unanswered | started => exact hprobe _
  | taken | failed => cases htake

theorem of_unanswered {coin : Value} {height : Int} (h : Course s (.start coin height) o t)
    {f : Fault} (hcalls : t.store.calls = s.store.calls ++ [(.probe, some f)]) :
    o = .error f ∧ s.pipeline.phase = .idle ∧
      ∃ c, t.pipeline = { s.pipeline with coin := some c } := by
  cases h with
  | unnamed => simp at hcalls
  | unanswered hidle _ =>
    obtain rfl : _ = f := by simpa using hcalls
    exact ⟨rfl, hidle, _, rfl⟩
  | started => simp at hcalls

end Course

/-- What a signal does at a desk, and what it leaves undone. -/
structure Obeyed [Store σ] (g : Signal) (d : Desk (Station (Called σ))) : Prop where
  /-- The run does not go back. -/
  forward : d.state.pipeline.phase.rank ≤ (g.act.runAt d).2.state.pipeline.phase.rank
  /-- What the phase does not allow is refused, and nothing is done. -/
  refused : ∀ p, g.refusal? d.state.pipeline.phase = some p →
    g.act.runAt d = (.error (.problem p), d)
  /-- What the phase allows is not refused. -/
  allowed : Discreet σ → g.refusal? d.state.pipeline.phase = none →
    ∀ f, (g.act.runAt d).1 = .error f → f.isRefusal = false
  /-- No call to write is made but to take in a block. -/
  calls : g.isTake = false →
    ∃ made, (g.act.runAt d).2.state.store.calls = d.state.store.calls ++ made ∧
      ∀ q ∈ made, q.1.writes = false
  /-- Nor does anything else change what the store keeps and being probed does not change. -/
  kept : g.isTake = false → ∀ (κ : Type) (kept : σ → κ),
    (∀ e : Desk σ, kept ((Store.probe : Act σ Unit).runAt e).2.state = kept e.state) →
    kept (g.act.runAt d).2.state.store.store = kept d.state.store.store
  /-- A run whose store does not answer stands as before, but for its coin. -/
  unanswered : ∀ coin height f, g = .start coin height →
    (g.act.runAt d).2.state.store.calls = d.state.store.calls ++ [(.probe, some f)] →
    (g.act.runAt d).1 = .error f ∧ d.state.pipeline.phase = .idle ∧
      ∃ c, (g.act.runAt d).2.state.pipeline = { d.state.pipeline with coin := some c }

theorem obeyed [Store σ] (g : Signal) (d : Desk (Station (Called σ))) : g.Obeyed d := by
  cases hrefusal : g.refusal? d.state.pipeline.phase with
  | none =>
    have hcourse := act_course hrefusal
    refine ⟨hcourse.forward, ?_, fun hstore _ f => hcourse.isRefusal hstore, hcourse.calls,
      fun htake _ _ => hcourse.kept htake, ?_⟩
    · intro p hp
      rw [hrefusal] at hp
      cases hp
    · rintro coin height f rfl
      exact hcourse.of_unanswered
  | some p =>
    have hrun := act_refused hrefusal
    refine ⟨?_, ?_, ?_, ?_, ?_, ?_⟩
    · rw [hrun]
    · rintro q hq
      rw [hrun, Option.some.inj (hrefusal.symm.trans hq)]
    · intro _ hnone
      rw [hrefusal] at hnone
      cases hnone
    · intro _
      rw [hrun]
      exact ⟨[], (List.append_nil _).symm, List.forall_mem_nil _⟩
    · intro _ κ kept _
      rw [hrun]
    · intro coin height f _ hcalls
      rw [hrun] at hcalls
      simp at hcalls

section Heeded

variable [Store σ]

/-- The signals that came about, of some that are followed. -/
def heeded : List Signal → Desk (Station σ) → List Signal
  | [], _ => []
  | g :: rest, d =>
    match (g.act.runAt d).1 with
    | .ok _ => g :: heeded rest (g.act.runAt d).2
    | .error _ => heeded rest (g.act.runAt d).2

end Heeded

/-- The height at which a signal starts a run. -/
def startHeight? : Signal → Option Int
  | start _ height => some height
  | take .. | complete _ => none

/-- The height of the block that a signal gets taken in. -/
def takeHeight? : Signal → Option Int
  | take _ height => some height
  | start .. | complete _ => none

/-- A signal to complete the run. -/
def isComplete : Signal → Bool
  | complete _ => true
  | start .. | take .. => false

end Signal

/-- How a run stands after the signals that came about. -/
structure Pipeline.Standing (p : Pipeline) (past : List Signal) : Prop where
  /-- While it is idle nothing came about. -/
  idle : p.phase = .idle → past = []
  /-- Otherwise it was started once, at the height that it tells. -/
  starts : p.phase ≠ .idle → past.filterMap Signal.startHeight? = [p.totals.startHeight]
  /-- While it goes on it ends at the height of the last block, or else where it starts. -/
  takes : p.phase.accepts = true →
    p.totals.endHeight = (past.filterMap Signal.takeHeight?).getLast?.getD p.totals.startHeight
  /-- It was completed at most once, and then it is finished. -/
  completes : past.countP Signal.isComplete ≤ if p.phase = .finished then 1 else 0
  /-- It tells when it ended exactly when it is finished. -/
  finished : p.totals.finishedAt.isSome = true ↔ p.phase = .finished

namespace Signal

/-- The signals that came about, once one more came to an outcome. -/
def further (past : List Signal) (g : Signal) : Except Fault Unit → List Signal
  | .ok _ => past ++ [g]
  | .error _ => past

variable [Store σ]

theorem Course.standing {s t : Station (Called σ)} {g : Signal} {o : Except Fault Unit}
    (h : Course s g o t) {past : List Signal} (hpast : s.pipeline.Standing past) :
    t.pipeline.Standing (further past g o) := by
  obtain ⟨hidle, hstarts, htakes, hcompletes, hfinished⟩ := hpast
  -- while the run goes on it is neither idle nor finished
  have hgoes (hp : s.pipeline.phase.accepts = true) :
      s.pipeline.phase ≠ .idle ∧ s.pipeline.phase ≠ .finished := by
    constructor <;>
    · intro hphase
      rw [hphase] at hp
      cases hp
  cases h with
  | unnamed => exact ⟨hidle, hstarts, htakes, hcompletes, hfinished⟩
  | unanswered => exact ⟨hidle, hstarts, htakes, hcompletes, hfinished⟩
  | started hphase =>
    obtain rfl := hidle hphase
    rw [hphase] at hfinished
    exact ⟨nofun, fun _ => rfl, fun _ => rfl, Nat.le_refl _, hfinished.trans ⟨nofun, nofun⟩⟩
  | @taken b height _ x haccepts hpipeline =>
    obtain ⟨hne, hunfinished⟩ := hgoes haccepts
    rw [hpipeline]
    refine ⟨nofun, fun _ => ?_, fun _ => ?_, ?_, ?_⟩
    · rw [further, List.filterMap_append, hstarts hne]
      rfl
    · simp [further, Pipeline.count, takeHeight?]
    · rw [if_neg hunfinished] at hcompletes
      simpa [further, isComplete] using hcompletes
    · exact hfinished.trans ⟨fun h => absurd h hunfinished, nofun⟩
  | failed haccepts _ hpipeline =>
    obtain ⟨hne, hunfinished⟩ := hgoes haccepts
    rw [hpipeline]
    refine ⟨nofun, fun _ => hstarts hne, fun _ => htakes haccepts, ?_, ?_⟩
    · rwa [if_neg hunfinished] at hcompletes
    · exact hfinished.trans ⟨fun h => absurd h hunfinished, nofun⟩
  | @completed height o haccepts _ =>
    obtain ⟨hne, hunfinished⟩ := hgoes haccepts
    rw [if_neg hunfinished] at hcompletes
    refine ⟨nofun, fun _ => ?_, nofun, ?_, ⟨fun _ => rfl, fun _ => rfl⟩⟩
    · have hmore : (further past (complete height) o).filterMap startHeight? =
          past.filterMap startHeight? := by
        cases o <;> simp [further, startHeight?]
      rw [hmore, hstarts hne]
      rfl
    · cases o with
      | ok _ => simpa [further, isComplete, Pipeline.completed] using hcompletes
      | error _ => exact Nat.le_succ_of_le hcompletes

/-- **Every signal keeps the standing of a run.** -/
theorem act_standing (g : Signal) {d : Desk (Station (Called σ))} {past : List Signal}
    (h : d.state.pipeline.Standing past) :
    (g.act.runAt d).2.state.pipeline.Standing (further past g (g.act.runAt d).1) := by
  cases hrefusal : g.refusal? d.state.pipeline.phase with
  | none => exact (act_course hrefusal).standing h
  | some p =>
    rw [act_refused hrefusal]
    exact h

theorem append_heeded (past : List Signal) (g : Signal) (rest : List Signal)
    (d : Desk (Station σ)) :
    past ++ heeded (g :: rest) d =
      further past g (g.act.runAt d).1 ++ heeded rest (g.act.runAt d).2 := by
  rw [heeded]
  cases (g.act.runAt d).1 with
  | ok _ => exact List.append_cons past g _
  | error _ => rfl

theorem follow_standing (signals : List Signal) {d : Desk (Station (Called σ))}
    {past : List Signal} (h : d.state.pipeline.Standing past) :
    (follow signals d).state.pipeline.Standing (past ++ heeded signals d) := by
  induction signals generalizing d past with
  | nil => exact (List.append_nil past).symm ▸ h
  | cons g rest ih =>
    rw [append_heeded]
    exact ih (act_standing g h)

theorem follow_forward (signals : List Signal) (d : Desk (Station (Called σ))) :
    d.state.pipeline.phase.rank ≤ (follow signals d).state.pipeline.phase.rank := by
  induction signals generalizing d with
  | nil => exact Nat.le_refl _
  | cons g rest ih => exact (g.obeyed d).forward.trans (ih _)

theorem follow_finished (signals : List Signal) {d : Desk (Station (Called σ))}
    (h : d.state.pipeline.phase = .finished) :
    follow signals d = d ∧ heeded signals d = [] := by
  induction signals with
  | nil => exact ⟨rfl, rfl⟩
  | cons g rest ih =>
    have hrefusal : ∃ p, g.refusal? d.state.pipeline.phase = some p := by
      rw [h]
      cases g <;> exact ⟨_, rfl⟩
    obtain ⟨p, hp⟩ := hrefusal
    rw [follow, heeded, act_refused hp]
    exact ih

/-- **The phases of a run.** A new pipeline follows any signals, whichever calls of its store fail.
Then the run stands as the signals that came about have it, and whatever comes next does what its
phase allows and nothing else. The phase does not go back any more; and once a run was completed,
nothing that is asked of it comes about or changes anything. -/
theorem follow_phases (policy : CoinbasePolicy) (store : σ) (w : Setting) (signals : List Signal) :
    let new : Desk (Station (Called σ)) := w.desk policy { store := store }
    let d := follow signals new
    d.state.pipeline.Standing (heeded signals new) ∧
      (∀ g : Signal, g.Obeyed d) ∧
      (∀ more, d.state.pipeline.phase.rank ≤ (follow more d).state.pipeline.phase.rank) ∧
      ((∃ g ∈ heeded signals new, g.isComplete = true) →
        ∀ more, follow more d = d ∧ heeded more d = []) := by
  intro new d
  have hnew : new.state.pipeline.Standing [] :=
    ⟨fun _ => rfl, fun h => absurd rfl h, nofun, Nat.le_refl _, ⟨nofun, nofun⟩⟩
  have hstanding := follow_standing signals hnew
  rw [List.nil_append] at hstanding
  refine ⟨hstanding, fun g => g.obeyed d, fun more => follow_forward more d, ?_⟩
  rintro ⟨g, hmem, hcomplete⟩ more
  refine follow_finished more (Decidable.of_not_not fun hphase => ?_)
  have hcount := hstanding.completes
  rw [if_neg hphase, Nat.le_zero, List.countP_eq_zero] at hcount
  exact hcount g hmem hcomplete

/-- A block comes too early, the store does not answer at first, and then it cannot write. In the
end the run is complete, and the block that comes once more is refused. -/
theorem follow_phases_hops :
    let b := Block.holding [.hop (.repeated 1) ⟨.null, 0⟩ 5 "first"]
    let store : Flaky MemoryStore :=
      ⟨{}, [some (.problem .unavailable), none, some (.value "full")]⟩
    let signals : List Signal :=
      [.take b 6, .start (.string "bitcoin") 7, .start (.string "bitcoin") 7, .take b 7,
        .take b 7, .complete 7]
    let new : Desk (Station (Called (Flaky MemoryStore))) :=
      Setting.desk ⟨0, .whole 0, ⟨.whole 0, []⟩, []⟩ .sentinel { store := store }
    let d := follow signals new
    (heeded signals new).map takeHeight? = [none, some 7, none] ∧
      d.state.store.calls.map Prod.fst =
        [.probe, .probe, .insertBlock, .insertBlock, .insertTransactions] ∧
      d.state.pipeline.phase = .finished ∧ d.state.pipeline.Standing (heeded signals new) ∧
      (take b 8).act.runAt d = (.error (.problem (.notStreaming .finished 8)), d) ∧
      follow [.take b 8] d = d := by
  intro b store signals new d
  have hphase : d.state.pipeline.phase = .finished := by decide +kernel
  have hcomplete : ∃ g ∈ heeded signals new, g.isComplete = true := by decide +kernel
  have hrefusal :
      (take b 8).refusal? d.state.pipeline.phase = some (.notStreaming .finished 8) := by
    rw [hphase]
    rfl
  obtain ⟨hstanding, hobeyed, -, hover⟩ := follow_phases .sentinel store
    ⟨0, .whole 0, ⟨.whole 0, []⟩, []⟩ signals
  have htake : (take b 8).Obeyed d := hobeyed _
  -- the run itself is not to be worked out again
  refine ⟨by decide +kernel, by decide +kernel, hphase, ?_, htake.refused _ hrefusal,
    (hover hcomplete _).1⟩
  with_reducible exact hstanding

end Signal

end BlockArchive
