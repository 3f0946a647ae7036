import BlockArchive.Proofs.Ingest.History
import BlockArchive.Proofs.Ingest.Lookups
import BlockArchive.Proofs.Store.Faults

/-!
# Failures of a store reach the run as problems, with exceptions

Whatever has happened to a store in tables, a block that is taken in over it stops with a problem of
the store, which is reported first. It can also stop because an output that was found has a value
that is no amount, because its height has no room in a column, because a number has too many digits
to be written, or because it is to be written over a connection that was closed behind the store's
back. These are not reported.

* `Pipeline.abortRow_mem`: problems of the store are reported, over any store;
* `Pipeline.Escapes` are the exceptions, and `Pipeline.take_stops` says that there are no others;
* `Happening.follow_faults` says so of every store that has been reached, of calls as of blocks, and
  `Happening.follow_escapes` shows that the exceptions are real.
-/

namespace BlockArchive

open TableStore

namespace Pipeline

/-- The faults that are no problems of the store with which a block can stop that is taken in. -/
inductive Escapes (b : Block) (height : Int) (t : TableStore) : Fault → Prop where
  /-- An output that was found has a value that is no amount. -/
  | value (v : Value) : Escapes b height t (.problem (.outputValue v))
  /-- The height has no room in a column. -/
  | height (h : Cell.fits height = false) : Escapes b height t .columnOverflow
  /-- A number has too many digits, or an address is no text. -/
  | number (h : ¬ (b.Typed ∧ (∀ u ∈ b.transactions, u.Showable) ∧
      Document.isTooLong height = false)) : Escapes b height t .longInteger
  /-- The block is to be written over a closed connection. -/
  | closed (h : t.Broken) : Escapes b height t (.database .closed)

/-- The row that reports a problem of the store at a height. -/
def abortRow (height : Int) (p : Problem) : Row where
  level := .error
  category := some "pipeline"
  message := "Aborting run at block " ++ Text.ofInt height ++ ": " ++ p.text.text
  extra := ("height", .int height) :: p.reportFields

theorem reporting_runAt_of_storage {σ : Type} {height : Int}
    (hheight : Document.isTooLong height = false) {a : Act (Station σ) Unit} {d : Desk (Station σ)}
    {p : Problem} (h : (a.runAt d).1 = .error (.problem p)) (hp : p.category.isStorage = true) :
    (reporting height a).runAt d = (.error (.problem p),
      ⟨(a.runAt d).2.state, (a.runAt d).2.rows ++ [abortRow height p]⟩) := by
  simp [reporting, h, hp, hheight, log, abortRow]

/-- Only a problem is passed on as one, and one of the store only where the height can be
written. -/
theorem of_relayed_eq_problem {height : Int} {f : Fault} {p : Problem}
    (h : relayed height f = .problem p) :
    f = .problem p ∧ (p.category.isStorage = true → Document.isTooLong height = false) := by
  unfold relayed at h
  split at h
  · split at h
    · cases h
    · rename_i hnot
      obtain rfl := Fault.problem.inj h
      exact ⟨rfl, fun hstorage => by simpa [hstorage] using hnot⟩
  · rename_i hnot
    exact absurd h (hnot p)

/-- **A problem of the store is reported before it stops a run.** -/
theorem abortRow_mem {σ : Type} [Store σ] (b : Block) {height : Int} {d : Desk (Station σ)}
    (hp : d.state.pipeline.phase.accepts = true) {p : Problem}
    (hstop : ((take b height).runAt d).1 = .error (.problem p))
    (hstorage : p.category.isStorage = true) :
    abortRow height p ∈ ((take b height).runAt d).2.rows := by
  rw [take_runAt_of_accepts b height hp, Act.timed_runAt] at hstop ⊢
  dsimp only at hstop ⊢
  rw [reporting_outcome_relayed] at hstop
  generalize (⟨_, d.rows⟩ : Desk (Station σ)) = e at hstop ⊢
  cases hrun : ((ingest b height).runAt e).1 with
  | ok u =>
    rw [hrun] at hstop
    cases hstop
  | error f =>
    rw [hrun] at hstop
    obtain ⟨rfl, hheight⟩ := of_relayed_eq_problem (Except.error.inj hstop)
    rw [reporting_runAt_of_storage (hheight hstorage) hrun hstorage]
    simp

/-- The batch of a typed block is typed, over any store that gives only texts as addresses. -/
theorem resolveOver_ensures {σ : Type} [Store σ] {I : σ → Prop}
    (hfind : ∀ hash,
      Act.Ensures I (∀ t ∈ ·, StoredTransaction.Textual t) (Store.find hash : Act σ _))
    (policy : CoinbasePolicy) {b : Block} (hb : b.Typed) :
    Act.Ensures I (fun x => ∀ r ∈ x.1, TransactionRecord.Typed r)
      (resolveOver policy b : Act σ _) := by
  refine Act.Ensures.within (I := fun r : Resolution σ => I r.store) (fun _ h => h)
    (fun _ _ _ h => h) ?_
  refine (batchFrom_ensures hfind _ _ Cache.textual_empty hb.transactions).bind
    fun records hrecords => ?_
  exact Act.Ensures.state_bind fun _ _ => .pure hrecords

/-- The fault is a problem of the store or one of the exceptions. -/
def Stops (b : Block) (height : Int) (t : TableStore) (f : Fault) : Prop :=
  f.isStorage = true ∨ Escapes b height t f

section Deposit

variable (b : Block) (height : Int) {t : TableStore} {d : Desk TableStore}

/-- Looking up breaks no connection. -/
theorem find_stops (hash : String) :
    Act.Yields (fun u : TableStore => u.Legible ∧ (u.Broken → t.Broken))
      (∀ x ∈ ·, StoredTransaction.Typed x) (Stops b height t) (Store.find hash) := by
  rintro e ⟨hlegible, hbroken⟩
  obtain ⟨hlegible', hmeets⟩ :=
    find_yields (F := Stops b height t) (fun _ => .inl) hash e hlegible
  refine ⟨⟨hlegible', fun hbroken' => hbroken (.of_connect ?_)⟩, hmeets⟩
  rwa [← find_store hash]

theorem resolveOver_stops (policy : CoinbasePolicy) (h : d.state.Legible) :
    (((resolveOver policy b).runAt d).2.state.Broken → d.state.Broken) ∧
      Act.Meets (fun x => b.Typed → ∀ r ∈ x.1, TransactionRecord.Typed r)
        (Stops b height d.state) ((resolveOver policy b).runAt d).1 := by
  have hfind (hash : String) := find_stops b height (t := d.state) hash
  -- what is found was written as text, so its values have few enough digits
  have hfaulty (hash : String) :
      Act.Yields (fun u : TableStore => u.Legible ∧ (u.Broken → d.state.Broken))
        (∀ x ∈ ·, StoredTransaction.Faulty (Stops b height d.state) x) (Stops b height d.state)
        (Store.find hash) := by
    refine (hfind hash).imp (fun found hfound x hx o ho => ?_) fun _ => id
    obtain ⟨n, hn, hshort⟩ := (hfound x hx o ho).value
    have hvalue : Document.hasLongInteger o.value = false := by rwa [hn]
    rw [Fault.ofProblem, Problem.shown, List.any_cons, hvalue]
    exact .inr (.value _)
  have hrows : (∀ u ∈ b.transactions, u.Showable) ∨ Stops b height d.state .longInteger := by
    by_cases hshow : ∀ u ∈ b.transactions, u.Showable
    · exact .inl hshow
    · exact .inr (.inr (.number fun hb => hshow hb.2.1))
  obtain ⟨⟨-, hbroken⟩, hmeets⟩ := resolveOver_yields hfaulty policy hrows d ⟨h, id⟩
  refine ⟨hbroken, ?_⟩
  cases hx : ((resolveOver policy b).runAt d).1 with
  | error f =>
    rw [hx] at hmeets
    exact hmeets
  | ok x =>
    intro hb
    have htextual (hash : String) :=
      ((hfind hash).imp (fun _ h t ht => (h t ht).textual) fun _ => id).ensures
    exact (resolveOver_ensures htextual policy hb d ⟨h, id⟩).2 x hx

/-- Writing the block stops so, and leaves no broken connection where it does not. -/
theorem insertBlock_stops (hd : d.state.Broken → t.Broken) :
    Act.Meets
      (fun _ => ¬ ((Store.insertBlock (.ofBlock b (.int height))).runAt d).2.state.Broken)
      (Stops b height t) ((Store.insertBlock (.ofBlock b (.int height))).runAt d).1 := by
  refine ((insertBlock_writes (.ofBlock b (.int height)) d).stops fun _ => rfl).imp
    (fun _ => id) ?_
  rintro f (hf | ⟨rfl, hlong⟩ | ⟨ds, hds, y, hy, hmisfits⟩ | ⟨rfl, hclosed⟩)
  · exact .inl hf
  · refine .inr (.number ?_)
    rintro ⟨hb, -, hheight⟩
    have htyped := BlockRecord.ofBlock_typed hb ⟨height, rfl, hheight⟩
    exact blockDrafts_error hlong (Document.hasLongInteger_of_isData htyped.isData)
  · obtain hhash | hheight := block_misfits hds hy hmisfits
    · exact absurd hhash (not_misfits_of_isText ⟨_, rfl⟩)
    · obtain ⟨hfits⟩ := hheight
      exact .inr (.height hfits)
  · exact .inr (.closed (hd hclosed))

theorem insertTransactions_stops {r : TransactionRecord} {rs : List TransactionRecord}
    (hnamed : ∀ x ∈ r :: rs, x.Named) (htyped : b.Typed → ∀ x ∈ r :: rs, x.Typed)
    (hd : d.state.Broken → t.Broken) :
    Act.Meets (fun _ => True) (Stops b height t)
      ((Store.insertTransactions (r :: rs)).runAt d).1 := by
  refine ((insertTransactions_writes r rs d).stops fun _ => rfl).imp (fun _ _ => trivial) ?_
  rintro f (hf | ⟨rfl, hlong⟩ | ⟨ds, hds, y, hy, hmisfits⟩ | ⟨rfl, hclosed⟩)
  · exact .inl hf
  · refine .inr (.number ?_)
    rintro ⟨hb, -⟩
    obtain ⟨x, hx, hshort⟩ := transactionDrafts_error hlong
    exact hshort (Document.hasLongInteger_of_isData (htyped hb x hx).isData)
  · exact absurd hmisfits (not_misfits_of_named hnamed hds hy)
  · exact .inr (.closed (hd hclosed))

/-- The work on a block over a legible store stops with a problem of the store unless one of the
exceptions holds. -/
theorem deposit_stops (policy : CoinbasePolicy) (h : d.state.Legible) :
    Act.Meets (fun _ => True) (Stops b height d.state)
      ((deposit policy b height).runAt d).1 := by
  obtain ⟨hbroken, hresolved⟩ := resolveOver_stops b height policy h
  rw [deposit, Act.runAt_bind]
  cases hx : ((resolveOver policy b).runAt d).1 with
  | error f =>
    rw [hx] at hresolved
    exact hresolved
  | ok x =>
    have hnamed := resolveOver_named hx
    rw [hx] at hresolved
    dsimp only
    generalize ((resolveOver policy b).runAt d).2 = e at hbroken ⊢
    have hblock := insertBlock_stops b height hbroken
    rw [Act.runAt_bind]
    generalize (Store.insertBlock (.ofBlock b (.int height))).runAt e = run at hblock ⊢
    obtain ⟨_ | f, e'⟩ := run
    · exact hblock
    · obtain ⟨_ | ⟨r, rs⟩, tally⟩ := x
      · trivial
      · -- the block has just been written over the connection
        have hbatch := insertTransactions_stops b height (t := d.state) (d := e') hnamed hresolved
          fun hclosed => absurd hclosed hblock
        simp only [List.isEmpty_cons, Bool.not_false, ↓reduceIte, Act.runAt_bind]
        generalize (Store.insertTransactions (r :: rs)).runAt e' = run at hbatch ⊢
        obtain ⟨_ | f, e''⟩ := run
        · exact hbatch
        · trivial

end Deposit

/-- Taking in a block over a legible store stops with a problem of the store, which is reported,
unless one of the exceptions holds. -/
theorem take_stops (b : Block) (height : Int) {d : Desk (Station TableStore)}
    (h : d.state.store.Legible) (hp : d.state.pipeline.phase.accepts = true) {f : Fault}
    (hstop : ((take b height).runAt d).1 = .error f) :
    (∃ p, f = .problem p ∧ p.category.isStorage = true ∧
      abortRow height p ∈ ((take b height).runAt d).2.rows) ∨
      Escapes b height d.state.store f := by
  have hstops := deposit_stops b height (d := ⟨d.state.store, d.rows⟩) d.state.pipeline.policy h
  have houtcome := take_outcome_deposit b height hp
  generalize ((deposit d.state.pipeline.policy b height).runAt ⟨d.state.store, d.rows⟩).1 =
    deposited at hstops houtcome
  cases deposited with
  | ok x => cases houtcome.symm.trans hstop
  | error g =>
    obtain rfl : relayed height g = f := Except.error.inj (houtcome.symm.trans hstop)
    obtain hstorage | hescapes := hstops
    · cases g with
      | problem p =>
        cases hheight : Document.isTooLong height with
        | true =>
          have hrelayed : relayed height (.problem p) = .longInteger := by
            simp only [relayed, hheight, Bool.and_true]
            exact if_pos hstorage
          rw [hrelayed]
          exact .inr (.number fun hb => by simp [hheight] at hb)
        | false =>
          have hrelayed : relayed height (.problem p) = .problem p := by simp [relayed, hheight]
          rw [hrelayed] at hstop ⊢
          exact .inl ⟨p, rfl, hstorage, abortRow_mem b hp hstop hstorage⟩
      | _ => cases hstorage
    -- what is no problem of the store is passed on as it is
    · cases hescapes with
      | value v => exact .inr (.value v)
      | height h => exact .inr (.height h)
      | number h => exact .inr (.number h)
      | closed h => exact .inr (.closed h)

end Pipeline

namespace Happening

/-- **Whatever has happened to a store, calls fail with problems of the store, but for some
exceptions.** The exceptions are those of `Errand.Escapes`. Taking in a block fails with a problem
of the store, which is then reported, but for the exceptions of `Pipeline.Escapes`. -/
theorem follow_faults {t : TableStore} (ht : t.Pristine) (happenings : List Happening)
    (rows : List Row) :
    let d := follow happenings ⟨t, rows⟩
    (∀ (e : Errand) (f : Fault), (e.act.runAt d).1 = .error f →
      f.isStorage = true ∨ e.Escapes d.state f) ∧
    ∀ (p : Pipeline) (clock : Clock) (b : Block) (height : Int) (f : Fault),
      p.phase.accepts = true →
      let taken := (Pipeline.take b height).runAt ⟨⟨p, d.state, clock⟩, d.rows⟩
      taken.1 = .error f →
        (∃ q, f = .problem q ∧ q.category.isStorage = true ∧
          Pipeline.abortRow height q ∈ taken.2.rows) ∨ Pipeline.Escapes b height d.state f := by
  intro d
  have hlegible : d.state.Legible := follow_legible happenings ht.legible
  refine ⟨fun e f hf => ?_, fun p clock b height f hp hf => ?_⟩
  · have hstops := (e.act_stops hlegible).2
    rwa [hf] at hstops
  · exact Pipeline.take_stops b height (d := ⟨⟨p, d.state, clock⟩, d.rows⟩) hlegible hp hf

/-- Writing a block over a connection that was closed behind the store's back stops with one of the
exceptions. -/
theorem follow_faults_closed :
    let t : TableStore := { location := .memory }
    let d := follow closedBehind ⟨t, []⟩
    let e := Errand.insertBlock (bareBlock 0) (.inl (bareBlock_declared 0))
    (t.Pristine ∧ (e.act.runAt d).1 = .error (.database .closed)) ∧
      (Fault.isStorage (.database .closed) = true ∨ e.Escapes d.state (.database .closed)) := by
  intro t d e
  have ht : t.Pristine := ⟨rfl, nofun⟩
  have hstop : (e.act.runAt d).1 = .error (.database .closed) :=
    congrArg Prod.fst (insertBlock_of_broken bareBlock_short follow_closedBehind)
  exact ⟨⟨ht, hstop⟩, (follow_faults ht closedBehind []).1 e _ hstop⟩

/-- **Not every failure is a problem of the store.** A block whose height has no room in a column
stops a new store with an overflow, and a run that takes in a block at this height, without a
report. A hash that cannot be encoded stops a new store where it is looked up. Any block stops a
store whose connection was closed behind its back, with trouble in the database that is not
reported. -/
theorem follow_escapes :
    let t : TableStore := { location := .memory }
    let tall := 0x8000000000000000
    let run := (Pipeline.take (.holding []) tall).runAt
      ⟨⟨{ Pipeline.idle .empty 0 (.whole 0) with phase := .connected }, t, ⟨.whole 0, []⟩⟩, []⟩
    ((Store.insertBlock (bareBlock tall) : Act TableStore Unit).runAt ⟨t, []⟩).1 =
        .error .columnOverflow ∧
      run.1 = .error .columnOverflow ∧ run.2.rows.all (·.level != .error) = true ∧
      Fault.columnOverflow.isStorage = false ∧
      (∃ f, ((findBy half).runAt ⟨t, []⟩).1 = .error f ∧ f.name = "UnicodeEncodeError" ∧
        f.isStorage = false) ∧
      ((Store.insertBlock (bareBlock 0) : Act TableStore Unit).runAt
        (follow closedBehind ⟨t, []⟩)).1 = .error (.database .closed) ∧
      Fault.isStorage (.database .closed) = false :=
  ⟨eq_of_isOverflow (by decide +kernel), eq_of_isOverflow (by decide +kernel), by decide +kernel,
    rfl, ⟨_, rfl, rfl, rfl⟩,
    congrArg Prod.fst (insertBlock_of_broken bareBlock_short follow_closedBehind), rfl⟩

end Happening

end BlockArchive
