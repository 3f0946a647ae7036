import BlockArchive.Proofs.Ingest.History
import BlockArchive.Proofs.Ingest.Refinement
import BlockArchive.Proofs.Ingest.Typed
import BlockArchive.Proofs.Store.Table
import BlockArchive.Store.Guarded

/-!
# Sessions over either store

A session is a sequence of steps: runs are started, blocks taken in, runs completed and replaced by
new ones, and the store is written to and asked besides. A step that stops does not end the session.
After each step it is noted what the step came to and what can be seen of pipeline and store.

* `Session.Step` are the steps, `Session.run` notes outcomes and views;
* `Session.Step.Typed` asks that what is written has its declared types and that heights fit into
  the column of heights;
* `Session.run_tables_eq_memory`: a session over fresh tables goes as over an empty memory.
-/

namespace BlockArchive

/-! ### One store for the other -/

/-- Blocks of declared types are taken in alike over stores whose calls match on records of declared
types, where the second one gives texts as addresses. -/
theorem Pipeline.take_matches_of_typed {σ τ : Type} [Store σ] [Store τ] {R : σ → τ → Prop}
    {I : τ → Prop} (hR : ∀ s t, R s t → I t)
    (hfind : ∀ hash, Act.Matches R (Store.find hash : Act σ _) (Store.find hash : Act τ _))
    (hensures : ∀ hash, Act.Ensures I (∀ t ∈ ·, StoredTransaction.Textual t)
      (Store.find hash : Act τ _))
    (hblock : ∀ r : BlockRecord, r.Typed → r.HasHeight →
      Act.Matches R (Store.insertBlock r : Act σ Unit) (Store.insertBlock r : Act τ Unit))
    (hbatch : ∀ rs : List TransactionRecord, (∀ r ∈ rs, r.Typed) →
      Act.Matches R (Store.insertTransactions rs : Act σ Unit)
        (Store.insertTransactions rs : Act τ Unit))
    {b : Block} (hb : b.Typed) {height : Int} (hfits : Cell.fits height = true) :
    Act.Matches (Station.Related R) (take b height : Act (Station σ) Unit) (take b height) := by
  have hrecord := BlockRecord.ofBlock_typed hb (Cell.isShort_of_fits hfits)
  refine take_matches b height (ingest_matches hfind b height ?_ ?_)
  · exact hblock _ hrecord ⟨height, rfl, hfits⟩
  · rintro r ⟨d, e, hde, hr⟩
    -- the batch is made beside the second store
    exact hbatch _ ((resolveBlock_ensures hensures hb e (hR _ _ hde.2.1)).2 r hr)

/-- A store in tables on the one side, and on the other the store in memory that it mirrors. -/
def AnyStore.Mirrors (a b : AnyStore) : Prop :=
  ∃ t m, a = .tables t ∧ b = .memory m ∧ t.Mirrors m

theorem AnyStore.on_matches {α : Type} {x : Act MemoryStore α} {t : Act TableStore α}
    {m : Act MemoryStore α} {y : Act TableStore α} (h : Act.Matches TableStore.Mirrors t m) :
    Act.Matches Mirrors (on x t) (on m y) := by
  rw [Act.matches_iff] at h ⊢
  rintro ⟨_, rows⟩ ⟨_, rows'⟩ ⟨t, m, rfl, rfl, htm⟩
  obtain ⟨houtcome, hstate⟩ := h ⟨t, rows⟩ ⟨m, rows'⟩ htm
  exact ⟨houtcome, _, _, rfl, rfl, hstate⟩

namespace AnyStore

theorem probe_matches :
    Act.Matches Mirrors (Store.probe : Act AnyStore Unit) (Store.probe : Act AnyStore Unit) :=
  on_matches TableStore.probe_matches

theorem find_matches (hash : String) :
    Act.Matches Mirrors (Store.find hash : Act AnyStore _) (Store.find hash : Act AnyStore _) :=
  on_matches (TableStore.find_matches hash)

theorem insertBlock_matches {r : BlockRecord} (hr : r.Typed) (hheight : r.HasHeight) :
    Act.Matches Mirrors (Store.insertBlock r : Act AnyStore Unit)
      (Store.insertBlock r : Act AnyStore Unit) :=
  on_matches (TableStore.insertBlock_matches hr hheight)

theorem insertTransactions_matches {rs : List TransactionRecord} (hrs : ∀ r ∈ rs, r.Typed) :
    Act.Matches Mirrors (Store.insertTransactions rs : Act AnyStore Unit)
      (Store.insertTransactions rs : Act AnyStore Unit) :=
  on_matches (TableStore.insertTransactions_matches hrs)

theorem blockCount_matches : Act.Matches Mirrors blockCount blockCount :=
  on_matches TableStore.blockCount_matches

theorem transactionCount_matches : Act.Matches Mirrors transactionCount transactionCount :=
  on_matches TableStore.transactionCount_matches

theorem latestHeight_matches : Act.Matches Mirrors latestHeight latestHeight :=
  on_matches TableStore.latestHeight_matches

/-- The store is one in memory that holds transactions of declared types. -/
def Typed (s : AnyStore) : Prop := ∃ m, s = .memory m ∧ ∀ r ∈ m.transactions, r.Typed

theorem Mirrors.typed {a b : AnyStore} (h : Mirrors a b) : b.Typed := by
  obtain ⟨t, m, -, rfl, htm⟩ := h
  obtain ⟨db, -, hholds⟩ := htm.holds
  exact ⟨m, rfl, hholds.typed⟩

theorem find_ensures (hash : String) :
    Act.Ensures Typed (∀ t ∈ ·, StoredTransaction.Textual t) (Store.find hash) := by
  rintro ⟨_, rows⟩ ⟨m, rfl, hm⟩
  obtain ⟨hkept, htextual⟩ := MemoryStore.find_ensures hash ⟨m, rows⟩ hm
  exact ⟨⟨_, rfl, hkept⟩, htextual⟩

end AnyStore

namespace Session

/-! ### Steps -/

/-- A step of a session. -/
inductive Step where
  /-- A run is started. -/
  | start (coin : Value) (height : Int)
  /-- A block is taken in. -/
  | take (b : Block) (height : Int)
  /-- The run is completed. -/
  | complete (height : Int)
  /-- A new pipeline takes the place of the old one. -/
  | renew (policy : CoinbasePolicy) (slowBlock : Int) (now : Quantity)
  /-- A block is written. -/
  | insertBlock (r : BlockRecord)
  /-- A batch of transactions is written. -/
  | insertTransactions (rs : List TransactionRecord)
  /-- A transaction is looked up, and an output in it. -/
  | find (hash : String) (index : Int)
  /-- The blocks are counted. -/
  | countBlocks
  /-- The transactions are counted. -/
  | countTransactions
  /-- The greatest height is asked for. -/
  | latestHeight

/-- What a step gives. -/
inductive Reply where
  /-- Nothing. -/
  | done
  /-- The totals of a run. -/
  | totals (t : Totals)
  /-- A transaction, if there is one, and its output, if there is one. -/
  | found (t : Option (StoredTransaction × Option Payment))
  /-- A number of records. -/
  | count (n : Nat)
  /-- A height, or nothing. -/
  | height (v : Value)

/-- What the session does in a step. -/
def Step.act : Step → Act (Station AnyStore) Reply
  | start coin height => do
    Pipeline.start coin height
    return .done
  | take b height => do
    Pipeline.take b height
    return .done
  | complete height => return .totals (← Pipeline.complete height)
  | renew policy slowBlock now => do
    Pipeline.update fun _ => .idle policy slowBlock now
    return .done
  | insertBlock r => do
    Pipeline.onStore (Store.insertBlock r)
    return .done
  | insertTransactions rs => do
    Pipeline.onStore (Store.insertTransactions rs)
    return .done
  | find hash index => do
    match ← Pipeline.onStore (Store.find hash) with
    | none => return .found none
    | some t => return .found (some (t, ← Act.lift (t.output index)))
  | countBlocks => return .count (← Pipeline.onStore AnyStore.blockCount)
  | countTransactions => return .count (← Pipeline.onStore AnyStore.transactionCount)
  | latestHeight => return .height (← Pipeline.onStore AnyStore.latestHeight)

/-- What can be seen between steps: the pipeline with phase, coin and totals, and what the store
answers. -/
structure View where
  /-- The pipeline. -/
  pipeline : Pipeline
  /-- The number of blocks. -/
  blocks : Except Fault Nat
  /-- The number of transactions. -/
  transactions : Except Fault Nat
  /-- The greatest height. -/
  latest : Except Fault Value

/-- What can be seen of a station. -/
def view (s : Station AnyStore) : View where
  pipeline := s.pipeline
  blocks := (AnyStore.blockCount.perform s.store).1
  transactions := (AnyStore.transactionCount.perform s.store).1
  latest := (AnyStore.latestHeight.perform s.store).1

/-- The outcome of each step and the view after it. -/
def run : List Step → Desk (Station AnyStore) → List (Except Fault Reply × View)
  | [], _ => []
  | s :: rest, d => ((s.act.runAt d).1, view (s.act.runAt d).2.state) :: run rest (s.act.runAt d).2

/-- What the step writes has its declared types, and the height of a block fits into its column. -/
def Step.Typed : Step → Prop
  | take b height => b.Typed ∧ Cell.fits height = true
  | insertBlock r => r.Typed ∧ r.HasHeight
  | insertTransactions rs => ∀ r ∈ rs, r.Typed
  | _ => True

/-! ### Either store -/

theorem view_eq {s s' : Station AnyStore} (h : Station.Related AnyStore.Mirrors s s') :
    view s = view s' := by
  obtain ⟨hpipeline, hstore, -⟩ := h
  have hseen : ∀ {α : Type} {a : Act AnyStore α}, Act.Matches AnyStore.Mirrors a a →
      (a.perform s.store).1 = (a.perform s'.store).1 :=
    fun ha => (Act.matches_iff.1 ha ⟨s.store, []⟩ ⟨s'.store, []⟩ hstore).1
  rw [view, view, hpipeline, hseen AnyStore.blockCount_matches,
    hseen AnyStore.transactionCount_matches, hseen AnyStore.latestHeight_matches]

/-- **Every step does over tables what it does over the memory that they mirror.** -/
theorem Step.act_matches {s : Step} (hs : s.Typed) :
    Act.Matches (Station.Related AnyStore.Mirrors) s.act s.act := by
  cases s with
  | start coin height =>
    exact (Pipeline.start_matches AnyStore.probe_matches coin height).bind fun _ => .pure _
  | take b height =>
    exact (Pipeline.take_matches_of_typed (R := AnyStore.Mirrors)
      (fun _ _ => AnyStore.Mirrors.typed) AnyStore.find_matches AnyStore.find_ensures
      (fun _ => AnyStore.insertBlock_matches) (fun _ => AnyStore.insertTransactions_matches)
      hs.1 hs.2).bind fun _ => .pure _
  | complete height => exact (Pipeline.complete_matches height).bind fun _ => .pure _
  | renew policy slowBlock now => exact (Pipeline.update_matches _).bind fun _ => .pure _
  | insertBlock r =>
    exact (Pipeline.onStore_matches (AnyStore.insertBlock_matches hs.1 hs.2)).bind fun _ => .pure _
  | insertTransactions rs =>
    exact (Pipeline.onStore_matches (AnyStore.insertTransactions_matches hs)).bind fun _ => .pure _
  | find hash index =>
    refine (Pipeline.onStore_matches (AnyStore.find_matches hash)).bind fun found => ?_
    cases found with
    | none => exact .pure _
    | some t => exact (Act.Refines.lift _).bind fun _ => .pure _
  | countBlocks =>
    exact (Pipeline.onStore_matches AnyStore.blockCount_matches).bind fun _ => .pure _
  | countTransactions =>
    exact (Pipeline.onStore_matches AnyStore.transactionCount_matches).bind fun _ => .pure _
  | latestHeight =>
    exact (Pipeline.onStore_matches AnyStore.latestHeight_matches).bind fun _ => .pure _

theorem run_eq {steps : List Step} (hsteps : ∀ s ∈ steps, s.Typed) {d e : Desk (Station AnyStore)}
    (h : Station.Related AnyStore.Mirrors d.state e.state) : run steps d = run steps e := by
  induction steps generalizing d e with
  | nil => rfl
  | cons s rest ih =>
    obtain ⟨hs, hrest⟩ := List.forall_mem_cons.1 hsteps
    obtain ⟨houtcome, hstate⟩ := Act.matches_iff.1 (Step.act_matches hs) d e h
    rw [run, run, houtcome, view_eq hstate, ih hrest hstate]

/-- **A session over fresh tables goes as over an empty memory.** Every step comes to the same
outcome, and after every step the same can be seen. -/
theorem run_tables_eq_memory {t : TableStore} (ht : t.Fresh) {steps : List Step}
    (hsteps : ∀ s ∈ steps, s.Typed) (p : Pipeline) (clock : Clock) (rows : List Row) :
    run steps ⟨⟨p, .tables t, clock⟩, rows⟩ = run steps ⟨⟨p, .memory {}, clock⟩, rows⟩ :=
  run_eq hsteps ⟨rfl, ⟨t, {}, rfl, rfl, ht.mirrors⟩, rfl⟩

end Session

/-! ### A session with a block of two payments -/

theorem Transaction.hop_typed (hash : Hash) (source : OutPoint)
    (hindex : (Value.nat source.index).IsShort) (value : UInt64) (address : String) :
    (hop hash source value address).Typed where
  version := Cell.isShort_of_fits (n := 1) rfl
  locktime := Cell.isShort_of_fits (n := 0) rfl
  inputs := by
    intro i hi
    obtain rfl := List.mem_singleton.1 hi
    exact ⟨hindex, Cell.isShort_of_fits (n := 0) rfl⟩
  inputCount := Cell.isShort_of_fits (n := 1) rfl
  outputs := by
    intro o ho
    obtain rfl := List.mem_singleton.1 ho
    exact .inr ⟨address, rfl⟩
  outputCount := Cell.isShort_of_fits (n := 1) rfl

theorem Block.holding_typed {ts : List Transaction} (hts : ∀ t ∈ ts, t.Typed)
    (hcount : (Value.nat ts.length).IsShort) : (holding ts).Typed where
  version := Cell.isShort_of_fits (n := 1) rfl
  timestamp := Cell.isShort_of_fits (n := 0) rfl
  bits := Cell.isShort_of_fits (n := 0) rfl
  nonce := Cell.isShort_of_fits (n := 0) rfl
  size := Cell.isShort_of_fits (n := 0) rfl
  transactions := hts
  transactionCount := hcount

namespace Session

/-- A block of two transactions, the second of which spends what the first pays, and questions
about it. -/
def hops : List Step :=
  let a := Hash.repeated 1
  let b := Hash.repeated 2
  [.start (.string "bitcoin") 7,
    .take (.holding [.hop a ⟨.null, 0⟩ 5 "first", .hop b ⟨a, 0⟩ 4 "second"]) 7,
    .insertTransactions [], .find b.display 0, .countTransactions, .complete 7]

theorem hops_typed : ∀ s ∈ hops, s.Typed := by
  have hzero : (Value.nat 0).IsShort := Cell.isShort_of_fits (n := 0) rfl
  have htwo : (Value.nat 2).IsShort := Cell.isShort_of_fits (n := 2) rfl
  have hfirst := Transaction.hop_typed (.repeated 1) ⟨.null, 0⟩ hzero 5 "first"
  have hsecond := Transaction.hop_typed (.repeated 2) ⟨.repeated 1, 0⟩ hzero 4 "second"
  have hblock := Block.holding_typed
    (List.forall_mem_cons.2 ⟨hfirst, List.forall_mem_singleton.2 hsecond⟩) htwo
  simp [hops, Step.Typed, hblock, show Cell.fits 7 = true from rfl]

/-- The session goes over a new file as over memory: the transaction is found with its output, and
two transactions are counted. -/
theorem run_tables_eq_memory_hops :
    let desk : AnyStore → Desk (Station AnyStore) :=
      fun s => ⟨⟨.idle .sentinel 0 (.whole 0), s, ⟨.whole 0, []⟩⟩, []⟩
    let t : TableStore := { location := .file ⟨"", ["archive.db"]⟩ }
    (t.Fresh ∧ ∀ s ∈ hops, s.Typed) ∧
      run hops (desk (.tables t)) = run hops (desk (.memory {})) ∧
      ((run hops (desk (.tables t))).map Prod.fst)[4]? = some (.ok (.count 2)) := by
  intro desk t
  have ht : t.Fresh := ⟨rfl, rfl, _, _, rfl, rfl, rfl⟩
  have hrun := run_tables_eq_memory ht hops_typed (.idle .sentinel 0 (.whole 0)) ⟨.whole 0, []⟩ []
  refine ⟨⟨ht, hops_typed⟩, hrun, ?_⟩
  rw [show run hops (desk (.tables t)) = _ from hrun]
  rfl

end Session

end BlockArchive
