import BlockArchive.Proofs.Ingest.Lookups
import BlockArchive.Proofs.Ingest.Taking
import BlockArchive.Proofs.Store.Growing

/-!
# What the work on a block can come to

A block is resolved, written and counted. Over a store whose calls do all of their work or none of
it this can only end in a few ways: everything is written and counted; an output that was found
cannot be read; or a call has failed, and nothing has come of the work but the block itself, if it
was the batch that could not be written.

* `Block.Resolves` is how the resolution of a block ends, and `Block.resolution` is what it comes to
  over transactions that are kept;
* `Pipeline.resolveBlock_own` and `Pipeline.resolveBlock_told`: unless a look-up fails, it comes to
  something, and to that where look-ups tell what is kept;
* `Worked` is what the work on a block can come to, and `Pipeline.take_worked` says that it does.
-/

namespace BlockArchive

variable {σ : Type} [Store σ] {Keeps : σ → Contents → Prop} {k : Contents}
  {failed : List (StoreCall × Fault)}

/-! ### Resolution over a store that may fail -/

namespace Traced

/-- The store keeps these records, and no further call has failed. -/
structure Unharmed (Keeps : σ → Contents → Prop) (k : Contents) (failed : List (StoreCall × Fault))
    (t : Traced σ) : Prop where
  keeps : Keeps t.store k
  noted : t.failed = failed

/-- The store keeps these records, and a look-up has failed. -/
structure Harmed (Keeps : σ → Contents → Prop) (k : Contents) (failed : List (StoreCall × Fault))
    (t : Traced σ) (f : Fault) : Prop where
  keeps : Keeps t.store k
  noted : ∃ hash, t.failed = failed ++ [(.find hash, f)]

theorem find_cases (hgrows : Store.Grows Keeps) (hash : String) {d : Desk (Traced σ)}
    (hd : d.state.Unharmed Keeps k failed) :
    (∃ answer, ((Store.find hash).runAt ⟨d.state.store, d.rows⟩).1 = .ok answer ∧
        ((Store.find hash).runAt d).1 = .ok answer ∧
        ((Store.find hash).runAt d).2.state.Unharmed Keeps k failed) ∨
      ∃ f, ((Store.find hash).runAt d).1 = .error f ∧
        ((Store.find hash).runAt d).2.state.Harmed Keeps k failed f := by
  have hfind := hgrows.find hash (d := ⟨d.state.store, d.rows⟩) hd.keeps
  rw [show (Store.find hash : Act (Traced σ) _) = call (.find hash) (Store.find hash) from rfl,
    call_runAt]
  cases houtcome : ((Store.find hash).runAt ⟨d.state.store, d.rows⟩).1 with
  | ok answer => exact .inl ⟨answer, rfl, rfl, hfind, hd.noted⟩
  | error f => exact .inr ⟨f, rfl, hfind, hash, by rw [noted, hd.noted]⟩

/-- Where look-ups tell what is kept, they answer as a memory with the same transactions does, up to
the first that fails. -/
theorem find_refines (hgrows : Store.Grows Keeps) (htells : Store.Tells Keeps k.transactions)
    (failed : List (StoreCall × Fault)) (hash : String) :
    Act.Refines
      (fun (t : Traced σ) (m : MemoryStore) =>
        t.Unharmed Keeps k failed ∧ m.transactions = k.transactions)
      (Harmed Keeps k failed) (Store.find hash) (Store.find hash) := by
  rintro d e ⟨hd, hsame⟩
  rw [MemoryStore.find_runAt]
  obtain ⟨answer, htold, houtcome, hunharmed⟩ | hharmed := find_cases hgrows hash hd
  · refine .inl ⟨?_, hunharmed, hsame⟩
    rw [houtcome, htells hash _ k answer rfl hd.keeps htold, Contents.lookup?, ← hsame,
      ← MemoryStore.lookup?_eq]
  · exact .inr hharmed

end Traced

/-- How the resolution of a block ends where records are kept: it comes to what is given, or a
look-up fails. -/
def Block.Resolves (Keeps : σ → Contents → Prop) (k : Contents) (b : Block)
    (d : Desk (Station (Traced σ))) (o : Except Fault (List TransactionRecord × Tally)) : Prop :=
  let r := (Pipeline.resolveBlock b).runAt d
  r.1 = o ∧ r.2.state.store.Unharmed Keeps k d.state.store.failed ∨
    ∃ f, r.1 = .error f ∧ r.2.state.store.Harmed Keeps k d.state.store.failed f

/-- What the inputs of a block come to over the transactions that are kept: the batch with its
tally, or the fault of an output whose value cannot be read. -/
def Block.resolution (policy : CoinbasePolicy) (kept : List TransactionRecord) (b : Block) :
    Except Fault (List TransactionRecord × Tally) :=
  let r := (Pipeline.batch policy b).runAt
    (⟨⟨.holding kept, {}⟩, []⟩ : Desk (Resolution MemoryStore))
  r.1.map fun records => (records, r.2.state.tally)

namespace Pipeline

theorem resolveBlock_pipeline (b : Block) (d : Desk (Station σ)) :
    ((resolveBlock b).runAt d).2.state.pipeline = d.state.pipeline := by
  simp [resolveBlock]

omit [Store σ] in
theorem resolveBlock_memory (b : Block) (p : Pipeline) (kept : List TransactionRecord) (c : Clock) :
    ((resolveBlock b).runAt ⟨⟨p, MemoryStore.holding kept, c⟩, []⟩).1 =
      b.resolution p.policy kept := by
  simp only [resolveBlock, Block.resolution, Act.runAt_bind, Act.runAt_state, Act.runAt_within]
  split
  · rename_i records h
    rw [h]
    rfl
  · rename_i f h
    rw [h]
    rfl

variable {b : Block} {d : Desk (Station (Traced σ))}

/-- Unless a look-up fails, no call has failed. -/
theorem resolveBlock_own (hgrows : Store.Grows Keeps) (b : Block)
    (hd : Keeps d.state.store.store k) : ∃ o, b.Resolves Keeps k d o := by
  have hfind (hash : String) : Act.Ends (Traced.Unharmed Keeps k d.state.store.failed)
      (∀ t ∈ ·, StoredTransaction.Faulty (fun _ => True) t)
      (fun t f => t.Unharmed Keeps k d.state.store.failed ∨
        t.Harmed Keeps k d.state.store.failed f) (Store.find hash) := by
    intro e he
    obtain ⟨answer, -, houtcome, hunharmed⟩ | ⟨f, hf, hharmed⟩ := Traced.find_cases hgrows hash he
    · exact .inl ⟨answer, houtcome, hunharmed, fun _ _ _ _ => trivial⟩
    · exact .inr ⟨f, hf, .inr hharmed⟩
  have hends := resolveOver_ends (fun _ _ h _ => .inl h) hfind d.state.pipeline.policy (b := b)
    (.inr trivial) ⟨d.state.store, d.rows⟩ ⟨hd, rfl⟩
  simp only [Block.Resolves, resolveBlock_runAt_resolveOver, onStore, Act.runAt_within]
  obtain ⟨x, hx, hunharmed, -⟩ | ⟨f, hf, hunharmed | hharmed⟩ := hends
  · exact ⟨.ok x, .inl ⟨hx, hunharmed⟩⟩
  · exact ⟨.error f, .inl ⟨hf, hunharmed⟩⟩
  · exact ⟨.error f, .inr ⟨f, hf, hharmed⟩⟩

/-- Unless a look-up fails, a block comes to what it does over the transactions that are kept. -/
theorem resolveBlock_told (hgrows : Store.Grows Keeps)
    (htells : Store.Tells Keeps k.transactions) (b : Block) (hd : Keeps d.state.store.store k) :
    b.Resolves Keeps k d (b.resolution d.state.pipeline.policy k.transactions) := by
  have hresolve := resolveBlock_refines
    (Traced.find_refines hgrows htells d.state.store.failed) b d
    ⟨⟨d.state.pipeline, .holding k.transactions, d.state.clock⟩, []⟩
    ⟨rfl, ⟨⟨hd, rfl⟩, rfl⟩, rfl⟩
  rw [resolveBlock_memory] at hresolve
  obtain ⟨houtcome, -, ⟨hunharmed, -⟩, -⟩ | hharmed := hresolve
  · exact .inl ⟨houtcome, hunharmed⟩
  · exact .inr hharmed

end Pipeline

/-! ### The work on a block -/

/-- The contents behind a call of the work on a block that failed: the block itself is written
before its batch. -/
def Contents.behind (k : Contents) (b : Block) (height : Int) : StoreCall → Contents
  | .insertTransactions => k.addBlock (.ofBlock b (.int height))
  | _ => k

/-- The work on a block, begun by a pipeline over what a store keeps and with what its resolution
comes to if no look-up fails: what it can come to and the station that it leaves. -/
inductive Worked (Keeps : σ → Contents → Prop) (b : Block) (height : Int) (p : Pipeline)
    (k : Contents) (failed : List (StoreCall × Fault))
    (o : Except Fault (List TransactionRecord × Tally)) :
    Except Fault Unit → Station (Traced σ) → Prop
  /-- Everything is written and counted. -/
  | done {s : Station (Traced σ)} (x : List TransactionRecord × Tally) (resolution : o = .ok x)
      (pipeline : s.pipeline = { p with totals := Pipeline.count b height x.1 x.2 p.totals })
      (kept : Keeps s.store.store ((k.addBlock (.ofBlock b (.int height))).addTransactions x.1))
      (noted : s.store.failed = failed) : Worked Keeps b height p k failed o (.ok ()) s
  /-- The store has an output that cannot be read. -/
  | unreadable {s : Station (Traced σ)} (f : Fault) (resolution : o = .error f)
      (pipeline : s.pipeline = p) (kept : Keeps s.store.store k)
      (noted : s.store.failed = failed) : Worked Keeps b height p k failed o (.error f) s
  /-- A call has failed, the last one made. -/
  | stopped {s : Station (Traced σ)} (q : StoreCall) (f : Fault) (pipeline : s.pipeline = p)
      (kept : Keeps s.store.store (k.behind b height q))
      (noted : s.store.failed = failed ++ [(q, f)]) :
      Worked Keeps b height p k failed o (.error f) s

section Worked

omit [Store σ]

variable {b : Block} {height : Int} {p : Pipeline}
  {o : Except Fault (List TransactionRecord × Tally)} {outcome : Except Fault Unit}
  {s : Station (Traced σ)} (h : Worked Keeps b height p k failed o outcome s)
include h

theorem Worked.of_noted_ne (hne : s.store.failed ≠ failed) :
    ∃ q f, s.store.failed = failed ++ [(q, f)] ∧ outcome = .error f ∧ s.pipeline = p ∧
      Keeps s.store.store (k.behind b height q) := by
  cases h with
  | done x hx hpipeline hkept hfailed => exact absurd hfailed hne
  | unreadable f hx hpipeline hkept hfailed => exact absurd hfailed hne
  | stopped q f hpipeline hkept hfailed => exact ⟨q, f, hfailed, rfl, hpipeline, hkept⟩

/-- Where no call failed, the work came to what the resolution of the block did. -/
theorem Worked.of_noted_eq {x : List TransactionRecord × Tally} (heq : s.store.failed = failed)
    (hx : o = .ok x) :
    outcome = .ok () ∧
      s.pipeline = { p with totals := Pipeline.count b height x.1 x.2 p.totals } ∧
      Keeps s.store.store ((k.addBlock (.ofBlock b (.int height))).addTransactions x.1) := by
  cases h with
  | done y hy hpipeline hkept _ =>
    obtain rfl : y = x := Except.ok.inj (hy.symm.trans hx)
    exact ⟨rfl, hpipeline, hkept⟩
  | unreadable f hf _ _ _ => cases hf.symm.trans hx
  | stopped q f _ _ hfailed => simp [hfailed] at heq

/-- Where the work succeeded, no call failed and the block was resolved. -/
theorem Worked.of_ok (hok : outcome = .ok ()) :
    s.store.failed = failed ∧ ∃ x, o = .ok x ∧
      Keeps s.store.store ((k.addBlock (.ofBlock b (.int height))).addTransactions x.1) := by
  cases h with
  | done x hx _ hkept hfailed => exact ⟨hfailed, x, hx, hkept⟩
  | unreadable => cases hok
  | stopped => cases hok

end Worked

namespace Pipeline

omit [Store σ] in
/-- A call that is all or nothing leaves the records that it should, or fails and is noted. -/
theorem onStore_call_cases (q : StoreCall) (a : Act σ Unit) (k' : Contents)
    (d : Desk (Station (Traced σ)))
    (hcall : Keeps (a.runAt ⟨d.state.store.store, d.rows⟩).2.state
      (k.when k' (a.runAt ⟨d.state.store.store, d.rows⟩).1)) :
    ((onStore (Traced.call q a)).runAt d).2.state.pipeline = d.state.pipeline ∧
      (((onStore (Traced.call q a)).runAt d).1 = .ok () ∧
          Keeps ((onStore (Traced.call q a)).runAt d).2.state.store.store k' ∧
          ((onStore (Traced.call q a)).runAt d).2.state.store.failed = d.state.store.failed ∨
        ∃ f, ((onStore (Traced.call q a)).runAt d).1 = .error f ∧
          Keeps ((onStore (Traced.call q a)).runAt d).2.state.store.store k ∧
          ((onStore (Traced.call q a)).runAt d).2.state.store.failed =
            d.state.store.failed ++ [(q, f)]) := by
  simp only [onStore, Act.runAt_within, Traced.call_runAt]
  refine ⟨trivial, ?_⟩
  cases houtcome : (a.runAt ⟨d.state.store.store, d.rows⟩).1 with
  | ok u =>
    rw [houtcome] at hcall
    exact .inl ⟨rfl, hcall, rfl⟩
  | error f =>
    rw [houtcome] at hcall
    exact .inr ⟨f, rfl, hcall, rfl⟩

/-- What is left to do once the inputs of a block are resolved. -/
def write (b : Block) (height : Int) (x : List TransactionRecord × Tally) :
    Act (Station (Traced σ)) Unit := do
  onStore (Traced.call .insertBlock (Store.insertBlock (.ofBlock b (.int height))))
  if !x.1.isEmpty then
    onStore (Traced.call .insertTransactions (Store.insertTransactions x.1))
  updateTotals (count b height x.1 x.2)
  log .debug "Inserted block into db"
    [("height", .int height), ("hash", .string b.header.hash.display),
      ("tx_count", .nat x.1.length)]

theorem ingest_eq (b : Block) (height : Int) :
    (ingest b height : Act (Station (Traced σ)) Unit) =
      resolveBlock b >>= fun x => write b height x := rfl

variable {b : Block} {height : Int} {p : Pipeline}
  {o : Except Fault (List TransactionRecord × Tally)}

omit [Store σ] in
theorem done_worked {x : List TransactionRecord × Tally} (hx : o = .ok x) {s : Station (Traced σ)}
    (hpipeline : s.pipeline = p)
    (hkept : Keeps s.store.store ((k.addBlock (.ofBlock b (.int height))).addTransactions x.1))
    (hfailed : s.store.failed = failed) :
    Worked Keeps b height p k failed o (.ok ())
      { s with pipeline :=
          { s.pipeline with totals := count b height x.1 x.2 s.pipeline.totals } } :=
  .done x hx (by simp only [hpipeline]) hkept hfailed

theorem write_worked (hgrows : Store.Grows Keeps) {x : List TransactionRecord × Tally}
    (hx : o = .ok x) (hnamed : ∀ r ∈ x.1, r.Named) {d : Desk (Station (Traced σ))}
    (hpipeline : d.state.pipeline = p) (hd : d.state.store.Unharmed Keeps k failed) :
    Worked Keeps b height p k failed o ((write b height x).runAt d).1
      ((write b height x).runAt d).2.state := by
  -- the block is written first
  obtain ⟨hp₁, hblock⟩ := onStore_call_cases .insertBlock
    (Store.insertBlock (.ofBlock b (.int height))) (k.addBlock (.ofBlock b (.int height))) d
    (hgrows.insertBlock ⟨_, rfl⟩ hd.keeps)
  have hpipeline₁ := hp₁.trans hpipeline
  simp only [write, Act.runAt_bind]
  generalize (onStore (Traced.call .insertBlock _)).runAt d = r at hpipeline₁ hblock ⊢
  obtain ⟨outcome, d₁⟩ := r
  rcases hblock with ⟨rfl, hkept₁, hfailed₁⟩ | ⟨f, rfl, hkept₁, hfailed₁⟩
  · rw [hd.noted] at hfailed₁
    cases hempty : x.1.isEmpty with
    | true =>
      refine done_worked hx hpipeline₁ ?_ hfailed₁
      rw [List.isEmpty_iff.1 hempty, Contents.addTransactions_nil]
      exact hkept₁
    | false =>
      -- then its batch
      obtain ⟨hp₂, hbatch⟩ := onStore_call_cases .insertTransactions
        (Store.insertTransactions x.1)
        ((k.addBlock (.ofBlock b (.int height))).addTransactions x.1) d₁
        (hgrows.insertTransactions hnamed hkept₁)
      have hpipeline₂ := hp₂.trans hpipeline₁
      simp only [Bool.not_false, ↓reduceIte, Act.runAt_bind]
      generalize (onStore (Traced.call .insertTransactions _)).runAt d₁ = r at hpipeline₂ hbatch ⊢
      obtain ⟨outcome, d₂⟩ := r
      rcases hbatch with ⟨rfl, hkept₂, hfailed₂⟩ | ⟨f, rfl, hkept₂, hfailed₂⟩
      · exact done_worked hx hpipeline₂ hkept₂ (hfailed₂.trans hfailed₁)
      · refine .stopped .insertTransactions f hpipeline₂ hkept₂ ?_
        rw [hfailed₂, hfailed₁]
  · refine .stopped .insertBlock f hpipeline₁ hkept₁ ?_
    rw [hfailed₁, hd.noted]

variable {d : Desk (Station (Traced σ))}

theorem ingest_worked (hgrows : Store.Grows Keeps) (height : Int)
    (hresolve : b.Resolves Keeps k d o) :
    Worked Keeps b height d.state.pipeline k d.state.store.failed o ((ingest b height).runAt d).1
      ((ingest b height).runAt d).2.state := by
  have hpipeline := resolveBlock_pipeline b d
  have hnamed {x : List TransactionRecord × Tally}
      (hx : ((resolveBlock b).runAt d).1 = .ok x) := resolveBlock_named hx
  simp only [Block.Resolves] at hresolve
  simp only [ingest_eq, Act.runAt_bind]
  generalize (resolveBlock b).runAt d = r at hresolve hpipeline hnamed ⊢
  obtain ⟨outcome, d₁⟩ := r
  rcases hresolve with ⟨rfl, hunharmed⟩ | ⟨f, rfl, hkept, hash, hfailed⟩
  · cases outcome with
    | error f => exact .unreadable f rfl hpipeline hunharmed.keeps hunharmed.noted
    | ok x => exact write_worked hgrows rfl (hnamed rfl) hpipeline hunharmed
  · exact .stopped (.find hash) f hpipeline hkept hfailed

/-- So does taking it in. -/
theorem take_worked (hgrows : Store.Grows Keeps) (hheight : Document.isTooLong height = false)
    (hp : d.state.pipeline.phase.accepts = true) (hresolve : b.Resolves Keeps k (taken d) o) :
    Worked Keeps b height { d.state.pipeline with phase := .streaming } k d.state.store.failed o
      ((take b height).runAt d).1 ((take b height).runAt d).2.state := by
  have hwork := ingest_worked hgrows height hresolve
  rw [take_outcome b hheight hp, take_state b height hp]
  generalize (ingest b height).runAt (taken d) = r at hwork ⊢
  obtain ⟨outcome, d₁⟩ := r
  cases hwork with
  | done x hx hpipeline hkept hfailed => exact .done x hx hpipeline hkept hfailed
  | unreadable f hx hpipeline hkept hfailed => exact .unreadable f hx hpipeline hkept hfailed
  | stopped q f hpipeline hkept hfailed => exact .stopped q f hpipeline hkept hfailed

theorem take_worked_own (hgrows : Store.Grows Keeps) (b : Block)
    (hheight : Document.isTooLong height = false) (hp : d.state.pipeline.phase.accepts = true)
    (hd : Keeps d.state.store.store k) :
    ∃ o, Worked Keeps b height { d.state.pipeline with phase := .streaming } k d.state.store.failed
      o ((take b height).runAt d).1 ((take b height).runAt d).2.state := by
  obtain ⟨o, ho⟩ := resolveBlock_own hgrows b (d := taken d) hd
  exact ⟨o, take_worked hgrows hheight hp ho⟩

/-- Where look-ups tell what is kept, it ends as the block is resolved over that. -/
theorem take_worked_told (hgrows : Store.Grows Keeps) (htells : Store.Tells Keeps k.transactions)
    (b : Block) (hheight : Document.isTooLong height = false)
    (hp : d.state.pipeline.phase.accepts = true) (hd : Keeps d.state.store.store k)
    (hsame : { d.state.pipeline with phase := .streaming } = p) :
    Worked Keeps b height p k d.state.store.failed (b.resolution p.policy k.transactions)
      ((take b height).runAt d).1 ((take b height).runAt d).2.state := by
  subst hsame
  exact take_worked hgrows hheight hp (resolveBlock_told hgrows htells b (d := taken d) hd)

end Pipeline

end BlockArchive
