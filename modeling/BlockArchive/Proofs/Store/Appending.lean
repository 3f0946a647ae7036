import BlockArchive.Proofs.Store.Writing

/-!
# Stores that only grow

A store keeps records in the order in which they were written. What it keeps grows by the record of
a block or by a batch when a call to write it succeeds, and stays as it is with every other call,
also with one that fails.

* `Appending` is the class of such stores: `Appending.Keeps` says which records a store keeps;
* the store in memory, a store that fails by a script and the store in tables are such stores, the
  last as long as its rows stand for the records (`Database.Stands`) and nothing waits to be
  committed.

Blocks and transactions may hold anything, as long as their hashes are texts. This is so of all that
a pipeline writes.
-/

namespace BlockArchive

variable {σ : Type}

/-- The hashes of the transaction and of its block are texts. -/
structure TransactionRecord.Named (r : TransactionRecord) : Prop where
  hash : r.hash.IsText
  blockHash : r.blockHash.IsText

/-- The outcome of a call, and what a store keeps with it. -/
def Contents.when {α : Type} (k k' : Contents) : Except Fault α → Contents
  | .ok _ => k'
  | .error _ => k

/-- What the store keeps only grows, and only by what calls that succeed have written. -/
class Appending (σ : Type) [Store σ] where
  /-- The store keeps these records. -/
  Keeps : σ → Contents → Prop
  /-- Being asked whether it answers changes nothing. -/
  probe_keeps {d : Desk σ} {k : Contents} : Keeps d.state k →
    Keeps ((Store.probe : Act σ Unit).runAt d).2.state k
  /-- Looking up changes nothing. -/
  find_keeps (hash : String) {d : Desk σ} {k : Contents} : Keeps d.state k →
    Keeps ((Store.find hash).runAt d).2.state k
  /-- A block is kept unless the call fails. -/
  insertBlock_keeps {r : BlockRecord} {d : Desk σ} {k : Contents} : r.hash.IsText →
    Keeps d.state k →
    Keeps ((Store.insertBlock r).runAt d).2.state
      (k.when (k.addBlock r) ((Store.insertBlock r).runAt d).1)
  /-- A batch is kept as a whole unless the call fails. -/
  insertTransactions_keeps {rs : List TransactionRecord} {d : Desk σ} {k : Contents} :
    (∀ r ∈ rs, r.Named) → Keeps d.state k →
    Keeps ((Store.insertTransactions rs).runAt d).2.state
      (k.when (k.addTransactions rs) ((Store.insertTransactions rs).runAt d).1)

/-! ### The store in memory -/

instance : Appending MemoryStore where
  Keeps m k := k = ⟨m.blocks, m.transactions⟩
  probe_keeps {d k} hk := by
    simp only [Store.probe, Act.runAt_bind, Act.runAt_state]
    split <;> exact hk
  find_keeps hash d k hk := by
    rw [MemoryStore.find_runAt]
    exact hk
  insertBlock_keeps {r d k} _ hk := by
    subst hk
    rfl
  insertTransactions_keeps {rs d k} hrs hk := by
    subst hk
    rw [MemoryStore.insertTransactions_runAt rs fun r hr => (hrs r hr).hash]
    rfl

/-! ### Failing by a script -/

/-- Failing before anything is done adds nothing. -/
instance [Store σ] [Appending σ] : Appending (Flaky σ) where
  Keeps s k := Appending.Keeps s.store k
  probe_keeps {d k} hk := by
    simp only [Store.probe, Flaky.call_runAt]
    split
    · exact hk
    · exact Appending.probe_keeps (d := ⟨d.state.store, d.rows⟩) hk
  find_keeps hash d k hk := by
    simp only [Store.find, Flaky.call_runAt]
    split
    · exact hk
    · exact Appending.find_keeps hash (d := ⟨d.state.store, d.rows⟩) hk
  insertBlock_keeps {r d k} hr hk := by
    simp only [Store.insertBlock, Flaky.call_runAt]
    split
    · exact hk
    · exact Appending.insertBlock_keeps (d := ⟨d.state.store, d.rows⟩) hr hk
  insertTransactions_keeps {rs d k} hrs hk := by
    simp only [Store.insertTransactions, Flaky.call_runAt]
    split
    · exact hk
    · exact Appending.insertTransactions_keeps (d := ⟨d.state.store, d.rows⟩) hrs hk

/-! ### The store in tables -/

/-- The row stands for the block: its hash and its document. -/
structure TableRow.StandsForBlock (row : TableRow) (b : BlockRecord) : Prop where
  hash : ∃ s, row.first = .text s ∧ b.hash = .string s
  document : ∃ text, Document.write b.document = .ok text ∧ row.document = .text text

/-- The row stands for the transaction: its hash, that of its block and its document. -/
structure TableRow.StandsForTransaction (row : TableRow) (r : TransactionRecord) : Prop where
  hash : ∃ s, row.first = .text s ∧ r.hash = .string s
  blockHash : ∃ s, row.second = .text s ∧ r.blockHash = .string s
  document : ∃ text, Document.write r.document = .ok text ∧ row.document = .text text

/-- The rows of the tables stand for the records, in order. -/
structure Database.Stands (db : Database) (k : Contents) : Prop where
  blocks : ∃ t, db.table .blocks = .ok t ∧
    List.Forall₂ TableRow.StandsForBlock t.rows k.blocks
  transactions : ∃ t, db.table .transactions = .ok t ∧
    List.Forall₂ TableRow.StandsForTransaction t.rows k.transactions

namespace TableStore

variable {α : Type}

/-! #### Asking -/

theorem connected_desk (d : Desk TableStore) : (connected.runAt d).2 = (connect.runAt d).2 := by
  rw [connected, Act.runAt_bind]
  cases (connect.runAt d).1 with
  | error f => rfl
  | ok c => cases hopen : c.isOpen <;> simp [hopen]

theorem reporting_desk (problem : String → Problem) (a : Act TableStore α) (d : Desk TableStore) :
    ((reporting problem a).runAt d).2 = (a.runAt d).2 := by
  simp only [reporting, Act.runAt_bind, Act.runAt_attempt]
  split <;> rfl

theorem query_desk (problem : String → Problem) (f : Database → Except Fault α)
    (d : Desk TableStore) :
    ((reporting problem (query f)).runAt d).2 = (connect.runAt d).2 := by
  rw [reporting_desk, query, Act.runAt_bind, ← connected_desk]
  cases (connected.runAt d).1 with
  | error f => rfl
  | ok c => simp only [Act.runAt_lift]

theorem probe_store (d : Desk TableStore) :
    ((Store.probe : Act TableStore Unit).runAt d).2.state = (connect.runAt d).2.state := by
  have hdesk := (reporting_desk (.ping d.state.location.text) connected d).trans (connected_desk d)
  simp only [Store.probe, probe, Act.runAt_bind, Act.runAt_state]
  cases ((reporting (.ping d.state.location.text) connected).runAt d).1 with
  | error f => rw [← hdesk]
  | ok c => rw [← hdesk]; rfl

theorem documentOf_store (row : Option TableRow) (d : Desk TableStore) :
    ((documentOf row).runAt d).2.state = d.state := by
  cases row with
  | none => rfl
  | some r =>
    dsimp only [documentOf]
    unfold Document.read Document.reported
    cases Json.parse (r.document.text?.getD "") with
    | ok v => rfl
    | error trouble => cases trouble <;> rfl

theorem find_store (hash : String) (d : Desk TableStore) :
    ((Store.find hash : Act TableStore _).runAt d).2.state = (connect.runAt d).2.state := by
  have hload : ((loadTransactionBy (.string hash)).runAt d).2.state =
      (connect.runAt d).2.state := by
    rw [loadTransactionBy_string, Act.runAt_bind, ← query_desk (.loadTransaction (.string hash))
      (Database.last? .transactions fun r => r.first == .text hash)]
    cases ((reporting (.loadTransaction (.string hash))
      (query (Database.last? .transactions fun r => r.first == .text hash))).runAt d).1 with
    | error f => rfl
    | ok row => exact documentOf_store row _
  rw [← hload]
  simp only [Store.find, find, findBy, Act.runAt_bind]
  split
  · split
    · rfl
    · simp only [Act.runAt_bind, Act.runAt_lift]
      split <;> rfl
  · rfl

/-! #### Writing -/

/-- Nothing waits to be committed, and what is seen stands for the records. -/
def StandsFor (t : TableStore) (k : Contents) : Prop :=
  t.Settled ∧ ∃ db, t.seen = .ok db ∧ db.Stands k

theorem StandsFor.connect {d : Desk TableStore} {k : Contents} (h : d.state.StandsFor k) :
    (connect.runAt d).2.state.StandsFor k := by
  obtain ⟨hsettled, db, hseen, hstands⟩ := h
  obtain ⟨hsettled', hseen', -⟩ := connect_settled hsettled d.rows
  exact ⟨hsettled', db, hseen'.trans hseen, hstands⟩

theorem Connected.standsFor_iff {t : TableStore} {c : Connection} (h : t.Connected c)
    {k : Contents} : t.StandsFor k ↔ t.Settled ∧ c.working.Stands k := by
  simp [StandsFor, seen, h.connection]

/-- The rows stand for other contents once all rows are committed, and for the same if not. -/
theorem Writes.standsFor {problem : String → Problem} {s : Section}
    {drafts : Except Fault (List Draft)} {d : Desk TableStore}
    {run : Except Fault Unit × Desk TableStore} (h : Writes problem s drafts d run)
    {k k' : Contents} (hd : d.state.StandsFor k)
    (hkept : ∀ ds locked db db', drafts = .ok ds → db.Stands k →
      Database.addRows s locked ds db = (.ok (), db') → db'.Stands k')
    (hleft : ∀ ds locked db db' f, drafts = .ok ds → f.isMisfit = true →
      Database.addRows s locked ds db = (.error f, db') → db' = db) :
    run.2.state.StandsFor (k.when k' run.1) := by
  have hconnected := hd.connect
  obtain ⟨f, houtcome, hstate⟩ | ⟨ds, c, d', db, hds, hconnect, hc, hadd, houtcome, hstate⟩ :=
    h.all_or_nothing hd.1 hleft
  · rw [houtcome, hstate]
    exact hconnected
  · rw [hconnect, hc.standsFor_iff] at hconnected
    rw [houtcome, hstate, (hc.showing db).committed.standsFor_iff]
    exact ⟨settled_committed _ _, hkept _ _ _ _ hds hconnected.2 hadd⟩

theorem stands_addBlock {db db' : Database} {k : Contents} (h : db.Stands k) {r : BlockRecord}
    (hr : r.hash.IsText) {ds : List Draft} (hds : blockDrafts r = .ok ds) {locked : Bool}
    (hadd : Database.addRows .blocks locked ds db = (.ok (), db')) : db'.Stands (k.addBlock r) := by
  obtain ⟨t, ht, hrows⟩ := h.blocks
  obtain ⟨u, hu, hothers⟩ := h.transactions
  obtain ⟨rows, -, hfills, rfl⟩ := Database.addRows_ok hadd ht
  obtain ⟨text, htext, rfl⟩ := blockDrafts_ok hds
  refine ⟨⟨_, Database.table_setTable_self .., List.rel_append hrows ?_⟩, u, ?_, hothers⟩
  · obtain ⟨s, hs⟩ := hr
    cases hfills with
    | cons hrow hrest =>
      cases hrest
      exact .cons ⟨⟨s, hrow.first s hs, hs⟩, text, htext, hrow.document⟩ .nil
  · rw [Database.table_setTable_ne _ (by decide), hu]

theorem stands_addTransactions {db db' : Database} {k : Contents} (h : db.Stands k)
    {rs : List TransactionRecord} (hrs : ∀ r ∈ rs, r.Named) {ds : List Draft}
    (hds : List.Forall₂ Drafts rs ds) {locked : Bool}
    (hadd : Database.addRows .transactions locked ds db = (.ok (), db')) :
    db'.Stands (k.addTransactions rs) := by
  obtain ⟨t, ht, hrows⟩ := h.blocks
  obtain ⟨u, hu, hothers⟩ := h.transactions
  obtain ⟨rows, -, hfills, rfl⟩ := Database.addRows_ok hadd hu
  refine ⟨⟨t, ?_, hrows⟩, ⟨_, Database.table_setTable_self .., List.rel_append hothers ?_⟩⟩
  · rw [Database.table_setTable_ne _ (by decide), ht]
  · clear hadd
    induction hds generalizing rows with
    | nil =>
      cases hfills
      exact .nil
    | @cons r x rs ds hx _ ih =>
      obtain ⟨⟨⟨s, hs⟩, ⟨s', hs'⟩⟩, hrest⟩ := List.forall_mem_cons.1 hrs
      cases hfills with
      | @cons _ row _ rows hrow hmore =>
        refine .cons ⟨⟨s, hrow.first s (hx.first.trans hs), hs⟩,
          ⟨s', hrow.second rfl s' (hx.second.trans hs'), hs'⟩, x.document, hx.document,
          hrow.document⟩ (ih hrest rows hmore)

theorem not_misfits_of_isText {v : Value} {f : Fault} (h : v.IsText) : ¬ v.Misfits f := by
  obtain ⟨s, rfl⟩ := h
  nofun

theorem not_misfits_of_named {rs : List TransactionRecord} (hrs : ∀ r ∈ rs, r.Named)
    {ds : List Draft} (hds : transactionDrafts rs = .ok ds) {x : Draft} (hx : x ∈ ds) {f : Fault} :
    ¬ x.Misfits f := by
  obtain ⟨r, hr, hdrafts⟩ := exists_of_mem_transactionDrafts hds hx
  rw [Draft.Misfits, hdrafts.first, hdrafts.second, not_or]
  exact ⟨not_misfits_of_isText (hrs r hr).hash, not_misfits_of_isText (hrs r hr).blockHash⟩

/-- A block with a key that no column holds leaves nothing behind: there is only one row, so none
before it. -/
theorem blockDrafts_left {r : BlockRecord} {ds : List Draft} {locked : Bool} {db db' : Database}
    {f : Fault} (hds : blockDrafts r = .ok ds) (hf : f.isMisfit = true)
    (hadd : Database.addRows .blocks locked ds db = (.error f, db')) : db' = db := by
  obtain ⟨x, rfl⟩ | ⟨before, x, after, hsplit, hbefore, -⟩ := Database.addRows_fault hadd
  · cases hf
  · obtain ⟨text, -, rfl⟩ := blockDrafts_ok hds
    obtain rfl : before = [] := by
      cases before with
      | nil => rfl
      | cons y ys => simp at hsplit
    exact (congrArg Prod.snd hbefore).symm

/-- A batch does not stop at a key that no column holds: hashes are texts. -/
theorem transactionDrafts_left {rs : List TransactionRecord} (hrs : ∀ r ∈ rs, r.Named)
    {ds : List Draft} {locked : Bool} {db db' : Database} {f : Fault}
    (hds : transactionDrafts rs = .ok ds) (hf : f.isMisfit = true)
    (hadd : Database.addRows .transactions locked ds db = (.error f, db')) : db' = db := by
  obtain ⟨x, rfl⟩ | ⟨before, x, after, rfl, -, hmisfits⟩ := Database.addRows_fault hadd
  · cases hf
  · exact absurd hmisfits (not_misfits_of_named hrs hds (by simp))

instance : Appending TableStore where
  Keeps := StandsFor
  probe_keeps {d k} hk := by
    rw [probe_store]
    exact hk.connect
  find_keeps hash d k hk := by
    rw [find_store]
    exact hk.connect
  insertBlock_keeps {r d k} hr hk := by
    exact (insertBlock_writes r d).standsFor hk
      (fun ds locked db db' hds hdb => stands_addBlock hdb hr hds)
      fun _ _ _ _ _ => blockDrafts_left
  insertTransactions_keeps {rs d k} hrs hk := by
    cases rs with
    | nil => simpa [Store.insertTransactions, insertTransactions, Contents.when] using hk
    | cons r rest =>
      exact (insertTransactions_writes r rest d).standsFor hk
        (fun ds locked db db' hds hdb =>
          stands_addTransactions hdb hrs (forall₂_of_transactionDrafts hds))
        fun _ _ _ _ _ => transactionDrafts_left hrs

theorem Fresh.keeps {t : TableStore} (h : t.Fresh) : Appending.Keeps t ⟨[], []⟩ := by
  obtain ⟨db, disk, hopen, hblocks, htransactions⟩ := h.opens
  refine ⟨?_, db, ?_, ?_⟩
  · intro c hc
    rw [h.unconnected] at hc
    cases hc
  · rw [seen, h.unconnected, hopen]
    rfl
  · obtain ⟨⟨t, ht, hrows⟩, u, hu, hothers⟩ := Database.Holds.of_count hblocks htransactions
    cases t; cases u
    cases hrows
    cases hothers
    exact ⟨⟨_, ht, .nil⟩, _, hu, .nil⟩

end TableStore

end BlockArchive
