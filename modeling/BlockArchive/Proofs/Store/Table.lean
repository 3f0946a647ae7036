import BlockArchive.Proofs.Act.Refinement
import BlockArchive.Proofs.Store.Database
import BlockArchive.Proofs.Store.Memory
import BlockArchive.Store.Table

/-!
# The store in tables does as the store in memory

A store in tables mirrors one in memory while its rows stand for the records of the other and its
database can be reached. Then each of its calls does as the call of the other, and the two go on
mirroring each other. The connection may still have to be made.

* `TableStore.Connected` is a store with an open connection, and the closed forms of its acts;
* `TableStore.Mirrors` is the relation of the two stores, `TableStore.Fresh` a store to start with;
* `TableStore.find_matches`, `TableStore.insertBlock_matches` and the like say so call by call.
-/

namespace BlockArchive.TableStore

variable {α : Type} {t : TableStore} {c : Connection} {d : Desk TableStore}

/-! ### With a connection -/

/-- The store has a connection, which is open. -/
structure Connected (t : TableStore) (c : Connection) : Prop where
  connection : t.connection = some c
  isOpen : c.isOpen = true

/-- The store with other contents seen by its connection. -/
def showing (t : TableStore) (c : Connection) (db : Database) : TableStore :=
  { t with connection := some { c with working := db } }

/-- The store with what its connection sees committed. -/
def committed (t : TableStore) (c : Connection) : TableStore :=
  { t with
    connection := some { c with committed := c.working }
    disk := t.keep c.working t.disk }

namespace Connected

theorem showing (h : t.Connected c) (db : Database) :
    (t.showing c db).Connected { c with working := db } :=
  ⟨rfl, h.isOpen⟩

theorem committed (h : t.Connected c) :
    (t.committed c).Connected { c with committed := c.working } :=
  ⟨rfl, h.isOpen⟩

theorem connect_runAt (h : d.state.Connected c) : connect.runAt d = (.ok c, d) := by
  simp [connect, h.connection]

theorem connected_runAt (h : d.state.Connected c) : connected.runAt d = (.ok c, d) := by
  simp [connected, h.connect_runAt, h.isOpen]

theorem change_runAt (h : d.state.Connected c) {f : Bool → Database → Except Fault Database}
    {db : Database} (hf : f d.state.locked c.working = .ok db) :
    (change f).runAt d = (.ok (), ⟨d.state.showing c db, d.rows⟩) := by
  simp [change, h.connected_runAt, hf, TableStore.showing]

theorem commit_runAt (h : d.state.Connected c) :
    commit.runAt d = (.ok (), ⟨d.state.committed c, d.rows⟩) := by
  simp [commit, h.connected_runAt, TableStore.committed]

theorem rollback_runAt (h : d.state.Connected c) :
    rollback.runAt d = (.ok (), ⟨d.state.showing c c.committed, d.rows⟩) := by
  simp [rollback, h.connected_runAt, TableStore.showing]

end Connected

theorem reporting_runAt_of_ok {problem : String → Problem} {a : Act TableStore α} {x : α}
    (h : (a.runAt d).1 = .ok x) : (reporting problem a).runAt d = a.runAt d := by
  simp only [reporting, Act.runAt_bind, Act.runAt_attempt, h, Act.runAt_pure]
  rw [← h]

theorem writing_runAt_of_ok (problem : String → Problem) {a : Act TableStore Unit}
    {d' : Desk TableStore} (h : a.runAt d = (.ok (), d')) (ht : d'.state.Connected c) :
    (writing problem a).runAt d = (.ok (), ⟨d'.state.committed c, d'.rows⟩) := by
  simp [writing, h, ht.commit_runAt]

/-! ### Mirrored contents -/

/-- The store starts with empty tables, and its database can be reached. -/
structure Fresh (t : TableStore) : Prop where
  unconnected : t.connection = none
  unlocked : t.locked = false
  opens : ∃ db disk, t.openDatabase = .ok (db, disk) ∧
    db.count .blocks = .ok 0 ∧ db.count .transactions = .ok 0

/-- What the connection of the store sees, or would see if it were made. -/
def Sees (t : TableStore) (db : Database) : Prop :=
  match t.connection with
  | some c => c.isOpen = true ∧ c.working = db
  | none => ∃ disk, t.openDatabase = .ok (db, disk)

/-- The store in tables holds what the store in memory holds, and both answer. -/
structure Mirrors (t : TableStore) (m : MemoryStore) : Prop where
  unlocked : t.locked = false
  available : m.available = true
  holds : ∃ db, t.Sees db ∧ db.Holds ⟨m.blocks, m.transactions⟩

theorem Connected.mirrors {m : MemoryStore} (h : t.Connected c) (hlock : t.locked = false)
    (hm : m.available = true) (hholds : c.working.Holds ⟨m.blocks, m.transactions⟩) :
    t.Mirrors m := by
  refine ⟨hlock, hm, c.working, ?_, hholds⟩
  rw [Sees, h.connection]
  exact ⟨h.isOpen, rfl⟩

theorem Fresh.mirrors (h : t.Fresh) : t.Mirrors {} := by
  obtain ⟨db, disk, hopen, hblocks, htransactions⟩ := h.opens
  refine ⟨h.unlocked, rfl, db, ?_, .of_count hblocks htransactions⟩
  rw [Sees, h.unconnected]
  exact ⟨disk, hopen⟩

namespace Mirrors

variable {m : MemoryStore}

/-- Being asked changes nothing that is mirrored. -/
theorem ask (h : t.Mirrors m) (n : Nat) : t.Mirrors (m.ask n) :=
  ⟨h.unlocked, h.available, h.holds⟩

theorem connect (h : d.state.Mirrors m) :
    ∃ c d', TableStore.connect.runAt d = (.ok c, d') ∧ d'.state.Connected c ∧
      d'.state.locked = false ∧ c.working.Holds ⟨m.blocks, m.transactions⟩ := by
  obtain ⟨db, hsees, hholds⟩ := h.holds
  rw [Sees] at hsees
  cases hc : d.state.connection with
  | some c =>
    rw [hc] at hsees
    obtain ⟨hopen, rfl⟩ := hsees
    have ht : d.state.Connected c := ⟨hc, hopen⟩
    exact ⟨c, d, ht.connect_runAt, ht, h.unlocked, hholds⟩
  | none =>
    rw [hc] at hsees
    obtain ⟨disk, hopen⟩ := hsees
    -- the connection is made now, and begins with what the database holds
    have hrun : (TableStore.connect.runAt d).1 = .ok ⟨db, db, true⟩ ∧
        (TableStore.connect.runAt d).2.state = { d.state with
          connection := some ⟨db, db, true⟩
          disk := d.state.keep db disk } := by
      simp [TableStore.connect, hc, hopen, log, Except.map]
    refine ⟨⟨db, db, true⟩, (TableStore.connect.runAt d).2, Prod.ext hrun.1 rfl, ?_, ?_, hholds⟩
    · rw [hrun.2]
      exact ⟨rfl, rfl⟩
    · rw [hrun.2]
      exact h.unlocked

/-- Once it is there, the connection is open, and the stores go on mirroring each other. -/
theorem connected (h : d.state.Mirrors m) :
    ∃ c d', TableStore.connected.runAt d = (.ok c, d') ∧ d'.state.Mirrors m ∧
      c.working.Holds ⟨m.blocks, m.transactions⟩ := by
  obtain ⟨c, d', hconnect, hd', hlock, hholds⟩ := h.connect
  refine ⟨c, d', ?_, hd'.mirrors hlock h.available hholds, hholds⟩
  simp [TableStore.connected, hconnect, hd'.isOpen]

/-- A query that every database which holds what is mirrored answers is answered. -/
theorem answer (h : d.state.Mirrors m) (problem : String → Problem)
    {f : Database → Except Fault α} {P : α → Prop}
    (hf : ∀ db : Database, db.Holds ⟨m.blocks, m.transactions⟩ → ∃ x, f db = .ok x ∧ P x) :
    ∃ x d', (reporting problem (query f)).runAt d = (.ok x, d') ∧ P x ∧ d'.state.Mirrors m := by
  obtain ⟨c, d', hconnected, hd', hholds⟩ := h.connected
  obtain ⟨x, hx, hP⟩ := hf c.working hholds
  have hrun : (query f).runAt d = (.ok x, d') := by
    simp [query, hconnected, hx]
  refine ⟨x, d', ?_, hP, hd'⟩
  rw [reporting_runAt_of_ok (congrArg Prod.fst hrun), hrun]

end Mirrors

/-! ### Queries -/

theorem probe_matches :
    Act.Matches Mirrors (Store.probe : Act TableStore Unit)
      (Store.probe : Act MemoryStore Unit) := by
  rw [Act.matches_iff]
  intro d e h
  obtain ⟨c, d', hconnected, hd', -⟩ := h.connected
  have hreport : ∀ problem, (reporting problem connected).runAt d = (.ok c, d') := fun problem => by
    rw [reporting_runAt_of_ok (congrArg Prod.fst hconnected), hconnected]
  simp only [Store.probe, probe, Act.runAt_bind, Act.runAt_state, hreport, h.available, log,
    Act.runAt_log]
  exact ⟨rfl, hd'⟩

/-- A query matches what is read off the memory, where every database that holds the same gives the
same. -/
theorem query_matches {problem : String → Problem} {f : Database → Except Fault α}
    {g : MemoryStore → α}
    (hf : ∀ (db : Database) (m : MemoryStore), db.Holds ⟨m.blocks, m.transactions⟩ →
      f db = .ok (g m)) :
    Act.Matches Mirrors (reporting problem (query f)) (return g (← Act.state)) := by
  rw [Act.matches_iff]
  intro d e h
  obtain ⟨_, d', hrun, rfl, hd'⟩ := h.answer problem (P := (· = g e.state))
    fun db hdb => ⟨_, hf db e.state hdb, rfl⟩
  rw [hrun]
  exact ⟨rfl, hd'⟩

theorem blockCount_matches :
    Act.Matches Mirrors blockCount (return (← Act.state).blocks.length : Act MemoryStore Nat) :=
  query_matches fun _ _ h => h.count_blocks

theorem transactionCount_matches :
    Act.Matches Mirrors transactionCount
      (return (← Act.state).transactions.length : Act MemoryStore Nat) :=
  query_matches fun _ _ h => h.count_transactions

theorem latestHeight_matches :
    Act.Matches Mirrors latestHeight
      (do Act.lift (← Act.state).latestHeight : Act MemoryStore Value) := by
  rw [Act.matches_iff]
  intro d e h
  obtain ⟨cell, d', hrun, hcell, hd'⟩ := h.answer .latestHeight
    (f := Database.latestHeight) fun db hdb => hdb.latestHeight (m := e.state) rfl
  simp only [latestHeight, Act.runAt_bind, hrun, Act.runAt_state, hcell, Act.runAt_lift]
  exact ⟨rfl, hd'⟩

/-- A look-up reads the document of the last row of a hash, and gives what the record would. -/
theorem find_matches (hash : String) :
    Act.Matches Mirrors (Store.find hash : Act TableStore _)
      (Store.find hash : Act MemoryStore _) := by
  rw [Act.matches_iff]
  intro d e h
  obtain ⟨row, d', hrun, hrow, hd'⟩ := h.answer (.loadTransaction (.string hash))
    fun db hdb => hdb.last? hash
  have hfind : ((Store.find hash : Act TableStore _).runAt d).1 = .ok (e.state.lookup? hash) ∧
      ((Store.find hash : Act TableStore _).runAt d).2 = d' := by
    simp only [Store.find, find, findBy, loadTransactionBy_string, Act.runAt_bind, hrun,
      e.state.lookup?_eq]
    dsimp only at hrow
    generalize e.state.transactions.findRev? (MemoryStore.bears hash) = found at hrow ⊢
    -- what was written as text is read back as the document, and that as the record
    cases hrow with
    | none => exact ⟨rfl, rfl⟩
    | @some row r hkeeps =>
      simp only [documentOf, hkeeps.document, Cell.text?, Option.getD_some,
        Document.read_render hkeeps.typed.isData, Act.runAt_pure]
      split
      · rename_i hnull
        cases hnull
      · simp only [StoredTransaction.ofDocument_document]
        exact ⟨rfl, rfl⟩
  rw [hfind.1, hfind.2, MemoryStore.find_runAt]
  exact ⟨rfl, hd'.ask 1⟩

/-! ### Writing -/

theorem insertBlock_matches {r : BlockRecord} (hr : r.Typed) (hheight : r.HasHeight) :
    Act.Matches Mirrors (Store.insertBlock r : Act TableStore Unit)
      (Store.insertBlock r : Act MemoryStore Unit) := by
  rw [Act.matches_iff]
  intro d e h
  obtain ⟨c, d', hconnect, hd', hlock, hholds⟩ := h.connect
  obtain ⟨db, hinsert, hdb⟩ := hholds.insertBlock hr hheight
  have hrow : (insertRow .blocks r.hash r.height (Json.render Json.stored r.document)).runAt d' =
      (.ok (), ⟨d'.state.showing c db, d'.rows⟩) :=
    hd'.change_runAt (by rw [hlock]; exact hinsert)
  have hrun := fun problem =>
    writing_runAt_of_ok problem hrow (hd'.showing db)
  simp only [Store.insertBlock, insertBlock, Act.runAt_bind, hconnect,
    Document.write_of_isData hr.isData, Act.runAt_lift, hrun]
  exact ⟨rfl, (hd'.showing db).committed.mirrors hlock h.available hdb⟩

theorem insertRows_runAt {rs : List TransactionRecord} (hrs : ∀ r ∈ rs, r.Typed)
    (hd : d.state.Connected c) (hlock : d.state.locked = false) {k : Contents}
    (hholds : c.working.Holds k) :
    ∃ c' d', (insertRows (rs.map fun r => (r, Json.render Json.stored r.document))).runAt d =
        (.ok (), d') ∧
      d'.state.Connected c' ∧ d'.state.locked = false ∧
        c'.working.Holds (k.addTransactions rs) := by
  -- each row is added to what the connection sees, with nothing committed in between
  induction rs generalizing d c k with
  | nil => exact ⟨c, d, rfl, hd, hlock, by simpa using hholds⟩
  | cons r rest ih =>
    obtain ⟨hr, hrest⟩ := List.forall_mem_cons.1 hrs
    obtain ⟨db, hinsert, hdb⟩ := hholds.insertTransaction hr
    have hrow : (insertRow .transactions r.hash r.blockHash
        (Json.render Json.stored r.document)).runAt d =
        (.ok (), ⟨d.state.showing c db, d.rows⟩) :=
      hd.change_runAt (by rw [hlock]; exact hinsert)
    obtain ⟨c', d', hrun, hd', hlock', hholds'⟩ :=
      ih (d := ⟨d.state.showing c db, d.rows⟩) hrest (hd.showing db) hlock hdb
    refine ⟨c', d', ?_, hd', hlock', ?_⟩
    · simp only [List.map_cons, insertRows, Act.runAt_bind, hrow, hrun]
    · simpa [Contents.addTransactions] using hholds'

theorem mapM_write {rs : List TransactionRecord} (hrs : ∀ r ∈ rs, r.Typed) :
    rs.mapM (fun r => Document.write r.document) =
      .ok (rs.map fun r => Json.render Json.stored r.document) := by
  induction rs with
  | nil => rfl
  | cons r rest ih =>
    obtain ⟨hr, hrest⟩ := List.forall_mem_cons.1 hrs
    rw [List.mapM_cons, Document.write_of_isData hr.isData, ih hrest]
    rfl

/-- A batch is written as a whole; an empty one changes nothing in either store. -/
theorem insertTransactions_matches {rs : List TransactionRecord} (hrs : ∀ r ∈ rs, r.Typed) :
    Act.Matches Mirrors (Store.insertTransactions rs : Act TableStore Unit)
      (Store.insertTransactions rs : Act MemoryStore Unit) := by
  rw [Act.matches_iff]
  intro d e h
  rw [MemoryStore.insertTransactions_runAt rs fun r hr => (hrs r hr).hash]
  cases rs with
  | nil =>
    have hd : d.state.Mirrors { e.state.withTransactions (e.state.transactions ++ []) with
        batches := e.state.batches + 1 } :=
      ⟨h.unlocked, h.available, by simpa using h.holds⟩
    exact ⟨rfl, hd⟩
  | cons r rest =>
    obtain ⟨c, d', hconnect, hd', hlock, hholds⟩ := h.connect
    obtain ⟨c', d'', hrows, hd'', hlock', hholds'⟩ := insertRows_runAt hrs hd' hlock hholds
    have hrun := fun problem => writing_runAt_of_ok problem hrows hd''
    simp only [Store.insertTransactions, insertTransactions, Act.runAt_bind, hconnect,
      mapM_write hrs, Act.runAt_lift, ← List.map_prod_left_eq_zip, hrun]
    exact ⟨trivial, hd''.committed.mirrors hlock' h.available hholds'⟩

end BlockArchive.TableStore
