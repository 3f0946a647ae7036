import BlockArchive.Proofs.Disk.Finding
import BlockArchive.Proofs.Store.Appending
import BlockArchive.Proofs.Store.Steady

/-!
# Closing a store and reaching it again

Whatever a call to a store in a file has done is committed when it returns, and what is committed
lies in the file. So it does not matter whether the store is closed between two calls: when it is
reached again, its new connection sees what the old one saw.

* `Database.Prepared` is a database to which opening adds nothing;
* `TableStore.Holding` is a store with a connection to a file that holds what is committed, and
  `TableStore.Offers` one whose connection sees a database or would see it once it is made:
  `TableStore.Offers.disconnected` says that it does not matter which;
* `TableStore.Alike` are two stores that offer the same database, and `TableStore.Call.act_alike`
  says that calls are answered alike by both and keep them so;
* `TableStore.GivenUp` puts together what a failing close does, `TableStore.Offers.givenUp` says so.
-/

namespace BlockArchive

open Act (Refines Matches)

/-! ### Databases to which opening adds nothing -/

namespace Database

/-- Both tables are there, and the versions of layout and writer are the last entries. -/
def Prepared (db : Database) : Prop := db.prepare = db

theorem setEntry_setEntry {key key' : String} (h : key ≠ key') (value value' : String)
    (entries : List (String × String)) :
    setEntry (setEntry entries key value) key' value' =
      entries.filter (fun e => e.1 != key && e.1 != key') ++ [(key, value), (key', value')] := by
  simp [setEntry, List.filter_append, List.filter_filter, h, Bool.and_comm]

theorem prepared_prepare (db : Database) : db.prepare.Prepared := by
  have hkeys : "schema_version" ≠ "writer_version" := by decide
  simp only [Prepared, prepare, Option.getD_some, setEntry_setEntry hkeys]
  simp [List.filter_append, List.filter_filter]

theorem Prepared.setTable {db : Database} (h : db.Prepared) (s : Section) (t : Table) :
    (db.setTable s (some t)).Prepared := by
  unfold Prepared at h ⊢
  conv_rhs => rw [← h]
  cases s <;> rfl

theorem Prepared.insert {db db' : Database} (h : db.Prepared) {s : Section} {locked : Bool}
    {r : Draft} (hinsert : insert s locked r.first r.second (.string r.document) db = .ok db') :
    db'.Prepared := by
  obtain ⟨t, row, -, -, -, hrun⟩ | ⟨x, hrun⟩ | ⟨_, hrun, -⟩ := insert_cases s locked r db
  · obtain rfl := Except.ok.inj (hrun.symm.trans hinsert)
    exact h.setTable ..
  · cases hrun.symm.trans hinsert
  · cases hrun.symm.trans hinsert

end Database

namespace TableStore

variable {d : Desk TableStore} {t : TableStore} {c : Connection} {p : Path} {db : Database}
  {disk : Disk}

/-! ### What lies in the file -/

/-- Contents that are kept are found in the file, unless a directory is in the way. -/
theorem entry_keep (hlocation : t.location = .file p) {found : List String}
    (hlocate : disk.locate p = .ok found) (hentry : disk.entry p ≠ .ok .directory)
    (db : Database) : (t.keep db disk).entry p = .ok (.database db) := by
  have hput : disk.put p (.database db) = .ok (disk.putAt found (.database db)) := by
    rw [Disk.put, hlocate]
    rfl
  simp only [keep, hlocation, hput]
  exact Disk.entry_put hput (.inr hentry)

/-- A file is opened only if its directory can be made, nothing else is in it than a database, and
the lock is free; what is missing is prepared. -/
theorem openFile_ok (h : t.openFile p = .ok (db, disk)) :
    t.disk.makeDirectory p.parent = .ok disk ∧ disk.entry p ≠ .ok .directory ∧ db.Prepared := by
  unfold openFile at h
  cases hmake : t.disk.makeDirectory p.parent with
  | error trouble => simp [hmake, Except.mapError, bind, Except.bind] at h
  | ok made =>
    simp only [hmake, Except.mapError, bind, Except.bind] at h
    split at h
    · cases h
    rename_i found hfound
    split at h
    · cases h
    obtain ⟨rfl, rfl⟩ := Prod.mk.inj (Except.ok.inj h)
    refine ⟨rfl, fun hdirectory => ?_, Database.prepared_prepare _⟩
    rw [hdirectory] at hfound
    cases hfound

theorem openFile_of_entry (hunlocked : t.locked = false)
    (hentry : t.disk.entry p = .ok (.database db)) (hdb : db.Prepared) :
    t.openFile p = .ok (db, t.disk) := by
  have hmake : t.disk.makeDirectory p.parent = .ok t.disk :=
    Disk.makeDirectory_parent hentry nofun
  simp only [openFile, hmake, Except.mapError, hentry, hunlocked, bind, Except.bind,
    Bool.false_eq_true, if_false]
  rw [show db.prepare = db from hdb]
  rfl

/-! ### Connections to a file -/

/-- The store has an open connection to the file of a path, which holds what is committed; nobody
else has the write lock. -/
structure Holding (p : Path) (t : TableStore) (c : Connection) : Prop extends t.Connected c where
  location : t.location = .file p
  unlocked : t.locked = false
  file : t.disk.entry p = .ok (.database c.committed)
  committed_prepared : c.committed.Prepared
  working_prepared : c.working.Prepared

namespace Holding

theorem showing (h : t.Holding p c) (hdb : db.Prepared) :
    (t.showing c db).Holding p { c with working := db } where
  toConnected := h.toConnected.showing db
  location := h.location
  unlocked := h.unlocked
  file := h.file
  committed_prepared := h.committed_prepared
  working_prepared := hdb

theorem committed (h : t.Holding p c) :
    (t.committed c).Holding p { c with committed := c.working } where
  toConnected := h.toConnected.committed
  location := h.location
  unlocked := h.unlocked
  file := by
    obtain ⟨found, hlocate, -⟩ := Disk.entry_eq_ok_iff.1 h.file
    exact entry_keep h.location hlocate (by rw [h.file]; nofun) c.working
  committed_prepared := h.working_prepared
  working_prepared := h.working_prepared

end Holding

theorem opened_holding (hlocation : t.location = .file p) (hunlocked : t.locked = false)
    (hopen : t.openDatabase = .ok (db, disk)) : (t.opened db disk).Holding p ⟨db, db, true⟩ := by
  have hfile : t.openFile p = .ok (db, disk) := by
    rwa [openDatabase, hlocation] at hopen
  obtain ⟨hmake, hentry, hdb⟩ := openFile_ok hfile
  obtain ⟨found, hlocate⟩ := Disk.exists_locate hmake hentry
  exact {
    connection := rfl
    isOpen := rfl
    location := hlocation
    unlocked := hunlocked
    file := entry_keep hlocation hlocate hentry db
    committed_prepared := hdb
    working_prepared := hdb }

/-- Both stores have the same connection to the file of a path. -/
def BothHold (p : Path) (s t : TableStore) : Prop := ∃ c, s.Holding p c ∧ t.Holding p c

/-- Over the same connection the same becomes of a row, and what is committed is the same. -/
theorem bothHold_serves (p : Path) : Serves (BothHold p) where
  location := by
    rintro s t ⟨c, hs, ht⟩
    rw [hs.location, ht.location]
  connect := by
    rw [Act.matches_iff]
    rintro d e ⟨c, hd, he⟩
    rw [hd.connect_runAt, he.connect_runAt]
    exact ⟨rfl, c, hd, he⟩
  insertRow := by
    intro s first second document
    rw [Act.matches_iff]
    rintro d e ⟨c, hd, he⟩
    have hrow := hd.insertRow_runAt s ⟨first, second, document⟩
    have hrow' := he.insertRow_runAt s ⟨first, second, document⟩
    dsimp only at hrow hrow'
    rw [hrow, hrow', hd.unlocked, he.unlocked]
    cases hinsert : Database.insert s false first second (.string document) c.working with
    | error f => exact ⟨rfl, c, hd, he⟩
    | ok db =>
      have hdb : db.Prepared :=
        hd.working_prepared.insert (r := ⟨first, second, document⟩) hinsert
      exact ⟨rfl, _, hd.showing hdb, he.showing hdb⟩
  commit := by
    rw [Act.matches_iff]
    rintro d e ⟨c, hd, he⟩
    rw [hd.commit_runAt, he.commit_runAt]
    exact ⟨rfl, _, hd.committed, he.committed⟩
  rollback := by
    rw [Act.matches_iff]
    rintro d e ⟨c, hd, he⟩
    rw [hd.rollback_runAt, he.rollback_runAt]
    exact ⟨rfl, _, hd.showing hd.committed_prepared, he.showing he.committed_prepared⟩

/-! ### Whether the connection is there or not -/

/-- The store has a connection that sees a database and has nothing to commit, or has none yet but
would get that one. -/
inductive Offers (p : Path) (t : TableStore) (db : Database) : Prop where
  /-- The connection is there. -/
  | held (h : t.Holding p ⟨db, db, true⟩)
  /-- The connection can be made. -/
  | awaited {disk : Disk} (hconnection : t.connection = none) (hlocation : t.location = .file p)
    (hunlocked : t.locked = false) (hopen : t.openDatabase = .ok (db, disk))

/-- The store without its connection. -/
def disconnected (t : TableStore) : TableStore := { t with connection := none }

namespace Offers

theorem location (h : t.Offers p db) : t.location = .file p := by
  cases h with
  | held h => exact h.location
  | awaited _ hlocation => exact hlocation

theorem settled (h : t.Offers p db) : t.Settled := by
  intro c hc
  cases h with
  | held h =>
    obtain rfl := Option.some.inj (h.connection.symm.trans hc)
    rfl
  | awaited hconnection =>
    rw [hconnection] at hc
    cases hc

theorem seen (h : t.Offers p db) : t.seen = .ok db := by
  cases h with
  | held h => rw [TableStore.seen, h.connection]
  | awaited hconnection _ _ hopen =>
    rw [TableStore.seen, hconnection, hopen]
    rfl

theorem of_holding (h : t.Holding p c) (ht : t.Settled) : t.Offers p c.working := by
  obtain ⟨committed, working, isOpen⟩ := c
  obtain rfl : working = committed := ht _ h.connection
  obtain rfl : isOpen = true := h.isOpen
  exact .held h

theorem connect (h : d.state.Offers p db) :
    ∃ d', TableStore.connect.runAt d = (.ok ⟨db, db, true⟩, d') ∧
      d'.state.Holding p ⟨db, db, true⟩ := by
  cases h with
  | held h => exact ⟨d, h.connect_runAt, h⟩
  | @awaited disk hconnection hlocation hunlocked hopen =>
    obtain ⟨why, hrun⟩ | ⟨c, d', hrun, -, ⟨hc, -⟩ | ⟨-, db', disk', hopen', rfl, hstate⟩⟩ :=
      connect_cases d
    · simp [TableStore.connect, hconnection, hopen, log, Except.map] at hrun
    · rw [hconnection] at hc
      cases hc
    · obtain ⟨rfl, rfl⟩ := Prod.mk.inj (Except.ok.inj (hopen.symm.trans hopen'))
      refine ⟨d', hrun, ?_⟩
      rw [hstate]
      exact opened_holding hlocation hunlocked hopen

/-- **Without its connection the store offers the same.** -/
theorem disconnected (h : t.Offers p db) : t.disconnected.Offers p db := by
  cases h with
  | held h =>
    have hfile : t.disconnected.openFile p = .ok (db, t.disk) :=
      openFile_of_entry h.unlocked h.file h.committed_prepared
    have hopen : t.disconnected.openDatabase = .ok (db, t.disk) := by
      rw [openDatabase, show t.disconnected.location = .file p from h.location, ← hfile]
    exact .awaited rfl h.location h.unlocked hopen
  | awaited _ hlocation hunlocked hopen => exact .awaited rfl hlocation hunlocked hopen

end Offers

/-! ### Two stores that offer the same -/

/-- Both stores offer the same database, and the same lies in their files. -/
structure Alike (p : Path) (s t : TableStore) : Prop where
  offers : ∃ db, s.Offers p db ∧ t.Offers p db
  file : s.disk.entry p = t.disk.entry p

namespace Alike

variable {s : TableStore}

theorem of_holding {db : Database} (hs : s.Holding p ⟨db, db, true⟩)
    (ht : t.Holding p ⟨db, db, true⟩) : Alike p s t :=
  ⟨⟨db, .held hs, .held ht⟩, hs.file.trans ht.file.symm⟩

/-- Stores with the same connection are alike if one of them has nothing to commit. -/
theorem of_bothHold (h : BothHold p s t) (hs : s.Settled) : Alike p s t := by
  obtain ⟨c, hs', ht⟩ := h
  have hsettled : t.Settled := by
    intro c' hc'
    obtain rfl := Option.some.inj (ht.connection.symm.trans hc')
    exact hs _ hs'.connection
  exact ⟨⟨c.working, .of_holding hs' hs, .of_holding ht hsettled⟩, hs'.file.trans ht.file.symm⟩

/-- It does not matter whether one of them is closed. -/
theorem disconnected (h : Alike p s t) : Alike p s.disconnected t := by
  obtain ⟨db, hs, ht⟩ := h.offers
  exact ⟨⟨db, hs.disconnected, ht⟩, h.file⟩

theorem connect {e : Desk TableStore} (h : Alike p d.state e.state) :
    ∃ db d' e', TableStore.connect.runAt d = (.ok ⟨db, db, true⟩, d') ∧
      TableStore.connect.runAt e = (.ok ⟨db, db, true⟩, e') ∧
      d'.state.Holding p ⟨db, db, true⟩ ∧ e'.state.Holding p ⟨db, db, true⟩ := by
  obtain ⟨db, hd, he⟩ := h.offers
  obtain ⟨d', hrun, hd'⟩ := hd.connect
  obtain ⟨e', hrun', he'⟩ := he.connect
  exact ⟨db, d', e', hrun, hrun', hd', he'⟩

end Alike

theorem alike_reaches (p : Path) : Reaches (Alike p) where
  location := by
    rintro s t ⟨⟨db, hs, ht⟩, -⟩
    rw [hs.location, ht.location]
  connect := by
    rw [Act.matches_iff]
    intro d e h
    obtain ⟨db, d', e', hrun, hrun', hd', he'⟩ := h.connect
    rw [hrun, hrun']
    exact ⟨rfl, .of_holding hd' he'⟩

/-- Acts that begin with the connection match over stores that are alike if they do over stores that
have the connection, and leave nothing to commit. -/
theorem matches_of_connect {α : Type} {f : Connection → Act TableStore α}
    (hf : ∀ c, Matches (BothHold p) (f c) (f c))
    (hsettled : ∀ d : Desk TableStore, d.state.Settled →
      ((connect >>= f).runAt d).2.state.Settled) :
    Matches (Alike p) (connect >>= f) (connect >>= f) := by
  rw [Act.matches_iff]
  intro d e h
  obtain ⟨db, d', e', hrun, hrun', hd', he'⟩ := h.connect
  obtain ⟨_, hd, -⟩ := h.offers
  have hleft := hsettled d hd.settled
  simp only [Act.runAt_bind, hrun, hrun'] at hleft ⊢
  obtain ⟨houtcome, hstate⟩ := Act.matches_iff.1 (hf ⟨db, db, true⟩) d' e' ⟨_, hd', he'⟩
  exact ⟨houtcome, .of_bothHold hstate hleft⟩

/-! ### Writing leaves nothing to commit -/

theorem Writes.settled {problem : String → Problem} {s : Section}
    {drafts : Except Fault (List Draft)} {run : Except Fault Unit × Desk TableStore}
    (h : Writes problem s drafts d run) (hd : d.state.Settled)
    (hleft : ∀ ds locked db db' f, drafts = .ok ds → f.isMisfit = true →
      Database.addRows s locked ds db = (.error f, db') → db' = db) :
    run.2.state.Settled := by
  obtain ⟨f, -, hstate⟩ | ⟨ds, c, d', db, -, -, -, -, -, hstate⟩ := h.all_or_nothing hd hleft
  · rw [hstate]
    exact (connect_settled hd d.rows).1
  · rw [hstate]
    exact settled_committed _ _

theorem insertBlock_settled (r : BlockRecord) (hd : d.state.Settled) :
    ((Store.insertBlock r : Act TableStore Unit).runAt d).2.state.Settled :=
  (insertBlock_writes r d).settled hd fun _ _ _ _ _ => blockDrafts_left

theorem insertTransactions_settled {rs : List TransactionRecord} (hrs : ∀ r ∈ rs, r.Named)
    (hd : d.state.Settled) :
    ((Store.insertTransactions rs : Act TableStore Unit).runAt d).2.state.Settled := by
  cases rs with
  | nil => exact hd
  | cons r rest =>
    exact (insertTransactions_writes r rest d).settled hd fun _ _ _ _ _ =>
      transactionDrafts_left hrs

theorem insertBlock_alike (r : BlockRecord) :
    Matches (Alike p) (Store.insertBlock r : Act TableStore Unit) (Store.insertBlock r) :=
  matches_of_connect
    (fun _ => (Refines.lift _).bind fun _ =>
      (bothHold_serves p).writing _ ((bothHold_serves p).insertRow _ _ _ _))
    fun _ => insertBlock_settled r

theorem insertTransactions_alike {rs : List TransactionRecord} (hrs : ∀ r ∈ rs, r.Named) :
    Matches (Alike p) (Store.insertTransactions rs : Act TableStore Unit)
      (Store.insertTransactions rs) := by
  cases rs with
  | nil => exact .pure _
  | cons r rest =>
    exact matches_of_connect
      (fun _ => (Refines.lift _).bind fun _ =>
        (bothHold_serves p).writing _ ((bothHold_serves p).insertRows _))
      fun _ => insertTransactions_settled hrs

/-! ### Calls -/

/-- A call to the store. -/
inductive Call where
  /-- Asking whether the store answers. -/
  | probe
  /-- Writing a block. -/
  | insertBlock (r : BlockRecord)
  /-- Writing a batch of transactions. -/
  | insertTransactions (rs : List TransactionRecord)
  /-- Looking up a transaction. -/
  | find (hash : String)
  /-- Loading the document of a transaction. -/
  | loadTransaction (hash : String)
  /-- Loading the block at a height. -/
  | loadBlock (height : Int)
  /-- Counting blocks. -/
  | blockCount
  /-- Counting transactions. -/
  | transactionCount
  /-- The greatest height. -/
  | latestHeight
  /-- An entry about the database. -/
  | metadata (key : String)
  /-- All rows. -/
  | dump

/-- What a call gives. -/
inductive Reply where
  /-- Nothing. -/
  | done
  /-- A transaction, if there is one. -/
  | transaction (t : Option StoredTransaction)
  /-- A block, if there is one. -/
  | block (r : Option BlockRecord)
  /-- A number of records. -/
  | count (n : Nat)
  /-- An entry about the database, if there is one. -/
  | entry (text : Option String)
  /-- A document, a height or all rows. -/
  | value (v : Value)

namespace Call

/-- What the call does. -/
def act : Call → Act TableStore Reply
  | probe => do
    Store.probe (σ := TableStore)
    return .done
  | insertBlock r => do
    Store.insertBlock (σ := TableStore) r
    return .done
  | insertTransactions rs => do
    Store.insertTransactions (σ := TableStore) rs
    return .done
  | find hash => return .transaction (← Store.find (σ := TableStore) hash)
  | loadTransaction hash => return .value (← TableStore.loadTransaction hash)
  | loadBlock height => return .block (← TableStore.loadBlock height)
  | blockCount => return .count (← TableStore.blockCount)
  | transactionCount => return .count (← TableStore.transactionCount)
  | latestHeight => return .value (← TableStore.latestHeight)
  | metadata key => return .entry (← TableStore.metadata key)
  | dump => return .value (← TableStore.dump)

/-- The hashes of transactions that are to be written are texts. -/
def Named : Call → Prop
  | insertTransactions rs => ∀ r ∈ rs, r.Named
  | _ => True

/-- **Stores that are alike answer a call alike, and it leaves them alike.** -/
theorem act_alike {q : Call} (hq : q.Named) (p : Path) : Matches (Alike p) q.act q.act := by
  have hreaches := alike_reaches p
  cases q with
  | probe => exact hreaches.probe.bind fun _ => .pure _
  | insertBlock r => exact (insertBlock_alike r).bind fun _ => .pure _
  | insertTransactions rs => exact (insertTransactions_alike hq).bind fun _ => .pure _
  | find hash => exact (hreaches.find hash).bind fun _ => .pure _
  | loadTransaction hash => exact (hreaches.loadTransaction hash).bind fun _ => .pure _
  | loadBlock height => exact (hreaches.loadBlock height).bind fun _ => .pure _
  | blockCount => exact (hreaches.ask _ _).bind fun _ => .pure _
  | transactionCount => exact (hreaches.ask _ _).bind fun _ => .pure _
  | latestHeight => exact hreaches.latestHeight.bind fun _ => .pure _
  | metadata key => exact (hreaches.ask _ _).bind fun _ => .pure _
  | dump => exact (hreaches.query _).bind fun _ => .pure _

end Call

/-! ### Closing -/

theorem close_store (d : Desk TableStore) : (close.runAt d).2.state = d.state.disconnected := by
  obtain ⟨⟨location, connection, locked, disk⟩, rows⟩ := d
  cases connection <;> rfl

theorem failClose_store (d : Desk TableStore) :
    (failClose.runAt d).2.state = d.state.disconnected := by
  obtain ⟨⟨location, connection, locked, disk⟩, rows⟩ := d
  cases connection <;> rfl

/-- What a failing close of a store does that has a connection: it is reported, once, and the next
connection is a new one that sees what the old one saw. -/
structure GivenUp (t : TableStore) (c : Connection) : Prop where
  /-- It stops with a problem of the database. -/
  reported : (failClose.perform t).1 =
    .error (.problem (.close (DatabaseTrouble.message .unfinished)))
  /-- The connection is gone. -/
  disconnected : (failClose.perform t).2.state = t.disconnected
  /-- Closing again does nothing more, whether it would fail or not. -/
  once : failClose.perform t.disconnected = (.ok (), ⟨t.disconnected, []⟩) ∧
    close.perform t.disconnected = (.ok (), ⟨t.disconnected, []⟩)
  /-- The next connection is a new one. -/
  renewed : (TableStore.connect.perform t.disconnected).1 = .ok ⟨c.working, c.working, true⟩ ∧
    (TableStore.connect.perform t.disconnected).2.state.connection =
      some ⟨c.working, c.working, true⟩

theorem Offers.givenUp (h : t.Offers p db) (hc : t.connection = some c) : t.GivenUp c where
  reported := by simp [failClose, Act.perform, hc]
  disconnected := failClose_store _
  once := ⟨rfl, rfl⟩
  renewed := by
    have hseen := h.seen
    rw [TableStore.seen, hc] at hseen
    obtain rfl := Except.ok.inj hseen
    obtain ⟨d', hrun, hd'⟩ := h.disconnected.connect (d := ⟨t.disconnected, []⟩)
    rw [Act.perform, hrun]
    exact ⟨rfl, hd'.connection⟩

end TableStore

end BlockArchive
