import BlockArchive.Proofs.Store.Legible

/-!
# With which faults the store in tables stops

Calls with arguments of their declared types fail with problems of the store: it cannot be reached,
a table is missing, another connection holds the lock. There are three exceptions. No column holds a
key, which is a height beyond 64 bits or a hash that cannot be encoded; a number in a document has
too many digits to be written; or rows are to be written over a connection that was closed behind
the store's back, where they cannot be taken back either.

* `TableStore.Writes.stops` says how a write can fail;
* `Errand` is a call with such arguments, `Errand.Escapes` are the exceptions, and
  `Errand.act_stops` says that over a legible store there are no others;
* `Happening` is a call or an event from outside, `Happening.follow` a run of them, and
  `Happening.follow_legible` says that a store stays legible whatever happens.
-/

namespace BlockArchive

namespace TableStore

/-- The connection has been closed behind the store's back. -/
def Broken (t : TableStore) : Prop := ∃ c, t.connection = some c ∧ c.isOpen = false

theorem Broken.of_connect {d : Desk TableStore} (h : (connect.runAt d).2.state.Broken) :
    d.state.Broken := by
  obtain ⟨why, hrun⟩ | ⟨c, d', hrun, hc, hd'⟩ := connect_cases d
  · rwa [hrun] at h
  · rw [hrun] at h
    obtain ⟨-, rfl⟩ | ⟨-, db, disk, -, rfl, -⟩ := hd'
    · exact h
    · obtain ⟨c', hc', hclosed⟩ := h
      cases hc.symm.trans hc'
      cases hclosed

/-! ### Writing -/

theorem Ends.legible {problem : String → Problem} {s : Section} {ds : List Draft}
    {t u : TableStore} {c : Connection} {outcome : Except Fault Unit}
    (h : Ends problem s ds t c outcome u) (ht : t.Legible)
    (hds : ∀ x ∈ ds, (∀ f, ¬ x.Misfits f) → s.Legible x.document) : u.Legible := by
  have hadded : ∀ {r db}, t.Connected c → Database.addRows s t.locked ds c.working = (r, db) →
      c.Legible ∧ db.Legible := by
    intro r db hc hadd
    have hlegible := ht.connection c hc.connection
    have hdb : (Database.addRows s t.locked ds c.working).2.Legible := hlegible.working.addRows hds
    rw [hadd] at hdb
    exact ⟨hlegible, hdb⟩
  cases h with
  | closed => exact ht
  | kept hc hadd =>
    obtain ⟨hlegible, hdb⟩ := hadded hc hadd
    exact (ht.showing hlegible hdb).commit ⟨hlegible.committed, hdb⟩
  | undone hc hadd =>
    have hlegible := (hadded hc hadd).1
    exact ht.showing hlegible hlegible.committed
  | left hc _ hadd =>
    obtain ⟨hlegible, hdb⟩ := hadded hc hadd
    exact ht.showing hlegible hdb

namespace Writes

variable {problem : String → Problem} {s : Section} {drafts : Except Fault (List Draft)}
  {d : Desk TableStore} {run : Except Fault Unit × Desk TableStore}
  (h : Writes problem s drafts d run)
include h

theorem legible (hd : d.state.Legible)
    (hdrafts : ∀ ds, drafts = .ok ds → ∀ x ∈ ds, (∀ f, ¬ x.Misfits f) → s.Legible x.document) :
    run.2.state.Legible := by
  have hconnected := (connect_yields (F := fun _ => True) (fun _ _ => trivial) d hd).1
  cases h with
  | unreachable _ h =>
    rw [h]
    exact hd
  | unwritten hconnect _ h =>
    rw [h]
    rwa [hconnect] at hconnected
  | ended hconnect hds _ hends =>
    rw [hconnect] at hconnected
    exact hends.legible hconnected (hdrafts _ hds)

/-- A write that succeeds has an open connection. One that fails does so with a problem of the
store, or a text cannot be written, or no column holds a key, or the connection is closed. -/
theorem stops (hproblem : ∀ why, (Fault.problem (problem why)).isStorage = true) :
    Act.Meets (fun _ => ¬ run.2.state.Broken)
      (fun f => f.isStorage = true ∨ f = .longInteger ∧ drafts = .error .longInteger ∨
        (∃ ds, drafts = .ok ds ∧ ∃ x ∈ ds, x.Misfits f) ∨
        f = .database .closed ∧ d.state.Broken) run.1 := by
  cases h with
  | unreachable _ h =>
    rw [h]
    exact .inl rfl
  | unwritten _ hdrafts h =>
    rw [h]
    exact .inr (.inl ⟨rfl, hdrafts⟩)
  | @ended c d' ds hconnect hdrafts _ hends =>
    obtain ⟨outcome, e⟩ := run
    obtain ⟨u, rows⟩ := e
    dsimp only at hends ⊢
    cases hends with
    | closed hc hopen =>
      refine .inr (.inr (.inr ⟨rfl, Broken.of_connect ?_⟩))
      rw [hconnect]
      exact ⟨c, hc, hopen⟩
    | kept hc =>
      rintro ⟨_, ⟨⟩, hclosed⟩
      cases hc.isOpen.symm.trans hclosed
    | undone => exact .inl (hproblem _)
    | left _ hf hadd =>
      obtain ⟨x, rfl⟩ | ⟨before, x, after, rfl, -, hmisfits⟩ := Database.addRows_fault hadd
      · cases hf
      · exact .inr (.inr (.inl ⟨_, hdrafts, x, by simp, hmisfits⟩))

end Writes

theorem blockDrafts_error {r : BlockRecord} {f : Fault} (h : blockDrafts r = .error f) :
    ¬ r.document.Short := by
  obtain ⟨-, hwrite⟩ | ⟨hlong, -⟩ := Document.write_cases r.document
  · rw [blockDrafts, hwrite] at h
    cases h
  · exact hlong

theorem transactionDrafts_error {rs : List TransactionRecord} {f : Fault}
    (h : transactionDrafts rs = .error f) : ∃ r ∈ rs, ¬ r.document.Short := by
  unfold transactionDrafts at h
  cases htexts : rs.mapM fun r => Document.write r.document with
  | ok texts =>
    rw [htexts] at h
    cases h
  | error g =>
    obtain ⟨r, hr, hwrite⟩ := Except.exists_of_mapM_error htexts
    obtain ⟨-, hok⟩ | ⟨hlong, -⟩ := Document.write_cases r.document
    · rw [hok] at hwrite
      cases hwrite
    · exact ⟨r, hr, hlong⟩

theorem block_misfits {r : BlockRecord} {f : Fault} {ds : List Draft} (hds : blockDrafts r = .ok ds)
    {x : Draft} (hx : x ∈ ds) (h : x.Misfits f) : r.hash.Misfits f ∨ r.height.Misfits f := by
  obtain ⟨text, -, rfl⟩ := blockDrafts_ok hds
  obtain rfl := List.mem_singleton.1 hx
  exact h

theorem batch_misfits {rs : List TransactionRecord} {f : Fault} {ds : List Draft}
    (hds : transactionDrafts rs = .ok ds) {x : Draft} (hx : x ∈ ds) (h : x.Misfits f) :
    ∃ r ∈ rs, r.hash.Misfits f ∨ r.blockHash.Misfits f := by
  obtain ⟨r, hr, hdraft⟩ := exists_of_mem_transactionDrafts hds hx
  rw [Draft.Misfits, hdraft.first, hdraft.second] at h
  exact ⟨r, hr, h⟩

/-- Over a closed connection no block is written, and what stops it is no problem of the store. -/
theorem insertBlock_of_broken {r : BlockRecord} (hr : r.document.Short) {d : Desk TableStore}
    (h : d.state.Broken) :
    (Store.insertBlock r : Act TableStore Unit).runAt d = (.error (.database .closed), d) := by
  obtain ⟨c, hc, hopen⟩ := h
  obtain ⟨-, hwrite⟩ | ⟨hlong, -⟩ := Document.write_cases r.document
  · have hconnect : connect.runAt d = (.ok c, d) := by simp [connect, hc]
    have hrow : ∀ text, (insertRow .blocks r.hash r.height text).runAt d =
        (.error (.database .closed), d) := by
      simp [insertRow, change, connected, hconnect, hopen]
    simp only [Store.insertBlock, insertBlock, Act.runAt_bind, hconnect, hwrite, Act.runAt_lift,
      writing_runAt_of_closed hc hopen (hrow _)]
  · exact absurd hr hlong

end TableStore

/-! ### Calls -/

open TableStore

/-- The value is a text that no string holds. -/
def Value.IsTorn (v : Value) : Prop := ∃ t, v = .torn t

/-- The fields of a block are of their declared types, or its hash is a text that no string holds,
whatever the other fields are. -/
def BlockRecord.Stated (r : BlockRecord) : Prop := r.Declared ∨ r.hash.IsTorn

/-- The fields of a transaction are of their declared types, or one of the two hashes in its row is
a text that no string holds, whatever the other fields are. -/
def TransactionRecord.Stated (r : TransactionRecord) : Prop :=
  r.Declared ∨ r.hash.IsTorn ∨ r.blockHash.IsTorn

/-- A call to the store with arguments of their declared types. -/
inductive Errand where
  /-- Asking whether the store answers. -/
  | probe
  /-- Writing a block. -/
  | insertBlock (r : BlockRecord) (hr : r.Stated)
  /-- Writing a batch of transactions. -/
  | insertTransactions (rs : List TransactionRecord) (hrs : ∀ r ∈ rs, r.Stated)
  /-- Looking up a transaction. -/
  | find (hash : Value) (hhash : hash.IsText ∨ hash.IsTorn)
  /-- Loading the document of a transaction. -/
  | loadTransaction (hash : Value) (hhash : hash.IsText ∨ hash.IsTorn)
  /-- Loading the block at a height. -/
  | loadBlock (height : Int)
  /-- Counting blocks. -/
  | blockCount
  /-- Counting transactions. -/
  | transactionCount
  /-- The greatest height. -/
  | latestHeight
  /-- An entry about the database. -/
  | metadata (key : String)

namespace Errand

/-- What the call does. -/
def act : Errand → Act TableStore Unit
  | probe => Store.probe
  | insertBlock r _ => Store.insertBlock r
  | insertTransactions rs _ => Store.insertTransactions rs
  | find hash _ => do let _ ← TableStore.findBy hash
  | loadTransaction hash _ => do let _ ← TableStore.loadTransactionBy hash
  | loadBlock height => do let _ ← TableStore.loadBlock height
  | blockCount => do let _ ← TableStore.blockCount
  | transactionCount => do let _ ← TableStore.transactionCount
  | latestHeight => do let _ ← TableStore.latestHeight
  | metadata key => do let _ ← TableStore.metadata key

/-- The faults that are no problems of the store with which a call to it can stop. -/
inductive Escapes (t : TableStore) : Errand → Fault → Prop where
  /-- No column holds the hash or the height of a block that is to be written. -/
  | blockKey {r : BlockRecord} {hr : r.Stated} {f : Fault}
    (h : r.hash.Misfits f ∨ r.height.Misfits f) : Escapes t (insertBlock r hr) f
  /-- No column holds a hash of a transaction that is to be written. -/
  | batchKey {rs : List TransactionRecord} {hrs : ∀ r ∈ rs, r.Stated} {f : Fault}
    (h : ∃ r ∈ rs, r.hash.Misfits f ∨ r.blockHash.Misfits f) :
    Escapes t (insertTransactions rs hrs) f
  /-- No column holds the hash that is looked up. -/
  | hash {hash : Value} {hhash : hash.IsText ∨ hash.IsTorn} {f : Fault} (h : hash.Misfits f) :
    Escapes t (find hash hhash) f
  /-- No column holds the hash whose document is to be loaded. -/
  | documentHash {hash : Value} {hhash : hash.IsText ∨ hash.IsTorn} {f : Fault}
    (h : hash.Misfits f) : Escapes t (loadTransaction hash hhash) f
  /-- The height of a block that is to be loaded has no room in a column. -/
  | height {n : Int} (h : Cell.fits n = false) : Escapes t (loadBlock n) .columnOverflow
  /-- A number of a block has too many digits. -/
  | blockNumber {r : BlockRecord} {hr : r.Stated} (h : ¬ r.document.Short) :
    Escapes t (insertBlock r hr) .longInteger
  /-- A number of a transaction has too many digits. -/
  | batchNumber {rs : List TransactionRecord} {hrs : ∀ r ∈ rs, r.Stated}
    (h : ∃ r ∈ rs, ¬ r.document.Short) : Escapes t (insertTransactions rs hrs) .longInteger
  /-- A block is to be written over a closed connection. -/
  | blockClosed {r : BlockRecord} {hr : r.Stated} (h : t.Broken) :
    Escapes t (insertBlock r hr) (.database .closed)
  /-- A batch is to be written over a closed connection. -/
  | batchClosed {rs : List TransactionRecord} {hrs : ∀ r ∈ rs, r.Stated} (hne : rs ≠ [])
    (h : t.Broken) : Escapes t (insertTransactions rs hrs) (.database .closed)

theorem insertBlock_legible {r : BlockRecord} (hr : r.Stated) {d : Desk TableStore}
    (h : d.state.Legible) :
    ((Store.insertBlock r : Act TableStore Unit).runAt d).2.state.Legible := by
  refine (insertBlock_writes r d).legible h fun ds hds => ?_
  obtain ⟨text, hwrite, rfl⟩ := blockDrafts_ok hds
  refine List.forall_mem_singleton.2 fun hmisfits => ?_
  have hdeclared : r.Declared := hr.resolve_right fun ⟨t, ht⟩ =>
    hmisfits (.unencodable t.trouble) (.inl (by rw [ht]; exact .text t))
  obtain ⟨hshort, hok⟩ | ⟨-, herror⟩ := Document.write_cases r.document
  · obtain rfl := Except.ok.inj (hok.symm.trans hwrite)
    exact ⟨r, hdeclared.typed hshort, rfl⟩
  · rw [herror] at hwrite
    cases hwrite

theorem insertTransactions_legible {rs : List TransactionRecord} (hrs : ∀ r ∈ rs, r.Stated)
    {d : Desk TableStore} (h : d.state.Legible) :
    ((Store.insertTransactions rs : Act TableStore Unit).runAt d).2.state.Legible := by
  cases rs with
  | nil => exact h
  | cons first rest =>
    refine (insertTransactions_writes first rest d).legible h fun ds hds x hx hmisfits => ?_
    obtain ⟨r, hr, hdraft⟩ := exists_of_mem_transactionDrafts hds hx
    have hdeclared : r.Declared := by
      refine (hrs r hr).resolve_right ?_
      rintro (⟨t, ht⟩ | ⟨t, ht⟩)
      · exact hmisfits (.unencodable t.trouble) (.inl (by rw [hdraft.first, ht]; exact .text t))
      · exact hmisfits (.unencodable t.trouble) (.inr (by rw [hdraft.second, ht]; exact .text t))
    obtain ⟨hshort, hok⟩ | ⟨-, herror⟩ := Document.write_cases r.document
    · exact ⟨r, hdeclared.typed hshort, (Except.ok.inj (hok.symm.trans hdraft.document)).symm⟩
    · cases herror.symm.trans hdraft.document

/-- A call leaves a legible store legible, and stops with a problem of the store unless one of the
exceptions holds. -/
theorem act_stops (e : Errand) {d : Desk TableStore} (h : d.state.Legible) :
    (e.act.runAt d).2.state.Legible ∧
      Act.Meets (fun _ => True) (fun f => f.isStorage = true ∨ e.Escapes d.state f)
        (e.act.runAt d).1 := by
  have hstorage : ∀ {e : Errand} (f : Fault), f.isStorage = true →
      f.isStorage = true ∨ e.Escapes d.state f := fun _ => .inl
  have hunit : ∀ {α : Type} {P : α → Prop} {F : Fault → Prop} {a : Act TableStore α},
      Act.Yields Legible P F a → Act.Yields Legible (fun _ => True) F (do let _ ← a) :=
    fun ha => ha.bind fun _ _ => .pure trivial
  cases e with
  | probe => exact probe_yields hstorage d h
  | find hash hhash => exact hunit (findBy_yields hstorage fun f hf => .inr (.hash hf)) d h
  | loadTransaction hash hhash =>
    exact hunit (loadTransactionBy_yields hstorage fun f hf => .inr (.documentHash hf)) d h
  | loadBlock height =>
    exact hunit (loadBlock_yields hstorage fun hfits => .inr (.height hfits)) d h
  | blockCount => exact hunit (count_yields hstorage .blocks fun _ => rfl) d h
  | transactionCount => exact hunit (count_yields hstorage .transactions fun _ => rfl) d h
  | latestHeight => exact hunit (latestHeight_yields hstorage) d h
  | metadata key => exact hunit (metadata_yields hstorage key) d h
  | insertBlock r hr =>
    refine ⟨insertBlock_legible hr h,
      ((insertBlock_writes r d).stops fun _ => rfl).imp (fun _ _ => trivial) ?_⟩
    rintro f (hf | ⟨rfl, hlong⟩ | ⟨ds, hds, x, hx, hmisfits⟩ | ⟨rfl, hbroken⟩)
    · exact .inl hf
    · exact .inr (.blockNumber (blockDrafts_error hlong))
    · exact .inr (.blockKey (block_misfits hds hx hmisfits))
    · exact .inr (.blockClosed hbroken)
  | insertTransactions rs hrs =>
    cases rs with
    | nil => exact ⟨h, trivial⟩
    | cons first rest =>
      refine ⟨insertTransactions_legible hrs h,
        ((insertTransactions_writes first rest d).stops fun _ => rfl).imp (fun _ _ => trivial) ?_⟩
      rintro f (hf | ⟨rfl, hlong⟩ | ⟨ds, hds, x, hx, hmisfits⟩ | ⟨rfl, hbroken⟩)
      · exact .inl hf
      · exact .inr (.batchNumber (transactionDrafts_error hlong))
      · exact .inr (.batchKey (batch_misfits hds hx hmisfits))
      · exact .inr (.batchClosed (List.cons_ne_nil _ _) hbroken)

end Errand

/-! ### Whatever happens -/

/-- The store has no connection yet, and there is no database on its disk. -/
structure TableStore.Pristine (t : TableStore) : Prop where
  unconnected : t.connection = none
  noDatabase : ∀ e ∈ t.disk.entries, ∀ db, e.2 ≠ .database db

theorem TableStore.Pristine.legible {t : TableStore} (h : t.Pristine) : t.Legible := by
  refine ⟨fun c hc => ?_, fun e he db hdb => absurd hdb (h.noDatabase e he db)⟩
  rw [h.unconnected] at hc
  cases hc

/-- What can happen to a store. -/
inductive Happening where
  /-- A call with arguments of their declared types. -/
  | call (e : Errand)
  /-- The store is closed. -/
  | close
  /-- The store is closed, and this fails. -/
  | failClose
  /-- A table is removed. -/
  | dropTable (name : String)
  /-- Another connection takes or gives back the write lock. -/
  | setLock (locked : Bool)
  /-- The connection is closed behind the store's back. -/
  | breakConnection

namespace Happening

/-- What is done. -/
def act : Happening → Act TableStore Unit
  | call e => e.act
  | close => TableStore.close
  | failClose => TableStore.failClose
  | dropTable name => TableStore.dropTable name
  | setLock locked => TableStore.setLock locked
  | breakConnection => TableStore.breakConnection

/-- The desk after some happenings. One that stops does not keep the others from happening. -/
def follow : List Happening → Desk TableStore → Desk TableStore
  | [], d => d
  | x :: rest, d => follow rest (x.act.runAt d).2

theorem close_legible {d : Desk TableStore} (h : d.state.Legible) :
    (TableStore.close.runAt d).2.state.Legible := by
  simp only [TableStore.close, Act.runAt_bind, Act.runAt_state]
  split
  · exact ⟨nofun, h.disk⟩
  · exact h

theorem failClose_legible {d : Desk TableStore} (h : d.state.Legible) :
    (TableStore.failClose.runAt d).2.state.Legible := by
  simp only [TableStore.failClose, Act.runAt_bind, Act.runAt_state]
  split
  · exact ⟨nofun, h.disk⟩
  · exact h

theorem dropTable_legible (name : String) {d : Desk TableStore} (h : d.state.Legible) :
    ((TableStore.dropTable name).runAt d).2.state.Legible := by
  have hconnected : Act.Ensures Legible Connection.Legible connected :=
    (connected_yields (F := fun _ => True) fun _ _ => trivial).ensures
  have hchange : Act.Ensures Legible (fun _ => True) (change (Database.drop name)) := by
    refine hconnected.bind fun c hc => Act.Ensures.state_bind fun t _ => ?_
    refine (Act.Ensures.lift (Q := Database.Legible) fun db hdb => hc.working.drop hdb).bind
      fun db hdb => ?_
    exact Act.Ensures.update fun u hu => hu.showing hc hdb
  have hcommit : Act.Ensures Legible (fun _ => True) commit :=
    hconnected.bind fun c hc => Act.Ensures.update fun u hu => hu.commit hc
  exact (hchange.bind fun _ _ => hcommit) d h |>.1

theorem setLock_legible (locked : Bool) {d : Desk TableStore} (h : d.state.Legible) :
    ((TableStore.setLock locked).runAt d).2.state.Legible := by
  have hlock : Act.Ensures Legible (fun _ => True) (TableStore.setLock locked) := by
    refine Act.Ensures.state_bind fun t _ => ?_
    -- whether there is a connection or not, the lock is refused or set
    split
    all_goals
      dsimp only
      split
      · exact fun e he => ⟨he, fun _ _ => trivial⟩
      · refine Act.Ensures.state_bind fun u _ => ?_
        split
        · exact .pure trivial
        · exact Act.Ensures.update fun v hv => ⟨hv.connection, hv.disk⟩
  exact (hlock d h).1

theorem breakConnection_legible {d : Desk TableStore} (h : d.state.Legible) :
    (TableStore.breakConnection.runAt d).2.state.Legible := by
  refine ⟨fun c hc => ?_, h.disk⟩
  obtain ⟨c', hc', rfl⟩ := Option.map_eq_some_iff.1 hc
  obtain ⟨hcommitted, hworking⟩ := h.connection c' hc'
  exact ⟨hcommitted, hworking⟩

theorem act_legible (x : Happening) {d : Desk TableStore} (h : d.state.Legible) :
    (x.act.runAt d).2.state.Legible := by
  cases x with
  | call e => exact (e.act_stops h).1
  | close => exact close_legible h
  | failClose => exact failClose_legible h
  | dropTable name => exact dropTable_legible name h
  | setLock locked => exact setLock_legible locked h
  | breakConnection => exact breakConnection_legible h

theorem follow_legible (happenings : List Happening) {d : Desk TableStore}
    (h : d.state.Legible) : (follow happenings d).state.Legible := by
  induction happenings generalizing d with
  | nil => exact h
  | cons x rest ih => exact ih (x.act_legible h)

/-! ### Closed connections and tall blocks -/

/-- A record of a block at a height. -/
def bareBlock (height : Int) : BlockRecord :=
  ⟨.string "block", .int height, .int 1, .int 80, .string "", .string "", .int 0, .int 0, .int 0,
    .int 0⟩

theorem bareBlock_declared (height : Int) : (bareBlock height).Declared :=
  ⟨⟨_, rfl⟩, ⟨_, rfl⟩, ⟨_, rfl⟩, ⟨_, rfl⟩, ⟨_, rfl⟩, ⟨_, rfl⟩, ⟨_, rfl⟩, ⟨_, rfl⟩, ⟨_, rfl⟩,
    ⟨_, rfl⟩⟩

theorem bareBlock_short : (bareBlock 0).document.Short := by
  unfold Value.Short
  decide +kernel

/-- The connection of a store is closed behind its back after it has answered. -/
def closedBehind : List Happening := [.call .probe, .breakConnection]

theorem follow_closedBehind : (follow closedBehind ⟨{ location := .memory }, []⟩).state.Broken :=
  ⟨_, rfl, rfl⟩

end Happening

end BlockArchive
