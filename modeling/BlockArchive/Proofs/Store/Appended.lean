import BlockArchive.Proofs.Record.Canonical
import BlockArchive.Proofs.Store.Atomic
import BlockArchive.Proofs.Store.Listing

/-!
# The store in tables as two lists

Blocks and batches of transactions are handed to a store in tables one after the other. Those whose
keys the columns take are accepted, and each of their records goes to the end of its list; the
others are rejected with the problem of their call, and nothing of them is there. Whatever is asked
afterwards is answered from the two lists.

* `TableStore.Rests` is a store that can be reached, with nothing waiting to be committed;
  `TableStore.Rests.writeDrafts` is a write to it, `TableStore.Rests.answer` a query;
* `Insertion` is a call that writes, `Insertion.Complete` says which are accepted, and
  `Insertion.step` what becomes of one;
* `Insertion.follow` makes calls one after the other, along with the lists of what was accepted;
* `TableStore.ReadsAs` is a store that answers from two lists, and `Insertion.follow_readsAs` is the
  whole of it.
-/

namespace BlockArchive

namespace TableStore

variable {α : Type} {d : Desk TableStore} {db db' : Database} {k : Contents}

/-! ### Stores at rest -/

/-- The database can be reached and written to, and nothing waits to be committed. -/
structure Rests (t : TableStore) (db : Database) : Prop where
  unlocked : t.locked = false
  settled : t.Settled
  sees : t.Sees db

theorem Connected.rests {t : TableStore} {c : Connection} (h : t.Connected c)
    (hlock : t.locked = false) (ht : t.Settled) : t.Rests c.working := by
  refine ⟨hlock, ht, ?_⟩
  rw [Sees, h.connection]
  exact ⟨h.isOpen, rfl⟩

theorem Rests.connect (h : d.state.Rests db) :
    ∃ c d', TableStore.connect.runAt d = (.ok c, d') ∧ d'.state.Connected c ∧ c.working = db ∧
      d'.state.locked = false ∧ d'.state.Settled := by
  have hsettled := (connect_settled h.settled d.rows).1
  have hsees := h.sees
  rw [Sees] at hsees
  obtain ⟨why, hrun⟩ | ⟨c, d', hrun, hc', ⟨hc, rfl⟩ | ⟨hc, db₁, disk₁, hopen₁, rfl, hstate⟩⟩ :=
    connect_cases d
  · exfalso
    cases hc : d.state.connection with
    | some c =>
      have hconnected := Connected.connect_runAt ⟨hc, (hc ▸ hsees : _ ∧ _).1⟩
      rw [hrun] at hconnected
      cases congrArg Prod.fst hconnected
    | none =>
      rw [hc] at hsees
      obtain ⟨disk, hopen⟩ := hsees
      have hmade : (TableStore.connect.runAt d).1 = .ok ⟨db, db, true⟩ := by
        simp [TableStore.connect, hc, hopen, log, Except.map]
      rw [hrun] at hmade
      cases hmade
  · rw [hc] at hsees
    exact ⟨c, d', hrun, ⟨hc, hsees.1⟩, hsees.2, h.unlocked, h.settled⟩
  · rw [hc] at hsees
    obtain ⟨disk, hopen⟩ := hsees
    obtain ⟨rfl, rfl⟩ := Prod.mk.inj (Except.ok.inj (hopen₁.symm.trans hopen))
    rw [hrun] at hsettled
    refine ⟨_, d', hrun, ⟨hc', rfl⟩, rfl, ?_, hsettled⟩
    rw [hstate]
    exact h.unlocked

theorem Rests.query (h : d.state.Rests db) {f : Database → Except Fault α} {x : α}
    (hf : f db = .ok x) : ((TableStore.query f).runAt d).1 = .ok x := by
  obtain ⟨c, d', hconnect, hd', rfl, -⟩ := h.connect
  simp [TableStore.query, connected, hconnect, hd'.isOpen, hf]

theorem Rests.answer (h : d.state.Rests db) (problem : String → Problem)
    {f : Database → Except Fault α} {x : α} (hf : f db = .ok x) :
    ((reporting problem (TableStore.query f)).runAt d).1 = .ok x := by
  rw [reporting_runAt_of_ok (h.query hf), h.query hf]

/-- A write of rows to a store at rest: all are added, or there is trouble and none is. -/
theorem Rests.write (h : d.state.Rests db) {problem : String → Problem} {s : Section}
    {ds : List Draft} {run : Except Fault Unit × Desk TableStore}
    (hrun : Writes problem s (.ok ds) d run) :
    (Database.addRows s false ds db = (.ok (), db') → run.1 = .ok () ∧ run.2.state.Rests db') ∧
    ∀ x, Database.addRows s false ds db = (.error (.database x), db') →
      run.1 = .error (.problem (problem x.message)) ∧ run.2.state.Rests db := by
  obtain ⟨c, d', hconnect, hd', rfl, hlock, hsettled⟩ := h.connect
  cases hrun with
  | unreachable hfailed _ =>
    rw [hconnect] at hfailed
    cases congrArg Prod.fst hfailed
  | unwritten _ hdrafts _ => cases hdrafts
  | ended hconnect' hdrafts _ hends =>
    obtain ⟨hc, rfl⟩ := Prod.mk.inj (hconnect.symm.trans hconnect')
    obtain rfl := Except.ok.inj hc
    obtain rfl := Except.ok.inj hdrafts
    obtain ⟨outcome, u, rows⟩ := run
    dsimp only at hends ⊢
    rw [← hlock]
    cases hends with
    | closed hc hopen =>
      rw [hd'.isOpen] at hopen
      cases hopen
    | kept hc hadd =>
      refine ⟨fun hadd' => ?_, fun x hadd' => ?_⟩
      · obtain ⟨-, rfl⟩ := Prod.mk.inj (hadd.symm.trans hadd')
        exact ⟨rfl, (hd'.showing _).committed.rests hlock (settled_committed _ _)⟩
      · cases congrArg Prod.fst (hadd.symm.trans hadd')
    | undone hc hadd =>
      refine ⟨fun hadd' => ?_, fun x hadd' => ?_⟩
      · cases congrArg Prod.fst (hadd.symm.trans hadd')
      · obtain ⟨hx, -⟩ := Prod.mk.inj (hadd.symm.trans hadd')
        obtain rfl := Fault.database.inj (Except.error.inj hx)
        rw [hd'.showing_committed hsettled]
        exact ⟨rfl, hd'.rests hlock hsettled⟩
    | left hc hf hadd =>
      refine ⟨fun hadd' => ?_, fun x hadd' => ?_⟩
      · cases congrArg Prod.fst (hadd.symm.trans hadd')
      · obtain rfl := Except.error.inj (congrArg Prod.fst (hadd.symm.trans hadd'))
        cases hf

/-- What becomes of drafts whose keys are each taken by their column or by none: their rows are
added, numbered on and in order, or one of them lacks a key and the write is rejected. -/
theorem Rests.writeDrafts (h : d.state.Rests db) {problem : String → Problem} {s : Section}
    {ds : List Draft} {run : Except Fault Unit × Desk TableStore}
    (hrun : Writes problem s (.ok ds) d run) {t : Table} (ht : db.table s = .ok t)
    (hds : ∀ x ∈ ds, x.Decided s) :
    (∀ x ∈ ds, x.Complete s) ∧ run.1 = .ok () ∧
        (∃ rows : List TableRow, rows.map TableRow.id = List.range' t.next ds.length ∧
          List.Forall₂ (Draft.Makes s) ds rows ∧
          run.2.state.Rests (db.setTable s (some ⟨t.rows ++ rows, t.next + ds.length⟩))) ∨
      ¬ (∀ x ∈ ds, x.Complete s) ∧ (∃ trouble : DatabaseTrouble,
        run.1 = .error (.problem (problem trouble.message))) ∧ run.2.state.Rests db := by
  by_cases hcomplete : ∀ x ∈ ds, x.Complete s
  · obtain ⟨rows, hids, hmakes, hadd⟩ := Database.addRows_complete ht hcomplete
    obtain ⟨hok, hrests⟩ := (h.write hrun).1 hadd
    exact .inl ⟨hcomplete, hok, rows, hids, hmakes, hrests⟩
  · obtain ⟨x, db', hadd⟩ := Database.addRows_refused ht hds hcomplete
    obtain ⟨herror, hrests⟩ := (h.write hrun).2 x hadd
    exact .inr ⟨hcomplete, ⟨x, herror⟩, hrests⟩

/-- The store lists what was kept, with nothing waiting. -/
def Lists (t : TableStore) (k : Contents) : Prop := ∃ db, t.Rests db ∧ db.Lists k

/-! ### Asking -/

/-- The transaction last written under a hash, with all of its fields. -/
def loadRecord (hash : String) : Act TableStore (Option TransactionRecord) := do
  match ← loadTransaction hash with
  | .null => return none
  | document => return some (← Act.lift (TransactionRecord.ofDocument document))

/-- The store answers from two lists. All rows are their records, numbered from one on; the text in
a row is read as the document of the record, and the keys in the columns are fields of it; and what
is asked for by height or hash is the last record that bears it. -/
structure ReadsAs (d : Desk TableStore) (k : Contents) : Prop where
  settled : d.state.Settled
  dump : (TableStore.dump.runAt d).1 = .ok (.mapping [
    ("blocks", numbered BlockRecord.draft k.blocks),
    ("transactions", numbered TransactionRecord.draft k.transactions)])
  blockText : ∀ b ∈ k.blocks, Json.parse b.draft.document = .ok b.document ∧
    b.document.field? "hash" = some b.draft.first ∧
    b.document.field? "blockHeight" = some b.draft.second
  transactionText : ∀ r ∈ k.transactions, Json.parse r.draft.document = .ok r.document ∧
    r.document.field? "txHash" = some r.draft.first ∧
    r.document.field? "blockHash" = some r.draft.second
  loadBlock : ∀ n, Cell.fits n = true →
    ((TableStore.loadBlock n).runAt d).1 = .ok (k.blocks.findRev? (·.height? == some n))
  loadRecord : ∀ hash, ((TableStore.loadRecord hash).runAt d).1 =
    .ok (k.transactions.findRev? (MemoryStore.bears hash))
  blockCount : (TableStore.blockCount.runAt d).1 = .ok k.blocks.length
  transactionCount : (TableStore.transactionCount.runAt d).1 = .ok k.transactions.length
  latestHeight : (TableStore.latestHeight.runAt d).1 =
    .ok ((heights k.blocks).max?.elim .null .int)
  latestBlock : ∀ n, (heights k.blocks).max? = some n →
    ∃ b ∈ k.blocks, b.height? = some n ∧ ((TableStore.loadBlock n).runAt d).1 = .ok (some b)

theorem documentOf_makes {s : Section} {r : Draft} {row : TableRow} {v : Value} (h : r.Makes s row)
    (hr : r.document = Json.render Json.stored v) (hv : v.IsData) :
    documentOf (some row) = pure v := by
  rw [documentOf, h.document, Cell.text?, Option.getD_some, hr, Document.read_render hv]

theorem Rests.loadBlock (h : d.state.Rests db) (hk : db.Lists k) {n : Int}
    (hn : Cell.fits n = true) :
    ((TableStore.loadBlock n).runAt d).1 = .ok (k.blocks.findRev? (·.height? == some n)) := by
  obtain ⟨t, ht, -⟩ := hk.blocks
  obtain ⟨row, hrow, hrel⟩ := hk.last?_block n
  have hquery := h.answer .loadBlock (f := fun db => do
    let _ ← db.table .blocks
    if !Cell.fits n then .error .columnOverflow
    Database.last? .blocks (fun r => cellEquals n r.second) db) (x := row)
    (by rw [ht, hn, hrow]; rfl)
  rw [TableStore.loadBlock, Act.runAt_bind, hquery]
  dsimp only
  generalize hfound : k.blocks.findRev? (·.height? == some n) = found at hrel ⊢
  cases hrel with
  | none => rfl
  | @some b row hmakes =>
    rw [List.findRev?_eq_find?_reverse] at hfound
    have hdata := hk.blockData b (List.mem_reverse.1 (List.mem_of_find?_eq_some hfound))
    simp only [documentOf_makes hmakes rfl hdata, pure_bind, Act.runAt_bind, Act.runAt_lift,
      b.ofDocument_document, Act.runAt_pure]

theorem Rests.loadRecord (h : d.state.Rests db) (hk : db.Lists k) (hash : String) :
    ((TableStore.loadRecord hash).runAt d).1 =
      .ok (k.transactions.findRev? (MemoryStore.bears hash)) := by
  obtain ⟨row, hrow, hrel⟩ := hk.last?_transaction hash
  have hquery := h.answer (.loadTransaction (.string hash)) hrow
  rw [TableStore.loadRecord, Act.runAt_bind, loadTransaction, loadTransactionBy_string,
    Act.runAt_bind, hquery]
  dsimp only
  generalize hfound : k.transactions.findRev? (MemoryStore.bears hash) = found at hrel ⊢
  cases hrel with
  | none => rfl
  | @some r row hmakes =>
    rw [List.findRev?_eq_find?_reverse] at hfound
    have hdata := hk.transactionData r (List.mem_reverse.1 (List.mem_of_find?_eq_some hfound))
    rw [documentOf_makes hmakes rfl hdata, Act.runAt_pure]
    -- a document is a mapping, never nothing
    show ((do
      let x ← Act.lift (TransactionRecord.ofDocument r.document)
      return some x : Act TableStore _).runAt _).1 = _
    simp only [r.ofDocument_document, Act.runAt_bind, Act.runAt_lift, Act.runAt_pure]

theorem Rests.latestBlock (h : d.state.Rests db) (hk : db.Lists k) {n : Int}
    (hn : (heights k.blocks).max? = some n) :
    ∃ b ∈ k.blocks, b.height? = some n ∧ ((TableStore.loadBlock n).runAt d).1 = .ok (some b) := by
  obtain ⟨b, hb, hheight⟩ := List.mem_filterMap.1 (List.max?_mem hn)
  obtain ⟨m, hm, hfits⟩ := hk.fits_height hb
  obtain rfl : m = n := Option.some.inj (hm.symm.trans hheight)
  have hload := h.loadBlock hk hfits
  rw [List.findRev?_eq_find?_reverse] at hload
  cases hfound : k.blocks.reverse.find? (·.height? == some m) with
  | none =>
    have hnone := List.find?_eq_none.1 hfound b (List.mem_reverse.2 hb)
    exact absurd (beq_iff_eq.2 hheight) hnone
  | some last =>
    rw [hfound] at hload
    have hlast := List.find?_some hfound
    exact ⟨last, List.mem_reverse.1 (List.mem_of_find?_eq_some hfound), eq_of_beq hlast, hload⟩

/-- **A store whose tables are two lists answers from them.** -/
theorem Lists.readsAs (h : d.state.Lists k) : ReadsAs d k := by
  obtain ⟨db, hrests, hlists⟩ := h
  refine ⟨hrests.settled, hrests.query hlists.dump, fun b hb => ⟨?_, rfl, rfl⟩,
    fun r hr => ⟨?_, rfl, rfl⟩, fun n hn => hrests.loadBlock hlists hn, hrests.loadRecord hlists,
    hrests.answer _ hlists.count_blocks, hrests.answer _ hlists.count_transactions, ?_,
    fun n hn => hrests.latestBlock hlists hn⟩
  · exact Json.parse_render _ (hlists.blockData b hb)
  · exact Json.parse_render _ (hlists.transactionData r hr)
  · have hquery := hrests.answer .latestHeight hlists.latestHeight
    simp only [TableStore.latestHeight, Act.runAt_bind, hquery, Act.runAt_pure]
    cases (heights k.blocks).max? <;> rfl

/-! ### Empty tables -/

/-- The store can be reached and written to, its tables are empty, and nothing waits. -/
structure Blank (t : TableStore) : Prop where
  unlocked : t.locked = false
  settled : t.Settled
  sees : ∃ db, t.Sees db ∧ db.table .blocks = .ok {} ∧ db.table .transactions = .ok {}

theorem Blank.lists {t : TableStore} (h : t.Blank) : t.Lists ⟨[], []⟩ := by
  obtain ⟨hunlocked, hsettled, db, hsees, hblocks, htransactions⟩ := h
  have hrests : t.Rests db := ⟨hunlocked, hsettled, hsees⟩
  exact ⟨db, hrests, ⟨_, hblocks, .nil⟩, ⟨_, htransactions, .nil⟩, nofun, nofun⟩

theorem blank_memory : Blank { location := .memory } :=
  ⟨rfl, nofun, _, ⟨_, rfl⟩, rfl, rfl⟩

end TableStore

/-! ### One call -/

/-- A call that writes to a store. -/
inductive Insertion where
  /-- A block is written. -/
  | block (b : BlockRecord)
  /-- A batch of transactions is written. -/
  | batch (rs : List TransactionRecord)

namespace Insertion

/-- The call. -/
def act : Insertion → Act TableStore Unit
  | .block b => Store.insertBlock b
  | .batch rs => Store.insertTransactions rs

/-- The records of the call go to the ends of their lists. -/
def addTo (k : Contents) : Insertion → Contents
  | .block b => k.addBlock b
  | .batch rs => k.addTransactions rs

/-- The problem that the call is rejected with. -/
def problem : Insertion → String → Problem
  | .block b => .insertBlock b.hash b.height
  | .batch rs => .insertTransactions rs.length ((rs.map (·.blockHash)).headD .null)

/-- The documents are data, hashes are texts or refused, and heights are whole numbers for which a
column has room or refused. -/
def Proper : Insertion → Prop
  | .block b => b.document.IsData ∧ Affinity.text.Decides b.hash ∧ Affinity.integer.Decides b.height
  | .batch rs => ∀ r ∈ rs, r.document.IsData ∧ Affinity.text.Decides r.hash ∧
      Affinity.text.Decides r.blockHash

/-- All hashes are texts, and the height is a whole number for which there is room. -/
def Complete : Insertion → Prop
  | .block b => b.hash.IsText ∧ b.HasHeight
  | .batch rs => ∀ r ∈ rs, r.hash.IsText ∧ r.blockHash.IsText

theorem complete_block {b : BlockRecord} :
    (Insertion.block b).Complete ↔ ∀ x ∈ [b.draft], x.Complete .blocks := by
  rw [List.forall_mem_singleton]
  exact and_congr Affinity.exists_takes_text.symm Affinity.exists_takes_integer.symm

theorem complete_batch {rs : List TransactionRecord} :
    (Insertion.batch rs).Complete ↔
      ∀ x ∈ rs.map TransactionRecord.draft, x.Complete .transactions := by
  rw [List.forall_mem_map]
  exact forall₂_congr fun r _ =>
    and_congr Affinity.exists_takes_text.symm Affinity.exists_takes_text.symm

theorem transactionDrafts_of_isData {rs : List TransactionRecord}
    (hrs : ∀ r ∈ rs, r.document.IsData) :
    TableStore.transactionDrafts rs = .ok (rs.map TransactionRecord.draft) := by
  have hwrite : rs.mapM (fun r => Document.write r.document) =
      .ok (rs.map fun r => Json.render Json.stored r.document) := by
    refine Except.mapM_ok (List.forall₂_map_right_iff.2 (List.forall₂_same.2 fun r hr => ?_))
    exact Document.write_of_isData (hrs r hr)
  rw [TableStore.transactionDrafts, hwrite, Except.map, ← List.map_prod_left_eq_zip, List.map_map]
  rfl

variable {d : Desk TableStore} {k : Contents}

/-- The outcome of a call, where the lists are `k` before it: it is accepted if it is complete, and
its records go to the ends of the lists; else it is rejected and changes nothing. -/
def Settles (x : Insertion) (k : Contents) (run : Except Fault Unit × Desk TableStore) : Prop :=
  x.Complete ∧ run.1 = .ok () ∧ run.2.state.Lists (x.addTo k) ∨
    ¬ x.Complete ∧ (∃ trouble : DatabaseTrouble,
      run.1 = .error (.problem (x.problem trouble.message))) ∧ run.2.state.Lists k

theorem step_block (hd : d.state.Lists k) {b : BlockRecord} (hb : (Insertion.block b).Proper) :
    (Insertion.block b).Settles k ((Insertion.block b).act.runAt d) := by
  obtain ⟨db, hrests, hlists⟩ := hd
  obtain ⟨t, ht, hrows⟩ := hlists.blocks
  obtain ⟨hdata, hkeys⟩ := hb
  have hwrites := TableStore.insertBlock_writes b d
  have hdrafts : TableStore.blockDrafts b = .ok [b.draft] := by
    rw [TableStore.blockDrafts, Document.write_of_isData hdata]
    rfl
  rw [hdrafts] at hwrites
  obtain ⟨hcomplete, hok, rows, hids, hmakes, hrests'⟩ | ⟨hrefused, herror, hrests'⟩ :=
    hrests.writeDrafts hwrites ht (List.forall_mem_singleton.2 hkeys)
  · refine .inl ⟨complete_block.2 hcomplete, hok, _, hrests',
      ⟨_, Database.table_setTable_self .., hrows.append [b] hids hmakes⟩, ?_, ?_,
      hlists.transactionData⟩
    · rw [Database.table_setTable_ne _ (by decide)]
      exact hlists.transactions
    · exact List.forall_mem_append.2 ⟨hlists.blockData, List.forall_mem_singleton.2 hdata⟩
  · exact .inr ⟨mt complete_block.1 hrefused, herror, db, hrests', hlists⟩

theorem step_batch (hd : d.state.Lists k) {rs : List TransactionRecord}
    (hrs : (Insertion.batch rs).Proper) :
    (Insertion.batch rs).Settles k ((Insertion.batch rs).act.runAt d) := by
  cases rs with
  | nil => exact .inl ⟨nofun, rfl, by rw [addTo, Contents.addTransactions_nil]; exact hd⟩
  | cons r rest =>
    obtain ⟨db, hrests, hlists⟩ := hd
    obtain ⟨t, ht, hrows⟩ := hlists.transactions
    have hwrites := TableStore.insertTransactions_writes r rest d
    rw [transactionDrafts_of_isData fun x hx => (hrs x hx).1] at hwrites
    obtain ⟨hcomplete, hok, rows, hids, hmakes, hrests'⟩ | ⟨hrefused, herror, hrests'⟩ :=
      hrests.writeDrafts hwrites ht (List.forall_mem_map.2 fun x hx => (hrs x hx).2)
    · refine .inl ⟨complete_batch.2 hcomplete, hok, _, hrests', ?_,
        ⟨_, Database.table_setTable_self .., hrows.append (r :: rest) hids hmakes⟩,
        hlists.blockData, ?_⟩
      · rw [Database.table_setTable_ne _ (by decide)]
        exact hlists.blocks
      · exact List.forall_mem_append.2 ⟨hlists.transactionData, fun x hx => (hrs x hx).1⟩
    · exact .inr ⟨mt complete_batch.1 hrefused, herror, db, hrests', hlists⟩

/-- What becomes of a call. -/
theorem step (hd : d.state.Lists k) {x : Insertion} (hx : x.Proper) :
    x.Settles k (x.act.runAt d) := by
  cases x with
  | block b => exact step_block hd hx
  | batch rs => exact step_batch hd hx

/-! ### Calls in a row -/

/-- Makes calls one after the other, whether they are accepted or not: the desk that is left, and
the lists with the records of those that were accepted. -/
def follow : List Insertion → Desk TableStore → Contents → Desk TableStore × Contents
  | [], d, k => (d, k)
  | x :: rest, d, k =>
    match x.act.runAt d with
    | (.ok _, d') => follow rest d' (x.addTo k)
    | (.error _, d') => follow rest d' k

theorem follow_lists {xs : List Insertion} (hxs : ∀ x ∈ xs, x.Proper) (hd : d.state.Lists k) :
    (follow xs d k).1.state.Lists (follow xs d k).2 := by
  induction xs generalizing d k with
  | nil => exact hd
  | cons x rest ih =>
    obtain ⟨hx, hrest⟩ := List.forall_mem_cons.1 hxs
    have hstep := step hd hx
    rw [follow]
    generalize x.act.runAt d = run at hstep ⊢
    obtain ⟨outcome, d'⟩ := run
    obtain ⟨-, rfl, hd'⟩ | ⟨-, ⟨_, rfl⟩, hd'⟩ := hstep
    · exact ih hrest hd'
    · exact ih hrest hd'

theorem category_problem (x : Insertion) (why : String) : (x.problem why).category = .write := by
  cases x <;> rfl

/-- A call is accepted if it is complete, and only then; else it fails as a write does that the
database refuses. -/
theorem Settles.outcome {x : Insertion} {run : Except Fault Unit × Desk TableStore}
    (h : x.Settles k run) :
    (run.1 = .ok () ↔ x.Complete) ∧
      ∀ f, run.1 = .error f → ∃ trouble : DatabaseTrouble,
        f = .problem (x.problem trouble.message) ∧
          (x.problem trouble.message).category = .write := by
  obtain ⟨hcomplete, hok, -⟩ | ⟨hrefused, ⟨trouble, herror⟩, -⟩ := h
  · refine ⟨iff_of_true hok hcomplete, fun f hf => ?_⟩
    rw [hok] at hf
    cases hf
  · refine ⟨⟨fun hok => ?_, fun hcomplete => absurd hcomplete hrefused⟩, fun f hf => ?_⟩
    · rw [herror] at hok
      cases hok
    · rw [herror] at hf
      exact ⟨trouble, (Except.error.inj hf).symm, x.category_problem _⟩

/-- **The tables are two lists to which accepted records are added.** Calls are made on a store with
empty tables, each of which is accepted if its keys are there and is rejected as a failed write if
not. What is asked afterwards is answered from the lists of the accepted records. -/
theorem follow_readsAs {t : TableStore} (ht : t.Blank) (rows : List Row) {xs : List Insertion}
    (hxs : ∀ x ∈ xs, x.Proper) :
    (∀ before x after, xs = before ++ x :: after →
      let run := x.act.runAt (follow before ⟨t, rows⟩ ⟨[], []⟩).1
      (run.1 = .ok () ↔ x.Complete) ∧
        ∀ f, run.1 = .error f → ∃ trouble : DatabaseTrouble,
          f = .problem (x.problem trouble.message) ∧
            (x.problem trouble.message).category = .write) ∧
      TableStore.ReadsAs (follow xs ⟨t, rows⟩ ⟨[], []⟩).1 (follow xs ⟨t, rows⟩ ⟨[], []⟩).2 := by
  refine ⟨?_, (follow_lists hxs (d := ⟨t, rows⟩) ht.lists).readsAs⟩
  rintro before x after rfl
  have hbefore := fun y hy => hxs y (List.mem_append_left _ hy)
  have hx := hxs x (List.mem_append_right _ List.mem_cons_self)
  exact (step (follow_lists hbefore (d := ⟨t, rows⟩) ht.lists) hx).outcome

/-! ### A sample -/

/-- Two blocks of one height, a batch of one hash twice, and calls in between that lack a hash. -/
def sample : List Insertion :=
  [.block .sample, .batch [TableStore.bare (.string "a"), TableStore.bare (.string "a")],
    .batch [TableStore.bare (.string "b"), TableStore.bare .null, TableStore.bare (.string "c")],
    .block { BlockRecord.sample with hash := .null },
    .block { BlockRecord.sample with version := .int 1 }, .batch [.bare]]

theorem proper_sample : ∀ x ∈ sample, x.Proper := by
  have hnumbers : ∀ n ∈ [0, 1], Document.isTooLong n = false := by decide +kernel
  have hzero : (Value.int 0).IsData := .int (hnumbers 0 (by decide))
  have hone : (Value.int 1).IsData := .int (hnumbers 1 (by decide))
  have htext : ∀ s, Affinity.text.Decides (.string s) := fun s => .inl ⟨_, .text s⟩
  have hheight : Affinity.integer.Decides (.int 2) := .inl ⟨_, .integer rfl⟩
  have hbare : ∀ {hash : Value}, hash.IsData → (TableStore.bare hash).document.IsData := by
    intro hash hhash
    refine .mapping (by simp) ?_
    simp only [List.forall_mem_cons, TableStore.bare, List.map_nil, List.length_nil]
    exact ⟨hhash, .string _, hone, hzero, hzero, .list nofun, hzero, .list nofun, nofun⟩
  have hnamed : ∀ s, (TableStore.bare (.string s)).document.IsData := fun s => hbare (.string s)
  have hblock := BlockRecord.typed_sample
  have hchanged : ∀ {hash version : Value}, hash.IsData → version.IsData →
      ({ BlockRecord.sample with hash, version } : BlockRecord).document.IsData := by
    intro hash version hhash hversion
    refine .mapping (by simp) ?_
    simp only [List.forall_mem_cons]
    exact ⟨hhash, hblock.height.isData, hversion, hblock.size.isData, hblock.previousHash.isData,
      hblock.merkleRootHash.isData, hblock.timestamp.isData, hblock.bits.isData,
      hblock.transactionCount.isData, hblock.nonce.isData, nofun⟩
  simp only [sample, List.forall_mem_cons, Proper]
  exact ⟨⟨hblock.isData, htext _, hheight⟩,
    ⟨⟨hnamed "a", htext _, htext _⟩, ⟨hnamed "a", htext _, htext _⟩, nofun⟩,
    ⟨⟨hnamed "b", htext _, htext _⟩, ⟨hbare .null, .inr .null, htext _⟩,
      ⟨hnamed "c", htext _, htext _⟩, nofun⟩,
    ⟨hchanged .null hblock.version.isData, .inr .null, hheight⟩,
    ⟨hchanged hblock.hash.isData hone, htext _, hheight⟩,
    ⟨⟨TransactionRecord.typed_bare.isData, htext _, htext _⟩, nofun⟩, nofun⟩

/-- Of the sample four calls are accepted. -/
theorem follow_readsAs_sample :
    let t : TableStore := { location := .memory }
    let left := follow sample ⟨t, []⟩ ⟨[], []⟩
    (t.Blank ∧ (∀ x ∈ sample, x.Proper)) ∧
      (left.2.blocks.length = 2 ∧ left.2.transactions.length = 3) ∧
      TableStore.ReadsAs left.1 left.2 :=
  ⟨⟨TableStore.blank_memory, proper_sample⟩, ⟨by decide +kernel, by decide +kernel⟩,
    (follow_readsAs TableStore.blank_memory [] proper_sample).2⟩

end Insertion

end BlockArchive
