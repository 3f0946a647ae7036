import BlockArchive.Proofs.Act.Outcome
import BlockArchive.Proofs.Ingest.Typed
import BlockArchive.Proofs.Record.Declared
import BlockArchive.Proofs.Store.Appending

/-!
# Stores whose rows can be read

A store in tables is legible if each of its rows holds the text of a record that belongs into its
section. Tables may be missing, and the connection may be closed. A legible store can fail to
answer, but only with a problem of the store: no row is in the way of an answer.

* `Database.Legible` and `TableStore.Legible` are legible databases and stores, whose databases are
  legible wherever they are: in the connection and on the disk;
* `TableStore.connect_yields` makes the connection to a legible database;
* `TableStore.ask_yields` is the rule for questions, and `TableStore.find_yields`,
  `TableStore.loadBlock_yields` and the like are about each of them.
-/

namespace BlockArchive

/-- The fault is trouble in the database, or satisfies `F`. -/
def Fault.Troubled (F : Fault → Prop) (f : Fault) : Prop := (∃ x, f = .database x) ∨ F f

/-! ### Legible rows -/

/-- The text is that of a record which belongs into the section. -/
def Section.Legible : Section → String → Prop
  | .blocks, text => ∃ r : BlockRecord, r.Typed ∧ text = Json.render Json.stored r.document
  | .transactions, text =>
    ∃ r : TransactionRecord, r.Typed ∧ text = Json.render Json.stored r.document

/-- The rows of a table hold texts of records of the section. -/
def Table.Legible (s : Section) (t : Table) : Prop :=
  ∀ row ∈ t.rows, ∃ text, row.document = .text text ∧ s.Legible text

theorem Table.legible_empty (s : Section) : Table.Legible s {} :=
  fun _ hrow => absurd hrow List.not_mem_nil

/-- The rows of the tables that are there are legible. -/
def Database.Legible (db : Database) : Prop := ∀ s t, db.table? s = some t → t.Legible s

/-- The databases on the disk are legible. -/
def Disk.Legible (d : Disk) : Prop := ∀ e ∈ d.entries, ∀ db, e.2 = .database db → db.Legible

/-- What is committed and what is seen is legible. -/
structure Connection.Legible (c : Connection) : Prop where
  committed : c.committed.Legible
  working : c.working.Legible

/-- What the connection has and what is on the disk is legible. -/
structure TableStore.Legible (t : TableStore) : Prop where
  connection : ∀ c, t.connection = some c → c.Legible
  disk : t.disk.Legible

namespace Database

theorem table_eq_ok {db : Database} {s : Section} {t : Table} :
    db.table s = .ok t ↔ db.table? s = some t := by
  unfold table
  split
  · rename_i u hu
    simp [hu]
  · rename_i h
    simp [h]

namespace Legible

variable {db db' : Database} (h : db.Legible)
include h

theorem setTable {s : Section} {t : Option Table} (ht : ∀ u, t = some u → u.Legible s) :
    (db.setTable s t).Legible := by
  intro s' u hu
  cases s <;> cases s'
  -- another section or this one
  · exact ht u hu
  · exact h .transactions u hu
  · exact h .blocks u hu
  · exact ht u hu

theorem prepare : db.prepare.Legible := by
  intro s t ht
  cases s
  all_goals
    simp only [Database.prepare, table?, Option.some.injEq] at ht
    subst ht
  · cases hblocks : db.blocks with
    | none => exact Table.legible_empty _
    | some t => exact h .blocks t hblocks
  · cases htransactions : db.transactions with
    | none => exact Table.legible_empty _
    | some t => exact h .transactions t htransactions

theorem drop {name : String} {locked : Bool} (hdrop : Database.drop name locked db = .ok db') :
    db'.Legible := by
  have hrest : ∀ s, (db.setTable s none).Legible := fun s => h.setTable nofun
  unfold Database.drop at hdrop
  split_ifs at hdrop <;> obtain rfl := Except.ok.inj hdrop
  · exact fun s => h s
  · exact hrest .blocks
  · exact hrest .transactions

/-- Rows of legible texts may be added, and so may some of them. Those with a key that no column
holds are not. -/
theorem addRows {s : Section} {locked : Bool} {rs : List Draft}
    (hrs : ∀ r ∈ rs, (∀ f, ¬ r.Misfits f) → s.Legible r.document) :
    (Database.addRows s locked rs db).2.Legible := by
  induction rs generalizing db with
  | nil => exact h
  | cons r rest ih =>
    obtain ⟨hr, hrest⟩ := List.forall_mem_cons.1 hrs
    rw [Database.addRows]
    obtain ⟨t, row, ht, -, hfills, hrun⟩ | ⟨x, hrun⟩ | ⟨_, hrun, -⟩ := insert_cases s locked r db
    · have hlegible := hr fun _ => not_misfits_of_insert hrun
      rw [hrun]
      refine ih (h.setTable ?_) hrest
      rintro _ ⟨⟩
      exact List.forall_mem_append.2 ⟨h s t (table_eq_ok.1 ht),
        List.forall_mem_singleton.2 ⟨_, hfills.document, hlegible⟩⟩
    · rw [hrun]
      exact h
    · rw [hrun]
      exact h

end Legible

/-- What is asked of a table is asked of legible rows, or there is no such table. -/
theorem Legible.table_meets {α : Type} {Q : α → Prop} {F : Fault → Prop} {db : Database}
    (h : db.Legible) (s : Section) {g : Table → Except Fault α}
    (hg : ∀ t : Table, t.Legible s → Act.Meets Q (Fault.Troubled F) (g t)) :
    Act.Meets Q (Fault.Troubled F) (db.table s >>= g) := by
  cases ht : db.table? s with
  | none =>
    simp only [table, ht]
    exact .inl ⟨_, rfl⟩
  | some t =>
    simp only [table, ht]
    exact hg t (h s t ht)

theorem Legible.last?_meets {F : Fault → Prop} {db : Database} (h : db.Legible) (s : Section)
    (hasKey : TableRow → Bool) :
    Act.Meets (fun row => ∀ r ∈ row, ∃ text, r.document = .text text ∧ s.Legible text)
      (Fault.Troubled F) (last? s hasKey db) := by
  refine h.table_meets s fun t ht row hrow => ht row ?_
  exact List.mem_reverse.1 (List.mem_of_find?_eq_some hrow)

theorem legible_empty : Legible {} := by
  rintro (_ | _) _ ⟨⟩

end Database

/-! ### Legible disks -/

namespace Disk.Legible

variable {d d' : Disk} (h : d.Legible) {p : Path}
include h

theorem entry {db : Database} (hentry : d.entry p = .ok (.database db)) : db.Legible := by
  unfold Disk.entry at hentry
  cases hlocate : d.locate p with
  | error trouble =>
    rw [hlocate] at hentry
    cases hentry
  | ok steps =>
    simp only [hlocate, bind, Except.bind] at hentry
    split at hentry
    · rename_i e he
      obtain rfl := Except.ok.inj hentry
      unfold at? at he
      split at he
      · cases he
      · obtain ⟨x, hx, hdb⟩ := Option.map_eq_some_iff.1 he
        exact h x (List.mem_of_find?_eq_some hx) db hdb
    · cases hentry

theorem put {e : Entry} (he : ∀ db, e = .database db → db.Legible)
    (hput : d.put p e = .ok d') : d'.Legible := by
  unfold Disk.put at hput
  cases hlocate : d.locate p with
  | error trouble =>
    rw [hlocate] at hput
    cases hput
  | ok steps =>
    rw [hlocate] at hput
    obtain rfl := Except.ok.inj hput
    exact List.forall_mem_append.2 ⟨fun x hx => h x (List.mem_of_mem_filter hx),
      List.forall_mem_singleton.2 he⟩

theorem makeSteps {root : String} {steps : List String}
    (hmake : d.makeSteps root steps = .ok d') : d'.Legible := by
  induction steps generalizing d' with
  | nil =>
    obtain rfl := Except.ok.inj hmake
    exact h
  | cons step above ih =>
    simp only [Disk.makeSteps] at hmake
    split at hmake
    · obtain rfl := Except.ok.inj hmake
      exact h
    · cases hmake
    -- the directories above are made first
    · cases habove : d.makeSteps root above with
      | error e =>
        rw [habove] at hmake
        cases hmake
      | ok e =>
        simp only [habove, bind, Except.bind] at hmake
        split at hmake
        · rename_i hput
          obtain rfl := Except.ok.inj hmake
          refine (ih habove).put ?_ hput
          rintro _ ⟨⟩
        · cases hmake
    · cases hmake

end Disk.Legible

/-! ### Making the connection -/

namespace TableStore

variable {α : Type} {F : Fault → Prop}

theorem keep_legible (t : TableStore) {db : Database} (hdb : db.Legible) {disk : Disk}
    (hdisk : disk.Legible) : (t.keep db disk).Legible := by
  unfold keep
  split
  · exact hdisk
  · split
    · rename_i hput
      refine hdisk.put ?_ hput
      rintro _ ⟨⟩
      exact hdb
    · exact hdisk

namespace Legible

variable {t : TableStore} (h : t.Legible)
include h

theorem openDatabase {db : Database} {disk : Disk} (hopen : t.openDatabase = .ok (db, disk)) :
    db.Legible ∧ disk.Legible := by
  unfold TableStore.openDatabase at hopen
  split at hopen
  · cases hopen
    exact ⟨Database.legible_empty.prepare, h.disk⟩
  · rename_i p _
    unfold openFile at hopen
    cases hmake : t.disk.makeDirectory p.parent with
    | error e =>
      rw [hmake] at hopen
      cases hopen
    | ok disk' =>
      have hdisk' : disk'.Legible := h.disk.makeSteps hmake
      simp only [hmake, Except.mapError, bind, Except.bind] at hopen
      split at hopen
      · cases hopen
      · rename_i found hfound
        have hlegible : found.Legible := by
          split at hfound
          · rename_i hentry
            obtain rfl := Except.ok.inj hfound
            exact hdisk'.entry hentry
          · split_ifs at hfound
            obtain rfl := Except.ok.inj hfound
            exact Database.legible_empty
          · obtain rfl := Except.ok.inj hfound
            exact Database.legible_empty
          · cases hfound
        split at hopen
        · cases hopen
        · cases hopen
          exact ⟨hlegible.prepare, hdisk'⟩

theorem showing {c : Connection} (hc : c.Legible) {db : Database} (hdb : db.Legible) :
    (t.showing c db).Legible := by
  refine ⟨?_, h.disk⟩
  rintro _ ⟨⟩
  exact ⟨hc.committed, hdb⟩

theorem commit {c : Connection} (hc : c.Legible) : (t.committed c).Legible := by
  refine ⟨?_, t.keep_legible hc.working h.disk⟩
  rintro _ ⟨⟩
  exact ⟨hc.working, hc.working⟩

end Legible

theorem connect_yields (hconnect : ∀ path why, F (.problem (.connect path why))) :
    Act.Yields Legible Connection.Legible F connect := by
  intro d hd
  obtain ⟨why, hrun⟩ | ⟨c, d', hrun, hc, h⟩ := connect_cases d
  · rw [hrun]
    exact ⟨hd, hconnect _ why⟩
  · rw [hrun]
    suffices hd' : d'.state.Legible from ⟨hd', hd'.connection c hc⟩
    obtain ⟨-, rfl⟩ | ⟨-, db, disk, hopen, -, hstate⟩ := h
    · exact hd
    · obtain ⟨hdb, hdisk⟩ := hd.openDatabase hopen
      rw [hstate]
      refine ⟨?_, d.state.keep_legible hdb hdisk⟩
      rintro _ ⟨⟩
      exact ⟨hdb, hdb⟩

/-! ### Asking -/

section Asking

variable (hstorage : ∀ f : Fault, f.isStorage = true → F f)
include hstorage

theorem connected_yields :
    Act.Yields Legible Connection.Legible (Fault.Troubled F) connected := by
  refine (connect_yields fun path why => .inr (hstorage _ rfl)).bind fun c hc => ?_
  split
  · exact (Act.Yields.stop (Q := fun _ => False) (.inl ⟨_, rfl⟩)).bind nofun
  · exact .pure hc

theorem reporting_yields {Q : α → Prop} {problem : String → Problem}
    (hproblem : ∀ why, (Fault.problem (problem why)).isStorage = true) {a : Act TableStore α}
    (ha : Act.Yields Legible Q (Fault.Troubled F) a) :
    Act.Yields Legible Q F (reporting problem a) := by
  intro d hd
  obtain ⟨hlegible, hmeets⟩ := ha d hd
  rw [reporting_desk]
  refine ⟨hlegible, ?_⟩
  simp only [reporting, Act.runAt_bind, Act.runAt_attempt]
  generalize (a.runAt d).1 = outcome at hmeets
  cases outcome with
  | ok x => exact hmeets
  | error f =>
    split
    · rename_i h
      cases h
    · exact hstorage _ (hproblem _)
    · rename_i g hnot h
      obtain rfl := Except.error.inj h
      obtain ⟨x, rfl⟩ | hF := hmeets
      · exact absurd rfl (hnot x)
      · exact hF

/-- A question to a legible database. -/
theorem ask_yields {Q : α → Prop} {problem : String → Problem}
    (hproblem : ∀ why, (Fault.problem (problem why)).isStorage = true)
    {g : Database → Except Fault α}
    (hg : ∀ db : Database, db.Legible → Act.Meets Q (Fault.Troubled F) (g db)) :
    Act.Yields Legible Q F (reporting problem (query g)) :=
  reporting_yields hstorage hproblem
    ((connected_yields hstorage).bind fun c hc => .lift (hg c.working hc.working))

theorem probe_yields : Act.Yields Legible (fun _ => True) F probe := by
  refine Act.Yields.state_bind fun t _ => ?_
  refine (reporting_yields hstorage (fun _ => rfl) (connected_yields hstorage)).bind fun _ _ => ?_
  exact .log _

theorem count_yields (s : Section) {problem : String → Problem}
    (hproblem : ∀ why, (Fault.problem (problem why)).isStorage = true) :
    Act.Yields Legible (fun _ => True) F (reporting problem (query (Database.count s))) :=
  ask_yields hstorage hproblem fun _ hdb => hdb.table_meets s fun _ _ => trivial

theorem latestHeight_yields : Act.Yields Legible (fun _ => True) F latestHeight := by
  refine (ask_yields hstorage (fun _ => rfl) (Q := fun _ => True) fun db hdb => ?_).bind
    fun _ _ => .pure trivial
  exact hdb.table_meets .blocks fun _ _ => trivial

theorem metadata_yields (key : String) :
    Act.Yields Legible (fun _ => True) F (metadata key) := by
  refine ask_yields hstorage (fun _ => rfl) fun db _ => ?_
  unfold Database.entry?
  split
  · trivial
  · exact .inl ⟨_, rfl⟩

/-- What is loaded is the document of a transaction, or nothing, unless the key has no cell. -/
theorem loadTransactionBy_yields {key : Value} (hkey : ∀ f, key.Misfits f → F f) :
    Act.Yields Legible (fun v => v = .null ∨ ∃ r : TransactionRecord, r.Typed ∧ v = r.document) F
      (loadTransactionBy key) := by
  refine (ask_yields hstorage (fun _ => rfl) (Q := fun row => ∀ r ∈ row, ∃ text,
    r.document = .text text ∧ Section.transactions.Legible text) fun db hdb => ?_).bind
      fun row hrow => ?_
  · refine hdb.table_meets .transactions fun t ht => ?_
    obtain ⟨cell, hcell⟩ | ⟨x, hx⟩ | ⟨f, hf, hmisfits⟩ := Cell.bind_cases 1 key
    · rw [hcell]
      exact hdb.last?_meets .transactions _
    · rw [hx]
      exact .inl ⟨x, rfl⟩
    · rw [hf]
      exact .inr (hkey f hmisfits)
  · cases row with
    | none => exact .pure (.inl rfl)
    | some row =>
      obtain ⟨_, hdocument, r, hr, rfl⟩ := hrow row rfl
      simp only [documentOf, hdocument, Cell.text?, Option.getD_some,
        Document.read_render hr.isData]
      exact .pure (.inr ⟨r, hr, rfl⟩)

theorem findBy_yields {key : Value} (hkey : ∀ f, key.Misfits f → F f) :
    Act.Yields Legible (∀ t ∈ ·, StoredTransaction.Typed t) F (findBy key) := by
  refine (loadTransactionBy_yields hstorage hkey).bind fun v hv => ?_
  obtain rfl | ⟨r, hr, rfl⟩ := hv
  · exact .pure nofun
  · split
    · exact .pure nofun
    · refine (Act.Yields.lift (Q := (· = StoredTransaction.ofRecord r)) ?_).bind
        fun t ht => .pure ?_
      · rw [StoredTransaction.ofDocument_document]
        rfl
      · rintro _ ⟨⟩ o ho
        subst ht
        exact hr.outputs o ho

theorem find_yields (hash : String) :
    Act.Yields Legible (∀ t ∈ ·, StoredTransaction.Typed t) F (find hash) :=
  findBy_yields hstorage nofun

/-- A block is loaded unless its height has no room in a column. -/
theorem loadBlock_yields {height : Int} (hheight : Cell.fits height = false → F .columnOverflow) :
    Act.Yields Legible (fun _ => True) F (loadBlock height) := by
  refine (ask_yields hstorage (fun _ => rfl) (Q := fun row => ∀ r ∈ row, ∃ text,
    r.document = .text text ∧ Section.blocks.Legible text) fun db hdb => ?_).bind fun row hrow => ?_
  · refine hdb.table_meets .blocks fun t ht => ?_
    cases hfits : Cell.fits height with
    | false => exact .inr (hheight hfits)
    | true => exact hdb.last?_meets .blocks _
  · cases row with
    | none => exact .pure trivial
    | some row =>
      obtain ⟨_, hdocument, r, hr, rfl⟩ := hrow row rfl
      simp only [documentOf, hdocument, Cell.text?, Option.getD_some,
        Document.read_render hr.isData, pure_bind, BlockRecord.ofDocument_document]
      exact (Act.Yields.lift (r := .ok r) (Q := fun _ => True) trivial).bind
        fun _ _ => .pure trivial

end Asking

end TableStore

end BlockArchive
