import BlockArchive.Proofs.Record.Documents
import BlockArchive.Proofs.Store.AllOrNothing
import BlockArchive.Store.Database
import Mathlib.Data.List.Forall2

/-!
# What the tables hold

The rows of the two tables stand for records, in the same order: the keys are in the columns and the
document is there as text. Rows are only added at the end, and the last row of a hash stands for the
transaction last written under it.

* `TableRow.KeepsBlock` and `TableRow.KeepsTransaction` relate a row to a record, `Database.Holds`
  the tables to contents;
* `Database.Holds.insertBlock` and `Database.Holds.insertTransaction`: a record is added;
* `Database.Holds.last?`, `Database.Holds.count_blocks`, `Database.Holds.count_transactions` and
  `Database.Holds.latestHeight`: queries give what they would give of the records.
-/

namespace BlockArchive

/-! ### Rows and records -/

/-- The height is a whole number that a column holds. -/
def BlockRecord.HasHeight (b : BlockRecord) : Prop := ∃ n, b.height = .int n ∧ Cell.fits n = true

theorem Cell.isShort_of_fits {n : Int} (h : fits n = true) : (Value.int n).IsShort := by
  have hlong : 0x8000000000000000 < Nat.pow 10 Json.digitLimit := by decide +kernel
  refine ⟨n, rfl, ?_⟩
  simp only [fits, Bool.and_eq_true, decide_eq_true_eq] at h
  rw [Document.isTooLong_eq_false_iff]
  exact Nat.lt_of_le_of_lt (by omega) hlong

/-- The row stands for the block. -/
structure TableRow.KeepsBlock (row : TableRow) (b : BlockRecord) : Prop where
  height : ∃ n, row.second = .integer n ∧ b.height = .int n
  document : row.document = .text (Json.render Json.stored b.document)

/-- The row stands for the transaction, whose fields have their declared types. -/
structure TableRow.KeepsTransaction (row : TableRow) (r : TransactionRecord) : Prop where
  typed : r.Typed
  hash : ∃ s, row.first = .text s ∧ r.hash = .string s
  document : row.document = .text (Json.render Json.stored r.document)

/-- The rows of the tables stand for contents. -/
structure Database.Holds (db : Database) (c : Contents) : Prop where
  blocks : ∃ t, db.table .blocks = .ok t ∧ List.Forall₂ TableRow.KeepsBlock t.rows c.blocks
  transactions : ∃ t, db.table .transactions = .ok t ∧
    List.Forall₂ TableRow.KeepsTransaction t.rows c.transactions

theorem TableRow.KeepsTransaction.bears {row : TableRow} {r : TransactionRecord}
    (h : row.KeepsTransaction r) (hash : String) :
    (row.first == .text hash) = MemoryStore.bears hash r := by
  obtain ⟨s, hfirst, hhash⟩ := h.hash
  simp only [hfirst, MemoryStore.bears, hhash]
  by_cases hs : s = hash
  · simp [hs]
  · simp [hs]

namespace Database

/-! ### Adding rows -/

theorem table_setTable_self (db : Database) (s : Section) (t : Table) :
    (db.setTable s (some t)).table s = .ok t := by
  cases s <;> rfl

theorem table_setTable_ne (db : Database) {s s' : Section} (h : s' ≠ s) (t : Option Table) :
    (db.setTable s t).table s' = db.table s' := by
  cases s <;> cases s' <;> first | rfl | exact absurd rfl h

theorem insert_block {db : Database} {t : Table} (ht : db.table .blocks = .ok t) (hash : String)
    {height : Int} (hheight : Cell.fits height = true) (document : String) :
    insert .blocks false (.string hash) (.int height) (.string document) db =
      .ok (db.setTable .blocks (some
        ⟨t.rows ++ [⟨t.next, .text hash, .integer height, .text document⟩], t.next + 1⟩)) := by
  simp only [insert, ht, bindFrom, Cell.bind, hheight]
  rfl

theorem insert_transaction {db : Database} {t : Table} (ht : db.table .transactions = .ok t)
    (hash blockHash document : String) :
    insert .transactions false (.string hash) (.string blockHash) (.string document) db =
      .ok (db.setTable .transactions (some
        ⟨t.rows ++ [⟨t.next, .text hash, .text blockHash, .text document⟩], t.next + 1⟩)) := by
  simp only [insert, ht]
  rfl

namespace Holds

variable {db : Database} {c : Contents}

/-- The transactions held have their declared types. -/
theorem typed (h : db.Holds c) : ∀ r ∈ c.transactions, r.Typed := by
  obtain ⟨t, -, hrows⟩ := h.transactions
  intro r hr
  obtain ⟨i, hi, rfl⟩ := List.getElem_of_mem hr
  exact (hrows.get (by rw [hrows.length_eq]; exact hi) hi).typed

theorem insertBlock (h : db.Holds c) {b : BlockRecord} (hb : b.Typed) (hheight : b.HasHeight) :
    ∃ db', insert .blocks false b.hash b.height (.string (Json.render Json.stored b.document)) db =
      .ok db' ∧ db'.Holds (c.addBlock b) := by
  obtain ⟨t, ht, hrows⟩ := h.blocks
  obtain ⟨u, hu, hrest⟩ := h.transactions
  obtain ⟨s, hs⟩ := hb.hash
  obtain ⟨n, hn, hfits⟩ := hheight
  rw [hs, hn]
  refine ⟨_, insert_block ht s hfits _, ⟨_, table_setTable_self .., ?_⟩, ⟨u, ?_, hrest⟩⟩
  · exact List.rel_append hrows (.cons ⟨⟨n, rfl, hn⟩, rfl⟩ .nil)
  · rw [table_setTable_ne _ (by decide), hu]

theorem insertTransaction (h : db.Holds c) {r : TransactionRecord} (hr : r.Typed) :
    ∃ db', insert .transactions false r.hash r.blockHash
      (.string (Json.render Json.stored r.document)) db = .ok db' ∧
        db'.Holds (c.addTransactions [r]) := by
  obtain ⟨t, ht, hrows⟩ := h.transactions
  obtain ⟨u, hu, hrest⟩ := h.blocks
  obtain ⟨s, hs⟩ := hr.hash
  obtain ⟨s', hs'⟩ := hr.blockHash
  rw [hs, hs']
  refine ⟨_, insert_transaction ht s s' _, ⟨u, ?_, hrest⟩, ⟨_, table_setTable_self .., ?_⟩⟩
  · rw [table_setTable_ne _ (by decide), hu]
  · exact List.rel_append hrows (.cons ⟨hr, ⟨s, rfl, hs⟩, rfl⟩ .nil)

/-! ### Queries -/

/-- Where rows and records have a property alike, the first that have it belong together. -/
theorem find?_rel {α β : Type} {R : α → β → Prop} {p : α → Bool} {q : β → Bool} {xs : List α}
    {ys : List β} (h : List.Forall₂ R xs ys) (hpq : ∀ x y, R x y → p x = q y) :
    Option.Rel R (xs.find? p) (ys.find? q) := by
  induction h with
  | nil => exact .none
  | @cons x y xs ys hxy _ ih =>
    rw [List.find?_cons, List.find?_cons, ← hpq x y hxy]
    cases p x with
    | true => exact .some hxy
    | false => exact ih

/-- The last row of a hash stands for the transaction last written under it. -/
theorem last? (h : db.Holds c) (hash : String) :
    ∃ row, Database.last? .transactions (fun r => r.first == .text hash) db = .ok row ∧
      Option.Rel TableRow.KeepsTransaction row
        (c.transactions.findRev? (MemoryStore.bears hash)) := by
  obtain ⟨t, ht, hrows⟩ := h.transactions
  refine ⟨_, by rw [Database.last?, ht]; rfl, ?_⟩
  rw [List.findRev?_eq_find?_reverse]
  exact find?_rel (List.rel_reverse hrows) fun row r hr => hr.bears hash

theorem of_count (hblocks : count .blocks db = .ok 0)
    (htransactions : count .transactions db = .ok 0) : db.Holds ⟨[], []⟩ := by
  have hempty : ∀ s, count s db = .ok 0 → ∃ t, db.table s = .ok t ∧ t.rows = [] := by
    intro s hs
    cases ht : db.table s with
    | ok t =>
      rw [count, ht] at hs
      exact ⟨t, rfl, List.eq_nil_of_length_eq_zero (Except.ok.inj hs)⟩
    | error e =>
      rw [count, ht] at hs
      cases hs
  obtain ⟨t, ht, hrows⟩ := hempty .blocks hblocks
  obtain ⟨u, hu, hrest⟩ := hempty .transactions htransactions
  refine ⟨⟨t, ht, ?_⟩, ⟨u, hu, ?_⟩⟩
  · rw [hrows]
    exact .nil
  · rw [hrest]
    exact .nil

theorem count_blocks (h : db.Holds c) : count .blocks db = .ok c.blocks.length := by
  obtain ⟨t, ht, hrows⟩ := h.blocks
  rw [count, ht, ← hrows.length_eq]
  rfl

theorem count_transactions (h : db.Holds c) :
    count .transactions db = .ok c.transactions.length := by
  obtain ⟨t, ht, hrows⟩ := h.transactions
  rw [count, ht, ← hrows.length_eq]
  rfl

/-! ### The greatest height -/

/-- From a number on, the greatest height of blocks is the greatest cell of their rows. -/
theorem greatest_rows {rows : List TableRow} {blocks : List BlockRecord}
    (h : List.Forall₂ TableRow.KeepsBlock rows blocks) (best : Int) :
    MemoryStore.greatest (.int best) (blocks.map BlockRecord.height) =
      .ok ((rows.map TableRow.second).foldl (fun best c => if Cell.before best c then c else best)
        (Cell.integer best)).value := by
  induction h generalizing best with
  | nil => rfl
  | @cons row b rows blocks hrow _ ih =>
    obtain ⟨n, hn, hb⟩ := hrow.height
    simp only [List.map_cons, MemoryStore.greatest, hb, hn, List.foldl_cons,
      MemoryStore.above_int, Cell.before, bind, Except.bind, decide_eq_true_eq]
    by_cases hlt : best < n
    · simp only [hlt, ↓reduceIte]
      exact ih n
    · simp only [hlt, ↓reduceIte]
      exact ih best

theorem latestHeight (h : db.Holds c) {m : MemoryStore} (hm : m.blocks = c.blocks) :
    ∃ cell, Database.latestHeight db = .ok cell ∧ m.latestHeight = .ok cell.value := by
  obtain ⟨t, ht, hrows⟩ := h.blocks
  refine ⟨_, by rw [Database.latestHeight, ht]; rfl, ?_⟩
  rw [MemoryStore.latestHeight, hm]
  -- without rows both give nothing; else both start from the first height
  generalize t.rows = rows, c.blocks = blocks at hrows ⊢
  cases hrows with
  | nil => rfl
  | cons hrow hrest =>
    obtain ⟨n, hn, hb⟩ := hrow.height
    simp only [List.map_cons, hb, greatest_rows hrest n, greatestOf, hn, List.foldl_cons]
    rfl

end Holds

end Database

end BlockArchive
