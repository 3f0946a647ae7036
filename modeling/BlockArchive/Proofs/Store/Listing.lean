import BlockArchive.Proofs.Store.Writing
import Mathlib.Data.List.Forall2

/-!
# Tables as numbered lists

A table to which rows are only added is a list: its rows are numbered from one on without gaps,
stand in the order in which they were added, and hold their keys in the columns as they were given.
A row whose keys the columns do not take is not added, and neither is any other of its batch.

* `Affinity.Takes` says what a column takes as it is, `Value.Refused` what no column takes;
* `Draft.Makes` relates what a row is to be made of to the row, `Database.addRows_complete` and
  `Database.addRows_refused` say what becomes of a batch;
* `Table.Lists` is a table as a list of records, and `Database.Lists` are both tables;
* `Database.Lists.last?_block`, `Database.Lists.last?_transaction`, `Database.Lists.latestHeight`
  and `Database.Lists.dump`: what is asked of the tables is read off the lists.
-/

namespace BlockArchive

/-! ### Keys -/

/-- A column of an affinity takes a value as it is: a text column texts, an integer column the whole
numbers for which it has room. -/
inductive Affinity.Takes : Affinity → Value → Cell → Prop
  /-- A text. -/
  | text (s : String) : Takes .text (.string s) (.text s)
  /-- A whole number. -/
  | integer {n : Int} (room : Cell.fits n = true) : Takes .integer (.int n) (.integer n)

/-- No column takes the value as a key: nothing, lists and mappings. -/
inductive Value.Refused : Value → Prop
  /-- Nothing. -/
  | null : Refused .null
  /-- A list. -/
  | list (xs : List Value) : Refused (.list xs)
  /-- A mapping. -/
  | mapping (fields : List (String × Value)) : Refused (.mapping fields)

/-- The value is taken by a column of the affinity, or by none. -/
def Affinity.Decides (a : Affinity) (v : Value) : Prop := (∃ c, a.Takes v c) ∨ v.Refused

theorem Affinity.exists_takes_text {v : Value} : (∃ c, Affinity.text.Takes v c) ↔ v.IsText := by
  constructor
  · rintro ⟨_, ⟨s⟩⟩
    exact ⟨s, rfl⟩
  · rintro ⟨s, rfl⟩
    exact ⟨_, .text s⟩

theorem Affinity.exists_takes_integer {v : Value} :
    (∃ c, Affinity.integer.Takes v c) ↔ ∃ n, v = .int n ∧ Cell.fits n = true := by
  constructor
  · rintro ⟨_, h⟩
    cases h with
    | integer room => exact ⟨_, rfl, room⟩
  · rintro ⟨n, rfl, room⟩
    exact ⟨_, .integer room⟩

theorem Affinity.Takes.value {a : Affinity} {v : Value} {c : Cell} (h : a.Takes v c) :
    c.value = v := by
  cases h <;> rfl

theorem Affinity.Takes.bind {a : Affinity} {v : Value} {c : Cell} (h : a.Takes v c)
    (position : Nat) : Cell.bind position v = .ok c := by
  cases h with
  | text s => rfl
  | integer room => rw [Cell.bind, room, if_pos rfl]

theorem Value.Refused.bind {v : Value} (h : v.Refused) (position : Nat) :
    Cell.bind position v = .ok .null ∨ ∃ x, Cell.bind position v = .error (.database x) := by
  cases h with
  | null => exact .inl rfl
  | list | mapping => exact .inr ⟨_, rfl⟩

/-! ### Rows -/

/-- The columns of the section take both keys. -/
def Draft.Complete (s : Section) (r : Draft) : Prop :=
  (∃ a, Affinity.text.Takes r.first a) ∧ ∃ b, s.secondAffinity.Takes r.second b

/-- Each key is taken by its column or by none. -/
def Draft.Decided (s : Section) (r : Draft) : Prop :=
  Affinity.text.Decides r.first ∧ s.secondAffinity.Decides r.second

/-- The row holds the keys of the draft as they are, and the text of its document. -/
structure Draft.Makes (s : Section) (r : Draft) (row : TableRow) : Prop where
  first : Affinity.text.Takes r.first row.first
  second : s.secondAffinity.Takes r.second row.second
  document : row.document = .text r.document

theorem Draft.Decided.refused {s : Section} {r : Draft} (h : r.Decided s) (hr : ¬ r.Complete s) :
    r.first.Refused ∨ (∃ a, Affinity.text.Takes r.first a) ∧ r.second.Refused := by
  obtain ⟨ha | ha, hb | hb⟩ := h
  · exact absurd ⟨ha, hb⟩ hr
  · exact .inr ⟨ha, hb⟩
  · exact .inl ha
  · exact .inl ha

namespace Database

variable {s : Section} {db : Database} {t : Table} {rs : List Draft}

theorem insert_complete (ht : db.table s = .ok t) {r : Draft} (hr : r.Complete s) :
    ∃ row : TableRow, row.id = t.next ∧ r.Makes s row ∧
      insert s false r.first r.second (.string r.document) db =
        .ok (db.setTable s (some ⟨t.rows ++ [row], t.next + 1⟩)) := by
  obtain ⟨⟨a, ha⟩, ⟨b, hb⟩⟩ := hr
  refine ⟨⟨t.next, a, b, .text r.document⟩, rfl, ⟨ha, hb, rfl⟩, ?_⟩
  generalize r.first = first at ha ⊢
  generalize r.second = second at hb ⊢
  cases ha with
  | text hash =>
    cases s with
    | blocks =>
      cases hb with
      | integer room => exact insert_block ht hash room r.document
    | transactions =>
      cases hb with
      | text blockHash => exact insert_transaction ht hash blockHash r.document

theorem adapt_null (s : Section) (a : Cell) (b : Cell) (h : a = .null ∨ b = .null) (text : String) :
    ∃ x, adapt s.name s.columns [a, b, .text text] = .error (.database x) := by
  obtain hadapt | htrouble := adapt_cases s a b text
  · -- both columns were looked at, and neither cell was found empty
    exfalso
    obtain rfl | rfl := h
    · cases s <;> cases hadapt
    · cases s
      all_goals
        simp only [Section.columns, adapt] at hadapt
        split at hadapt
        · cases hadapt
        · cases hadapt
  · exact htrouble

theorem insert_refused (ht : db.table s = .ok t) {r : Draft} (hr : r.Decided s)
    (hkeys : ¬ r.Complete s) :
    ∃ x, insert s false r.first r.second (.string r.document) db = .error (.database x) := by
  have hbound : ∀ a b, Cell.bind 1 r.first = .ok a → Cell.bind 2 r.second = .ok b →
      (a = .null ∨ b = .null) →
      ∃ x, insert s false r.first r.second (.string r.document) db = .error (.database x) := by
    intro a b ha hb hnull
    obtain ⟨x, hx⟩ := adapt_null s a b hnull r.document
    refine ⟨x, ?_⟩
    simp only [insert, ht, bindFrom, ha, hb]
    simp only [bind, Except.bind, Cell.bind, pure, Except.pure, Bool.false_eq_true, ↓reduceIte, hx]
  have hfirst : ∀ x, Cell.bind 1 r.first = .error (.database x) →
      insert s false r.first r.second (.string r.document) db = .error (.database x) := by
    intro x hx
    simp only [insert, ht, bindFrom, hx]
    rfl
  have hsecond : ∀ a x, Cell.bind 1 r.first = .ok a → Cell.bind 2 r.second = .error (.database x) →
      insert s false r.first r.second (.string r.document) db = .error (.database x) := by
    intro a x ha hx
    simp only [insert, ht, bindFrom, ha, hx]
    rfl
  -- the second key is only looked at where the first was bound
  obtain hrefused | ⟨⟨a, ha⟩, hrefused⟩ := hr.refused hkeys
  · obtain hnull | ⟨x, hx⟩ := hrefused.bind 1
    · obtain ⟨b, hb⟩ | hb := hr.2
      · exact hbound _ b hnull (hb.bind 2) (.inl rfl)
      · obtain hb | ⟨x, hx⟩ := hb.bind 2
        · exact hbound _ _ hnull hb (.inl rfl)
        · exact ⟨x, hsecond _ x hnull hx⟩
    · exact ⟨x, hfirst x hx⟩
  · obtain hnull | ⟨x, hx⟩ := hrefused.bind 2
    · exact hbound a _ (ha.bind 1) hnull (.inr rfl)
    · exact ⟨x, hsecond a x (ha.bind 1) hx⟩

/-- A batch of rows whose keys are all taken is added, numbered on and in order. -/
theorem addRows_complete (ht : db.table s = .ok t) (hrs : ∀ r ∈ rs, r.Complete s) :
    ∃ rows : List TableRow, rows.map TableRow.id = List.range' t.next rs.length ∧
      List.Forall₂ (Draft.Makes s) rs rows ∧
      addRows s false rs db =
        (.ok (), db.setTable s (some ⟨t.rows ++ rows, t.next + rs.length⟩)) := by
  induction rs generalizing db t with
  | nil => exact ⟨[], rfl, .nil, by simp [addRows, setTable_self ht]⟩
  | cons r rest ih =>
    obtain ⟨hr, hrest⟩ := List.forall_mem_cons.1 hrs
    obtain ⟨row, hid, hmakes, hinsert⟩ := insert_complete ht hr
    obtain ⟨rows, hids, hrows, hadd⟩ :=
      ih (table_setTable_self db s ⟨t.rows ++ [row], t.next + 1⟩) hrest
    refine ⟨row :: rows, ?_, .cons hmakes hrows, ?_⟩
    · rw [List.map_cons, hid, hids, List.length_cons, List.range'_succ]
    · rw [addRows, hinsert]
      dsimp only
      rw [hadd, setTable_setTable, List.append_assoc, List.singleton_append, List.length_cons,
        Nat.add_right_comm, Nat.add_assoc]

/-- A batch with a key that no column takes ends in trouble. -/
theorem addRows_refused (ht : db.table s = .ok t) (hrs : ∀ r ∈ rs, r.Decided s)
    (hkeys : ¬ ∀ r ∈ rs, r.Complete s) :
    ∃ x db', addRows s false rs db = (.error (.database x), db') := by
  induction rs generalizing db t with
  | nil => exact absurd nofun hkeys
  | cons r rest ih =>
    obtain ⟨hr, hrest⟩ := List.forall_mem_cons.1 hrs
    by_cases hcomplete : r.Complete s
    · obtain ⟨row, -, -, hinsert⟩ := insert_complete ht hcomplete
      rw [addRows, hinsert]
      exact ih (table_setTable_self db s _) hrest
        fun hall => hkeys (List.forall_mem_cons.2 ⟨hcomplete, hall⟩)
    · obtain ⟨x, hx⟩ := insert_refused ht hr hcomplete
      exact ⟨x, db, by rw [addRows, hx]⟩

end Database

/-! ### Tables -/

/-- The table is the list of the records, each in the row that is made of its draft. -/
structure Table.Lists {α : Type} (s : Section) (draft : α → Draft) (t : Table) (xs : List α) :
    Prop where
  next : t.next = xs.length + 1
  ids : t.rows.map TableRow.id = List.range' 1 xs.length
  rows : List.Forall₂ (fun x row => (draft x).Makes s row) xs t.rows

/-- The rows of records with their numbers, keys and documents. -/
def numbered {α : Type} (draft : α → Draft) (xs : List α) : Value :=
  .list ((xs.zipIdx 1).map fun x =>
    .list [.nat x.2, (draft x.1).first, (draft x.1).second, .string (draft x.1).document])

namespace Table.Lists

variable {α : Type} {s : Section} {draft : α → Draft} {t : Table} {xs : List α}

theorem nil : Table.Lists s draft {} [] := ⟨rfl, rfl, .nil⟩

/-- Rows that are numbered on and made of the drafts of further records go on with the list. -/
theorem append (h : t.Lists s draft xs) (ys : List α) {rows : List TableRow}
    (hids : rows.map TableRow.id = List.range' t.next (ys.map draft).length)
    (hrows : List.Forall₂ (Draft.Makes s) (ys.map draft) rows) :
    Table.Lists s draft ⟨t.rows ++ rows, t.next + (ys.map draft).length⟩ (xs ++ ys) := by
  rw [List.length_map] at hids ⊢
  refine ⟨?_, ?_, List.rel_append h.rows (List.forall₂_map_left_iff.1 hrows)⟩
  · rw [h.next, List.length_append, Nat.add_right_comm]
  · rw [List.map_append, h.ids, hids, h.next, List.length_append, Nat.add_comm xs.length 1,
      List.range'_append_1]

theorem rowValues_from {rows : List TableRow}
    (hrows : List.Forall₂ (fun x row => (draft x).Makes s row) xs rows) {start : Nat}
    (hids : rows.map TableRow.id = List.range' start xs.length) :
    rows.map Database.rowValue = (xs.zipIdx start).map fun x =>
      .list [.nat x.2, (draft x.1).first, (draft x.1).second, .string (draft x.1).document] := by
  induction hrows generalizing start with
  | nil => rfl
  | @cons x row xs rows hrow _ ih =>
    rw [List.map_cons, List.length_cons, List.range'_succ] at hids
    obtain ⟨hid, hids⟩ := List.cons.inj hids
    rw [List.map_cons, List.zipIdx_cons, List.map_cons, ih hids, Database.rowValue, hid,
      hrow.first.value, hrow.second.value, hrow.document]
    rfl

theorem rowValues (h : t.Lists s draft xs) :
    Value.list (t.rows.map Database.rowValue) = numbered draft xs :=
  congrArg Value.list (rowValues_from h.rows h.ids)

end Table.Lists

/-! ### Both tables -/

/-- What the row of a block is made of. -/
def BlockRecord.draft (b : BlockRecord) : Draft :=
  ⟨b.hash, b.height, Json.render Json.stored b.document⟩

/-- What the row of a transaction is made of. -/
def TransactionRecord.draft (r : TransactionRecord) : Draft :=
  ⟨r.hash, r.blockHash, Json.render Json.stored r.document⟩

/-- The height, if it is a whole number. -/
def BlockRecord.height? (b : BlockRecord) : Option Int :=
  match b.height with
  | .int n => some n
  | _ => none

/-- The heights of blocks. -/
def heights (blocks : List BlockRecord) : List Int := blocks.filterMap BlockRecord.height?

/-- The tables list what was kept, and the documents can be read back. -/
structure Database.Lists (db : Database) (k : Contents) : Prop where
  blocks : ∃ t, db.table .blocks = .ok t ∧ t.Lists .blocks BlockRecord.draft k.blocks
  transactions : ∃ t, db.table .transactions = .ok t ∧
    t.Lists .transactions TransactionRecord.draft k.transactions
  blockData : ∀ b ∈ k.blocks, b.document.IsData
  transactionData : ∀ r ∈ k.transactions, r.document.IsData

namespace Database.Lists

variable {db : Database} {k : Contents}

theorem height_of_makes {b : BlockRecord} {row : TableRow} (h : b.draft.Makes .blocks row) :
    ∃ n, b.height? = some n ∧ row.second = .integer n ∧ Cell.fits n = true := by
  have hsecond := h.second
  generalize row.second = cell at hsecond ⊢
  generalize hheight : b.draft.second = v at hsecond
  cases hsecond with
  | @integer n room =>
    exact ⟨n, by rw [BlockRecord.height?, show b.height = .int n from hheight], rfl, room⟩

theorem fits_height (h : db.Lists k) {b : BlockRecord} (hb : b ∈ k.blocks) :
    ∃ n, b.height? = some n ∧ Cell.fits n = true := by
  obtain ⟨t, -, hlists⟩ := h.blocks
  obtain ⟨i, hi, rfl⟩ := List.getElem_of_mem hb
  have hrow := hlists.rows.get hi (by rw [← hlists.rows.length_eq]; exact hi)
  obtain ⟨n, hheight, -, room⟩ := height_of_makes hrow
  exact ⟨n, hheight, room⟩

theorem bears_of_makes {r : TransactionRecord} {row : TableRow}
    (h : r.draft.Makes .transactions row) (hash : String) :
    (row.first == .text hash) = MemoryStore.bears hash r := by
  have hfirst := h.first
  generalize row.first = cell at hfirst ⊢
  generalize hhash : r.draft.first = v at hfirst
  cases hfirst with
  | text s =>
    rw [MemoryStore.bears, show r.hash = .string s from hhash]
    by_cases hs : s = hash
    · simp [hs]
    · simp [hs]

/-- The last row with a height belongs to the last block of that height. -/
theorem last?_block (h : db.Lists k) (n : Int) :
    ∃ row, Database.last? .blocks (fun r => TableStore.cellEquals n r.second) db = .ok row ∧
      Option.Rel (fun b row => b.draft.Makes .blocks row)
        (k.blocks.findRev? (·.height? == some n)) row := by
  obtain ⟨t, ht, hlists⟩ := h.blocks
  refine ⟨_, by rw [Database.last?, ht]; rfl, ?_⟩
  rw [List.findRev?_eq_find?_reverse]
  refine Holds.find?_rel (List.rel_reverse hlists.rows) fun b row hrow => ?_
  obtain ⟨m, hheight, hcell, -⟩ := height_of_makes hrow
  rw [hheight, hcell, TableStore.cellEquals]
  rfl

/-- The last row with a hash belongs to the transaction last written under it. -/
theorem last?_transaction (h : db.Lists k) (hash : String) :
    ∃ row, Database.last? .transactions (fun r => r.first == .text hash) db = .ok row ∧
      Option.Rel (fun r row => r.draft.Makes .transactions row)
        (k.transactions.findRev? (MemoryStore.bears hash)) row := by
  obtain ⟨t, ht, hlists⟩ := h.transactions
  refine ⟨_, by rw [Database.last?, ht]; rfl, ?_⟩
  rw [List.findRev?_eq_find?_reverse]
  exact Holds.find?_rel (List.rel_reverse hlists.rows) fun r row hrow =>
    (bears_of_makes hrow hash).symm

theorem count_blocks (h : db.Lists k) : count .blocks db = .ok k.blocks.length := by
  obtain ⟨t, ht, hlists⟩ := h.blocks
  rw [count, ht, hlists.rows.length_eq]
  rfl

theorem count_transactions (h : db.Lists k) :
    count .transactions db = .ok k.transactions.length := by
  obtain ⟨t, ht, hlists⟩ := h.transactions
  rw [count, ht, hlists.rows.length_eq]
  rfl

theorem cells_of_makes {blocks : List BlockRecord} {rows : List TableRow}
    (h : List.Forall₂ (fun b row => b.draft.Makes .blocks row) blocks rows) :
    rows.map TableRow.second = (heights blocks).map Cell.integer := by
  induction h with
  | nil => rfl
  | @cons b row blocks rows hrow _ ih =>
    obtain ⟨n, hheight, hcell, -⟩ := height_of_makes hrow
    rw [heights, List.filterMap_cons, hheight, List.map_cons, List.map_cons, hcell, ih]
    rfl

/-- From a whole number on, the greatest of cells with whole numbers is the greatest of these. -/
theorem foldl_integer (best : Int) (ns : List Int) :
    (ns.map Cell.integer).foldl (fun best c => if best.before c then c else best)
      (Cell.integer best) = .integer (ns.foldl max best) := by
  induction ns generalizing best with
  | nil => rfl
  | cons n ns ih =>
    rw [List.map_cons, List.foldl_cons, List.foldl_cons]
    by_cases hlt : best < n
    · rw [Cell.before, decide_eq_true hlt, if_pos rfl, ih, Int.max_eq_right (Int.le_of_lt hlt)]
    · rw [Cell.before, decide_eq_false hlt, if_neg Bool.false_ne_true, ih,
        Int.max_eq_left (Int.not_lt.1 hlt)]

theorem greatestOf_integers (ns : List Int) :
    greatestOf (ns.map Cell.integer) = ns.max?.elim .null .integer := by
  cases ns with
  | nil => rfl
  | cons n ns =>
    rw [List.max?_cons', Option.elim_some, ← foldl_integer]
    rfl

/-- The greatest height is the greatest of the blocks. -/
theorem latestHeight (h : db.Lists k) :
    Database.latestHeight db = .ok ((heights k.blocks).max?.elim .null .integer) := by
  obtain ⟨t, ht, hlists⟩ := h.blocks
  rw [← greatestOf_integers, ← cells_of_makes hlists.rows, Database.latestHeight, ht]
  rfl

/-- All rows are the records with their numbers. -/
theorem dump (h : db.Lists k) :
    Database.dump db = .ok (.mapping [("blocks", numbered BlockRecord.draft k.blocks),
      ("transactions", numbered TransactionRecord.draft k.transactions)]) := by
  obtain ⟨t, ht, hlists⟩ := h.blocks
  obtain ⟨u, hu, hrest⟩ := h.transactions
  rw [← hlists.rowValues, ← hrest.rowValues, Database.dump, ht, hu]
  rfl

end Database.Lists

end BlockArchive
