import BlockArchive.Store.Memory
import Mathlib.Data.List.Induction

/-!
# What the store in memory does

Its look-ups and its writes in closed form. A look-up reads the index, which has under each hash the
transaction last written, and leaves everything as it was but the number of look-ups; a block and
its batch are written at the end.

* `MemoryStore.get?_indexOf` is about the index, and `MemoryStore.lookup?_eq` about look-ups;
* `MemoryStore.ask` and `MemoryStore.write` are the two ways in which a store changes;
* `MemoryStore.lookup?_write` says what a look-up finds behind a write.
-/

namespace BlockArchive.MemoryStore

/-! ### The index -/

/-- The record bears a hash. -/
def bears (hash : String) (r : TransactionRecord) : Bool :=
  match r.hash with
  | .string s => s == hash
  | _ => false

theorem bears_iff {hash : String} {r : TransactionRecord} :
    bears hash r = true ↔ r.hash = .string hash := by
  unfold bears
  split <;> simp_all

theorem get?_enter (hash : String) (index : List (String × TransactionRecord))
    (r : TransactionRecord) :
    Keyed.get? hash (enter index r) = if bears hash r then some r else Keyed.get? hash index := by
  unfold enter bears
  cases r.hash with
  | string s => simp only [Keyed.get?_put, beq_iff_eq]
  | _ => rfl

/-- **The index has under each hash the last transaction that bears it.** -/
theorem get?_indexOf (hash : String) (rs : List TransactionRecord) :
    Keyed.get? hash (indexOf rs) = rs.findRev? (bears hash) := by
  rw [List.findRev?_eq_find?_reverse]
  induction rs using List.reverseRecOn with
  | nil => rfl
  | append_singleton rs r ih =>
    have hlast : indexOf (rs ++ [r]) = enter (indexOf rs) r := by simp [indexOf]
    rw [hlast, get?_enter, ih, List.reverse_concat, List.find?_cons]
    cases bears hash r <;> rfl

theorem lookup?_eq (m : MemoryStore) (hash : String) :
    m.lookup? hash = (m.transactions.findRev? (bears hash)).map StoredTransaction.ofRecord := by
  rw [lookup?, m.indexed, get?_indexOf]

theorem exists_of_lookup? {m : MemoryStore} {hash : String} {t : StoredTransaction}
    (h : m.lookup? hash = some t) :
    ∃ r ∈ m.transactions, bears hash r = true ∧ t = .ofRecord r := by
  rw [lookup?_eq, List.findRev?_eq_find?_reverse] at h
  obtain ⟨r, hr, rfl⟩ := Option.map_eq_some_iff.1 h
  exact ⟨r, List.mem_reverse.1 (List.mem_of_find?_eq_some hr), List.find?_some hr, rfl⟩

/-! ### Asking and writing -/

/-- The store after it was asked some more times. -/
def ask (m : MemoryStore) (n : Nat) : MemoryStore := { m with lookups := m.lookups + n }

@[simp] theorem ask_zero (m : MemoryStore) : m.ask 0 = m := rfl

@[simp] theorem ask_ask (m : MemoryStore) (i j : Nat) : (m.ask i).ask j = m.ask (i + j) := by
  simp [ask, Nat.add_assoc]

@[simp] theorem lookup?_ask (m : MemoryStore) (n : Nat) : (m.ask n).lookup? = m.lookup? := rfl

@[simp] theorem find_runAt (hash : String) (d : Desk MemoryStore) :
    (Store.find hash : Act MemoryStore _).runAt d =
      (.ok (d.state.lookup? hash), ⟨d.state.ask 1, d.rows⟩) := by
  simp only [Store.find, Act.runAt_bind, Act.runAt_update, Act.runAt_state]
  rfl

/-- A store that only holds transactions. -/
def holding (rs : List TransactionRecord) : MemoryStore := { transactions := rs }

theorem index_holding (rs : List TransactionRecord) : (holding rs).index = indexOf rs := rfl

/-- The store with other transactions, and their index. -/
def withTransactions (m : MemoryStore) (rs : List TransactionRecord) : MemoryStore :=
  { m with transactions := rs, index := (holding rs).index, indexed := (holding rs).indexed }

@[simp] theorem withTransactions_self (m : MemoryStore) :
    m.withTransactions m.transactions = m := by
  simp only [withTransactions, index_holding, ← m.indexed]

theorem add_eq (m : MemoryStore) (r : TransactionRecord) :
    m.add r = m.withTransactions (m.transactions ++ [r]) := by
  have hindex : enter m.index r = indexOf (m.transactions ++ [r]) := by
    simp [m.indexed, indexOf]
  simp only [add, withTransactions, index_holding, hindex]

/-- The store with a block and its transactions written. -/
def write (m : MemoryStore) (b : BlockRecord) (ts : List TransactionRecord) : MemoryStore :=
  { m.withTransactions (m.transactions ++ ts) with
    blocks := m.blocks ++ [b]
    batches := m.batches + if ts.isEmpty then 0 else 1 }

theorem append_runAt (rs : List TransactionRecord) (h : ∀ r ∈ rs, ∃ s, r.hash = .string s)
    (m : MemoryStore) (rows : List Row) :
    (append rs).runAt ⟨m, rows⟩ = (.ok (), ⟨m.withTransactions (m.transactions ++ rs), rows⟩) := by
  induction rs generalizing m with
  | nil => simp [append]
  | cons r rest ih =>
    obtain ⟨s, hs⟩ := h r List.mem_cons_self
    have hrest := ih (fun r hr => h r (List.mem_cons_of_mem _ hr)) (m.add r)
    simp only [append, Act.runAt_bind, Act.runAt_update, hs, unhashable?, hrest]
    simp only [add_eq, withTransactions, List.append_assoc, List.singleton_append]

theorem insertTransactions_runAt (rs : List TransactionRecord)
    (h : ∀ r ∈ rs, ∃ s, r.hash = .string s) (m : MemoryStore) (rows : List Row) :
    (Store.insertTransactions rs : Act MemoryStore Unit).runAt ⟨m, rows⟩ =
      (.ok (), ⟨{ m.withTransactions (m.transactions ++ rs) with
        batches := m.batches + 1 }, rows⟩) := by
  simp [Store.insertTransactions, append_runAt rs h, withTransactions]

/-- What a look-up finds after a block was written. -/
theorem lookup?_write (m : MemoryStore) (r : BlockRecord) (rs : List TransactionRecord)
    (hash : String) :
    (m.write r rs).lookup? hash =
      ((rs.findRev? (bears hash)).map StoredTransaction.ofRecord).or (m.lookup? hash) := by
  simp [lookup?_eq, write, withTransactions, Option.map_or]

theorem above_int (m n : Int) : above (.int n) (.int m) = .ok (decide (m < n)) := by
  simp only [above, Quantity.less, Quantity.compare?]
  congr 1
  rw [Bool.eq_iff_iff, decide_eq_true_iff, beq_iff_eq, Option.some.injEq, Int.compare_eq_lt]

end BlockArchive.MemoryStore
