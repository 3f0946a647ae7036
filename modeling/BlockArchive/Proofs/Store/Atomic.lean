import BlockArchive.Proofs.Store.Writing

/-!
# Batches that fail

A batch that cannot be written is given up as a whole: the tables are as they were, for this
connection and for any other, and rows written later are numbered as if it had never been. There is
one exception. A key that no column holds, a whole number beyond 64 bits or a text that cannot be
encoded, stops the batch without its being given up. The rows before stay in the tables as this
connection sees them, and are committed with the next write that succeeds.

* `TableStore.Pending` says which rows are left waiting;
* `TableStore.insertTransactions_failed` is about batches that fail, and
  `TableStore.insertTransactions_leaves` shows the exception.
-/

namespace BlockArchive.TableStore

/-- The store `u` is `t` with rows for records waiting at the end of the transactions, numbered on
and with the documents of the records, and nothing else of it has changed. -/
def Pending (t : TableStore) (rs : List TransactionRecord) (u : TableStore) : Prop :=
  ∃ (c : Connection) (table : Table) (rows : List TableRow),
    t.Connected c ∧ c.working.table .transactions = .ok table ∧
    rows.map TableRow.id = List.range' table.next rs.length ∧
    List.Forall₂ (fun row r => ∃ text, Document.write r.document = .ok text ∧
      row.document = .text text) rows rs ∧
    u = t.showing c (c.working.setTable .transactions
      (some ⟨table.rows ++ rows, table.next + rs.length⟩))

theorem pending_of_addRows {t : TableStore} {c : Connection} (ht : t.Connected c) {locked : Bool}
    {rs : List TransactionRecord} {ds : List Draft} {db : Database} {table : Table}
    (htable : c.working.table .transactions = .ok table)
    (hds : List.Forall₂ Drafts rs ds)
    (hadd : Database.addRows .transactions locked ds c.working = (.ok (), db)) :
    t.Pending rs (t.showing c db) := by
  obtain ⟨rows, hids, hfills, rfl⟩ := Database.addRows_ok hadd htable
  have hrows : List.Forall₂ (fun row r => ∃ text, Document.write r.document = .ok text ∧
      row.document = .text text) rows rs := by
    -- row by row, the text in the row is that of the draft, which is that of the record
    clear hids hadd
    induction hds generalizing rows with
    | nil =>
      cases hfills
      exact .nil
    | @cons r x rs ds hx _ ih =>
      cases hfills with
      | @cons _ row _ rows hrow hrest =>
        exact .cons ⟨x.document, hx.document, hrow.document⟩ (ih rows hrest)
  rw [← hds.length_eq] at hids ⊢
  exact ⟨c, table, rows, ht, htable, hids, hrows, rfl⟩

/-- **A batch that fails is given up as a whole, unless no column holds one of its keys.** That is a
whole number beyond 64 bits, or a text that cannot be encoded. Then the rows of the records before
the first such key are left waiting, and nothing else changes. Otherwise the store is left as it is
once its connection is made, which sees what would have been seen before, and is the store itself if
the connection was there. -/
theorem insertTransactions_failed {t : TableStore} (ht : t.Settled) {rs : List TransactionRecord}
    {rows : List Row} {f : Fault}
    (hfail : ((Store.insertTransactions rs : Act TableStore Unit).runAt ⟨t, rows⟩).1 = .error f) :
    let u := (connect.runAt ⟨t, rows⟩).2.state
    let v := ((Store.insertTransactions rs : Act TableStore Unit).runAt ⟨t, rows⟩).2.state
    (u.seen = t.seen ∧ ∀ c, t.connection = some c → u = t) ∧
      (f.isMisfit = false → v = u) ∧
      (f.isMisfit = true → ∃ before r after, rs = before ++ r :: after ∧
        (r.hash.Misfits f ∨ r.blockHash.Misfits f) ∧ u.Pending before v) := by
  obtain ⟨hsettled, hseen, hsame⟩ := connect_settled ht rows
  refine ⟨⟨hseen, hsame⟩, ?_⟩
  cases rs with
  | nil => cases hfail
  | cons r rest =>
    have hwrites := insertTransactions_writes r rest ⟨t, rows⟩
    generalize (Store.insertTransactions (r :: rest) : Act TableStore Unit).runAt ⟨t, rows⟩ = run
      at hwrites hfail
    obtain ⟨outcome, ⟨v, rows'⟩⟩ := run
    obtain rfl : outcome = .error f := hfail
    cases hwrites with
    | unreachable hconnect h =>
      obtain ⟨hf, hv⟩ := Prod.mk.inj h
      obtain rfl := Except.error.inj hf
      rw [hconnect, ← hv]
      exact ⟨fun _ => rfl, nofun⟩
    | unwritten hconnect hdrafts h =>
      obtain ⟨hf, hv⟩ := Prod.mk.inj h
      obtain rfl := Except.error.inj hf
      rw [hconnect, ← hv]
      exact ⟨fun _ => rfl, nofun⟩
    | @ended c d' ds hconnect hdrafts hrows hends =>
      rw [hconnect] at hsettled ⊢
      obtain ⟨u, rows''⟩ := d'
      dsimp only at hends hsettled ⊢
      cases hends with
      | closed => exact ⟨fun _ => rfl, nofun⟩
      | undone hu => exact ⟨fun _ => hu.showing_committed hsettled, nofun⟩
      | left hu hf hadd =>
        refine ⟨fun h => absurd hf (by simp [h]), fun _ => ?_⟩
        obtain ⟨x, rfl⟩ | ⟨before, x, after, rfl, hbefore, hmisfits⟩ := Database.addRows_fault hadd
        · cases hf
        obtain ⟨table, htable⟩ := Database.table_of_addRows_misfit hf hadd
        -- the batch splits where the drafts do
        obtain ⟨ws, q, zs, hsplit, hws, hq⟩ := forall₂_split (forall₂_of_transactionDrafts hdrafts)
        refine ⟨ws, q, zs, hsplit, ?_, pending_of_addRows hu htable hws hbefore⟩
        rwa [← hq.first, ← hq.second]

/-! ### A hash beyond 64 bits -/

/-- A record of a transaction without inputs and outputs under a hash. -/
def bare (hash : Value) : TransactionRecord := ⟨hash, .string "block", .int 1, .int 0, [], []⟩

/-- A hash that is a number beyond 64 bits. -/
def hugeHash : Value := .int 0x8000000000000000

/-- A batch of two records, the second under a hash that no column holds: the first is left
waiting. -/
theorem insertTransactions_failed_bare :
    let t : TableStore := { location := .memory }
    let batch := [bare (.string "a"), bare hugeHash]
    (t.Settled ∧ ((Store.insertTransactions batch : Act TableStore Unit).runAt ⟨t, []⟩).1 =
        .error .columnOverflow) ∧
      ∃ before r after, batch = before ++ r :: after ∧
        (r.hash.Misfits .columnOverflow ∨ r.blockHash.Misfits .columnOverflow) ∧
        (connect.runAt ⟨t, []⟩).2.state.Pending before
          ((Store.insertTransactions batch : Act TableStore Unit).runAt ⟨t, []⟩).2.state := by
  intro t batch
  have ht : t.Settled := by rintro _ ⟨⟩
  have hfail : ((Store.insertTransactions batch : Act TableStore Unit).runAt ⟨t, []⟩).1 =
      .error .columnOverflow := eq_of_isOverflow (by decide +kernel)
  exact ⟨⟨ht, hfail⟩, (insertTransactions_failed ht hfail).2.2 rfl⟩

/-- **A batch that fails can leave rows behind.** Its second hash is a number beyond 64 bits: the
batch fails, and the first record is counted all the same. Writing another batch commits it as well,
and the record written has the second number. -/
theorem insertTransactions_leaves :
    let failed := (Store.insertTransactions [bare (.string "a"), bare hugeHash] :
      Act TableStore Unit).runAt ⟨{ location := .memory }, []⟩
    let later := (Store.insertTransactions [bare (.string "b")] :
      Act TableStore Unit).runAt failed.2
    failed.1 = .error .columnOverflow ∧ (transactionCount.runAt failed.2).1.toOption = some 1 ∧
      later.1.isOk = true ∧
      later.2.state.connection.map (fun c => c.committed.transactions.map fun table =>
        table.rows.map fun row => (row.id, row.first)) =
          some (some [(1, .text "a"), (2, .text "b")]) :=
  ⟨eq_of_isOverflow (by decide +kernel), by decide +kernel, by decide +kernel, by decide +kernel⟩

end BlockArchive.TableStore
