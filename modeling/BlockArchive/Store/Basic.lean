import BlockArchive.Act
import BlockArchive.Record.Basic

/-!
# Stores

A store keeps the records of blocks and transactions in the order in which they are written and
finds the transaction last written under a hash.

* `Store` is what the pipeline asks of a store.
-/

namespace BlockArchive

/-- What is asked of a store with states in `σ`. -/
class Store (σ : Type) where
  /-- Checks that the store can be reached. -/
  probe : Act σ Unit
  /-- Writes a block. -/
  insertBlock : BlockRecord → Act σ Unit
  /-- Writes a batch of transactions. -/
  insertTransactions : List TransactionRecord → Act σ Unit
  /-- The transaction last written under a hash. -/
  find : String → Act σ (Option StoredTransaction)

end BlockArchive
