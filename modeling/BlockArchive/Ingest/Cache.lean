import BlockArchive.Keyed
import BlockArchive.Record.Basic

/-!
# The cache of a block's outputs

While a block is taken in, the outputs of its transactions are kept at hand, so that later
transactions of the same block find them without asking the store. The cache lives as long as the
work on the block.

* `Cache.put` enters a payment under a key, in place of an earlier one;
* `Cache.get?` looks a key up, `Cache.size` counts the keys;
* `Cache.get?_put` says that a key is found with what was put last under it.
-/

namespace BlockArchive

/-- Payments under the keys of their outputs; each key stands once. -/
structure Cache where
  /-- The entries in the order in which their keys were first entered. -/
  entries : List (OutputKey × Payment)

namespace Cache

/-- The cache without entries. -/
def empty : Cache := ⟨[]⟩

/-- Enters a payment. -/
def put (c : Cache) (key : OutputKey) (payment : Payment) : Cache :=
  ⟨Keyed.put key payment c.entries⟩

/-- The payment under a key. -/
def get? (c : Cache) (key : OutputKey) : Option Payment := Keyed.get? key c.entries

/-- There is a payment under the key. -/
def contains (c : Cache) (key : OutputKey) : Bool := c.entries.any fun e => e.1 = key

/-- The number of keys. -/
def size (c : Cache) : Nat := c.entries.length

/-- The text that shows a cache. -/
def text (c : Cache) : String := "OutputCache(entries=" ++ Text.ofInt c.size ++ ")"

/-! ### Look-ups -/

@[simp] theorem get?_empty (key : OutputKey) : empty.get? key = none := rfl

@[simp] theorem get?_put (c : Cache) (key key' : OutputKey) (payment : Payment) :
    (c.put key payment).get? key' = if key = key' then some payment else c.get? key' :=
  Keyed.get?_put key key' payment c.entries

theorem contains_eq_isSome (c : Cache) (key : OutputKey) :
    c.contains key = (c.get? key).isSome := by
  simp only [contains, get?, Keyed.get?, Option.isSome_map, List.isSome_find?]

end Cache

end BlockArchive
