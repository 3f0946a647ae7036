/-!
# Entries under keys

Entries in the order in which their keys were first put in, each key standing once: what is put
under a key takes the place of what was there.

* `Keyed.put` puts something under a key, `Keyed.get?` looks a key up;
* `Keyed.get?_put` says that a key is found with what was put last under it.
-/

namespace BlockArchive.Keyed

variable {κ α : Type} [DecidableEq κ]

/-- The entries with something put under a key: in place of its entry, or at the end. -/
def put (key : κ) (x : α) : List (κ × α) → List (κ × α)
  | [] => [(key, x)]
  | e :: rest => if e.1 = key then (key, x) :: rest else e :: put key x rest

/-- What stands under a key. -/
def get? (key : κ) (entries : List (κ × α)) : Option α :=
  (entries.find? fun e => e.1 = key).map (·.2)

theorem find?_put (key key' : κ) (x : α) (entries : List (κ × α)) :
    (put key x entries).find? (fun e => e.1 = key') =
      if key = key' then some (key, x) else entries.find? fun e => e.1 = key' := by
  induction entries with
  | nil => by_cases h : key = key' <;> simp [put, h]
  | cons e rest ih => by_cases he : e.1 = key <;> by_cases h : key = key' <;> grind [put]

@[simp] theorem get?_put (key key' : κ) (x : α) (entries : List (κ × α)) :
    get? key' (put key x entries) = if key = key' then some x else get? key' entries := by
  simp only [get?, find?_put]
  split <;> rfl

end BlockArchive.Keyed
