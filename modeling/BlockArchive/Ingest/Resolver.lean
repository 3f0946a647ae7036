import BlockArchive.Ingest.Resolution

/-!
# The resolver on its own

Outside of a pipeline a resolver resolves the inputs of one transaction after the other over its
store. It has counters of its own, and whoever calls it may lend it others to count in instead.

* `Resolver` is the resolver with both, `Counter` says which of them is meant;
* `Resolver.resolveInputs` resolves the inputs of a transaction, `Resolver.merge` adds what was
  counted apart.
-/

namespace BlockArchive

/-- The counters in which a resolution counts. -/
inductive Counter where
  /-- Those of the resolver. -/
  | own
  /-- Those lent to it. -/
  | lent
deriving DecidableEq, Repr

/-- A resolver, and the counters lent to it. -/
structure Resolver (σ : Type) where
  /-- The store. -/
  store : σ
  /-- What inputs that spend no output get as address. -/
  policy : CoinbasePolicy := .sentinel
  /-- The counters of the resolver. -/
  own : Tally := {}
  /-- The counters lent to it. -/
  lent : Tally := {}

namespace Resolver

variable {σ : Type}

/-- The counters that are meant. -/
def tally (r : Resolver σ) : Counter → Tally
  | .own => r.own
  | .lent => r.lent

/-- The resolver with a store and with counters that stand as given. -/
def put (counter : Counter) (q : Resolution σ) (r : Resolver σ) : Resolver σ :=
  match counter with
  | .own => { r with store := q.store, own := q.tally }
  | .lent => { r with store := q.store, lent := q.tally }

/-- Resolves the inputs of a transaction by a cache and the store. -/
def resolveInputs [Store σ] (counter : Counter) (cache : Cache) (t : Transaction) :
    Act (Resolver σ) (List ResolvedInput) := do
  let policy := (← Act.state).policy
  Act.within (fun r => ⟨r.store, r.tally counter⟩) (put counter)
    (Resolution.resolveAll policy cache t)

/-- Adds the counters lent to those of the resolver. -/
def merge : Act (Resolver σ) Unit := Act.update fun r => { r with own := r.own.add r.lent }

end Resolver

end BlockArchive
