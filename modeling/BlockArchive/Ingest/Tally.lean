import BlockArchive.Value

/-!
# Tallies of resolution

How many inputs were resolved in which way.

* `Tally` holds the counters, `Tally.add` adds up two.
-/

namespace BlockArchive

/-- The counters of resolution. -/
structure Tally where
  /-- Inputs whose output was in the cache. -/
  cacheHits : Int := 0
  /-- Inputs whose output was in the store. -/
  storeHits : Int := 0
  /-- Questions put to the store. -/
  storeQueries : Int := 0
  /-- Inputs whose output was not found. -/
  unresolved : Int := 0
  /-- Inputs that spend no output. -/
  coinbase : Int := 0
deriving DecidableEq, Repr

namespace Tally

/-- The sums of the counters of two tallies. -/
def add (a b : Tally) : Tally where
  cacheHits := a.cacheHits + b.cacheHits
  storeHits := a.storeHits + b.storeHits
  storeQueries := a.storeQueries + b.storeQueries
  unresolved := a.unresolved + b.unresolved
  coinbase := a.coinbase + b.coinbase

/-- The counters under their names. -/
def fields (t : Tally) : List (String × Value) :=
  [("cache_hits", .int t.cacheHits), ("store_hits", .int t.storeHits),
    ("store_queries", .int t.storeQueries), ("unresolved", .int t.unresolved),
    ("coinbase", .int t.coinbase)]

end Tally

end BlockArchive
