/-!
# Bytes and hashes

* `Bytes` is a sequence of bytes;
* `Hash` is a block or transaction hash: 32 bytes in the order in which the digest has them,
  which is the reverse of the order in which hashes are shown;
* `Hash.null` is the sentinel that stands where there is no transaction.
-/

namespace BlockArchive

/-- A sequence of bytes. -/
abbrev Bytes := List UInt8

/-- The number of bytes of a hash. -/
def hashSize : Nat := 32

/-- A block or transaction hash, in internal byte order. -/
structure Hash where
  /-- The bytes in internal order. -/
  bytes : Bytes
  /-- A hash has 32 bytes. -/
  length_eq : bytes.length = hashSize
deriving DecidableEq

namespace Hash

/-- The hash of 32 zero bytes: the previous output of an input that spends none. -/
def null : Hash := ⟨List.replicate hashSize 0, by simp⟩

/-- The bytes as a hash, if there are 32 of them. -/
def ofBytes? (b : Bytes) : Option Hash :=
  if h : b.length = hashSize then some ⟨b, h⟩ else none

end Hash

/-- Lexicographic order of byte sequences; a beginning comes before what continues it. -/
def Bytes.before : Bytes → Bytes → Bool
  | [], [] => false
  | [], _ :: _ => true
  | _ :: _, [] => false
  | a :: as, b :: bs => if a < b then true else if b < a then false else Bytes.before as bs

end BlockArchive
