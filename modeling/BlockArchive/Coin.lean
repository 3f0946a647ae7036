import BlockArchive.Text.Quoted

/-!
# Coins and coinbase policies

* `Coin` is a chain whose blocks can be taken in;
* `CoinbasePolicy` says which address is kept for an input that spends no output.
-/

namespace BlockArchive

/-- A chain whose blocks can be taken in. -/
inductive Coin where
  /-- Bitcoin. -/
  | bitcoin
  /-- The third test chain of Bitcoin. -/
  | testnet3
  /-- Namecoin. -/
  | namecoin
  /-- Litecoin. -/
  | litecoin
  /-- Dogecoin. -/
  | dogecoin
  /-- Myriadcoin. -/
  | myriadcoin
  /-- Unobtanium. -/
  | unobtanium
  /-- Noteblockchain. -/
  | noteblockchain
deriving DecidableEq, Repr

namespace Coin

/-- All coins. -/
def all : List Coin :=
  [.bitcoin, .testnet3, .namecoin, .litecoin, .dogecoin, .myriadcoin, .unobtanium,
    .noteblockchain]

/-- The name of a coin. -/
def name : Coin → String
  | .bitcoin => "bitcoin"
  | .testnet3 => "testnet3"
  | .namecoin => "namecoin"
  | .litecoin => "litecoin"
  | .dogecoin => "dogecoin"
  | .myriadcoin => "myriadcoin"
  | .unobtanium => "unobtanium"
  | .noteblockchain => "noteblockchain"

/-- The coin of exactly this name. -/
def ofName? (s : String) : Option Coin := all.find? fun c => c.name == s

/-- The words on a name that no coin has. -/
def unknownText (name : String) : String :=
  "Unknown coin: " ++ name ++ ". Must be one of " ++ Text.quotedList (all.map Coin.name)

end Coin

/-- Which address is kept for a coinbase input. -/
inductive CoinbasePolicy where
  /-- The text of the null hash. -/
  | sentinel
  /-- The empty text. -/
  | empty
deriving DecidableEq, Repr

namespace CoinbasePolicy

/-- All policies. -/
def all : List CoinbasePolicy := [.sentinel, .empty]

/-- The name of a policy. -/
def name : CoinbasePolicy → String
  | .sentinel => "sentinel"
  | .empty => "empty"

/-- The policy of exactly this name. -/
def ofName? (s : String) : Option CoinbasePolicy := all.find? fun p => p.name == s

end CoinbasePolicy

end BlockArchive
