import BlockArchive.Text.Case
import BlockArchive.Value.Reading

/-!
# Reading coins and policies

A coin's name may be written in any case and with blanks around it; a choice given as a value must
be the exact name.

* `Coin.read` reads a name, `Coin.choose` and `CoinbasePolicy.choose` take a choice.
-/

namespace BlockArchive

/-- The coin of a name in any case, blanks around it taken off. -/
def Coin.ofText? (s : String) : Option Coin :=
  Coin.ofName? (Text.lower (String.ofList (Text.strip Text.isBlank s.toList)))

/-- Reads the name of a coin. -/
def Coin.read (v : Value) : Except Fault Coin :=
  match v with
  | .string s =>
    match Coin.ofText? s with
    | some c => .ok c
    | none => .error (.unknownCoin s)
  | .torn t => .error (.unknownCoin t.shown)
  | .bytes _ | .buffer _ => .error (.unknownCoin v.literal)
  | w => .error (.noAttribute w.typeName "strip")

/-- The coin of exactly this name. -/
def Coin.choose (v : Value) : Except Fault Coin :=
  match v with
  | .string s =>
    match Coin.ofName? s with
    | some c => .ok c
    | none => .error (v.notMember "CoinType")
  | w => .error (w.notMember "CoinType")

/-- The policy of exactly this name. -/
def CoinbasePolicy.choose (v : Value) : Except Fault CoinbasePolicy :=
  match v with
  | .string s =>
    match CoinbasePolicy.ofName? s with
    | some p => .ok p
    | none => .error (v.notMember "CoinbaseAddressPolicy")
  | w => .error (w.notMember "CoinbaseAddressPolicy")

end BlockArchive
