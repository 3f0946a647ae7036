import BlockArchive.Fault
import BlockArchive.Number.Integer

/-!
# Reading values

Fixtures and documents are read as values of any shape. The functions here take such a value
apart and stop with a `Fault` where it has not the shape that is asked for.

* `Value.shown` and `Value.displayed` are the text of a value in a message;
* `Value.require` and `Value.optional` look up a field;
* `Value.elements` goes through a list, a text or the names of fields;
* `Value.toInteger` reads a whole number;
* `Value.toBytes` and `Value.toHash` read hex text.
-/

namespace BlockArchive.Value

/-- The text of a value as a message shows it. -/
def shown (v : Value) : Except Fault String :=
  if Document.hasLongInteger v then .error .longInteger else .ok v.text

/-- The text of a value as a message shows it among others. -/
def displayed (v : Value) : Except Fault String :=
  if Document.hasLongInteger v then .error .longInteger else .ok v.literal

/-- The fault of a value that is not one of a choice. -/
def notMember (v : Value) (choice : String) : Fault :=
  match v.displayed with
  | .ok text => .notMember text choice
  | .error f => f

/-- The field of a name, which must be there. -/
def require (v : Value) (name : String) : Except Fault Value :=
  match v with
  | .mapping fields =>
    match lookup? name fields with
    | some w => .ok w
    | none => .error (.missingField name)
  | .string _ | .torn _ => .error .textFields
  | .list _ => .error (.sequenceFields "list")
  | .frozen _ => .error (.sequenceFields "tuple")
  | .bytes _ => .error (.sequenceFields "byte")
  | .buffer _ => .error (.sequenceFields "bytearray")
  | w => .error (.noFields w.typeName)

/-- The field of a name, or `default` where it is missing. -/
def optional (v : Value) (name : String) (default : Value) : Except Fault Value :=
  match v with
  | .mapping fields => .ok ((lookup? name fields).getD default)
  | w => .error (.noAttribute w.typeName "get")

/-- The elements of a value: the items of a list, the characters of a text, the numbers of a byte
string, the names of the fields of an object. -/
def elements : Value → Except Fault (List Value)
  | .list xs | .frozen xs => .ok xs
  | .string s => .ok (s.toList.map fun c => .string (String.ofList [c]))
  | .torn t => .ok (t.points.map fun p => .ofPoints [p])
  | .bytes b | .buffer b => .ok (b.map fun x => .nat x.toNat)
  | .mapping fields => .ok (fields.map fun f => .string f.1)
  | v => .error (.notIterable v.typeName)

/-- Reads all elements of an optional list; a missing one is empty. -/
def optionalList {α : Type} (v : Value) (name : String) (read : Value → Except Fault α) :
    Except Fault (List α) := do
  (← (← v.optional name (.list [])).elements).mapM read

/-- The fault of a text that is no whole number; of the text as shown only 200 characters are
kept. -/
def integerFault (shown : String) : Number.IntegerTrouble → Fault
  | .malformed => .badInteger (String.ofList (shown.toList.take 200))
  | .long digits => .longText digits

/-- A value as a whole number: truth values count as 0 and 1, doubles lose their fraction, texts
are read. -/
def toInteger (v : Value) : Except Fault Int :=
  match v with
  | .int n => .ok n
  | .bool b => .ok (if b then 1 else 0)
  | .real x =>
    match x.decode with
    | .nan => .error .nanInteger
    | .infinite _ => .error .infiniteInteger
    | .finite .. => .ok (x.truncate?.getD 0)
  | .string s => (Number.readInteger s).mapError (integerFault v.literal)
  | .torn t => (Number.readInteger t.shown).mapError (integerFault v.literal)
  | .bytes b | .buffer b =>
    (Number.readAsciiInteger (b.map fun x => Char.ofNat x.toNat)).mapError
      (integerFault (Text.quotedBytes b))
  | w => .error (.notNumber w.typeName)

/-- The fault of a value that is no hex text, of which 80 characters are told. -/
def hexFault (v : Value) (why : String) : Fault :=
  match v.shown with
  | .ok text => .problem (.hex why (String.ofList (text.toList.take 80)))
  | .error f => f

/-- The bytes that a hex text stands for. -/
def toBytes (v : Value) : Except Fault Bytes :=
  match v with
  | .string s =>
    (Hex.decode s).mapError fun position : Nat =>
      hexFault v ("non-hexadecimal number found in fromhex() arg at position " ++
        Text.ofInt position)
  | .torn t => .error (hexFault v ("non-hexadecimal number found in fromhex() arg at position " ++
      Text.ofInt (t.points.findIdx fun p => 0x80 ≤ p.code)))
  | .null => .error (hexFault v "fromhex() argument must be str, not None")
  | w => .error (hexFault v ("fromhex() argument must be str, not " ++ w.typeName))

/-- The hash that a hex text shows, in internal order. -/
def toHash (v : Value) : Except Fault Hash := do
  let shown ← v.toBytes
  match Hash.ofBytes? shown.reverse with
  | some h => .ok h
  | none => .error (.problem (.hashLength shown.length v))

/-- A value that must be an unsigned 64-bit number; truth values are none. -/
def toAmount (v : Value) : Except Fault UInt64 :=
  match v with
  | .int n =>
    if 0 ≤ n ∧ n.toNat < UInt64.size then .ok (UInt64.ofNat n.toNat)
    else .error (.ofProblem (.outputValue v))
  | _ => .error (.ofProblem (.outputValue v))

/-- The value lies below zero, if it has an order with whole numbers. -/
def isNegative (v : Value) : Except Fault Bool :=
  match v with
  | .int n => .ok (n < 0)
  | .bool _ => .ok false
  | .real x => .ok (x.compareInt? 0 == some .lt)
  | w => .error (.notComparable "<" w.typeName "int")

/-- The value equals a whole number; truth values count as 0 and 1. -/
def equalsInt (v : Value) (n : Int) : Bool :=
  match v with
  | .int m => m == n
  | .bool b => n == (if b then 1 else 0)
  | .real x => x.compareInt? n == some .eq
  | _ => false

end BlockArchive.Value
