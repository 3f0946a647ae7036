import BlockArchive.Hex
import BlockArchive.Kind
import BlockArchive.Moment
import BlockArchive.Number.Decimal
import BlockArchive.Text.Points

/-!
# Values

A `Value` is a piece of data whose shape is not known beforehand: what a JSON text can hold, and
besides it byte strings, moments and the archive's own objects. Fixtures and stored documents are
read as values, and reports and log rows carry them.

* `Value.text` is the text of a value by itself, `Value.literal` its text inside another value or
  a message; half of a pair of units, which cannot stand in a text, is shown as the replacement
  character;
* `Value.isTruthy` is false for nothing, zero and what is empty;
* `Value.field?` looks up a field of an object with named fields.
-/

namespace BlockArchive

/-- A piece of data of any shape. -/
inductive Value where
  /-- Nothing. -/
  | null
  /-- A truth value. -/
  | bool (b : Bool)
  /-- A whole number of any size. -/
  | int (n : Int)
  /-- A double. -/
  | real (x : Binary64)
  /-- A text. -/
  | string (s : String)
  /-- A text that no string holds. -/
  | torn (t : Text.Torn)
  /-- A byte string. -/
  | bytes (b : Bytes)
  /-- A mutable byte string. -/
  | buffer (b : Bytes)
  /-- A list. -/
  | list (items : List Value)
  /-- An immutable list. -/
  | frozen (items : List Value)
  /-- Fields with names, in the order in which they were put in. -/
  | mapping (fields : List (String × Value))
  /-- A date and time. -/
  | moment (t : Moment)
  /-- Something of which only its text is known. -/
  | plain (text : String)
  /-- An object of the archive with its fields and, if it has one, the document that it is stored
  as. -/
  | object (kind : Kind) (fields : List (String × Value)) (document : Option Value)
deriving Inhabited

namespace Value

/-- The text of code points. -/
def ofPoints (points : List Text.Point) : Value :=
  if h : points.any Text.Point.isHalf = true then .torn ⟨points, h⟩
  else .string (String.ofList (points.map Text.Point.shown))

/-- A natural number as a value. -/
def nat (n : Nat) : Value := .int n

/-- The name of the type of a value. -/
def typeName : Value → String
  | .null => "NoneType"
  | .bool _ => "bool"
  | .int _ => "int"
  | .real _ => "float"
  | .string _ | .torn _ => "str"
  | .bytes _ => "bytes"
  | .buffer _ => "bytearray"
  | .list _ => "list"
  | .frozen _ => "tuple"
  | .mapping _ => "dict"
  | .moment _ => "datetime.datetime"
  | .plain _ => "Plain"
  | .object kind _ _ => kind.name

/-- Nothing, zero and what is empty count as false. -/
def isTruthy : Value → Bool
  | .null => false
  | .bool b => b
  | .int n => n != 0
  | .real x => x.isNonzero
  | .string s => !s.isEmpty
  | .bytes b | .buffer b => !b.isEmpty
  | .list xs | .frozen xs => !xs.isEmpty
  | .mapping fs => !fs.isEmpty
  | .torn _ | .moment _ | .plain _ | .object .. => true

/-- The value of the first field of a name. -/
def lookup? (name : String) (fields : List (String × Value)) : Option Value :=
  (fields.find? fun f => f.1 == name).map (·.2)

/-- The value of a field of a value with named fields. -/
def field? (name : String) : Value → Option Value
  | .mapping fields | .object _ fields _ => lookup? name fields
  | _ => none

/-- Replaces the field of a name in its place, or appends it. -/
def setField (fields : List (String × Value)) (name : String) (v : Value) :
    List (String × Value) :=
  if fields.any (fun f => f.1 == name) then
    fields.map fun f => if f.1 == name then (name, v) else f
  else fields ++ [(name, v)]

/-- The bytes of a byte string of either sort. -/
def bytes? : Value → Option Bytes
  | .bytes b | .buffer b => some b
  | _ => none

/-- The items of a list of either sort. -/
def items? : Value → Option (List Value)
  | .list xs | .frozen xs => some xs
  | _ => none

/-- Bytes in reversed order as hex text; nothing for other values. -/
def displayedHash (v : Value) : String := Hex.encode (v.bytes?.getD []).reverse

/-- The number of items of a field that holds a list. -/
def countOf (name : String) (fields : List (String × Value)) : String :=
  Text.ofInt (((lookup? name fields).bind items?).getD []).length

/-- The first 16 digits of a displayed hash, marked as cut. -/
def shortHash (hash : Value) : String :=
  String.ofList (hash.displayedHash.toList.take 16) ++ "..."

/-- The text of the digits of a block's hash and the number of its transactions. -/
def blockLabel (fields : List (String × Value)) : String :=
  let hash := (((lookup? "header" fields).bind (field? "hash")).getD .null)
  "Block(hash=" ++ shortHash hash ++ ", txs=" ++ countOf "txs" fields ++ ")"

/-- The text of the digits of a transaction's hash and the numbers of its inputs and outputs. -/
def transactionLabel (fields : List (String × Value)) : String :=
  "EvaluatedTx(hash=" ++ shortHash ((lookup? "hash" fields).getD .null) ++ ", inputs=" ++
    countOf "inputs" fields ++ ", outputs=" ++ countOf "outputs" fields ++ ")"

mutual

/-- The text of a value inside another value or a message: texts are quoted. -/
def literal : Value → String
  | .null => "None"
  | .bool b => if b then "True" else "False"
  | .int n => Text.ofInt n
  | .real x => x.text
  | .string s => Text.quoted s
  | .torn t => t.quoted
  | .bytes b => Text.quotedBytes b
  | .buffer b => Text.quotedBuffer b
  | .list xs => "[" ++ ", ".intercalate (literals xs) ++ "]"
  | .frozen [x] => "(" ++ literal x ++ ",)"
  | .frozen xs => "(" ++ ", ".intercalate (literals xs) ++ ")"
  | .mapping fields => "\x7b" ++ ", ".intercalate (fieldLiterals fields) ++ "\x7d"
  | .moment t => t.literal
  | .plain t => t
  | .object .block fields _ => blockLabel fields
  | .object .evaluatedTx fields _ => transactionLabel fields
  | .object (.report c) fields _ => c.name ++ "(" ++ messageLiteral fields ++ ")"
  | .object kind fields _ => kind.name ++ "(" ++ ", ".intercalate (assignments fields) ++ ")"

/-- The texts of the items of a list. -/
def literals : List Value → List String
  | [] => []
  | x :: xs => literal x :: literals xs

/-- The fields as quoted name, colon and value. -/
def fieldLiterals : List (String × Value) → List String
  | [] => []
  | (k, v) :: rest => (Text.quoted k ++ ": " ++ literal v) :: fieldLiterals rest

/-- The fields as name, equals sign and value. -/
def assignments : List (String × Value) → List String
  | [] => []
  | (k, v) :: rest => (k ++ "=" ++ literal v) :: assignments rest

/-- The text of the field that holds the message. -/
def messageLiteral : List (String × Value) → String
  | [] => ""
  | (k, v) :: rest => if k == "message" then literal v else messageLiteral rest

end

/-- The text of a value by itself: as inside a message, but texts are not quoted, moments are
written out and keys and reports have a text of their own. -/
def text : Value → String
  | .string s => s
  | .torn t => t.shown
  | .moment t => t.stamp
  | .object .outputKey fields _ =>
    ((lookup? "tx_hash" fields).getD .null).displayedHash ++ ":" ++
      ((lookup? "index" fields).getD .null).literal
  | .object (.report _) fields _ =>
    let code := (lookup? "code" fields).getD .null
    let message := (lookup? "message" fields).getD .null
    let details := (lookup? "details" fields).getD .null
    let plainText := fun v : Value => match v with
      | .string s => s
      | .torn t => t.shown
      | w => w.literal
    "[" ++ plainText code ++ "] " ++ plainText message ++
      (if details.isTruthy then " | Details: " ++ details.literal else "")
  | v => v.literal

end Value

end BlockArchive
