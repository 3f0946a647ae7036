import BlockArchive.Bytes
import BlockArchive.Text.Digit
import BlockArchive.Hex
import BlockArchive.Text.Printable
import BlockArchive.Text.Quoted

/-!
# UTF-8

Bytes are read as characters strictly: overlong forms, surrogates and values beyond Unicode are
refused. Of a broken sequence the part that could still have been completed is reported.

* `Text.decodeUtf8` reads bytes, `Text.encodeUtf8` writes characters;
* `Text.unifyLineEnds` turns all line ends into line feeds.
-/

namespace BlockArchive.Text

/-- Why bytes are not UTF-8. -/
inductive Utf8Trouble where
  /-- No sequence starts with this byte. -/
  | start
  /-- A byte of the sequence is missing though others follow. -/
  | continuation
  /-- The bytes end inside the sequence. -/
  | ending
deriving DecidableEq, Repr

/-- The wording of a trouble with `count` bytes from `position` on, the first of them `byte`. -/
def Utf8Trouble.message (t : Utf8Trouble) (byte : UInt8) (position count : Nat) : String :=
  let place :=
    if count = 1 then
      "byte 0x" ++ String.ofList (hexDigits 2 byte.toNat) ++ " in position " ++ ofInt position
    else "bytes in position " ++ ofInt position ++ "-" ++ ofInt (position + count - 1 : Nat)
  "'utf-8' codec can't decode " ++ place ++ ": " ++ match t with
    | .start => "invalid start byte"
    | .continuation => "invalid continuation byte"
    | .ending => "unexpected end of data"

/-- The byte continues a sequence. -/
def isContinuation (b : UInt8) : Bool := 0x80 ≤ b && b < 0xc0

/-- The number of further bytes that a first byte asks for; none if it starts no sequence. -/
def followers? (b : UInt8) : Option Nat :=
  if b < 0x80 then some 0
  else if 0xc2 ≤ b ∧ b < 0xe0 then some 1
  else if 0xe0 ≤ b ∧ b < 0xf0 then some 2
  else if 0xf0 ≤ b ∧ b < 0xf5 then some 3
  else none

/-- The second byte may follow the first: it continues, and the value is neither overlong nor a
surrogate nor beyond Unicode. -/
def isSecond (first second : UInt8) : Bool :=
  isContinuation second &&
    !(first == 0xe0 && second < 0xa0) && !(first == 0xed && 0xa0 ≤ second) &&
    !(first == 0xf0 && second < 0x90) && !(first == 0xf4 && 0x90 ≤ second)

/-- The longest correct beginning of the bytes behind `first`, of at most `wanted` bytes. -/
def correctTail (first : UInt8) (wanted : Nat) (rest : Bytes) : Bytes :=
  match wanted, rest with
  | 0, _ => []
  | _, [] => []
  | wanted + 1, second :: more =>
    if isSecond first second then second :: (more.take wanted).takeWhile isContinuation else []

/-- The payload of a first byte with this number of followers. -/
def firstPayload (first : UInt8) (followers : Nat) : Nat :=
  match followers with
  | 0 => first.toNat
  | 1 => first.toNat - 0xc0
  | 2 => first.toNat - 0xe0
  | _ => first.toNat - 0xf0

/-- Reads the sequence at the head of the bytes: its character and the number of bytes behind
the first; or the trouble and the number of bytes it concerns. -/
def decodeFirst (first : UInt8) (rest : Bytes) : Except (Utf8Trouble × Nat) (Char × Nat) :=
  match followers? first with
  | none => .error (.start, 1)
  | some wanted =>
    let tail := correctTail first wanted rest
    if tail.length = wanted then
      .ok (Char.ofNat (tail.foldl (fun n b => n * 64 + (b.toNat - 0x80))
        (firstPayload first wanted)), wanted)
    else if tail.length = rest.length then .error (.ending, tail.length + 1)
    else .error (.continuation, tail.length + 1)

/-- Reads bytes from a position on; the error is the wording of the first trouble. -/
def decodeUtf8From (position : Nat) : Bytes → Except String (List Char)
  | [] => .ok []
  | first :: rest =>
    match decodeFirst first rest with
    | .error (t, count) => .error (t.message first position count)
    | .ok (c, used) => (decodeUtf8From (position + used + 1) (rest.drop used)).map (c :: ·)
termination_by b => b.length
decreasing_by exact Nat.lt_succ_of_le (by rw [List.length_drop]; exact Nat.sub_le ..)

/-- Reads bytes as characters. -/
def decodeUtf8 (b : Bytes) : Except String (List Char) := decodeUtf8From 0 b

/-- The bytes of a text. -/
def encodeUtf8 (s : String) : Bytes := s.toUTF8.toList

/-- A carriage return, and one with the line feed behind it, count as a line feed. -/
def unifyLineEnds : List Char → List Char
  | [] => []
  | '\r' :: '\n' :: rest => '\n' :: unifyLineEnds rest
  | '\r' :: rest => '\n' :: unifyLineEnds rest
  | c :: rest => c :: unifyLineEnds rest

end BlockArchive.Text
