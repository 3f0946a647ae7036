import BlockArchive.Text.Digit
import BlockArchive.Text.Quoted

/-!
# Torn texts

A text from outside may hold halves of pairs of UTF-16 units that lack their other halves. No string
holds such a text, no database takes it and no file is written with it. It is kept as the list of
its code points.

* `Text.Point` is a character or such a half, and `Text.Torn` a text with at least one half;
* `Text.Torn.quoted` is such a text inside a message, and `Text.Torn.trouble` what is said where it
  cannot be encoded.
-/

namespace BlockArchive.Text

/-- A code point of a text: a character, or half of a pair of units, counted from the first half
that there is. -/
inductive Point where
  /-- A character. -/
  | char (c : Char)
  /-- Half of a pair. -/
  | half (n : Fin 0x800)
deriving DecidableEq, Repr

namespace Point

/-- The point is half of a pair. -/
def isHalf : Point → Bool
  | .char _ => false
  | .half _ => true

/-- The code of a point. -/
def code : Point → Nat
  | .char c => c.toNat
  | .half n => 0xd800 + n

/-- The point as a character; a half becomes the replacement character. -/
def shown : Point → Char
  | .char c => c
  | .half _ => Char.ofNat 0xfffd

/-- A point in a text quoted with `quote`. -/
def quoted (quote : Char) : Point → List Char
  | .char c => quotedChar quote c
  | .half n => '\\' :: 'u' :: hexDigits 4 (0xd800 + n)

end Point

/-- A text with halves of pairs. -/
structure Torn where
  /-- The code points. -/
  points : List Point
  /-- One of them is a half. -/
  torn : points.any Point.isHalf = true
deriving DecidableEq, Repr

namespace Torn

/-- The text with replacement characters for the halves. -/
def shown (t : Torn) : String := String.ofList (t.points.map Point.shown)

/-- The text as it appears inside a message. -/
def quoted (t : Torn) : String :=
  let quote := quoteFor (t.points.map Point.shown)
  String.ofList (quote :: t.points.flatMap (Point.quoted quote) ++ [quote])

/-- What is said where the text cannot be encoded: which halves in a row are the first. -/
def trouble (t : Torn) : String :=
  let start := t.points.findIdx Point.isHalf
  let run := (t.points.drop start).takeWhile Point.isHalf
  let place := match run with
    | [p] => " '\\u" ++ String.ofList (hexDigits 4 p.code) ++ "' in position " ++ Text.ofInt start
    | _ => "s in position " ++ Text.ofInt start ++ "-" ++ Text.ofInt (start + run.length - 1 : Nat)
  "'utf-8' codec can't encode character" ++ place ++ ": surrogates not allowed"

end Torn

end BlockArchive.Text
