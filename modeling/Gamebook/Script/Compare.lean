import Gamebook.Number.Literal
import Gamebook.Script.Instruction

/-!
# Comparing values

* `numberOf`                    : the number that a value stands for.
* `Comparison.holds`            : an operator between two values; equality of texts is equality of
  characters, inequality compares the texts of the values, and ordering compares numbers.
* `compareBy`                   : the same for an operator by its spelling.

Models `compare`, and `to_number` on values.
-/

set_option autoImplicit false

namespace Gamebook

/-- The number that a value stands for: null is zero, a truth value zero or one, text is read. -/
def numberOf : Json → Except NumberFault Binary64
  | .null => .ok (.zero false)
  | .bool b => numberOfInt (if b then 1 else 0)
  | .int n => numberOfInt n
  | .float x => .ok x
  | v => numberOfText v.spoken

/-- A relation between the numbers of two values, the left one read first. -/
def numerically (rel : Binary64 → Binary64 → Bool) (a b : Json) : Except NumberFault Bool := do
  let x ← numberOf a
  let y ← numberOf b
  return rel x y

/-- The operator holds between two values. -/
def Comparison.holds (c : Comparison) (a b : Json) : Except NumberFault Bool :=
  match c with
  | .equal =>
    match a, b with
    | .str s, .str t => .ok (s == t)
    | _, _ => numerically Binary64.same a b
  | .notEqual => .ok (a.spoken != b.spoken)
  | .less => numerically Binary64.lt a b
  | .greater => numerically (fun x y => y.lt x) a b
  | .greaterEqual => numerically (fun x y => y.le x) a b
  | .lessEqual => numerically Binary64.le a b

/-- An operator by its spelling; one that is not known never holds. -/
def compareBy (operator : String) (a b : Json) : Except NumberFault Bool :=
  match Comparison.ofWord? operator with
  | some c => c.holds a b
  | none => .ok false

end Gamebook
