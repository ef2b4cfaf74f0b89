import Gamebook.Text.Blank

/-!
# Whole numbers in texts

A whole number is written as digits without a zero in front, and perhaps a minus.  A text written in
another way is tidied first: blanks around it, a plus, zeros in front, single underscores between
digits and a fraction of zeros are taken away.

* `WholeFault`   : why a text is no whole number.
* `Whole.plain?` : the number of a text written without anything to tidy.
* `Whole.tidied?` : the text with everything taken away that may be.
* `wholeOfText`  : the number of a text.

The digits of a number are bounded in number.  A long number counts as oversized only when the text
starts with it; behind something to tidy it is unreadable.

Texts are read so where the schema has a whole number, as for `ai_gen_look_ahead`.
-/

set_option autoImplicit false

namespace Gamebook

/-- Why a text is no whole number. -/
inductive WholeFault where
  | unreadable
  /-- The number at the front of the text is too long. -/
  | oversized
  deriving DecidableEq, Repr

namespace Whole

/-- The most digits of a number. -/
def lengthLimit : Nat := 4300

/-- A digit other than zero. -/
def isLeading (c : Char) : Bool := '1' ≤ c && c ≤ '9'

/-- A minus at the front, and what is behind it. -/
def splitMinus : List Char → List Char × List Char
  | '-' :: rest => (['-'], rest)
  | cs => ([], cs)

/-- The number that digits spell. -/
def digitsOf (ds : List Char) : Int :=
  ds.foldl (fun (acc : Int) c => acc * 10 + (c.toNat - '0'.toNat)) 0

/-- The number of a text written as digits without a zero in front, and perhaps a minus. -/
def plain? (cs : List Char) : Option Int :=
  let (minus, ds) := splitMinus cs
  if ds = ['0'] ∨ (ds.head?.any isLeading ∧ ds.all Char.isDigit) then
    some (if minus.isEmpty then digitsOf ds else -digitsOf ds)
  else none

/-- The text starts with a number that is too long. -/
def startsOversized (cs : List Char) : Bool :=
  let ds := (splitMinus cs).2
  ds.head?.any isLeading && decide (lengthLimit < (ds.takeWhile Char.isDigit).length)

/-- A text without a plus at its front; a sign may not follow the plus. -/
def dropPlus? : List Char → Option (List Char)
  | '+' :: '-' :: _ => none
  | '+' :: rest => some rest
  | cs => some cs

/-- What is behind a run of zeros and underscores that ends in `last`: a number, or the last of the
run itself when nothing or a fraction follows. -/
def behindZeros? (last : Char) : List Char → Option (List Char)
  | [] => some [last]
  | c :: rest =>
    if c = '0' ∨ c = '_' then behindZeros? c rest
    else if isLeading c ∨ c = '-' then some (c :: rest)
    else if c = '.' then some (last :: c :: rest)
    else none

/-- A number without the zeros in front. -/
def dropZeros? : List Char → Option (List Char)
  | [] => none
  | c :: rest =>
    if c = '0' then behindZeros? c rest
    else if isLeading c ∨ c = '-' then some (c :: rest)
    else none

/-- A number without a fraction of zeros, of which there is at least one. -/
def dropFraction (cs : List Char) : List Char :=
  match cs.dropWhile (· != '.') with
  | _ :: '0' :: rest => if rest.all (· == '0') then cs.takeWhile (· != '.') else cs
  | _ => cs

/-- Two underscores stand side by side. -/
def hasDoubleUnderscore : List Char → Bool
  | '_' :: '_' :: _ => true
  | _ :: rest => hasDoubleUnderscore rest
  | [] => false

/-- A number without the underscores in it; they stand alone and at neither end. -/
def dropUnderscores (cs : List Char) : List Char :=
  if cs.head? == some '_' || cs.getLast? == some '_' || hasDoubleUnderscore cs then cs
  else cs.filter (· != '_')

/-- The text with everything taken away that may be; `none` when it does not begin like a number. -/
def tidied? (cs : List Char) : Option (List Char) := do
  let unsigned ← dropPlus? (Text.trimList Text.isWhiteSpace cs)
  let (minus, body) := splitMinus unsigned
  let number ← dropZeros? body
  return minus ++ dropUnderscores (dropFraction number)

/-- The number of a text with something to tidy. -/
def loose? (cs : List Char) : Option Int := do
  let tidy ← tidied? cs
  if lengthLimit < (splitMinus tidy).2.length then none else plain? tidy

end Whole

def wholeOfText (s : String) : Except WholeFault Int :=
  let cs := s.toList
  if Whole.startsOversized cs then .error .oversized
  else
    match (Whole.plain? cs).orElse fun _ => Whole.loose? cs with
    | some n => .ok n
    | none => .error .unreadable

end Gamebook
