import Gamebook.Text.Blank
import Gamebook.Text.Digit
import Gamebook.Number.Shortest

/-!
# Numbers in variables

Variables hold text.  Arithmetic and ordering read the text as a number and write the result back.

* `DecimalLiteral.read?` : sign, digits with an optional point, optional exponent; digits of any
  script count.
* `radixLiteral?`        : unsigned hexadecimal, octal and binary literals.
* `numberOfText`         : the number that a text denotes: blank text is zero, anything that is no
  literal is not-a-number; a radix literal beyond the finite range is refused.
* `textOfNumber`         : the shortest text of a number, positional from `1e-6` to below `1e21`.

Models `to_number` on texts, and `format_number`.
-/

set_option autoImplicit false

namespace Gamebook

open Text

/-- A whole number that no binary64 number is near enough to. -/
inductive NumberFault where
  | tooLarge
  deriving DecidableEq, Repr

/-- What a refused number is reported as. -/
def NumberFault.message : NumberFault → String
  | .tooLarge => "int too large to convert to float"

/-- A decimal literal: its sign, all its digits as one number, and the power of ten. -/
structure DecimalLiteral where
  negative : Bool
  significand : Nat
  exponent : Int
  deriving DecidableEq, Repr

namespace DecimalLiteral

/-- An optional sign; true for a minus. -/
def sign : List Char → Bool × List Char
  | '-' :: rest => (true, rest)
  | '+' :: rest => (false, rest)
  | cs => (false, cs)

/-- The digits at the front, and what follows them. -/
def digits (cs : List Char) : List Char × List Char :=
  (cs.takeWhile isDecimalDigit, cs.dropWhile isDecimalDigit)

/-- The exponent part, up to the end of the text. -/
def exponentPart : List Char → Option Int
  | [] => some 0
  | c :: rest =>
    if c == 'e' || c == 'E' then
      let (negative, rest) := sign rest
      let (ds, rest) := digits rest
      if ds.isEmpty || !rest.isEmpty then none
      else (decimalValue? ds).map fun n => if negative then -(n : Int) else n
    else none

/-- The fraction behind the digits before the point, and what follows it. -/
def fractionPart : List Char → List Char × List Char
  | '.' :: rest => digits rest
  | cs => ([], cs)

/-- Reads a whole text as a decimal literal. -/
def read? (cs : List Char) : Option DecimalLiteral := do
  let (negative, cs) := sign cs
  let (whole, cs) := digits cs
  let (fraction, cs) := fractionPart cs
  if whole.isEmpty && fraction.isEmpty then none
  let exponent ← exponentPart cs
  let significand ← decimalValue? (whole ++ fraction)
  return ⟨negative, significand, exponent - fraction.length⟩

/-- The number nearest to a literal. -/
def value (d : DecimalLiteral) : Binary64 :=
  Binary64.ofDecimal d.negative d.significand d.exponent

end DecimalLiteral

/-- The value of a run of digits in a base; `none` for no digits. -/
def radixValue? (base : Nat) (cs : List Char) : Option Nat :=
  if cs.isEmpty then none
  else cs.foldlM (fun acc c => (Text.radixDigit? base c).map (acc * base + ·)) 0

/-- Reads a whole text as an unsigned literal with a base mark. -/
def radixLiteral? : List Char → Option Nat
  | '0' :: mark :: cs =>
    if mark == 'x' || mark == 'X' then radixValue? 16 cs
    else if mark == 'o' || mark == 'O' then radixValue? 8 cs
    else if mark == 'b' || mark == 'B' then radixValue? 2 cs
    else none
  | _ => none

/-- The number nearest to a whole number, unless that is infinite. -/
def numberOfInt (n : Int) : Except NumberFault Binary64 :=
  (Binary64.ofInt? n).elim (.error .tooLarge) .ok

def numberOfText (s : String) : Except NumberFault Binary64 :=
  let cs := trimList isBlank s.toList
  if cs.isEmpty then .ok (.zero false)
  else match DecimalLiteral.read? cs with
    | some d => .ok d.value
    | none =>
      if cs == "Infinity".toList || cs == "+Infinity".toList then .ok (.infinite false)
      else if cs == "-Infinity".toList then .ok (.infinite true)
      else match radixLiteral? cs with
        | some n => numberOfInt n
        | none => .ok .nan

/-- The style of numbers in variables: positional from `1e-6` to below `1e21`, whole numbers
without a point, exponents without leading zeros. -/
def variableStyle : DecimalStyle := ⟨-6, 21, false, 1⟩

def textOfNumber : Binary64 → String
  | .nan => "NaN"
  | .infinite negative => if negative then "-Infinity" else "Infinity"
  | .finite negative units _ =>
    if units = 0 then "0"
    else (if negative then "-" else "") ++ (shortest units).render variableStyle

end Gamebook
