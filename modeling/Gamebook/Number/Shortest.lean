import Gamebook.Number.Binary64

/-!
# The shortest decimal that reads back

* `Decimal`        : a significand and a power of ten.
* `Interval`       : the reals that round to a given number of units, in half units.
* `shortest`       : of the decimals in the interval, one with the fewest digits; of two with as
  many digits the nearer, and on a tie the one with the even last digit.
* `DecimalStyle`   : the decisions of a number format; `Decimal.render` applies them.

The digits that `format_number` shows, and that JSON texts have.
-/

set_option autoImplicit false

namespace Gamebook

/-- The number `significand · 10^exponent`. -/
structure Decimal where
  significand : Nat
  exponent : Int
  deriving DecidableEq, Repr

/-- The reals between two bounds, in halves of a unit; `closed` says whether the bounds belong. -/
structure Interval where
  low : Nat
  high : Nat
  closed : Bool
  deriving DecidableEq, Repr

/-- The reals that round to a positive representable number of units.  The gap below a power of two
is half the gap above it; the bounds round to the number when its last bit is even. -/
def Interval.ofUnits (u : Nat) : Interval :=
  let e := u.log2 - 52
  let step := Nat.pow 2 e
  let below := if u = Nat.pow 2 u.log2 ∧ 0 < e then step / 2 else step
  ⟨2 * u - below, 2 * u + step, (u / step) % 2 = 0⟩

/-- The ratio `num / den` of halves of a unit lies in the interval. -/
def Interval.holds (i : Interval) (num den : Nat) : Bool :=
  if i.closed then i.low * den ≤ num && num ≤ i.high * den
  else i.low * den < num && num < i.high * den

/-- The ratio of halves of a unit that a decimal is. -/
def Decimal.halves (d : Decimal) : Nat × Nat :=
  match d.exponent with
  | .ofNat e => (d.significand * Nat.pow 10 e * Nat.pow 2 1075, 1)
  | .negSucc e => (d.significand * Nat.pow 2 1075, Nat.pow 10 (e + 1))

/-- How many decimal places stand before the point of a positive number of units (negative when
zeros follow the point). -/
def pointPlace (u : Nat) : Int :=
  ((Nat.repr (u * Nat.pow 10 400 / Nat.pow 2 1074)).length : Int) - 400

/-- The decimal of the given exponent nearest to the units from below, and its remainder as a
ratio. -/
def gridBelow (u : Nat) (exponent : Int) : Nat × Nat × Nat :=
  match exponent with
  | .ofNat e => let den := Nat.pow 10 e * Nat.pow 2 1074; (u / den, u % den, den)
  | .negSucc e =>
    let num := u * Nat.pow 10 (e + 1)
    let den := Nat.pow 2 1074
    (num / den, num % den, den)

/-- The two neighbours of a place on a grid, the nearer one first; on a tie the even one. -/
def nearerFirst : Nat × Nat × Nat → List Nat
  | (q, r, den) => if 2 * r < den || (2 * r == den && q % 2 == 0) then [q, q + 1] else [q + 1, q]

/-- The decimal reads back as a positive number of units. -/
def Decimal.reads (u : Nat) (d : Decimal) : Bool :=
  (Interval.ofUnits u).holds d.halves.1 d.halves.2

/-- The decimal of `n` digits nearest to the units among its two neighbours that read back. -/
def candidate? (u : Nat) (n : Nat) : Option Decimal :=
  let exponent := pointPlace u - n
  ((nearerFirst (gridBelow u exponent)).map fun m => ⟨m, exponent⟩).find? (Decimal.reads u)

/-- Moves the zeros at the end of the significand into the exponent. -/
def stripZeros : Nat → Decimal → Decimal
  | 0, d => d
  | fuel + 1, d =>
    if d.significand % 10 = 0 ∧ d.significand ≠ 0 then
      stripZeros fuel ⟨d.significand / 10, d.exponent + 1⟩
    else d

/-- The shortest decimal that reads back as the given positive number of units. -/
def shortest (u : Nat) : Decimal :=
  let found := (List.range 17).findSome? fun n => candidate? u (n + 1)
  stripZeros 20 (found.getD ⟨0, 0⟩)

/-! ## Writing a decimal -/

/-- The decisions of a number format. -/
structure DecimalStyle where
  /-- The point stands at this place or further left only in scientific form. -/
  lowest : Int
  /-- The point stands further right than this place only in scientific form. -/
  highest : Int
  /-- A whole number in positional form ends in `.0`. -/
  markWhole : Bool
  /-- Least number of digits of a scientific exponent. -/
  exponentDigits : Nat
  deriving DecidableEq, Repr

/-- The exponent of the scientific form, always with its sign. -/
def renderExponent (width : Nat) (e : Int) : String :=
  let digits := Nat.repr e.natAbs
  (if e < 0 then "-" else "+") ++ String.ofList (List.replicate (width - digits.length) '0') ++ digits

/-- A positive decimal in the given style. -/
def Decimal.render (style : DecimalStyle) (d : Decimal) : String :=
  let digits := Nat.repr d.significand
  let cs := digits.toList
  let place : Int := d.exponent + cs.length
  if style.lowest < place ∧ place ≤ style.highest then
    if place ≤ 0 then
      "0." ++ String.ofList (List.replicate (-place).toNat '0') ++ digits
    else if (cs.length : Int) ≤ place then
      digits ++ String.ofList (List.replicate (place - cs.length).toNat '0') ++
        (if style.markWhole then ".0" else "")
    else
      String.ofList (cs.take place.toNat) ++ "." ++ String.ofList (cs.drop place.toNat)
  else
    let fraction := cs.drop 1
    String.ofList (cs.take 1) ++ (if fraction.isEmpty then "" else "." ++ String.ofList fraction) ++
      "e" ++ renderExponent style.exponentDigits (place - 1)

end Gamebook
