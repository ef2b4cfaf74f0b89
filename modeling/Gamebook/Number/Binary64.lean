/-!
# Binary64 numbers, exactly

A finite binary64 number is a sign and a natural number of units of `2^-1074`, the least positive
number of the format.  Sums and comparisons are therefore integer work, and only one place rounds.

* `Representable`       : a number of units with at most 53 significant bits, below `2^1024`.
* `Binary64`            : not-a-number, the infinities, and the signed representable numbers.
* `roundUnits`          : the representable number of units nearest to a ratio, ties to even
  (`roundUnits_dvd` says that it has at most 53 significant bits).
* `Binary64.ofRatio`, `ofDecimal`, `ofInt?` : the number nearest to an exact value.
* `Binary64.add`        : the exact sum, rounded once.
* `Binary64.rank`       : position on the number line; `same`, `lt` and `le` compare ranks.
* `Binary64.word`       : the 64-bit interchange word.

The numbers that `to_number` gives and `format_number` takes.
-/

set_option autoImplicit false

namespace Gamebook

/-- Binary places from the least unit to the first infinite magnitude. -/
def unitPlaces : Nat := 1074 + 1024

/-- The number of units from which on a magnitude is infinite: `2^1024` in units of `2^-1074`. -/
def unitLimit : Nat := Nat.pow 2 unitPlaces

theorem unitLimit_pos : 0 < unitLimit := by
  unfold unitLimit
  generalize unitPlaces = places
  exact Nat.two_pow_pos places

/-- At most 53 significant bits, and below the limit. -/
def Representable (u : Nat) : Prop := u < unitLimit ∧ Nat.pow 2 (u.log2 - 52) ∣ u

instance (u : Nat) : Decidable (Representable u) := inferInstanceAs (Decidable (_ ∧ _))

/-- A binary64 number; the payload of a not-a-number is not kept. -/
inductive Binary64 where
  | nan
  | infinite (negative : Bool)
  | finite (negative : Bool) (units : Nat) (exact : Representable units)
  deriving DecidableEq

/-! ## Rounding -/

/-- The integer nearest to a ratio; a tie goes to the even neighbour. -/
def nearestEven (num den : Nat) : Nat :=
  let q := num / den
  let r := num % den
  if 2 * r < den then q
  else if den < 2 * r then q + 1
  else if q % 2 = 0 then q else q + 1

/-- Number of units nearest to a ratio of units, among those with at most 53 significant bits. -/
def roundUnits (num den : Nat) : Nat :=
  let step := Nat.pow 2 ((num / den).log2 - 52)
  nearestEven num (den * step) * step

theorem nearestEven_le (num den : Nat) : nearestEven num den ≤ num / den + 1 := by
  unfold nearestEven
  dsimp only
  split
  · omega
  · split
    · omega
    · split <;> omega

/-- Scaled by its step, the ratio has at most 53 bits before the point. -/
theorem roundUnits_significand_le (num den : Nat) :
    nearestEven num (den * Nat.pow 2 ((num / den).log2 - 52)) ≤ Nat.pow 2 53 := by
  have hq : num / (den * 2 ^ ((num / den).log2 - 52)) < 2 ^ 53 := by
    rw [← Nat.div_div_eq_div_mul]
    rw [Nat.div_lt_iff_lt_mul (Nat.two_pow_pos _), ← Nat.pow_add]
    have hlt : num / den < 2 ^ ((num / den).log2 + 1) := Nat.lt_log2_self
    exact Nat.lt_of_lt_of_le hlt (Nat.pow_le_pow_right (by omega) (by omega))
  exact Nat.le_trans (nearestEven_le _ _) hq

/-- A multiple of `2^e` below or at `2^53 · 2^e` has at most 53 significant bits. -/
theorem dvd_of_significand_le {m e : Nat} (h : m ≤ Nat.pow 2 53) :
    Nat.pow 2 ((m * Nat.pow 2 e).log2 - 52) ∣ m * Nat.pow 2 e := by
  rw [Nat.pow_eq] at h
  simp only [Nat.pow_eq]
  by_cases hm : m = 0
  · subst hm; simp
  · have hne : m * 2 ^ e ≠ 0 := Nat.mul_ne_zero hm (Nat.ne_of_gt (Nat.two_pow_pos e))
    by_cases htop : m = 2 ^ 53
    · subst htop
      rw [← Nat.pow_add]
      exact Nat.pow_dvd_pow 2 (by rw [Nat.log2_two_pow]; omega)
    · have hlt : m * 2 ^ e < 2 ^ (53 + e) := by
        rw [Nat.pow_add]
        exact Nat.mul_lt_mul_of_pos_right (by omega) (Nat.two_pow_pos e)
      have hlog : (m * 2 ^ e).log2 < 53 + e := (Nat.log2_lt hne).2 hlt
      exact Nat.dvd_trans (Nat.pow_dvd_pow 2 (by omega)) (Nat.dvd_mul_left _ _)

/-- A rounded number of units has at most 53 significant bits. -/
theorem roundUnits_dvd (num den : Nat) :
    Nat.pow 2 ((roundUnits num den).log2 - 52) ∣ roundUnits num den :=
  dvd_of_significand_le (roundUnits_significand_le num den)

namespace Binary64

/-- Zero of either sign. -/
def zero (negative : Bool) : Binary64 := .finite negative 0 ⟨unitLimit_pos, Nat.dvd_zero _⟩

/-- The number nearest to `num / den` units; at the limit and beyond it is infinite. -/
def ofUnits (negative : Bool) (num den : Nat) : Binary64 :=
  if h : roundUnits num den < unitLimit then
    .finite negative (roundUnits num den) ⟨h, roundUnits_dvd num den⟩
  else .infinite negative

/-- The number nearest to the ratio `num / den`. -/
def ofRatio (negative : Bool) (num den : Nat) : Binary64 :=
  ofUnits negative (num * Nat.pow 2 1074) den

/-- The number nearest to `significand · 10^exponent`.  A decimal with its first digit beyond
`10^400` or below `10^-400` is infinite or zero without forming the power. -/
def ofDecimal (negative : Bool) (significand : Nat) (exponent : Int) : Binary64 :=
  let top := exponent + (Nat.repr significand).length
  if significand = 0 ∨ top < -400 then zero negative
  else if 400 < top then .infinite negative
  else match exponent with
    | .ofNat e => ofRatio negative (significand * Nat.pow 10 e) 1
    | .negSucc e => ofRatio negative significand (Nat.pow 10 (e + 1))

/-- The number itself, unless it is infinite. -/
def unlessInfinite : Binary64 → Option Binary64
  | .infinite _ => none
  | x => some x

/-- The number nearest to an integer; `none` when that is infinite. -/
def ofInt? (n : Int) : Option Binary64 := (ofRatio (n < 0) n.natAbs 1).unlessInfinite

/-! ## The number line -/

/-- Signed number of units. -/
def signed (negative : Bool) (units : Nat) : Int := if negative then -(units : Int) else units

/-- Position on the number line; the infinities lie at the limit, a not-a-number nowhere. -/
def rank : Binary64 → Option Int
  | .nan => none
  | .infinite negative => some (signed negative unitLimit)
  | .finite negative units _ => some (signed negative units)

/-- Numeric comparison by a relation on ranks; false as soon as one side is no number. -/
def related (rel : Int → Int → Bool) (x y : Binary64) : Bool :=
  match x.rank, y.rank with
  | some a, some b => rel a b
  | _, _ => false

/-- Numeric equality: the two zeros are the same, a not-a-number differs from itself. -/
def same : Binary64 → Binary64 → Bool := related (· == ·)

def lt : Binary64 → Binary64 → Bool := related (· < ·)

def le : Binary64 → Binary64 → Bool := related (· ≤ ·)

def isNaN : Binary64 → Bool
  | .nan => true
  | _ => false

/-- The number is neither infinite nor not-a-number. -/
def isFinite : Binary64 → Bool
  | .finite .. => true
  | _ => false

/-- The integer that a number is; `none` when it has a fraction or is not finite. -/
def toInt? : Binary64 → Option Int
  | .finite negative units _ =>
    let unit := Nat.pow 2 1074
    if units % unit = 0 then some (signed negative (units / unit)) else none
  | _ => none

/-- The exact sum, rounded once.  An exact zero is negative only when both summands are. -/
def add : Binary64 → Binary64 → Binary64
  | .nan, _ => .nan
  | _, .nan => .nan
  | .infinite a, .infinite b => if a = b then .infinite a else .nan
  | .infinite a, .finite .. => .infinite a
  | .finite .., .infinite b => .infinite b
  | .finite a m _, .finite b n _ =>
    let sum := signed a m + signed b n
    if sum = 0 then zero (a && b) else ofUnits (sum < 0) sum.natAbs 1

/-- The number with the other sign. -/
def neg : Binary64 → Binary64
  | .nan => .nan
  | .infinite negative => .infinite !negative
  | .finite negative units exact => .finite (!negative) units exact

/-- The exact difference, rounded once. -/
def sub (x y : Binary64) : Binary64 := x.add y.neg

/-! ## The interchange word -/

/-- The fraction of the word takes 52 bits. -/
def fractionLimit : Nat := Nat.pow 2 52

/-- The sign is the first bit of the word. -/
def signBit (negative : Bool) : Nat := if negative then Nat.pow 2 63 else 0

/-- The 64-bit word of a number: sign, biased exponent, fraction.  A not-a-number has none here. -/
def word : Binary64 → Option Nat
  | .nan => none
  | .infinite negative => some (signBit negative + 2047 * fractionLimit)
  | .finite negative units _ =>
    let magnitude :=
      if units < fractionLimit then units
      else
        let e := units.log2 - 52
        (e + 1) * fractionLimit + (units / Nat.pow 2 e - fractionLimit)
    some (signBit negative + magnitude)

end Binary64

end Gamebook
