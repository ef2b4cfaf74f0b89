import Gamebook.Number.Literal
import Gamebook.Proofs.Number.Digits
import Gamebook.Proofs.Number.Rounding

/-!
# Whole numbers that no number is near enough to

* `le_roundUnits_iff`      : from the middle between the last number below a power of two and the
  power, a number of units rounds to the power or beyond.
* `overflowBound`          : the first whole number that rounds to an infinity.
* `ofInt?_eq_none_iff`     : a whole number is refused from there on.
* `overflows`              : a text spells such a number with a base mark.
* `numberOfText_eq_error_iff` : these texts, and no others, are refused as numbers.
-/

set_option autoImplicit false

namespace Gamebook

open Text

/-! ## Rounding at a power of two -/

theorem div_le_nearestEven (num den : Nat) : num / den ≤ nearestEven num den := by
  unfold nearestEven
  dsimp only
  split
  · omega
  · split
    · omega
    · split <;> omega

/-- The nearest whole number is at most a half above. -/
theorem nearestEven_mul_le {den : Nat} (hden : 0 < den) (num : Nat) :
    2 * (nearestEven num den * den) ≤ 2 * num + den := by
  have hdiv : num / den * den + num % den = num := Nat.div_add_mod' num den
  have hmod : num % den < den := Nat.mod_lt num hden
  unfold nearestEven
  dsimp only
  split
  · omega
  · split
    · rw [Nat.add_mul]
      omega
    · split
      · omega
      · rw [Nat.add_mul]
        omega

/-- What lies at a power of two or above it rounds to no less. -/
theorem le_roundUnits {v e : Nat} (h : 2 ^ (53 + e) ≤ v) : 2 ^ (53 + e) ≤ roundUnits v 1 := by
  have hv : v ≠ 0 := Nat.ne_of_gt (Nat.lt_of_lt_of_le (Nat.two_pow_pos _) h)
  have hlog : 53 + e ≤ v.log2 := (Nat.le_log2 hv).2 h
  obtain ⟨f, hf⟩ : ∃ f, v.log2 = 52 + f := ⟨v.log2 - 52, by omega⟩
  have hlow : 2 ^ 52 * 2 ^ f ≤ v := by
    rw [← Nat.pow_add, ← hf]
    exact Nat.log2_self_le hv
  have hquot : 2 ^ 52 ≤ v / 2 ^ f := (Nat.le_div_iff_mul_le (Nat.two_pow_pos f)).2 hlow
  have hround : roundUnits v 1 = nearestEven v (2 ^ f) * 2 ^ f := by
    unfold roundUnits
    dsimp only
    rw [Nat.div_one, hf, Nat.add_sub_cancel_left, Nat.one_mul, Nat.pow_eq]
  rw [hround]
  calc 2 ^ (53 + e) ≤ 2 ^ (52 + f) := Nat.pow_le_pow_right (by omega) (by omega)
    _ = 2 ^ 52 * 2 ^ f := Nat.pow_add ..
    _ ≤ nearestEven v (2 ^ f) * 2 ^ f :=
      Nat.mul_le_mul_right _ (Nat.le_trans hquot (div_le_nearestEven _ _))

/-- From the middle between the last number below a power of two and the power on, numbers of units
round to the power or beyond. -/
theorem le_roundUnits_iff (v e : Nat) :
    2 ^ (53 + e) ≤ roundUnits v 1 ↔ 2 * 2 ^ (53 + e) ≤ 2 * v + 2 ^ e := by
  have hsplit : 2 ^ (53 + e) = 2 * 2 ^ (52 + e) := by
    rw [← Nat.pow_succ', Nat.succ_add]
  have hplace : 2 ^ e ≤ 2 ^ (52 + e) := Nat.pow_le_pow_right (by omega) (by omega)
  have hpos : 0 < 2 ^ e := Nat.two_pow_pos e
  by_cases hv : 2 ^ (53 + e) ≤ v
  · exact ⟨fun _ => by omega, fun _ => le_roundUnits hv⟩
  constructor
  · intro h
    have hbelow : 2 * roundUnits v 1 ≤ 2 * v + 2 ^ (v.log2 - 52) := by
      have := nearestEven_mul_le (Nat.two_pow_pos (v.log2 - 52)) v
      unfold roundUnits
      dsimp only
      rw [Nat.div_one, Nat.one_mul, Nat.pow_eq]
      exact this
    have hlast : 2 ^ (v.log2 - 52) ≤ 2 ^ e := by
      apply Nat.pow_le_pow_right (by omega)
      by_cases hzero : v = 0
      · rw [hzero]
        exact Nat.zero_le e
      · have : v.log2 < 53 + e := (Nat.log2_lt hzero).2 (by omega)
        omega
    omega
  · intro h
    have htop : 2 ^ 53 * 2 ^ e = 2 ^ (53 + e) := (Nat.pow_add ..).symm
    have hround : roundUnits v 1 = 2 ^ 53 * 2 ^ e := by
      apply roundUnits_eq (by omega)
      · omega
      · exact .inr (by omega)
      · omega
      · omega
      · exact fun hodd => absurd hodd (by decide)
    rw [hround, htop]

/-! ## Refused whole numbers -/

/-- The middle between the greatest finite number and the next power of two. -/
def overflowBound : Nat := Nat.pow 2 1024 - Nat.pow 2 970

/-- The middle below the power `t` of two, for a whole number that is `2^k` units. -/
theorem pow_le_roundUnits_iff {n places t k e l : Nat} (hbits : places = 53 + e)
    (htop : places = t + k) (hlast : e = l + 1 + k) :
    Nat.pow 2 places ≤ roundUnits (n * Nat.pow 2 k) 1 ↔ Nat.pow 2 t - Nat.pow 2 l ≤ n := by
  simp only [Nat.pow_eq]
  have hpower : 2 ^ e = 2 * (2 ^ l * 2 ^ k) := by
    rw [hlast]
    ring
  have hscale : 2 * (2 ^ t * 2 ^ k) ≤ 2 * (n * 2 ^ k) + 2 * (2 ^ l * 2 ^ k) ↔
      2 ^ t * 2 ^ k ≤ (n + 2 ^ l) * 2 ^ k := by
    rw [Nat.add_mul]
    omega
  rw [hbits, le_roundUnits_iff, ← hbits, htop, hpower, Nat.pow_add, hscale,
    Nat.mul_le_mul_right_iff (Nat.two_pow_pos k)]
  exact Nat.sub_le_iff_le_add.symm

/-- A number of units is infinite from the limit on. -/
theorem unlessInfinite_ofUnits (negative : Bool) (num den : Nat) :
    (Binary64.ofUnits negative num den).unlessInfinite = none ↔
      unitLimit ≤ roundUnits num den := by
  unfold Binary64.ofUnits
  split
  · rename_i h
    exact iff_of_false (fun h' => by cases h') (Nat.not_le.2 h)
  · rename_i h
    exact iff_of_true rfl (Nat.not_lt.1 h)

/-- A whole number is refused exactly when it lies at the middle or beyond. -/
theorem ofInt?_eq_none_iff (n : Int) :
    Binary64.ofInt? n = none ↔ overflowBound ≤ n.natAbs := by
  unfold Binary64.ofInt? Binary64.ofRatio overflowBound
  refine (unlessInfinite_ofUnits _ _ _).trans ?_
  unfold unitLimit
  exact pow_le_roundUnits_iff (e := 2045) rfl rfl rfl

theorem numberOfInt_eq_error_iff (n : Int) (fault : NumberFault) :
    numberOfInt n = .error fault ↔ overflowBound ≤ n.natAbs := by
  rw [← ofInt?_eq_none_iff]
  unfold numberOfInt
  generalize Binary64.ofInt? n = nearest
  cases fault
  cases nearest with
  | none => exact iff_of_true rfl rfl
  | some x => exact iff_of_false (fun h => by cases h) (fun h => by cases h)

/-! ## Refused texts -/

/-- A text spells, with a base mark, a whole number that rounds to an infinity. -/
def overflows (text : String) : Bool :=
  (radixLiteral? (trimList isBlank text.toList)).any fun n => overflowBound ≤ n

/-- A literal with a base mark is its zero, the mark and its digits. -/
theorem radixLiteral?_shape {cs : List Char} {n : Nat} (h : radixLiteral? cs = some n) :
    ∃ mark rest, cs = '0' :: mark :: rest ∧ mark ∈ ['x', 'X', 'o', 'O', 'b', 'B'] := by
  unfold radixLiteral? at h
  split at h
  · rename_i mark rest
    refine ⟨mark, rest, rfl, ?_⟩
    simp only [beq_iff_eq, Bool.or_eq_true] at h
    split at h
    · rename_i hx
      rcases hx with rfl | rfl <;> simp
    · split at h
      · rename_i ho
        rcases ho with rfl | rfl <;> simp
      · split at h
        · rename_i hb
          rcases hb with rfl | rfl <;> simp
        · cases h
  · cases h

/-- A literal with a base mark is no decimal literal. -/
theorem read?_of_radixLiteral? {cs : List Char} {n : Nat} (h : radixLiteral? cs = some n) :
    DecimalLiteral.read? cs = none := by
  obtain ⟨mark, rest, rfl, hmark⟩ := radixLiteral?_shape h
  have hdigit : isDecimalDigit mark = false := by
    simp only [List.mem_cons, List.not_mem_nil, or_false] at hmark
    rcases hmark with rfl | rfl | rfl | rfl | rfl | rfl <;> decide +kernel
  have hzero : isDecimalDigit '0' = true := by decide +kernel
  simp only [List.mem_cons, List.not_mem_nil, or_false] at hmark
  unfold DecimalLiteral.read?
  rcases hmark with rfl | rfl | rfl | rfl | rfl | rfl <;>
    simp [DecimalLiteral.sign, DecimalLiteral.digits, DecimalLiteral.fractionPart,
      DecimalLiteral.exponentPart, hdigit, hzero]

/-- A text is refused as a number exactly when it spells, with a base mark, a whole number that rounds
to an infinity. -/
theorem numberOfText_eq_error_iff (text : String) (fault : NumberFault) :
    numberOfText text = .error fault ↔ overflows text = true := by
  unfold numberOfText overflows
  dsimp only
  generalize trimList isBlank text.toList = cs
  cases hradix : radixLiteral? cs with
  | some n =>
    have hread := read?_of_radixLiteral? hradix
    obtain ⟨mark, rest, rfl, -⟩ := radixLiteral?_shape hradix
    have hword (rest' : List Char) (c : Char) (hc : c ≠ '0') :
        (('0' :: mark :: rest) == c :: rest') = false := by
      simp [Ne.symm hc]
    have hplus : (('0' :: mark :: rest) == "Infinity".toList) = false := hword _ 'I' (by decide)
    have hsigned : (('0' :: mark :: rest) == "+Infinity".toList) = false := hword _ '+' (by decide)
    have hminus : (('0' :: mark :: rest) == "-Infinity".toList) = false := hword _ '-' (by decide)
    simp only [hread, hplus, hsigned, hminus, Bool.or_self, Option.any_some, decide_eq_true_eq]
    simpa using numberOfInt_eq_error_iff n fault
  | none =>
    refine iff_of_false ?_ (fun h => by cases h)
    dsimp only
    intro h
    split at h
    · cases h
    · split at h
      · cases h
      · split at h
        · cases h
        · split at h <;> cases h

end Gamebook
