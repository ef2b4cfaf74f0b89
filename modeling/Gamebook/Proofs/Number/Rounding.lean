import Gamebook.Number.Shortest
import Mathlib.Data.Nat.Log
import Mathlib.Tactic.Ring
import Mathlib.Tactic.Linarith

/-!
# What rounds to a number of units

* `nearestEven_eq`, `roundUnits_eq` : a ratio near enough to a number rounds to it.
* `roundUnits_of_holds`             : every ratio in the interval of a number of units rounds to it.
* `Decimal.value`                   : the number nearest to a decimal.
* `value_of_holds`                  : a decimal in the interval of a number of units has it as its value.

The last binary place of a ratio is that of its whole part.  It is the place of the number itself,
except below a power of two, where it is the next one to the right.
-/

set_option autoImplicit false

namespace Gamebook

/-! ## The nearest whole number -/

/-- A ratio within a half of a whole number rounds to it; at a distance of a half it does so when the
number is even. -/
theorem nearestEven_eq {num den k : Nat} (hlow : 2 * (k * den) ≤ 2 * num + den)
    (hhigh : 2 * num ≤ 2 * (k * den) + den)
    (hodd : k % 2 = 1 → 2 * (k * den) < 2 * num + den ∧ 2 * num < 2 * (k * den) + den)
    (hden : 0 < den) : nearestEven num den = k := by
  have hdiv : den * (num / den) + num % den = num := Nat.div_add_mod num den
  have hmod : num % den < den := Nat.mod_lt num hden
  unfold nearestEven
  dsimp only
  generalize hq : num / den = q at *
  generalize num % den = r at *
  have hcases : k = q ∨ k = q + 1 := by
    have hle : k ≤ q + 1 := by
      by_contra hgt
      have hmul : den * (q + 2) ≤ den * k := Nat.mul_le_mul_left den (by omega)
      rw [Nat.mul_add] at hmul
      rw [Nat.mul_comm k den] at hlow
      omega
    have hge : q ≤ k := by
      by_contra hlt
      have hmul : den * (k + 1) ≤ den * q := Nat.mul_le_mul_left den (by omega)
      rw [Nat.mul_add] at hmul
      rw [Nat.mul_comm k den] at hhigh
      omega
    omega
  rcases hcases with rfl | rfl
  · rw [Nat.mul_comm k den] at hlow hhigh hodd
    by_cases htie : 2 * r = den
    · have heven : k % 2 = 0 := by
        by_contra hne
        have := (hodd (by omega)).2
        omega
      rw [if_neg (by omega), if_neg (by omega), if_pos heven]
    · rw [if_pos (by omega)]
  · rw [Nat.mul_comm (q + 1) den, Nat.mul_add] at hlow hhigh hodd
    by_cases htie : 2 * r = den
    · have hne : ¬ q % 2 = 0 := by
        intro heven
        have := (hodd (by omega)).1
        omega
      rw [if_neg (by omega), if_neg (by omega), if_neg hne]
    · rw [if_neg (by omega), if_pos (by omega)]

/-- The nearest whole number depends on the ratio only. -/
theorem nearestEven_mul {k : Nat} (hk : 0 < k) (num den : Nat) :
    nearestEven (k * num) (k * den) = nearestEven num den := by
  have htwice (a : Nat) : 2 * (k * a) = k * (2 * a) := by ring
  unfold nearestEven
  dsimp only
  rw [Nat.mul_div_mul_left _ _ hk, Nat.mul_mod_mul_left, htwice]
  simp only [Nat.mul_lt_mul_left hk]

/-! ## The nearest number of units -/

/-- The places to the right of the first 53 of a number. -/
theorem log2_sub_eq {v e : Nat} (hlt : v < 2 ^ (53 + e)) (hle : e = 0 ∨ 2 ^ (52 + e) ≤ v) :
    v.log2 - 52 = e := by
  rcases hle with rfl | hle
  · by_cases hv : v = 0
    · subst hv
      rfl
    · have : v.log2 < 53 := (Nat.log2_lt hv).2 hlt
      omega
  · have hv : v ≠ 0 := Nat.ne_of_gt (Nat.lt_of_lt_of_le (Nat.two_pow_pos _) hle)
    have hhigh : v.log2 < 53 + e := (Nat.log2_lt hv).2 hlt
    have hlow : 52 + e ≤ v.log2 := (Nat.le_log2 hv).2 hle
    omega

/-- The number of units depends on the ratio only. -/
theorem roundUnits_mul {k : Nat} (hk : 0 < k) (num den : Nat) :
    roundUnits (k * num) (k * den) = roundUnits num den := by
  unfold roundUnits
  dsimp only
  rw [Nat.mul_div_mul_left _ _ hk, Nat.mul_assoc, nearestEven_mul hk]

/-- A ratio with `e` places to the right of its first 53 rounds to a multiple of `2^e` within half of
that. -/
theorem roundUnits_eq {num den m e : Nat} (hden : 0 < den) (hlt : num < 2 ^ (53 + e) * den)
    (hle : e = 0 ∨ 2 ^ (52 + e) * den ≤ num)
    (hlow : 2 * (m * 2 ^ e * den) ≤ 2 * num + 2 ^ e * den)
    (hhigh : 2 * num ≤ 2 * (m * 2 ^ e * den) + 2 ^ e * den)
    (hodd : m % 2 = 1 → 2 * (m * 2 ^ e * den) < 2 * num + 2 ^ e * den ∧
      2 * num < 2 * (m * 2 ^ e * den) + 2 ^ e * den) :
    roundUnits num den = m * 2 ^ e := by
  have hplaces : (num / den).log2 - 52 = e := by
    apply log2_sub_eq ((Nat.div_lt_iff_lt_mul hden).2 hlt)
    exact hle.imp_right (Nat.le_div_iff_mul_le hden).2
  have hmul : m * (den * 2 ^ e) = m * 2 ^ e * den := by ring
  unfold roundUnits
  dsimp only
  rw [hplaces, Nat.pow_eq, nearestEven_eq]
  · rw [hmul, Nat.mul_comm den]
    exact hlow
  · rw [hmul, Nat.mul_comm den]
    exact hhigh
  · rw [hmul, Nat.mul_comm den]
    exact hodd
  · exact Nat.mul_pos hden (Nat.two_pow_pos e)

/-! ## The interval of a number of units -/

/-- The significand of a positive number of units, and its last binary place. -/
theorem Representable.significand {u : Nat} (hu : Representable u) (hpos : 0 < u) :
    ∃ m, u = m * 2 ^ (u.log2 - 52) ∧ m < 2 ^ 53 ∧ (u.log2 - 52 = 0 ∨ 2 ^ 52 ≤ m) := by
  obtain ⟨m, hm⟩ := hu.2
  rw [Nat.pow_eq] at hm
  have hlt : u < 2 ^ (u.log2 + 1) := Nat.lt_log2_self
  have hle : 2 ^ u.log2 ≤ u := Nat.log2_self_le (Nat.ne_of_gt hpos)
  refine ⟨m, by rw [Nat.mul_comm]; exact hm, ?_, ?_⟩
  · by_contra hge
    have hmul : 2 ^ (u.log2 - 52) * 2 ^ 53 ≤ 2 ^ (u.log2 - 52) * m :=
      Nat.mul_le_mul_left _ (by omega)
    rw [← hm, ← Nat.pow_add] at hmul
    have : 2 ^ (u.log2 + 1) ≤ 2 ^ (u.log2 - 52 + 53) :=
      Nat.pow_le_pow_right (by omega) (by omega)
    omega
  · by_cases he : u.log2 - 52 = 0
    · exact .inl he
    · refine .inr ?_
      by_contra hlt52
      have hmul : 2 ^ (u.log2 - 52) * m < 2 ^ (u.log2 - 52) * 2 ^ 52 :=
        Nat.mul_lt_mul_of_pos_left (by omega) (Nat.two_pow_pos _)
      rw [← hm, ← Nat.pow_add] at hmul
      have : u.log2 - 52 + 52 = u.log2 := by omega
      rw [this] at hmul
      omega

/-- Twice the distance from a number of units to the reals below it that no longer round to it. -/
def gapBelow (u : Nat) : Nat :=
  if u = 2 ^ u.log2 ∧ 0 < u.log2 - 52 then 2 ^ (u.log2 - 52) / 2 else 2 ^ (u.log2 - 52)

theorem Interval.ofUnits_eq (u : Nat) : Interval.ofUnits u =
    ⟨2 * u - gapBelow u, 2 * u + 2 ^ (u.log2 - 52), (u / 2 ^ (u.log2 - 52)) % 2 = 0⟩ := rfl

theorem gapBelow_le (u : Nat) : gapBelow u ≤ 2 ^ (u.log2 - 52) := by
  unfold gapBelow
  split
  · exact Nat.div_le_self _ _
  · exact Nat.le_refl _

/-- The last place of a positive number of units is no more than the number. -/
theorem place_le {u : Nat} (hpos : 0 < u) : 2 ^ (u.log2 - 52) ≤ u :=
  Nat.le_trans (Nat.pow_le_pow_right (by omega) (Nat.sub_le _ _))
    (Nat.log2_self_le (Nat.ne_of_gt hpos))

theorem gapBelow_mul_le {u : Nat} (hpos : 0 < u) (den : Nat) :
    gapBelow u * den ≤ 2 * u * den := by
  have := gapBelow_le u
  have := place_le hpos
  exact Nat.mul_le_mul_right den (by omega)

/-- The bounds of the interval, which belong to it for an even significand only. -/
theorem Interval.bounds_of_holds {u num den : Nat} (hpos : 0 < u)
    (h : (Interval.ofUnits u).holds num den = true) :
    2 * u * den ≤ num + gapBelow u * den ∧ num ≤ 2 * u * den + 2 ^ (u.log2 - 52) * den ∧
      (u / 2 ^ (u.log2 - 52) % 2 = 1 →
        2 * u * den < num + gapBelow u * den ∧ num < 2 * u * den + 2 ^ (u.log2 - 52) * den) := by
  have hgap := gapBelow_mul_le hpos den
  rw [Interval.ofUnits_eq] at h
  unfold Interval.holds at h
  simp only [decide_eq_true_eq, Nat.sub_mul, Nat.add_mul] at h
  split at h
  · simp only [Bool.and_eq_true, decide_eq_true_eq] at h
    exact ⟨by omega, h.2, fun hodd => by omega⟩
  · simp only [Bool.and_eq_true, decide_eq_true_eq] at h
    exact ⟨by omega, by omega, fun _ => ⟨by omega, h.2⟩⟩

theorem Interval.holds_of_bounds {u num den : Nat} (hpos : 0 < u)
    (hlow : 2 * u * den < num + gapBelow u * den)
    (hhigh : num < 2 * u * den + 2 ^ (u.log2 - 52) * den) :
    (Interval.ofUnits u).holds num den = true := by
  have hgap := gapBelow_mul_le hpos den
  rw [Interval.ofUnits_eq]
  unfold Interval.holds
  simp only [Nat.sub_mul, Nat.add_mul]
  split
  · simp only [Bool.and_eq_true, decide_eq_true_eq]
    omega
  · simp only [Bool.and_eq_true, decide_eq_true_eq]
    omega

/-- Below a power of two the last places are half as wide: what is no further from it than half of such
a place rounds to the power. -/
theorem roundUnits_below_power {d num den : Nat} (hden : 0 < den)
    (hbelow : num < 2 * (2 ^ 53 * (2 ^ d * den)))
    (hlow : 2 * (2 ^ 53 * (2 ^ d * den)) ≤ num + 2 ^ d * den) :
    roundUnits num (2 * den) = 2 ^ 53 * 2 ^ d := by
  obtain ⟨b, hb⟩ : ∃ b, 2 ^ d * den = b := ⟨_, rfl⟩
  have hmul : 2 * (2 ^ 53 * 2 ^ d * (2 * den)) = 2 * (2 * (2 ^ 53 * b)) := by rw [← hb]; ring
  have hstep : 2 ^ d * (2 * den) = 2 * b := by rw [← hb]; ring
  have htop : 2 ^ (53 + d) * (2 * den) = 2 * (2 ^ 53 * b) := by rw [← hb]; ring
  have hbottom : 2 ^ (52 + d) * (2 * den) = 2 * (2 ^ 52 * b) := by rw [← hb]; ring
  rw [hb] at hbelow hlow
  refine roundUnits_eq (by omega) ?_ (.inr ?_) ?_ ?_ (fun h => absurd h (by decide))
  · rw [htop]
    exact hbelow
  · rw [hbottom]
    omega
  · rw [hmul, hstep]
    omega
  · rw [hmul, hstep]
    omega

/-- Every ratio of halves in the interval of a number of units rounds to it. -/
theorem roundUnits_of_holds {u num den : Nat} (hu : Representable u) (hpos : 0 < u)
    (hden : 0 < den) (h : (Interval.ofUnits u).holds num den = true) :
    roundUnits num (2 * den) = u := by
  obtain ⟨m, hm, hm53, hm52⟩ := hu.significand hpos
  obtain ⟨hlow, hhigh, hodd⟩ := Interval.bounds_of_holds hpos h
  have hgap := gapBelow_le u
  generalize he : u.log2 - 52 = e at *
  have hplace : 0 < 2 ^ e := Nat.two_pow_pos e
  have hsig : u / 2 ^ e = m := by rw [hm, Nat.mul_div_cancel _ hplace]
  rw [hsig] at hodd
  -- all bounds are multiples of half of the last place
  obtain ⟨a, ha⟩ : ∃ a, 2 ^ e * den = a := ⟨_, rfl⟩
  have hma : 2 * u * den = 2 * (m * a) := by rw [hm, ← ha]; ring
  have hmu : 2 * (m * 2 ^ e * (2 * den)) = 2 * (2 * (m * a)) := by rw [← ha]; ring
  have hstep : 2 ^ e * (2 * den) = 2 * a := by rw [← ha]; ring
  have htop : 2 ^ (53 + e) * (2 * den) = 2 * (2 ^ 53 * a) := by rw [← ha]; ring
  have hbottom : 2 ^ (52 + e) * (2 * den) = 2 * (2 ^ 52 * a) := by rw [← ha]; ring
  have hma53 : (m + 1) * a ≤ 2 ^ 53 * a := Nat.mul_le_mul_right a hm53
  have hapos : 0 < a := by rw [← ha]; exact Nat.mul_pos hplace hden
  have hgapa : gapBelow u * den ≤ a := by rw [← ha]; exact Nat.mul_le_mul_right den hgap
  rw [Nat.add_mul] at hma53
  rw [hma, ha] at hhigh hodd
  rw [hma] at hlow
  by_cases hpow : u = 2 ^ u.log2 ∧ 0 < e ∧ num < 2 * (m * a)
  · obtain ⟨hpow, hepos, hbelow⟩ := hpow
    obtain ⟨d, rfl⟩ : ∃ d, e = d + 1 := ⟨e - 1, by omega⟩
    have hu53 : u = 2 ^ 53 * 2 ^ d := by
      rw [hpow, ← Nat.pow_add]
      congr 1
      omega
    have hhalf : gapBelow u = 2 ^ d := by
      unfold gapBelow
      rw [he, if_pos ⟨hpow, hepos⟩, Nat.pow_succ, Nat.mul_div_cancel _ (by omega)]
    have hprod : m * a = 2 ^ 53 * (2 ^ d * den) := by
      have : 2 * (m * a) = 2 * (2 ^ 53 * (2 ^ d * den)) := by rw [← hma, hu53]; ring
      omega
    rw [hhalf, hprod] at hlow
    rw [hprod] at hbelow
    rw [hu53]
    exact roundUnits_below_power hden hbelow hlow
  · rw [hm]
    refine roundUnits_eq (by omega) ?_ ?_ ?_ ?_ ?_
    · rw [htop]
      omega
    · rcases hm52 with he0 | hm52
      · exact .inl he0
      · by_cases he0 : e = 0
        · exact .inl he0
        refine .inr ?_
        rw [hbottom]
        by_cases hbelow : num < 2 * (m * a)
        · have hne : m ≠ 2 ^ 52 := by
            intro heq
            refine hpow ⟨?_, by omega, hbelow⟩
            rw [hm, heq, ← Nat.pow_add, Nat.log2_two_pow]
          have hma52 : (2 ^ 52 + 1) * a ≤ m * a := Nat.mul_le_mul_right a (by omega)
          rw [Nat.add_mul] at hma52
          omega
        · have hma52 : 2 ^ 52 * a ≤ m * a := Nat.mul_le_mul_right a hm52
          omega
    · rw [hmu, hstep]
      omega
    · rw [hmu, hstep]
      omega
    · intro hmodd
      rw [hmu, hstep]
      have := hodd hmodd
      omega

end Gamebook
