import Gamebook.Proofs.Number.Digits
import Gamebook.Proofs.Number.Rounding

/-!
# The shortest decimal reads back

* `ofDecimal_of_reads`     : the number nearest to a decimal that reads back has these units.
* `ofDecimal_mul_pow`      : zeros moved from a significand into the exponent change nothing.
* `gridBelow_spec`         : the decimals of one exponent as a grid of units.
* `candidate?_isSome`      : with seventeen digits the grid is finer than the interval.
* `ofDecimal_shortest`     : the shortest decimal of a number reads back as the number.
-/

set_option autoImplicit false

namespace Gamebook

open Binary64 (ofDecimal ofUnits ofRatio)

/-! ## The number nearest to a decimal -/

theorem ofUnits_mul {k : Nat} (hk : 0 < k) (negative : Bool) (num den : Nat) :
    ofUnits negative (k * num) (k * den) = ofUnits negative num den := by
  unfold ofUnits
  simp only [roundUnits_mul hk]

theorem ofUnits_of_round {u num den : Nat} (hu : Representable u) (negative : Bool)
    (h : roundUnits num den = u) : ofUnits negative num den = .finite negative u hu := by
  subst h
  unfold ofUnits
  rw [dif_pos hu.1]

/-- The place of the first digit of a decimal, counted from the point. -/
def Decimal.top (d : Decimal) : Int := d.exponent + (Nat.repr d.significand).length

theorem two_pow_halves : Nat.pow 2 1075 = 2 * Nat.pow 2 1074 := by decide +kernel

theorem ofUnits_halves (negative : Bool) (num den : Nat) :
    ofUnits negative (num * Nat.pow 2 1075) (2 * den) = ofRatio negative num den := by
  have hhalves := two_pow_halves
  unfold ofRatio
  generalize Nat.pow 2 1075 = halves at *
  generalize Nat.pow 2 1074 = units at *
  rw [hhalves, Nat.mul_left_comm, ofUnits_mul (by omega)]

theorem ofRatio_mul {k : Nat} (hk : 0 < k) (negative : Bool) (num den : Nat) :
    ofRatio negative (k * num) (k * den) = ofRatio negative num den := by
  unfold ofRatio
  generalize Nat.pow 2 1074 = units
  rw [Nat.mul_assoc, ofUnits_mul hk]

/-- Within the bounds on the first digit, the value of a decimal is its ratio rounded. -/
theorem ofDecimal_eq_ofUnits (negative : Bool) {d : Decimal} (hsig : d.significand ≠ 0)
    (hlow : -400 ≤ d.top) (hhigh : d.top ≤ 400) :
    ofDecimal negative d.significand d.exponent =
      ofUnits negative d.halves.1 (2 * d.halves.2) := by
  obtain ⟨s, e⟩ := d
  unfold Decimal.top at hlow hhigh
  unfold ofDecimal Decimal.halves
  dsimp only at hsig hlow hhigh ⊢
  rw [if_neg (by omega), if_neg (by omega)]
  cases e with
  | ofNat e =>
    dsimp only
    rw [ofUnits_halves]
  | negSucc e =>
    dsimp only
    rw [ofUnits_halves]

theorem ofDecimal_zero (negative : Bool) (e : Int) :
    ofDecimal negative 0 e = Binary64.zero negative := by
  unfold ofDecimal
  dsimp only
  rw [if_pos (.inl rfl)]

theorem half_limit : 0 < Nat.pow 2 1075 ∧ Nat.pow 2 1075 < Nat.pow 10 400 := by decide +kernel

theorem unitLimit_le : 3 * unitLimit ≤ Nat.pow 10 400 * Nat.pow 2 1075 := by decide +kernel

theorem Decimal.halves_den_pos (d : Decimal) : 0 < d.halves.2 := by
  unfold Decimal.halves
  split
  · exact Nat.one_pos
  · exact Nat.pow_pos (by omega)

/-- A decimal in the interval of a number of units is at least a unit over two, and below the limit
of all magnitudes. -/
theorem Decimal.bounds_of_reads {u : Nat} (hu : Representable u) (hpos : 0 < u) {d : Decimal}
    (h : d.reads u = true) : d.halves.2 ≤ d.halves.1 ∧
      d.halves.1 < Nat.pow 10 400 * Nat.pow 2 1075 * d.halves.2 := by
  obtain ⟨hlow, hhigh, -⟩ := Interval.bounds_of_holds hpos h
  have hden := d.halves_den_pos
  have hplace := place_le hpos
  have hgap : gapBelow u * d.halves.2 ≤ u * d.halves.2 :=
    Nat.mul_le_mul_right _ (Nat.le_trans (gapBelow_le u) hplace)
  have hstep : 2 ^ (u.log2 - 52) * d.halves.2 ≤ u * d.halves.2 := Nat.mul_le_mul_right _ hplace
  have hone : 1 * d.halves.2 ≤ u * d.halves.2 := Nat.mul_le_mul_right _ hpos
  have hlimit : u * d.halves.2 < unitLimit * d.halves.2 := Nat.mul_lt_mul_of_pos_right hu.1 hden
  have hlarge := Nat.mul_le_mul_right d.halves.2 unitLimit_le
  generalize Nat.pow 10 400 * Nat.pow 2 1075 = limit at *
  rw [Nat.mul_assoc] at hlow hhigh hlarge
  omega

theorem Decimal.significand_ne_zero_of_reads {u : Nat} (hu : Representable u) (hpos : 0 < u)
    {d : Decimal} (h : d.reads u = true) : d.significand ≠ 0 := by
  intro hzero
  have hle := (d.bounds_of_reads hu hpos h).1
  have hden := d.halves_den_pos
  have : d.halves.1 = 0 := by
    unfold Decimal.halves
    rw [hzero]
    generalize Nat.pow 2 1075 = half
    split <;> simp
  omega

theorem Decimal.top_bounds_of_reads {u : Nat} (hu : Representable u) (hpos : 0 < u) {d : Decimal}
    (h : d.reads u = true) : -400 ≤ d.top ∧ d.top ≤ 400 := by
  obtain ⟨hlow, hhigh⟩ := d.bounds_of_reads hu hpos h
  have hsig := Nat.pos_of_ne_zero (d.significand_ne_zero_of_reads hu hpos h)
  obtain ⟨s, e⟩ := d
  have hdigits := pow_digits_le hsig
  have hdigits' := lt_pow_digits s
  have hone : 0 < (Nat.repr s).length := Nat.length_repr_pos
  obtain ⟨hhalfpos, hhalf⟩ := half_limit
  unfold Decimal.top
  unfold Decimal.halves at hlow hhigh
  dsimp only at hlow hhigh hdigits hdigits' hone ⊢
  generalize (Nat.repr s).length = n at *
  generalize Nat.pow 2 1075 = half at *
  simp only [Nat.pow_eq, -Nat.reducePow] at hlow hhigh hhalf
  generalize hbound : 400 = bound at *
  cases e with
  | ofNat e =>
    dsimp only at hlow hhigh ⊢
    have hlt : 10 ^ (n - 1 + e) < 10 ^ bound := by
      rw [Nat.mul_one] at hhigh
      have := Nat.lt_of_mul_lt_mul_right hhigh
      rw [Nat.pow_add]
      exact Nat.lt_of_le_of_lt (Nat.mul_le_mul_right _ hdigits) this
    have := (Nat.pow_lt_pow_iff_right (by omega)).1 hlt
    rw [Int.ofNat_eq_natCast]
    omega
  | negSucc e =>
    dsimp only at hlow hhigh ⊢
    have hlt : 10 ^ (e + 1) < 10 ^ (n + bound) := by
      rw [Nat.pow_add 10 n]
      calc 10 ^ (e + 1) ≤ s * half := hlow
        _ ≤ 10 ^ n * half := Nat.mul_le_mul_right _ (Nat.le_of_lt hdigits')
        _ < 10 ^ n * 10 ^ bound := Nat.mul_lt_mul_of_pos_left hhalf (Nat.pow_pos (by omega))
    have hlt' : 10 ^ (n - 1) < 10 ^ (bound + (e + 1)) := by
      rw [Nat.pow_add 10 bound]
      apply Nat.lt_of_le_of_lt hdigits
      rw [Nat.mul_right_comm] at hhigh
      exact Nat.lt_of_mul_lt_mul_right hhigh
    have := (Nat.pow_lt_pow_iff_right (by omega)).1 hlt
    have := (Nat.pow_lt_pow_iff_right (by omega)).1 hlt'
    rw [Int.negSucc_eq]
    omega

/-- The number nearest to a decimal in the interval of a number of units has these units. -/
theorem ofDecimal_of_reads {u : Nat} (hu : Representable u) (hpos : 0 < u) {d : Decimal}
    (h : d.reads u = true) (negative : Bool) :
    ofDecimal negative d.significand d.exponent = .finite negative u hu := by
  obtain ⟨hlow, hhigh⟩ := d.top_bounds_of_reads hu hpos h
  rw [ofDecimal_eq_ofUnits negative (d.significand_ne_zero_of_reads hu hpos h) hlow hhigh]
  exact ofUnits_of_round hu negative (roundUnits_of_holds hu hpos d.halves_den_pos h)

/-! ## Zeros at the end of a significand -/

/-- A zero at the end of the significand may be written into the exponent. -/
theorem ofDecimal_mul_ten (negative : Bool) {s : Nat} (hs : 0 < s) (e : Int) :
    ofDecimal negative (s * 10) e = ofDecimal negative s (e + 1) := by
  have htop : e + (Nat.repr (s * 10)).length = e + 1 + (Nat.repr s).length := by
    rw [length_repr_mul_ten hs]
    omega
  unfold ofDecimal
  dsimp only
  rw [htop]
  by_cases hlow : e + 1 + (Nat.repr s).length < -400
  · rw [if_pos (.inr hlow), if_pos (.inr hlow)]
  have hten : ¬ (s * 10 = 0 ∨ e + 1 + (Nat.repr s).length < -400) := by omega
  have hone : ¬ (s = 0 ∨ e + 1 + (Nat.repr s).length < -400) := by omega
  rw [if_neg hten, if_neg hone]
  by_cases hhigh : 400 < e + 1 + (Nat.repr s).length
  · rw [if_pos hhigh, if_pos hhigh]
  rw [if_neg hhigh, if_neg hhigh]
  cases e with
  | ofNat e =>
    rw [show Int.ofNat e + 1 = Int.ofNat (e + 1) from rfl]
    dsimp only
    rw [Nat.pow_eq, Nat.pow_eq, Nat.pow_succ]
    congr 1
    ring
  | negSucc e =>
    cases e with
    | zero =>
      rw [show Int.negSucc 0 + 1 = Int.ofNat 0 from rfl]
      dsimp only
      rw [← ofRatio_mul (k := 10) (by omega) negative (s * Nat.pow 10 0)]
      congr 1
      simp only [Nat.pow_eq, Nat.pow_zero, Nat.mul_one]
      exact Nat.mul_comm s 10
    | succ e =>
      rw [show Int.negSucc (e + 1) + 1 = Int.negSucc e from rfl]
      dsimp only
      rw [← ofRatio_mul (k := 10) (by omega) negative s]
      congr 1
      · exact Nat.mul_comm s 10
      · simp only [Nat.pow_eq]
        ring

theorem ofDecimal_mul_pow (negative : Bool) {s : Nat} (hs : 0 < s) (k : Nat) (e : Int) :
    ofDecimal negative (s * 10 ^ k) e = ofDecimal negative s (e + k) := by
  induction k generalizing e with
  | zero => simp
  | succ k ih =>
    rw [Nat.pow_succ, ← Nat.mul_assoc,
      ofDecimal_mul_ten negative (Nat.mul_pos hs (Nat.pow_pos (by omega))), ih]
    congr 1
    omega

theorem ofDecimal_stripZeros (negative : Bool) (fuel : Nat) (d : Decimal) :
    ofDecimal negative (stripZeros fuel d).significand (stripZeros fuel d).exponent =
      ofDecimal negative d.significand d.exponent := by
  induction fuel generalizing d with
  | zero => rfl
  | succ fuel ih =>
    unfold stripZeros
    split
    · rename_i h
      have hpos : 0 < d.significand / 10 := by omega
      rw [ih]
      dsimp only
      rw [← ofDecimal_mul_ten negative hpos]
      congr 1
      omega
    · rfl

theorem stripZeros_ne_zero (fuel : Nat) {d : Decimal} (h : d.significand ≠ 0) :
    (stripZeros fuel d).significand ≠ 0 := by
  induction fuel generalizing d with
  | zero => exact h
  | succ fuel ih =>
    unfold stripZeros
    split
    · rename_i hzero
      apply ih
      dsimp only
      omega
    · exact h

/-! ## Seventeen digits suffice -/

/-- The decimals of one exponent are the multiples of a step; `den / t` is the step in units. -/
theorem gridBelow_spec (u : Nat) (exponent : Int) :
    ∃ t, 0 < t ∧ u * t = (gridBelow u exponent).2.2 * (gridBelow u exponent).1 +
        (gridBelow u exponent).2.1 ∧
      (gridBelow u exponent).2.1 < (gridBelow u exponent).2.2 ∧
      (∀ m, (Decimal.mk m exponent).halves = (2 * (m * (gridBelow u exponent).2.2), t)) ∧
      ∀ a b : Nat, exponent = a - b →
        (gridBelow u exponent).2.2 * 10 ^ b = t * 10 ^ a * Nat.pow 2 1074 := by
  have hhalves := two_pow_halves
  have hunits : 0 < Nat.pow 2 1074 := by decide +kernel
  cases exponent with
  | ofNat e =>
    unfold gridBelow Decimal.halves
    dsimp only
    generalize Nat.pow 2 1075 = halves at *
    generalize Nat.pow 2 1074 = units at *
    rw [hhalves]
    refine ⟨1, Nat.one_pos, ?_, Nat.mod_lt _ (Nat.mul_pos (Nat.pow_pos (by omega)) hunits), ?_, ?_⟩
    · rw [Nat.mul_one, Nat.div_add_mod]
    · intro m
      rw [Nat.mul_left_comm, Nat.mul_assoc]
    · intro a b hab
      have hsum : a = e + b := by
        rw [Int.ofNat_eq_natCast] at hab
        omega
      rw [hsum, Nat.pow_add, Nat.pow_eq]
      ring
  | negSucc e =>
    unfold gridBelow Decimal.halves
    dsimp only
    generalize Nat.pow 2 1075 = halves at *
    generalize Nat.pow 2 1074 = units at *
    rw [hhalves]
    refine ⟨Nat.pow 10 (e + 1), Nat.pow_pos (by omega), ?_, Nat.mod_lt _ hunits, ?_, ?_⟩
    · rw [Nat.div_add_mod]
    · intro m
      rw [Nat.mul_left_comm]
    · intro a b hab
      have hsum : b = e + 1 + a := by
        rw [Int.negSucc_eq] at hab
        omega
      rw [hsum, Nat.pow_add, Nat.pow_eq]
      ring

/-- A number of units is at most `2^53` of the gaps below it. -/
theorem le_gapBelow {u : Nat} (hu : Representable u) (hpos : 0 < u) : u ≤ 2 ^ 53 * gapBelow u := by
  obtain ⟨m, hm, hm53, -⟩ := hu.significand hpos
  unfold gapBelow
  split
  · rename_i hpow
    obtain ⟨e, he⟩ : ∃ e, u.log2 - 52 = e + 1 := ⟨u.log2 - 53, by omega⟩
    have hlog : u.log2 = 53 + e := by omega
    have hhalf : 2 ^ (e + 1) / 2 = 2 ^ e := by rw [Nat.pow_succ, Nat.mul_div_cancel _ (by omega)]
    rw [he, hhalf, ← Nat.pow_add, ← hlog]
    exact Nat.le_of_eq hpow.1
  · calc u = m * 2 ^ (u.log2 - 52) := hm
      _ ≤ 2 ^ 53 * 2 ^ (u.log2 - 52) := Nat.mul_le_mul_right _ (Nat.le_of_lt hm53)

/-- The decimals of seventeen digits stand closer than the gap below a number of units. -/
theorem grid_lt_gap {u : Nat} (hu : Representable u) (hpos : 0 < u) {den t : Nat} (ht : 0 < t)
    (hstep : ∀ a b : Nat, pointPlace u - (17 : Nat) = a - b →
      den * 10 ^ b = t * 10 ^ a * Nat.pow 2 1074) :
    den < gapBelow u * t := by
  have hunits : Nat.pow 2 1074 ≤ Nat.pow 10 400 ∧ 0 < Nat.pow 2 1074 := by decide +kernel
  obtain ⟨hunits, hunitpos⟩ := hunits
  unfold pointPlace at hstep
  generalize hbound : 400 = bound at *
  generalize Nat.pow 2 1074 = units at *
  rw [Nat.pow_eq] at hunits hstep
  have hscaled : units ≤ u * 10 ^ bound :=
    Nat.le_trans hunits (Nat.le_mul_of_pos_left _ hpos)
  have hwhole : 0 < u * 10 ^ bound / units := Nat.div_pos hscaled hunitpos
  have hdigits := pow_digits_le hwhole
  have hlength : 0 < (Nat.repr (u * 10 ^ bound / units)).length := Nat.length_repr_pos
  generalize (Nat.repr (u * 10 ^ bound / units)).length = n at *
  rw [Nat.le_div_iff_mul_le hunitpos] at hdigits
  obtain ⟨k, rfl⟩ : ∃ k, n = k + 1 := ⟨n - 1, by omega⟩
  -- the step is at most the number over `10^16`
  have hfine : den * 10 ^ 16 ≤ u * t := by
    have hpow := hstep (k + 1) (bound + 17) (by omega)
    refine Nat.le_of_mul_le_mul_left (c := 10 ^ (bound + 1)) ?_ (Nat.pow_pos (by omega))
    calc 10 ^ (bound + 1) * (den * 10 ^ 16) = den * 10 ^ (bound + 17) := by
          rw [show bound + 17 = bound + 1 + 16 by omega, Nat.pow_add 10 (bound + 1)]
          ring
      _ = t * 10 * (10 ^ k * units) := by
          rw [hpow, Nat.pow_succ]
          ring
      _ ≤ t * 10 * (u * 10 ^ bound) := Nat.mul_le_mul_left _ hdigits
      _ = 10 ^ (bound + 1) * (u * t) := by
          rw [Nat.pow_succ]
          ring
  have hcoarse : u * t ≤ 2 ^ 53 * gapBelow u * t := Nat.mul_le_mul_right t (le_gapBelow hu hpos)
  rw [Nat.mul_assoc] at hcoarse
  have hut : 0 < u * t := Nat.mul_pos hpos ht
  omega

/-- With seventeen digits a decimal is found: the nearer neighbour lies within half a step. -/
theorem candidate?_isSome {u : Nat} (hu : Representable u) (hpos : 0 < u) :
    (candidate? u 17).isSome = true := by
  obtain ⟨t, ht, hgrid, hrest, hhalves, hstep⟩ := gridBelow_spec u (pointPlace u - (17 : Nat))
  have hgap := grid_lt_gap hu hpos ht hstep
  unfold candidate?
  dsimp only
  generalize pointPlace u - ((17 : Nat) : Int) = exponent at *
  generalize gridBelow u exponent = grid at *
  obtain ⟨q, r, den⟩ := grid
  dsimp only at hgrid hrest hhalves hgap
  have hplace : gapBelow u * t ≤ 2 ^ (u.log2 - 52) * t := Nat.mul_le_mul_right t (gapBelow_le u)
  have hut : 2 * u * t = 2 * (den * q) + 2 * r := by
    rw [Nat.mul_assoc, hgrid, Nat.mul_add]
  have hreads (m : Nat) (hlow : 2 * (den * q) + 2 * r < 2 * (m * den) + gapBelow u * t)
      (hhigh : 2 * (m * den) < 2 * (den * q) + 2 * r + 2 ^ (u.log2 - 52) * t) :
      Decimal.reads u ⟨m, exponent⟩ = true := by
    unfold Decimal.reads
    rw [hhalves]
    exact Interval.holds_of_bounds hpos (by rw [hut]; exact hlow) (by rw [hut]; exact hhigh)
  rw [List.find?_isSome]
  unfold nearerFirst
  by_cases hnear : (decide (2 * r < den) || 2 * r == den && q % 2 == 0) = true
  · refine ⟨⟨q, exponent⟩, by simp [hnear], hreads q ?_ ?_⟩
    all_goals
      simp only [Bool.or_eq_true, decide_eq_true_eq, Bool.and_eq_true, beq_iff_eq] at hnear
      rw [Nat.mul_comm q]
      omega
  · refine ⟨⟨q + 1, exponent⟩, by simp [hnear], hreads (q + 1) ?_ ?_⟩
    all_goals
      simp only [Bool.or_eq_true, decide_eq_true_eq, Bool.and_eq_true, beq_iff_eq] at hnear
      rw [Nat.mul_comm (q + 1), Nat.mul_add]
      omega

/-! ## The shortest decimal -/

/-- The shortest decimal is one in the interval, its zeros stripped. -/
theorem shortest_spec {u : Nat} (hu : Representable u) (hpos : 0 < u) :
    ∃ d : Decimal, d.reads u = true ∧ shortest u = stripZeros 20 d := by
  unfold shortest
  cases hfound : (List.range 17).findSome? fun n => candidate? u (n + 1) with
  | some d =>
    obtain ⟨n, -, hn⟩ := List.exists_of_findSome?_eq_some hfound
    exact ⟨d, List.find?_some hn, rfl⟩
  | none =>
    have hnone := List.findSome?_eq_none_iff.1 hfound 16 (by simp)
    have hsome := candidate?_isSome hu hpos
    rw [hnone] at hsome
    cases hsome

theorem shortest_significand_pos {u : Nat} (hu : Representable u) (hpos : 0 < u) :
    0 < (shortest u).significand := by
  obtain ⟨d, hd, heq⟩ := shortest_spec hu hpos
  rw [heq]
  exact Nat.pos_of_ne_zero (stripZeros_ne_zero 20 (d.significand_ne_zero_of_reads hu hpos hd))

/-- The number nearest to the shortest decimal of a number is the number. -/
theorem ofDecimal_shortest {u : Nat} (hu : Representable u) (hpos : 0 < u) (negative : Bool) :
    ofDecimal negative (shortest u).significand (shortest u).exponent = .finite negative u hu := by
  obtain ⟨d, hd, heq⟩ := shortest_spec hu hpos
  rw [heq, ofDecimal_stripZeros]
  exact ofDecimal_of_reads hu hpos hd negative

end Gamebook
