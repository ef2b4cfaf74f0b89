import Gamebook.Proofs.Number.Overflow
import Gamebook.Proofs.Number.ReadBack

/-!
# A greater decimal reads as no smaller number

* `roundUnits_mono`      : rounding keeps the order of ratios.
* `units_le_of_reads`    : so do decimals that are read back.
* `pointPlace_eq`        : where the point of a number stands.
* `exists_candidate?_of_isSome` : which candidate the shortest decimal is.
* `top_stripZeros`       : zeros moved into the exponent leave the point where it is.
* `top_shortest_le_iff`  : the point of the shortest decimal stands left of a place just when the number is
  less than the power of ten of that place.
-/

set_option autoImplicit false

namespace Gamebook

/-! ## Rounding -/

theorem nearestEven_mono {num num' : Nat} (den : Nat) (h : num ≤ num') :
    nearestEven num den ≤ nearestEven num' den := by
  have hquot : num / den ≤ num' / den := Nat.div_le_div_right h
  by_cases hlt : num / den < num' / den
  · calc nearestEven num den ≤ num / den + 1 := nearestEven_le num den
      _ ≤ num' / den := hlt
      _ ≤ nearestEven num' den := div_le_nearestEven num' den
  · have hsame : num / den = num' / den := by omega
    have hrest : num % den ≤ num' % den := by
      have hdiv := Nat.div_add_mod num den
      have hdiv' := Nat.div_add_mod num' den
      rw [← hsame] at hdiv'
      omega
    unfold nearestEven
    dsimp only
    rw [← hsame]
    generalize num / den = q
    generalize num % den = r at *
    generalize num' % den = r' at *
    split_ifs <;> omega

/-- Of two ratios of one denominator the greater rounds to no less. -/
theorem roundUnits_mono_num {num num' den : Nat} (h : num ≤ num') :
    roundUnits num den ≤ roundUnits num' den := by
  have hquot : num / den ≤ num' / den := Nat.div_le_div_right h
  have hlog : (num / den).log2 ≤ (num' / den).log2 := by
    by_cases hzero : num / den = 0
    · rw [hzero]
      exact Nat.zero_le _
    · have hne : num' / den ≠ 0 :=
        Nat.ne_of_gt (Nat.lt_of_lt_of_le (Nat.pos_of_ne_zero hzero) hquot)
      exact (Nat.le_log2 hne).2 (Nat.le_trans (Nat.log2_self_le hzero) hquot)
  have hround := roundUnits_significand_le num den
  unfold roundUnits
  dsimp only
  simp only [Nat.pow_eq] at hround ⊢
  by_cases hplace : (num / den).log2 - 52 = (num' / den).log2 - 52
  · rw [hplace]
    exact Nat.mul_le_mul_right _ (nearestEven_mono _ h)
  -- the greater ratio has its last place further left, and there all its 53 bits
  · obtain ⟨f, hf⟩ : ∃ f, (num' / den).log2 = 52 + f := ⟨(num' / den).log2 - 52, by omega⟩
    have hne : num' / den ≠ 0 := by
      intro hzero
      rw [hzero, Nat.log2_zero] at hf hplace
      omega
    have hbits : 2 ^ 52 ≤ num' / (den * 2 ^ f) := by
      rw [← Nat.div_div_eq_div_mul, Nat.le_div_iff_mul_le (Nat.two_pow_pos f), ← Nat.pow_add, ← hf]
      exact Nat.log2_self_le hne
    have hsub : (num' / den).log2 - 52 = f := by omega
    rw [hsub]
    calc nearestEven num (den * 2 ^ ((num / den).log2 - 52)) * 2 ^ ((num / den).log2 - 52)
        ≤ 2 ^ 53 * 2 ^ ((num / den).log2 - 52) := Nat.mul_le_mul_right _ hround
      _ = 2 ^ (53 + ((num / den).log2 - 52)) := (Nat.pow_add ..).symm
      _ ≤ 2 ^ (52 + f) := Nat.pow_le_pow_right (by omega) (by omega)
      _ = 2 ^ 52 * 2 ^ f := Nat.pow_add ..
      _ ≤ nearestEven num' (den * 2 ^ f) * 2 ^ f :=
        Nat.mul_le_mul_right _ (Nat.le_trans hbits (div_le_nearestEven _ _))

/-- The greater ratio rounds to no less. -/
theorem roundUnits_mono {num den num' den' : Nat} (hden : 0 < den) (hden' : 0 < den')
    (h : num * den' ≤ num' * den) : roundUnits num den ≤ roundUnits num' den' := by
  rw [← roundUnits_mul hden' num den, ← roundUnits_mul hden num' den', Nat.mul_comm den' den]
  apply roundUnits_mono_num
  rw [Nat.mul_comm den' num, Nat.mul_comm den num']
  exact h

/-! ## Decimals -/

/-- A decimal in halves of a unit, with the powers of ten on both sides. -/
theorem Decimal.halves_mul_pow {d : Decimal} {a n : Nat} (h : d.exponent = a - n) :
    d.halves.1 * 10 ^ n = d.significand * 10 ^ a * Nat.pow 2 1075 * d.halves.2 := by
  obtain ⟨s, e⟩ := d
  unfold Decimal.halves
  dsimp only at h ⊢
  generalize Nat.pow 2 1075 = half
  cases e with
  | ofNat e =>
    have hsum : a = e + n := by
      rw [Int.ofNat_eq_natCast] at h
      omega
    dsimp only
    rw [hsum, Nat.pow_add, Nat.pow_eq]
    ring
  | negSucc e =>
    have hsum : n = e + 1 + a := by
      rw [Int.negSucc_eq] at h
      omega
    dsimp only
    rw [hsum, Nat.pow_add, Nat.pow_eq]
    ring

/-- Of two decimals that read back the greater has no fewer units. -/
theorem units_le_of_reads {u v : Nat} (hu : Representable u) (hupos : 0 < u) (hv : Representable v)
    (hvpos : 0 < v) {c d : Decimal} (hc : c.reads u = true) (hd : d.reads v = true) {a b n : Nat}
    (ha : c.exponent = a - n) (hb : d.exponent = b - n)
    (h : c.significand * 10 ^ a ≤ d.significand * 10 ^ b) : u ≤ v := by
  have hcden := c.halves_den_pos
  have hdden := d.halves_den_pos
  rw [← roundUnits_of_holds hu hupos hcden hc, ← roundUnits_of_holds hv hvpos hdden hd]
  apply roundUnits_mono (by omega) (by omega)
  have hcross : c.halves.1 * d.halves.2 ≤ d.halves.1 * c.halves.2 := by
    refine Nat.le_of_mul_le_mul_left (c := 10 ^ n) ?_ (Nat.pow_pos (by omega))
    have hcscale := Decimal.halves_mul_pow ha
    have hdscale := Decimal.halves_mul_pow hb
    generalize Nat.pow 2 1075 = half at *
    calc 10 ^ n * (c.halves.1 * d.halves.2) = c.halves.1 * 10 ^ n * d.halves.2 := by ring
      _ = c.significand * 10 ^ a * (half * c.halves.2 * d.halves.2) := by rw [hcscale]; ring
      _ ≤ d.significand * 10 ^ b * (half * c.halves.2 * d.halves.2) := Nat.mul_le_mul_right _ h
      _ = d.halves.1 * 10 ^ n * c.halves.2 := by rw [hdscale]; ring
      _ = 10 ^ n * (d.halves.1 * c.halves.2) := by ring
  rw [Nat.mul_left_comm, Nat.mul_left_comm d.halves.1]
  omega

/-! ## The place of the point -/

theorem length_repr_eq {n k : Nat} (hlow : 10 ^ k ≤ n) (hhigh : n < 10 ^ (k + 1)) :
    (Nat.repr n).length = k + 1 := by
  have hle : (Nat.repr n).length ≤ k + 1 := (Nat.length_repr_le_iff (Nat.succ_pos k)).2 hhigh
  have hlt : 10 ^ k < 10 ^ (Nat.repr n).length := Nat.lt_of_le_of_lt hlow (lt_pow_digits n)
  have := (Nat.pow_lt_pow_iff_right (by omega)).1 hlt
  omega

/-- The place of the point of a number from its digits down to the 400th place behind the point. -/
theorem pointPlace_eq {u n k : Nat} (hn : u * Nat.pow 10 400 / Nat.pow 2 1074 = n)
    (hlow : 10 ^ k ≤ n) (hhigh : n < 10 ^ (k + 1)) : pointPlace u = (k : Int) - 399 := by
  have hlength := length_repr_eq hlow hhigh
  unfold pointPlace
  rw [hn]
  omega

/-- The shortest decimal has no more digits than any candidate. -/
theorem exists_candidate?_of_isSome {u k : Nat} (hk : k < 17)
    (h : (candidate? u (k + 1)).isSome = true) :
    ∃ n d, n ≤ k ∧ candidate? u (n + 1) = some d ∧ shortest u = stripZeros 20 d := by
  have hmem : k ∈ List.range 17 := List.mem_range.2 hk
  cases hfound : (List.range 17).findSome? fun n => candidate? u (n + 1) with
  | none =>
    rw [List.findSome?_eq_none_iff.1 hfound k hmem] at h
    cases h
  | some d =>
    obtain ⟨before, n, after, hrange, hd, hnone⟩ := List.findSome?_eq_some_iff.1 hfound
    refine ⟨n, d, ?_, hd, ?_⟩
    · by_contra hlt
      have hsorted : (before ++ n :: after).Pairwise (· < ·) := hrange ▸ List.pairwise_lt_range
      rw [hrange, List.mem_append, List.mem_cons] at hmem
      rcases hmem with hbefore | rfl | hafter
      · rw [hnone k hbefore] at h
        cases h
      · omega
      · have := (List.pairwise_cons.1 (List.pairwise_append.1 hsorted).2.1).1 k hafter
        omega
    · unfold shortest
      dsimp only
      rw [hfound, Option.getD_some]

/-- Zeros moved from the significand into the exponent leave the point where it is. -/
theorem top_stripZeros (fuel : Nat) (d : Decimal) : (stripZeros fuel d).top = d.top := by
  induction fuel generalizing d with
  | zero => rfl
  | succ fuel ih =>
    unfold stripZeros
    split
    · rename_i h
      have hten : d.significand = d.significand / 10 * 10 := by omega
      have hlength := length_repr_mul_ten (n := d.significand / 10) (by omega)
      rw [← hten] at hlength
      rw [ih]
      unfold Decimal.top
      dsimp only
      rw [hlength]
      omega
    · rfl

/-- The point of the shortest decimal stands left of a place just when the number is less than the power
of ten of that place. -/
theorem top_shortest_le_iff {u v : Nat} (hu : Representable u) (hupos : 0 < u) (hv : Representable v)
    (hvpos : 0 < v) {t : Int} (hreads : Decimal.reads v ⟨1, t⟩ = true)
    (hshortest : shortest v = ⟨1, t⟩) : (shortest u).top ≤ t ↔ u < v := by
  obtain ⟨d, hd, heq⟩ := shortest_spec hu hupos
  have hsig := Nat.pos_of_ne_zero (d.significand_ne_zero_of_reads hu hupos hd)
  have hlow := pow_digits_le hsig
  have hhigh := lt_pow_digits d.significand
  have hlength : 0 < (Nat.repr d.significand).length := Nat.length_repr_pos
  have htop : (shortest u).top = d.exponent + (Nat.repr d.significand).length := by
    rw [heq, top_stripZeros]
    rfl
  -- both exponents over one power of ten
  obtain ⟨n, a, b, ha, hb⟩ : ∃ n a b : Nat, d.exponent = a - n ∧ t = b - n :=
    ⟨d.exponent.natAbs + t.natAbs, (d.exponent + d.exponent.natAbs + t.natAbs).toNat,
      (t + d.exponent.natAbs + t.natAbs).toNat, by omega, by omega⟩
  rw [htop]
  constructor
  · intro hle
    have huv : u ≤ v := by
      refine units_le_of_reads hu hupos hv hvpos hd hreads ha hb ?_
      calc d.significand * 10 ^ a ≤ 10 ^ (Nat.repr d.significand).length * 10 ^ a :=
            Nat.mul_le_mul_right _ (Nat.le_of_lt hhigh)
        _ = 10 ^ ((Nat.repr d.significand).length + a) := (Nat.pow_add ..).symm
        _ ≤ 10 ^ b := Nat.pow_le_pow_right (by omega) (by omega)
        _ = 1 * 10 ^ b := (Nat.one_mul _).symm
    have hne : u ≠ v := by
      intro hsame
      rw [hsame, hshortest] at htop
      unfold Decimal.top at htop
      have hone : (Nat.repr 1).length = 1 := by decide
      dsimp only at htop
      omega
    omega
  · intro hlt
    by_contra hgt
    have hvu : v ≤ u := by
      refine units_le_of_reads hv hvpos hu hupos hreads hd hb ha ?_
      calc 1 * 10 ^ b = 10 ^ b := Nat.one_mul _
        _ ≤ 10 ^ ((Nat.repr d.significand).length - 1 + a) :=
          Nat.pow_le_pow_right (by omega) (by omega)
        _ = 10 ^ ((Nat.repr d.significand).length - 1) * 10 ^ a := Nat.pow_add ..
        _ ≤ d.significand * 10 ^ a := Nat.mul_le_mul_right _ hlow
    omega

end Gamebook
