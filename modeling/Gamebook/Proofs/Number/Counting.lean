import Gamebook.Proofs.Json.Number
import Gamebook.Proofs.Number.Written

/-!
# Whole numbers are counted exactly

Up to `2^53` in magnitude every whole number is a binary64 number.  It is read from its plain digits, written
as them, and added without rounding.

* `roundUnits_self`      : a representable number of units is not rounded.
* `wholeNumber`          : a whole number as a binary64 number.
* `numberOfText_intText` : it is read from its digits.
* `wholeNumber_add`      : sums within the limit are exact.
* `shortest_whole`       : the shortest decimal of a whole number has no fraction and loses no digit.
* `textOfNumber_whole`   : a whole number is written as its digits.
-/

set_option autoImplicit false

namespace Gamebook

open Binary64 (ofDecimal ofRatio ofUnits)
open Json (intText signChars)

/-! ## Whole numbers -/

/-- The number one in units. -/
def oneUnits : Nat := Nat.pow 2 1074

theorem oneUnits_eq : Nat.pow 2 1074 = oneUnits := by
  unfold oneUnits
  exact Eq.refl _

theorem oneUnits_pos : 0 < oneUnits := by decide +kernel

theorem ofRatio_eq (negative : Bool) (num den : Nat) :
    ofRatio negative num den = ofUnits negative (num * oneUnits) den := by
  unfold ofRatio
  rw [oneUnits_eq]

theorem nearestEven_self (m : Nat) {den : Nat} (hden : 0 < den) : nearestEven (m * den) den = m := by
  unfold nearestEven
  dsimp only
  rw [Nat.mul_mod_left, Nat.mul_div_cancel m hden, if_pos (by omega)]

theorem roundUnits_self {u : Nat} (hu : Representable u) : roundUnits u 1 = u := by
  obtain ⟨m, hm⟩ := hu.2
  unfold roundUnits
  dsimp only
  rw [Nat.div_one, Nat.one_mul]
  have hpos : 0 < Nat.pow 2 (u.log2 - 52) := Nat.two_pow_pos _
  generalize Nat.pow 2 (u.log2 - 52) = step at *
  rw [hm, Nat.mul_comm step m, nearestEven_self m hpos]

/-- Whole numbers up to `2^53` are representable. -/
theorem representable_whole {k : Nat} (hk : k ≤ 2 ^ 53) : Representable (k * oneUnits) := by
  have hlimit : 2 ^ 53 * oneUnits < unitLimit := by decide +kernel
  have hdvd (unit p : Nat) (h : Nat.pow 2 p = unit) :
      Nat.pow 2 ((k * unit).log2 - 52) ∣ k * unit := by
    rw [← h]
    exact dvd_of_significand_le hk
  exact ⟨Nat.lt_of_le_of_lt (Nat.mul_le_mul_right oneUnits hk) hlimit, hdvd _ _ oneUnits_eq⟩

def wholeNumber (n : Int) (hn : n.natAbs ≤ 2 ^ 53) : Binary64 :=
  .finite (decide (n < 0)) (n.natAbs * oneUnits) (representable_whole hn)

section Whole

variable {n : Int} (hn : n.natAbs ≤ 2 ^ 53)

theorem ofUnits_whole :
    ofUnits (decide (n < 0)) (n.natAbs * oneUnits) 1 = wholeNumber n hn :=
  ofUnits_of_round (representable_whole hn) _ (roundUnits_self (representable_whole hn))

theorem wholeNumber_zero : wholeNumber 0 (by decide) = .zero false := by
  unfold wholeNumber Binary64.zero
  simp only [Int.natAbs_zero, Nat.zero_mul, Int.lt_irrefl, decide_false]

theorem ofDecimal_whole : ofDecimal (decide (n < 0)) n.natAbs 0 = wholeNumber n hn := by
  by_cases hzero : n = 0
  · subst hzero
    exact (ofDecimal_zero false 0).trans wholeNumber_zero.symm
  have hpos : 0 < n.natAbs := by omega
  have hlength : (Nat.repr n.natAbs).length ≤ 16 := by
    rw [Nat.length_repr_le_iff (by omega)]
    exact Nat.lt_of_le_of_lt hn (by decide)
  unfold ofDecimal
  dsimp only
  rw [if_neg (by omega), if_neg (by omega), ← ofUnits_whole hn, ← ofRatio_eq]
  exact congrArg (ofRatio _ · 1) (Nat.mul_one _)

/-- A whole number is read from its digits. -/
theorem numberOfText_intText : numberOfText (intText n) = .ok (wholeNumber n hn) := by
  have hsign : Sign (signChars (decide (n < 0))) (decide (n < 0)) := by
    by_cases hneg : n < 0
    · rw [decide_eq_true hneg]
      exact .minus
    · rw [decide_eq_false hneg]
      exact .none
  have hnumeral : DecimalNumeral asciiDigit? (intText n).toList false
      ⟨decide (n < 0), n.natAbs, 0⟩ := by
    rw [Json.intText_toList]
    exact .positional hsign (.whole (repr_ne_nil _) (spells_repr _))
  rw [numberOfText_of_ascii hnumeral, ← ofDecimal_whole hn]
  rfl

theorem wholeNumber_congr {m : Int} (hm : m.natAbs ≤ 2 ^ 53) (h : m = n) :
    wholeNumber m hm = wholeNumber n hn := by
  subst h
  rfl

/-- Sums within the limit are exact, and zero has no minus. -/
theorem wholeNumber_add {m : Int} (hm : m.natAbs ≤ 2 ^ 53) (hsum : (m + n).natAbs ≤ 2 ^ 53) :
    (wholeNumber m hm).add (wholeNumber n hn) = wholeNumber (m + n) hsum := by
  have hunit : (0 : Int) < oneUnits := Int.ofNat_lt.2 oneUnits_pos
  rw [← ofUnits_whole hsum]
  unfold wholeNumber Binary64.add
  dsimp only
  rw [signed_whole, signed_whole, ← Int.add_mul]
  by_cases hzero : m + n = 0
  · have hsign : (decide (m < 0) && decide (n < 0)) = false := by
      rw [Bool.and_eq_false_iff, decide_eq_false_iff_not, decide_eq_false_iff_not]
      omega
    rw [if_pos (by rw [hzero, Int.zero_mul]), hsign, ofUnits_whole hsum,
      wholeNumber_congr (by decide) hsum hzero, wholeNumber_zero]
  · have hsign : decide ((m + n) * (oneUnits : Int) < 0) = decide (m + n < 0) := by
      rw [decide_eq_decide]
      constructor
      · intro hneg
        by_contra hge
        have := Int.mul_nonneg (Int.not_lt.1 hge) (Int.le_of_lt hunit)
        omega
      · exact fun hneg => Int.mul_neg_of_neg_of_pos hneg hunit
    rw [if_neg (Int.mul_ne_zero hzero (Int.ne_of_gt hunit)), hsign, Int.natAbs_mul,
      Int.natAbs_natCast]

end Whole

/-! ## The shortest decimal of a whole number -/

section Shortest

theorem gapBelow_pos (u : Nat) : 0 < gapBelow u := by
  unfold gapBelow
  split
  · rename_i h
    obtain ⟨e, he⟩ : ∃ e, u.log2 - 52 = e + 1 := ⟨u.log2 - 53, by omega⟩
    rw [he, Nat.pow_succ, Nat.mul_div_cancel _ (by omega)]
    exact Nat.two_pow_pos e
  · exact Nat.two_pow_pos _

/-- A decimal that is a number of units reads back as it. -/
theorem reads_of_exact {u : Nat} (hpos : 0 < u) {d : Decimal}
    (h : d.halves.1 = 2 * u * d.halves.2) : d.reads u = true := by
  have hden := d.halves_den_pos
  have hbelow : 0 < gapBelow u * d.halves.2 := Nat.mul_pos (gapBelow_pos u) hden
  have habove : 0 < 2 ^ (u.log2 - 52) * d.halves.2 := Nat.mul_pos (Nat.two_pow_pos _) hden
  exact Interval.holds_of_bounds hpos (by omega) (by omega)

/-- A candidate has as many digits as are asked for, and reads back. -/
theorem candidate?_spec {u n : Nat} {d : Decimal} (h : candidate? u n = some d) :
    d.exponent = pointPlace u - n ∧ d.reads u = true := by
  unfold candidate? at h
  dsimp only at h
  refine ⟨?_, List.find?_some h⟩
  obtain ⟨m, -, hm⟩ := List.mem_map.1 (List.mem_of_find?_eq_some h)
  rw [← hm]

/-- Zeros are moved from the significand into the exponent. -/
theorem stripZeros_spec (fuel : Nat) (d : Decimal) :
    ∃ zeros : Nat, (stripZeros fuel d).exponent = d.exponent + zeros ∧
      d.significand = (stripZeros fuel d).significand * 10 ^ zeros := by
  induction fuel generalizing d with
  | zero => exact ⟨0, (Int.add_zero _).symm, (Nat.mul_one _).symm⟩
  | succ fuel ih =>
    unfold stripZeros
    split
    · obtain ⟨zeros, hexponent, hsig⟩ := ih ⟨d.significand / 10, d.exponent + 1⟩
      dsimp only at hexponent hsig
      refine ⟨zeros + 1, by omega, ?_⟩
      rw [Nat.pow_succ, ← Nat.mul_assoc, ← hsig]
      omega
    · exact ⟨0, (Int.add_zero _).symm, (Nat.mul_one _).symm⟩

/-- The last binary place of a whole number is at most one, and two for the limit itself. -/
theorem places_whole {k p unit : Nat} (hunit : Nat.pow 2 p = unit) (hk : k ≤ 2 ^ 53) (hpos : 0 < k) :
    gapBelow (k * unit) ≤ unit ∧ (2 ^ ((k * unit).log2 - 52) ≤ unit ∨
      k = 2 ^ 53 ∧ 2 ^ ((k * unit).log2 - 52) = 2 * unit) := by
  rw [Nat.pow_eq] at hunit
  subst hunit
  by_cases htop : k = 2 ^ 53
  · have hu : k * 2 ^ p = 2 ^ (53 + p) := by rw [htop, Nat.pow_add]
    have hlog : (k * 2 ^ p).log2 - 52 = p + 1 := by
      rw [hu, Nat.log2_two_pow]
      omega
    have hgap : gapBelow (k * 2 ^ p) = 2 ^ p := by
      unfold gapBelow
      rw [hlog, if_pos ⟨by rw [hu, Nat.log2_two_pow], by omega⟩, Nat.pow_succ,
        Nat.mul_div_cancel _ (by omega)]
    refine ⟨Nat.le_of_eq hgap, .inr ⟨htop, ?_⟩⟩
    rw [hlog, Nat.pow_succ, Nat.mul_comm]
  · have hlt : k * 2 ^ p < 2 ^ (53 + p) := by
      rw [Nat.pow_add]
      exact Nat.mul_lt_mul_of_pos_right (by omega) (Nat.two_pow_pos p)
    have hlog : (k * 2 ^ p).log2 < 53 + p :=
      (Nat.log2_lt (Nat.ne_of_gt (Nat.mul_pos hpos (Nat.two_pow_pos p)))).2 hlt
    have hplace : 2 ^ ((k * 2 ^ p).log2 - 52) ≤ 2 ^ p :=
      Nat.pow_le_pow_right (by omega) (by omega)
    exact ⟨Nat.le_trans (gapBelow_le _) hplace, .inl hplace⟩

variable {k : Nat} (hk : k ≤ 2 ^ 53) (hpos : 0 < k)

include hk hpos in
/-- A decimal without a fraction that reads back as a whole number is it, but for the one above the limit. -/
theorem eq_of_reads {s e : Nat} (h : Decimal.reads (k * oneUnits) ⟨s, e⟩ = true) :
    s * 10 ^ e = k ∨ k = 2 ^ 53 ∧ s * 10 ^ e = k + 1 := by
  have hhalves : (Decimal.mk s e).halves = (s * 10 ^ e * (2 * oneUnits), 1) := by
    unfold Decimal.halves
    rw [two_pow_halves, oneUnits_eq]
    rfl
  have hupos : 0 < k * oneUnits := Nat.mul_pos hpos oneUnits_pos
  obtain ⟨hlow, hhigh, -⟩ := Interval.bounds_of_holds hupos h
  rw [hhalves] at hlow hhigh
  obtain ⟨hgap, hplace⟩ := places_whole oneUnits_eq hk hpos
  have hunit := oneUnits_pos
  generalize oneUnits = unit at *
  generalize s * 10 ^ e = m at *
  dsimp only at hlow hhigh
  have hassoc : m * (2 * unit) = 2 * (m * unit) := Nat.mul_left_comm ..
  rw [Nat.mul_one, hassoc] at hlow hhigh
  have hle : k ≤ m := by
    by_contra hlt
    have hmul : (m + 1) * unit ≤ k * unit := Nat.mul_le_mul_right unit (by omega)
    rw [Nat.add_mul] at hmul
    omega
  rcases hplace with hplace | ⟨htop, hplace⟩
  · refine .inl (Nat.le_antisymm ?_ hle)
    by_contra hlt
    have hmul : (k + 1) * unit ≤ m * unit := Nat.mul_le_mul_right unit (by omega)
    rw [Nat.add_mul] at hmul
    omega
  · have hnext : m ≤ k + 1 := by
      by_contra hlt
      have hmul : (k + 2) * unit ≤ m * unit := Nat.mul_le_mul_right unit (by omega)
      rw [Nat.add_mul] at hmul
      omega
    omega

include hpos in
/-- The point of a whole number stands behind its digits. -/
theorem pointPlace_whole : pointPlace (k * oneUnits) = (Nat.repr k).length := by
  have hlength : 0 < (Nat.repr k).length := Nat.length_repr_pos
  have hquot (places : Nat) : k * oneUnits * Nat.pow 10 places / oneUnits = k * 10 ^ places := by
    rw [Nat.mul_right_comm, Nat.mul_div_cancel _ oneUnits_pos, Nat.pow_eq]
  have hlow (places : Nat) : 10 ^ ((Nat.repr k).length - 1 + places) ≤ k * 10 ^ places := by
    rw [Nat.pow_add]
    exact Nat.mul_le_mul_right _ (pow_digits_le hpos)
  have hhigh (places : Nat) : k * 10 ^ places < 10 ^ ((Nat.repr k).length - 1 + places + 1) := by
    rw [show (Nat.repr k).length - 1 + places + 1 = (Nat.repr k).length + places by omega, Nat.pow_add]
    exact Nat.mul_lt_mul_of_pos_right (lt_pow_digits k) (Nat.pow_pos (by omega))
  have hplaces (places : Nat) (h : 400 = places) : pointPlace (k * oneUnits) =
      ((Nat.repr k).length - 1 + places : Nat) - 399 := by
    apply pointPlace_eq _ (hlow places) (hhigh places)
    rw [oneUnits_eq, h]
    exact hquot places
  rw [hplaces 400 rfl]
  omega

include hpos in
/-- With all its digits a whole number is its own candidate. -/
theorem candidate?_whole : candidate? (k * oneUnits) (Nat.repr k).length = some ⟨k, 0⟩ := by
  have hgrid : gridBelow (k * oneUnits) 0 = (k, 0, oneUnits) := by
    unfold gridBelow
    dsimp only
    rw [oneUnits_eq, show Nat.pow 10 0 = 1 from rfl, Nat.one_mul, Nat.mul_div_cancel _ oneUnits_pos,
      Nat.mul_mod_left]
  have hnearer : nearerFirst (k, 0, oneUnits) = [k, k + 1] := by
    have := oneUnits_pos
    unfold nearerFirst
    dsimp only
    rw [if_pos (by simp; omega)]
  have hreads : Decimal.reads (k * oneUnits) ⟨k, 0⟩ = true := by
    apply reads_of_exact (Nat.mul_pos hpos oneUnits_pos)
    unfold Decimal.halves
    dsimp only
    rw [two_pow_halves, oneUnits_eq, show Nat.pow 10 0 = 1 from rfl]
    ring
  unfold candidate?
  dsimp only
  rw [pointPlace_whole hpos, Int.sub_self, hgrid, hnearer, List.map_cons, List.find?_cons_of_pos hreads]

include hk hpos in
/-- The shortest decimal of a whole number is the number with zeros moved into the exponent. -/
theorem shortest_whole : ∃ s e : Nat, shortest (k * oneUnits) = ⟨s, e⟩ ∧ s * 10 ^ e = k := by
  have hlength : 0 < (Nat.repr k).length := Nat.length_repr_pos
  have hlimit : (Nat.repr k).length ≤ 16 := by
    rw [Nat.length_repr_le_iff (by omega)]
    exact Nat.lt_of_le_of_lt hk (by decide)
  have hwhole := candidate?_whole hpos
  obtain ⟨last, hlast⟩ : ∃ last, (Nat.repr k).length = last + 1 :=
    ⟨(Nat.repr k).length - 1, by omega⟩
  obtain ⟨n, d, hn, hd, hshortest⟩ := exists_candidate?_of_isSome (k := last) (by omega)
    (by rw [← hlast, hwhole]; rfl)
  obtain ⟨hexponent, hreads⟩ := candidate?_spec hd
  rw [pointPlace_whole hpos] at hexponent
  -- the decimal that is found, before its zeros are moved
  obtain ⟨s, e⟩ := d
  dsimp only at hexponent
  obtain ⟨places, rfl⟩ : ∃ places : Nat, e = places := ⟨last - n, by omega⟩
  have hvalue : s * 10 ^ places = k := by
    by_cases hall : n = last
    · rw [hall, ← hlast, hwhole] at hd
      have hzero : places = 0 := by omega
      cases hd
      rw [hzero, Nat.pow_zero, Nat.mul_one]
    · rcases eq_of_reads hk hpos hreads with hsame | ⟨htop, habove⟩
      · exact hsame
      · obtain ⟨more, rfl⟩ : ∃ more, places = more + 1 := ⟨places - 1, by omega⟩
        have hten : s * 10 ^ (more + 1) = s * 10 ^ more * 10 := by rw [Nat.pow_succ, Nat.mul_assoc]
        omega
  obtain ⟨zeros, hzeros, hsig⟩ := stripZeros_spec 20 ⟨s, places⟩
  rw [← hshortest] at hzeros hsig
  generalize shortest (k * oneUnits) = found at *
  obtain ⟨s', e'⟩ := found
  dsimp only at hzeros hsig
  refine ⟨s', places + zeros, by rw [hzeros, Int.natCast_add], ?_⟩
  rw [Nat.add_comm, Nat.pow_add, ← Nat.mul_assoc, ← hsig, hvalue]

end Shortest

/-! ## The text of a whole number -/

/-- A zero behind the digits of a number. -/
theorem repr_mul_ten {n : Nat} (hn : 0 < n) : (Nat.repr (n * 10)).toList = (Nat.repr n).toList ++ ['0'] := by
  rw [Nat.toList_repr, Nat.toList_repr, Nat.toDigits_of_base_le (by omega) (by omega),
    Nat.mul_div_cancel n (by omega), Nat.mul_mod_left]
  rfl

theorem repr_mul_pow {n : Nat} (hn : 0 < n) (zeros : Nat) :
    (Nat.repr (n * 10 ^ zeros)).toList = (Nat.repr n).toList ++ List.replicate zeros '0' := by
  induction zeros with
  | zero => rw [Nat.pow_zero, Nat.mul_one, List.replicate_zero, List.append_nil]
  | succ zeros ih =>
    rw [Nat.pow_succ, ← Nat.mul_assoc, repr_mul_ten (Nat.mul_pos hn (Nat.pow_pos (by omega))), ih,
      List.append_assoc, ← List.replicate_succ']

/-- A decimal without a fraction, of few digits, is written as a whole number. -/
theorem render_whole {s : Nat} (hs : 0 < s) {e : Nat} (h : (Nat.repr (s * 10 ^ e)).length ≤ 21) :
    (Decimal.mk s e).render variableStyle = Nat.repr (s * 10 ^ e) := by
  have htext := repr_mul_pow hs e
  have hlength : (Nat.repr (s * 10 ^ e)).length = (Nat.repr s).length + e := by
    rw [← length_toList_repr, htext, List.length_append, List.length_replicate, length_toList_repr]
  have hpos : 0 < (Nat.repr s).length := Nat.length_repr_pos
  have hzeros : ((e : Int) + (Nat.repr s).length - (Nat.repr s).length).toNat = e := by omega
  unfold Decimal.render variableStyle
  dsimp only
  rw [length_toList_repr, if_pos (by omega), if_neg (by omega), if_pos (by omega), hzeros]
  apply String.toList_injective
  rw [htext]
  simp

/-- A whole number is written as its digits. -/
theorem textOfNumber_whole {n : Int} (hn : n.natAbs ≤ 2 ^ 53) :
    textOfNumber (wholeNumber n hn) = intText n := by
  have hzero : n.natAbs * oneUnits = 0 ↔ n = 0 := by
    rw [Nat.mul_eq_zero, Int.natAbs_eq_zero, or_iff_left (Nat.ne_of_gt oneUnits_pos)]
  unfold textOfNumber wholeNumber intText
  dsimp only
  by_cases hn0 : n = 0
  · rw [if_pos (hzero.2 hn0), hn0]
    rfl
  · have hpos : 0 < n.natAbs := by omega
    have hlength : (Nat.repr n.natAbs).length ≤ 21 := by
      rw [Nat.length_repr_le_iff (by omega)]
      exact Nat.lt_of_le_of_lt hn (by decide)
    obtain ⟨s, e, hshortest, hvalue⟩ := shortest_whole hn hpos
    have hs : 0 < s := by
      by_contra hs
      rw [Nat.eq_zero_of_not_pos hs, Nat.zero_mul] at hvalue
      omega
    rw [if_neg (mt hzero.1 hn0), hshortest, render_whole hs (by rw [hvalue]; exact hlength), hvalue]
    by_cases hneg : n < 0
    · rw [decide_eq_true hneg, if_pos rfl, if_pos hneg]
    · rw [decide_eq_false hneg, if_neg (by decide), if_neg hneg, String.empty_append]

end Gamebook
