import Gamebook.Json.Reader
import Mathlib.Tactic.Ring

/-!
# Decimal digits

* `lt_pow_digits`, `pow_digits_le` : a number lies between the powers of ten of its length.
* `digitsValue_repr`               : its digits spell the number.
* `repr_head`                      : the first digit of a positive number is no zero.
* `digitsValue_lt`                 : the length of digits bounds the number they spell.
* `digitsValue_zeros_append`, `digitsValue_append_zeros` : zeros in front of digits and behind them.
-/

set_option autoImplicit false

namespace Gamebook

open Json (digitsValue)

theorem lt_pow_digits (n : Nat) : n < 10 ^ (Nat.repr n).length :=
  (Nat.length_repr_le_iff Nat.length_repr_pos).1 (Nat.le_refl _)

theorem pow_digits_le {n : Nat} (h : 0 < n) : 10 ^ ((Nat.repr n).length - 1) ≤ n := by
  by_cases hone : (Nat.repr n).length - 1 = 0
  · rw [hone]
    omega
  · by_contra hlt
    have := (Nat.length_repr_le_iff (Nat.pos_of_ne_zero hone)).2 (Nat.lt_of_not_le hlt)
    omega

/-- A zero more at the end is a digit more. -/
theorem length_repr_mul_ten {n : Nat} (h : 0 < n) :
    (Nat.repr (n * 10)).length = (Nat.repr n).length + 1 := by
  rw [Nat.repr_of_ge (by omega), Nat.mul_div_cancel n (by omega), String.length_append,
    String.length_singleton]

theorem length_toList_repr (n : Nat) : (Nat.repr n).toList.length = (Nat.repr n).length :=
  String.length_toList

theorem isDigit_of_mem_repr {n : Nat} {c : Char} (h : c ∈ (Nat.repr n).toList) :
    c.isDigit = true := by
  rw [Nat.toList_repr] at h
  exact Nat.isDigit_of_mem_toDigits (by decide) (by decide) h

/-- The first digit of a positive number, and the digits behind it. -/
theorem repr_head {n : Nat} (h : 0 < n) :
    ∃ c cs, (Nat.repr n).toList = c :: cs ∧ c.isDigit = true ∧ c ≠ '0' := by
  induction n using Nat.strongRecOn with
  | ind n ih =>
    by_cases hlt : n < 10
    · refine ⟨n.digitChar, [], ?_, ?_, ?_⟩
      · rw [Nat.toList_repr, Nat.toDigits_of_lt_base hlt]
      · rw [Nat.isDigit_digitChar, decide_eq_true hlt]
      · rw [ne_eq, Nat.digitChar_eq_zero]
        omega
    · obtain ⟨c, cs, hcs, hdigit, hzero⟩ := ih (n / 10) (by omega) (by omega)
      refine ⟨c, cs ++ [(n % 10).digitChar], ?_, hdigit, hzero⟩
      rw [Nat.toList_repr, Nat.toDigits_of_base_le (by omega) (by omega), ← Nat.toList_repr, hcs,
        List.cons_append]

/-! ## What digits spell -/

theorem digitsValue_eq (ds : List Char) : digitsValue ds = Nat.ofDigitChars 10 ds 0 := by
  simp only [digitsValue, Nat.ofDigitChars_eq_foldl, Nat.mul_comm]

/-- The digits of a number spell it. -/
@[simp] theorem digitsValue_repr (n : Nat) : digitsValue (Nat.repr n).toList = n := by
  rw [digitsValue_eq, Nat.toList_repr, Nat.ofDigitChars_ten_toDigits]

theorem digitsValue_zeros_append (k : Nat) (ds : List Char) :
    digitsValue (List.replicate k '0' ++ ds) = digitsValue ds := by
  simp [digitsValue_eq, Nat.ofDigitChars_append]

theorem digitsValue_append_zeros (ds : List Char) (k : Nat) :
    digitsValue (ds ++ List.replicate k '0') = digitsValue ds * 10 ^ k := by
  simp [digitsValue_eq, Nat.ofDigitChars_append, Nat.mul_comm]

/-- Digits spell a number below the power of ten of their length. -/
theorem digitsValue_lt {ds : List Char} (h : ∀ c ∈ ds, c.isDigit = true) :
    digitsValue ds < 10 ^ ds.length := by
  induction ds with
  | nil => decide
  | cons c ds ih =>
    have hc := h c List.mem_cons_self
    have hvalue : c.toNat - '0'.toNat ≤ 9 := by
      simp only [Char.isDigit, Bool.and_eq_true, decide_eq_true_eq, UInt32.le_iff_toNat_le] at hc
      have : c.toNat ≤ 57 := hc.2
      simp only [Char.reduceToNat]
      omega
    have hrest := ih fun d hd => h d (List.mem_cons_of_mem c hd)
    have hmul : 10 ^ ds.length * (c.toNat - '0'.toNat) ≤ 10 ^ ds.length * 9 :=
      Nat.mul_le_mul_left _ hvalue
    rw [digitsValue_eq] at hrest ⊢
    rw [Nat.ofDigitChars_cons, Nat.ofDigitChars_eq_ofDigitChars_zero, List.length_cons, Nat.pow_succ,
      Nat.mul_zero, Nat.zero_add]
    omega

end Gamebook
