import Gamebook.Number.Whole
import Gamebook.Proofs.Number.Digits
import Mathlib.Data.List.TakeWhile

/-!
# Whole numbers of texts are not too long

* `Whole.digitsOf_eq`      : what digits spell, as an integer.
* `Whole.length_of_plain?` : a text of so many digits gives a number of at most as many.
* `wholeOfText_length`     : the number of a text has no more digits than are read.
-/

set_option autoImplicit false

namespace Gamebook

open Json (digitsValue)

namespace Whole

theorem digitsOf_eq {ds : List Char} (h : ∀ c ∈ ds, c.isDigit = true) :
    digitsOf ds = (digitsValue ds : Int) := by
  have hfold (acc : Nat) : ds.foldl (fun (acc : Int) c => acc * 10 + (c.toNat - '0'.toNat)) acc =
      ((ds.foldl (fun acc c => acc * 10 + (c.toNat - '0'.toNat)) acc : Nat) : Int) := by
    induction ds generalizing acc with
    | nil => rfl
    | cons c ds ih =>
      have hc := h c List.mem_cons_self
      simp only [Char.isDigit, Bool.and_eq_true, decide_eq_true_eq, UInt32.le_iff_toNat_le] at hc
      have hlow : '0'.toNat ≤ c.toNat := hc.1
      have hcast : (acc : Int) * 10 + ((c.toNat : Int) - ('0'.toNat : Int)) =
          ((acc * 10 + (c.toNat - '0'.toNat) : Nat) : Int) := by
        omega
      rw [List.foldl_cons, List.foldl_cons, hcast]
      exact ih (fun d hd => h d (List.mem_cons_of_mem c hd)) _
  exact hfold 0

/-- The digits of a text that is read without anything to tidy. -/
theorem digits_of_plain? {cs : List Char} {n : Int} (h : plain? cs = some n) :
    (splitMinus cs).2 = ['0'] ∨ (splitMinus cs).2.head?.any isLeading = true ∧
      (splitMinus cs).2.all Char.isDigit = true := by
  unfold plain? at h
  dsimp only at h
  split at h
  · assumption
  · cases h

theorem length_of_plain? {cs : List Char} {n : Int} (h : plain? cs = some n)
    (hlength : (splitMinus cs).2.length ≤ lengthLimit) :
    (Nat.repr n.natAbs).length ≤ digitLimit := by
  have hdigits := digits_of_plain? h
  unfold plain? at h
  dsimp only at h
  rw [if_pos hdigits] at h
  generalize (splitMinus cs).1 = minus at h
  generalize (splitMinus cs).2 = ds at h hdigits hlength
  have hall : ∀ c ∈ ds, c.isDigit = true := by
    rcases hdigits with rfl | ⟨-, hall⟩
    · simp
    · exact List.all_eq_true.1 hall
  have hne : 0 < ds.length := by
    rcases hdigits with rfl | ⟨hhead, -⟩
    · decide
    · cases ds with
      | nil => cases hhead
      | cons c ds => exact Nat.succ_pos _
  have habs : n.natAbs = digitsValue ds := by
    rw [digitsOf_eq hall] at h
    split at h
    · cases h
      rfl
    · cases h
      rw [Int.natAbs_neg]
      rfl
  rw [habs]
  exact Nat.le_trans ((Nat.length_repr_le_iff hne).2 (digitsValue_lt hall)) hlength

theorem length_of_loose? {cs : List Char} {n : Int} (h : loose? cs = some n) :
    (Nat.repr n.natAbs).length ≤ digitLimit := by
  unfold loose? at h
  cases htidy : tidied? cs with
  | none =>
    rw [htidy] at h
    cases h
  | some tidy =>
    rw [htidy] at h
    simp only [bind, Option.bind] at h
    split at h
    · cases h
    · rename_i hlength
      exact length_of_plain? h (Nat.le_of_not_lt hlength)

end Whole

/-- The number of a text has no more digits than are read. -/
theorem wholeOfText_length {s : String} {n : Int} (h : wholeOfText s = .ok n) :
    (Nat.repr n.natAbs).length ≤ digitLimit := by
  unfold wholeOfText at h
  dsimp only at h
  split at h
  · cases h
  · rename_i hstart
    split at h
    · rename_i m hread
      cases h
      cases hplain : Whole.plain? s.toList with
      | none =>
        rw [hplain] at hread
        exact Whole.length_of_loose? hread
      | some m =>
        rw [hplain] at hread
        cases hread
        apply Whole.length_of_plain? hplain
        rcases Whole.digits_of_plain? hplain with hzero | ⟨hhead, hall⟩
        · rw [hzero]
          decide
        · have htake : (Whole.splitMinus s.toList).2.takeWhile Char.isDigit =
              (Whole.splitMinus s.toList).2 := by
            rw [List.takeWhile_eq_self_iff]
            exact List.all_eq_true.1 hall
          unfold Whole.startsOversized at hstart
          simp only [htake, hhead, Bool.true_and, decide_eq_true_eq] at hstart
          omega
    · cases h

end Gamebook
