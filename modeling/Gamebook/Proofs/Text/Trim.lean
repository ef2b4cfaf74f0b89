import Gamebook.Text.Blank
import Mathlib.Data.List.TakeWhile

/-!
# Texts without the blanks at their ends

* `trimList_around`  : blanks around a text are trimmed off.
* `trimList_of_ends` : nothing is trimmed off where no blank stands at an end.
* `Stripped`         : what a text is without the blanks at its ends, said without trimming.
* `stripped_iff`     : trimming leaves that and nothing else.
-/

set_option autoImplicit false

namespace Gamebook.Text

variable {skip : Char → Bool} {before after : List Char}

theorem trimList_append_left (h : ∀ c ∈ before, skip c = true) (cs : List Char) :
    trimList skip (before ++ cs) = trimList skip cs := by
  unfold trimList
  rw [List.dropWhile_append_of_pos h]

theorem trimList_append_right (h : ∀ c ∈ after, skip c = true) (cs : List Char) :
    trimList skip (cs ++ after) = trimList skip cs := by
  have hafter : after.dropWhile skip = [] := List.dropWhile_eq_nil_iff.2 h
  unfold trimList
  rw [List.dropWhile_append]
  split
  · rename_i hnone
    rw [List.isEmpty_iff.1 hnone, hafter]
  · rw [List.reverse_append, List.dropWhile_append_of_pos fun c hc => h c (List.mem_reverse.1 hc)]

/-- Blanks around a text are trimmed off. -/
theorem trimList_around (hbefore : ∀ c ∈ before, skip c = true) (hafter : ∀ c ∈ after, skip c = true)
    (cs : List Char) : trimList skip (before ++ (cs ++ after)) = trimList skip cs := by
  rw [trimList_append_left hbefore, trimList_append_right hafter]

/-- Nothing is trimmed off where no blank stands at an end. -/
theorem trimList_of_ends {a b : Char} (ha : skip a = false) (hb : skip b = false) (cs : List Char) :
    trimList skip (a :: (cs ++ [b])) = a :: (cs ++ [b]) := by
  have hback : (a :: (cs ++ [b])).reverse = b :: (cs.reverse ++ [a]) := by simp
  unfold trimList
  rw [List.dropWhile_cons_of_neg (by simp [ha]), hback, List.dropWhile_cons_of_neg (by simp [hb]),
    ← hback, List.reverse_reverse]

/-- A single character that is no blank is not trimmed off. -/
theorem trimList_singleton {c : Char} (hc : skip c = false) : trimList skip [c] = [c] := by
  have hne : ¬ skip c = true := by simp [hc]
  unfold trimList
  rw [List.dropWhile_cons_of_neg hne, List.reverse_singleton, List.dropWhile_cons_of_neg hne,
    List.reverse_singleton]

/-- The front of a text whose characters are of a class, before one that is not. -/
theorem takeWhile_append_of_head {p : Char → Bool} {front rest : List Char}
    (hfront : ∀ c ∈ front, p c = true) (hrest : ∀ c, rest.head? = some c → p c = false) :
    (front ++ rest).takeWhile p = front ∧ (front ++ rest).dropWhile p = rest := by
  rw [List.takeWhile_append_of_pos hfront, List.dropWhile_append_of_pos hfront]
  cases rest with
  | nil => simp
  | cons c rest => simp [hrest c rfl]

/-- Nothing is dropped where the first character is not of the class. -/
theorem dropWhile_of_head {p : Char → Bool} {cs : List Char}
    (h : ∀ c, cs.head? = some c → p c = false) : cs.dropWhile p = cs :=
  (takeWhile_append_of_head (List.forall_mem_nil _) h).2

theorem not_of_head?_dropWhile {p : Char → Bool} {cs : List Char} {c : Char}
    (h : (cs.dropWhile p).head? = some c) : p c = false := by
  have hnot := List.head?_dropWhile_not p cs
  rw [h] at hnot
  simpa using hnot

/-- What a text is without the characters of a class at its ends. -/
def Stripped (skip : Char → Bool) (cs core : List Char) : Prop :=
  ∃ before after, cs = before ++ (core ++ after) ∧ (∀ c ∈ before, skip c = true) ∧
    (∀ c ∈ after, skip c = true) ∧ (∀ c, core.head? = some c → skip c = false) ∧
      ∀ c, core.getLast? = some c → skip c = false

theorem stripped_trimList (skip : Char → Bool) (cs : List Char) :
    Stripped skip cs (trimList skip cs) := by
  obtain ⟨back, hback⟩ : ∃ back, (cs.dropWhile skip).reverse = back := ⟨_, rfl⟩
  have hcs : cs.dropWhile skip =
      (back.dropWhile skip).reverse ++ (back.takeWhile skip).reverse := by
    rw [← List.reverse_append, List.takeWhile_append_dropWhile, ← hback, List.reverse_reverse]
  refine ⟨cs.takeWhile skip, (back.takeWhile skip).reverse, ?_, ?_, ?_, ?_, ?_⟩
  · unfold trimList
    rw [hback, ← hcs, List.takeWhile_append_dropWhile]
  · exact fun c hc => List.mem_takeWhile_imp hc
  · exact fun c hc => List.mem_takeWhile_imp (List.mem_reverse.1 hc)
  · intro c hc
    unfold trimList at hc
    rw [hback] at hc
    have hfirst : (cs.dropWhile skip).head? = some c := by
      rw [hcs, List.head?_append, hc]
      rfl
    exact not_of_head?_dropWhile hfirst
  · intro c hc
    unfold trimList at hc
    rw [hback, List.getLast?_reverse] at hc
    exact not_of_head?_dropWhile hc

/-- Trimming leaves the text without the blanks at its ends. -/
theorem stripped_iff {cs core : List Char} : Stripped skip cs core ↔ core = trimList skip cs := by
  constructor
  · rintro ⟨before, after, rfl, hbefore, hafter, hhead, hlast⟩
    rw [← List.head?_reverse] at hlast
    rw [trimList_around hbefore hafter]
    unfold trimList
    rw [dropWhile_of_head hhead, dropWhile_of_head hlast, List.reverse_reverse]
  · rintro rfl
    exact stripped_trimList skip cs

end Gamebook.Text

