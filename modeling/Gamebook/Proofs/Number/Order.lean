import Gamebook.Number.Binary64

/-!
# The order of numbers

A number has a place on the number line, and a not-a-number has none.  Between places the order is that of
the integers; what has no place stands in no relation at all.

* `exists_rank`      : every number but a not-a-number has a place.
* `related_of_rank`, `related_nan` : how two numbers are related, and when they are in no relation.
* `le_eq_not_lt`, `le_refl`, `le_total`, `le_trans` : the order is total away from a not-a-number.
-/

set_option autoImplicit false

namespace Gamebook.Binary64

variable {x y z : Binary64}

/-- Every number but a not-a-number has a place on the number line. -/
theorem exists_rank (h : x ≠ .nan) : ∃ place, x.rank = some place := by
  cases x with
  | nan => exact absurd rfl h
  | infinite negative => exact ⟨_, rfl⟩
  | finite negative units hexact => exact ⟨_, rfl⟩

theorem related_of_rank (rel : Int → Int → Bool) {a b : Int} (hx : x.rank = some a)
    (hy : y.rank = some b) : related rel x y = rel a b := by
  unfold related
  rw [hx, hy]

/-- A not-a-number stands in no relation. -/
theorem related_nan (rel : Int → Int → Bool) (h : x = .nan ∨ y = .nan) :
    related rel x y = false := by
  unfold related
  rcases h with rfl | rfl
  · rfl
  · cases x.rank <;> rfl

/-- What stands in a relation has a place. -/
theorem ranks_of_related {rel : Int → Int → Bool} (h : related rel x y = true) :
    ∃ a b, x.rank = some a ∧ y.rank = some b ∧ rel a b = true := by
  have hx : x ≠ .nan := by
    rintro rfl
    rw [related_nan rel (.inl rfl)] at h
    cases h
  have hy : y ≠ .nan := by
    rintro rfl
    rw [related_nan rel (.inr rfl)] at h
    cases h
  obtain ⟨a, ha⟩ := exists_rank hx
  obtain ⟨b, hb⟩ := exists_rank hy
  rw [related_of_rank rel ha hb] at h
  exact ⟨a, b, ha, hb, h⟩

/-- Between numbers, less or equal is not greater. -/
theorem le_eq_not_lt (hx : x ≠ .nan) (hy : y ≠ .nan) : x.le y = !y.lt x := by
  obtain ⟨a, ha⟩ := exists_rank hx
  obtain ⟨b, hb⟩ := exists_rank hy
  unfold le lt
  rw [related_of_rank _ ha hb, related_of_rank _ hb ha, Bool.eq_iff_iff]
  simp only [decide_eq_true_eq, Bool.not_eq_true', decide_eq_false_iff_not]
  omega

theorem le_refl (hx : x ≠ .nan) : x.le x = true := by
  obtain ⟨a, ha⟩ := exists_rank hx
  unfold le
  rw [related_of_rank _ ha ha]
  simp

theorem le_total (hx : x ≠ .nan) (hy : y ≠ .nan) : x.le y = true ∨ y.le x = true := by
  obtain ⟨a, ha⟩ := exists_rank hx
  obtain ⟨b, hb⟩ := exists_rank hy
  unfold le
  rw [related_of_rank _ ha hb, related_of_rank _ hb ha]
  simp only [decide_eq_true_eq]
  omega

theorem le_trans (hxy : x.le y = true) (hyz : y.le z = true) : x.le z = true := by
  unfold le at hxy hyz ⊢
  obtain ⟨a, b, ha, hb, hab⟩ := ranks_of_related hxy
  obtain ⟨b', c, hb', hc, hbc⟩ := ranks_of_related hyz
  rw [hb] at hb'
  cases hb'
  rw [related_of_rank _ ha hc]
  simp only [decide_eq_true_eq] at hab hbc ⊢
  omega

end Gamebook.Binary64
