import Gamebook.Json.Reader

/-!
# How deep a reader gets

A reader that may open a number of lists and objects inside one another stops at the first one that is too
many.  What it does not open it does not look into, so that only lists and objects count here.

* `Json.tooDeep?`         : the first list or object that is one too many.
* `tooDeep?_of_isWithin`  : a value nested within the number of levels has none.
-/

set_option autoImplicit false

namespace Gamebook.Json

mutual
/-- The first list or object, from the left, that stands inside as many others as levels are given; the flag
tells an object from a list. -/
def tooDeep? (levels : Nat) : Json → Option Bool
  | .arr items => if levels = 0 then some false else itemsTooDeep? (levels - 1) items
  | .obj fields => if levels = 0 then some true else fieldsTooDeep? (levels - 1) fields
  | _ => none

def itemsTooDeep? (levels : Nat) : List Json → Option Bool
  | [] => none
  | v :: rest => (tooDeep? levels v).or (itemsTooDeep? levels rest)

def fieldsTooDeep? (levels : Nat) : List (String × Json) → Option Bool
  | [] => none
  | (_, v) :: rest => (tooDeep? levels v).or (fieldsTooDeep? levels rest)
end

/-- A list without one too many is opened, and so are its items. -/
theorem tooDeep?_arr_eq_none {items : List Json} {levels : Nat} (h : (arr items).tooDeep? levels = none) :
    ∃ left, levels = left + 1 ∧ itemsTooDeep? left items = none := by
  cases levels with
  | zero => cases h
  | succ left => exact ⟨left, rfl, h⟩

/-- An object without one too many is opened, and so are its values. -/
theorem tooDeep?_obj_eq_none {fields : List (String × Json)} {levels : Nat}
    (h : (obj fields).tooDeep? levels = none) :
    ∃ left, levels = left + 1 ∧ fieldsTooDeep? left fields = none := by
  cases levels with
  | zero => cases h
  | succ left => exact ⟨left, rfl, h⟩

mutual
theorem tooDeep?_of_isWithin : ∀ (v : Json) {levels : Nat}, v.isWithin levels = true →
    v.tooDeep? levels = none
  | .null, _, _ => rfl
  | .bool _, _, _ => rfl
  | .int _, _, _ => rfl
  | .float _, _, _ => rfl
  | .str _, _, _ => rfl
  | .arr items, levels, h => by
    rw [isWithin, Bool.and_eq_true, decide_eq_true_eq] at h
    rw [tooDeep?, if_neg (Nat.ne_of_gt h.1), itemsTooDeep?_of_areItemsWithin items h.2]
  | .obj fields, levels, h => by
    rw [isWithin, Bool.and_eq_true, decide_eq_true_eq] at h
    rw [tooDeep?, if_neg (Nat.ne_of_gt h.1), fieldsTooDeep?_of_areFieldsWithin fields h.2]

theorem itemsTooDeep?_of_areItemsWithin : ∀ (items : List Json) {levels : Nat},
    areItemsWithin levels items = true → itemsTooDeep? levels items = none
  | [], _, _ => rfl
  | v :: rest, _, h => by
    rw [areItemsWithin, Bool.and_eq_true] at h
    rw [itemsTooDeep?, tooDeep?_of_isWithin v h.1, itemsTooDeep?_of_areItemsWithin rest h.2, Option.none_or]

theorem fieldsTooDeep?_of_areFieldsWithin : ∀ (fields : List (String × Json)) {levels : Nat},
    areFieldsWithin levels fields = true → fieldsTooDeep? levels fields = none
  | [], _, _ => rfl
  | (_, v) :: rest, _, h => by
    rw [areFieldsWithin, Bool.and_eq_true] at h
    rw [fieldsTooDeep?, tooDeep?_of_isWithin v h.1, fieldsTooDeep?_of_areFieldsWithin rest h.2, Option.none_or]
end

end Gamebook.Json
