import Gamebook.Proofs.Json.Proper

/-!
# Values without numbers that are not finite

* `finiteFields_eq`                   : the replacement value by value.
* `finiteOnly_idem`                   : a second replacement changes nothing.
* `finiteOnly_eq_iff`                 : it changes nothing when every number is finite, and only then.
* `proper_finiteOnly`, `isWithin_finiteOnly` : it keeps a value proper, and its nesting.
* `isWithin_mono`                     : what is within a number of levels is within a greater one.
-/

set_option autoImplicit false

namespace Gamebook.Json

theorem finiteFields_eq (fields : List (String × Json)) :
    finiteFields fields = Table.mapValues fields finiteOnly := by
  induction fields with
  | nil => rfl
  | cons e rest ih =>
    obtain ⟨k, v⟩ := e
    rw [finiteFields, ih]
    rfl

@[simp] theorem keys_finiteFields (fields : List (String × Json)) :
    Table.keys (finiteFields fields) = Table.keys fields := by
  rw [finiteFields_eq, Table.keys_mapValues]

mutual
/-- A second replacement changes nothing. -/
theorem finiteOnly_idem : ∀ v : Json, finiteOnly (finiteOnly v) = finiteOnly v
  | .null => rfl
  | .bool _ => rfl
  | .int _ => rfl
  | .float x => by
    rw [finiteOnly]
    split
    · rename_i hfinite
      rw [finiteOnly, if_pos hfinite]
    · rfl
  | .str _ => rfl
  | .arr items => by rw [finiteOnly, finiteOnly, finiteItems_idem items]
  | .obj fields => by rw [finiteOnly, finiteOnly, finiteFields_idem fields]

theorem finiteItems_idem : ∀ items : List Json,
    finiteItems (finiteItems items) = finiteItems items
  | [] => rfl
  | v :: rest => by
    rw [finiteItems, finiteItems, finiteOnly_idem v, finiteItems_idem rest]

theorem finiteFields_idem : ∀ fields : List (String × Json),
    finiteFields (finiteFields fields) = finiteFields fields
  | [] => rfl
  | (k, v) :: rest => by
    rw [finiteFields, finiteFields, finiteOnly_idem v, finiteFields_idem rest]
end

def isFinite (v : Json) : Bool := v.allFinite fun _ => true

mutual
theorem finiteOnly_eq_iff : ∀ v : Json, finiteOnly v = v ↔ v.isFinite = true
  | .null => by simp [finiteOnly, isFinite, allFinite]
  | .bool _ => by simp [finiteOnly, isFinite, allFinite]
  | .int _ => by simp [finiteOnly, isFinite, allFinite]
  | .float x => by
    cases hx : x.isFinite <;> simp [finiteOnly, isFinite, allFinite, hx]
  | .str _ => by simp [finiteOnly, isFinite, allFinite]
  | .arr items => by
    have hitems := finiteItems_eq_iff items
    simp only [finiteOnly, isFinite, allFinite, Json.arr.injEq, hitems]
  | .obj fields => by
    have hfields := finiteFields_eq_iff fields
    simp only [finiteOnly, isFinite, allFinite, Json.obj.injEq, hfields]

theorem finiteItems_eq_iff : ∀ items : List Json,
    finiteItems items = items ↔ allFiniteItems (fun _ => true) items = true
  | [] => by simp [finiteItems, allFiniteItems]
  | v :: rest => by
    have hv := finiteOnly_eq_iff v
    have hrest := finiteItems_eq_iff rest
    simp only [isFinite] at hv
    simp only [finiteItems, allFiniteItems, List.cons.injEq, Bool.and_eq_true, hv, hrest]

theorem finiteFields_eq_iff : ∀ fields : List (String × Json),
    finiteFields fields = fields ↔ allFiniteFields (fun _ => true) fields = true
  | [] => by simp [finiteFields, allFiniteFields]
  | (k, v) :: rest => by
    have hv := finiteOnly_eq_iff v
    have hrest := finiteFields_eq_iff rest
    simp only [isFinite] at hv
    simp only [finiteFields, allFiniteFields, List.cons.injEq, Prod.mk.injEq, Bool.and_eq_true,
      Bool.not_true, Bool.false_or, true_and, hv, hrest]
end

mutual
theorem proper_finiteOnly : ∀ v : Json, v.Proper → (finiteOnly v).Proper
  | .null, _ => trivial
  | .bool _, _ => trivial
  | .int _, h => h
  | .float x, _ => by
    rw [finiteOnly]
    split <;> trivial
  | .str _, _ => trivial
  | .arr items, h => properItems_finiteItems items h
  | .obj fields, h =>
    ⟨by rw [keys_finiteFields]; exact h.1, properFields_finiteFields fields h.2⟩

theorem properItems_finiteItems : ∀ items : List Json,
    ProperItems items → ProperItems (finiteItems items)
  | [], _ => trivial
  | v :: rest, h => ⟨proper_finiteOnly v h.1, properItems_finiteItems rest h.2⟩

theorem properFields_finiteFields : ∀ fields : List (String × Json),
    ProperFields fields → ProperFields (finiteFields fields)
  | [], _ => trivial
  | (_, v) :: rest, h => ⟨proper_finiteOnly v h.1, properFields_finiteFields rest h.2⟩
end

/-! ## Nesting -/

theorem areItemsWithin_iff (levels : Nat) (items : List Json) :
    areItemsWithin levels items = true ↔ ∀ v ∈ items, v.isWithin levels = true := by
  induction items with
  | nil => simp [areItemsWithin]
  | cons v rest ih => simp [areItemsWithin, ih]

theorem areFieldsWithin_iff (levels : Nat) (fields : List (String × Json)) :
    areFieldsWithin levels fields = true ↔ ∀ e ∈ fields, e.2.isWithin levels = true := by
  induction fields with
  | nil => simp [areFieldsWithin]
  | cons e rest ih =>
    obtain ⟨k, v⟩ := e
    simp [areFieldsWithin, ih]

mutual
theorem isWithin_finiteOnly : ∀ (v : Json) (levels : Nat),
    (finiteOnly v).isWithin levels = v.isWithin levels
  | .null, _ => rfl
  | .bool _, _ => rfl
  | .int _, _ => rfl
  | .float x, levels => by
    rw [finiteOnly]
    split <;> simp [isWithin]
  | .str _, _ => rfl
  | .arr items, levels => by
    rw [finiteOnly, isWithin, isWithin, areItemsWithin_finiteItems items]
  | .obj fields, levels => by
    rw [finiteOnly, isWithin, isWithin, areFieldsWithin_finiteFields fields]

theorem areItemsWithin_finiteItems : ∀ (items : List Json) (levels : Nat),
    areItemsWithin levels (finiteItems items) = areItemsWithin levels items
  | [], _ => rfl
  | v :: rest, levels => by
    rw [finiteItems, areItemsWithin, areItemsWithin, isWithin_finiteOnly v,
      areItemsWithin_finiteItems rest]

theorem areFieldsWithin_finiteFields : ∀ (fields : List (String × Json)) (levels : Nat),
    areFieldsWithin levels (finiteFields fields) = areFieldsWithin levels fields
  | [], _ => rfl
  | (_, v) :: rest, levels => by
    rw [finiteFields, areFieldsWithin, areFieldsWithin, isWithin_finiteOnly v,
      areFieldsWithin_finiteFields rest]
end

mutual
theorem isWithin_mono : ∀ (v : Json) {levels more : Nat}, levels ≤ more →
    v.isWithin levels = true → v.isWithin more = true
  | .null, _, _, hle, h => by simp only [isWithin, decide_eq_true_eq] at h ⊢; omega
  | .bool _, _, _, hle, h => by simp only [isWithin, decide_eq_true_eq] at h ⊢; omega
  | .int _, _, _, hle, h => by simp only [isWithin, decide_eq_true_eq] at h ⊢; omega
  | .float _, _, _, hle, h => by simp only [isWithin, decide_eq_true_eq] at h ⊢; omega
  | .str _, _, _, hle, h => by simp only [isWithin, decide_eq_true_eq] at h ⊢; omega
  | .arr items, _, _, hle, h => by
    simp only [isWithin, Bool.and_eq_true, decide_eq_true_eq] at h ⊢
    exact ⟨by omega, areItemsWithin_mono items (Nat.sub_le_sub_right hle 1) h.2⟩
  | .obj fields, _, _, hle, h => by
    simp only [isWithin, Bool.and_eq_true, decide_eq_true_eq] at h ⊢
    exact ⟨by omega, areFieldsWithin_mono fields (Nat.sub_le_sub_right hle 1) h.2⟩

theorem areItemsWithin_mono : ∀ (items : List Json) {levels more : Nat}, levels ≤ more →
    areItemsWithin levels items = true → areItemsWithin more items = true
  | [], _, _, _, _ => rfl
  | v :: rest, _, _, hle, h => by
    simp only [areItemsWithin, Bool.and_eq_true] at h ⊢
    exact ⟨isWithin_mono v hle h.1, areItemsWithin_mono rest hle h.2⟩

theorem areFieldsWithin_mono : ∀ (fields : List (String × Json)) {levels more : Nat},
    levels ≤ more → areFieldsWithin levels fields = true → areFieldsWithin more fields = true
  | [], _, _, _, _ => rfl
  | (_, v) :: rest, _, _, hle, h => by
    simp only [areFieldsWithin, Bool.and_eq_true] at h ⊢
    exact ⟨isWithin_mono v hle h.1, areFieldsWithin_mono rest hle h.2⟩
end

end Gamebook.Json
