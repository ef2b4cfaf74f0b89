import Gamebook.Proofs.Json.ReadBack

/-!
# The texts of a value

The texts of a value are its strings and the keys of its objects.

* `texts`, `mapTexts`  : the texts in order, and the value with every text changed.
* `mapTexts_eq_iff`    : which changes of the texts leave a value as it is.
* `outline`            : the value with all its texts empty.
* `short_of_outline`, `isWithin_of_outline` : what is read of a value shows in its outline.
* `eq_of_merged`       : a value that is read as one of the same outline is that value.
-/

set_option autoImplicit false

namespace Gamebook.Json

mutual
/-- The strings and the keys of a value, in their order. -/
def texts : Json → List String
  | .str s => [s]
  | .arr items => itemsTexts items
  | .obj fields => fieldsTexts fields
  | _ => []

def itemsTexts : List Json → List String
  | [] => []
  | v :: rest => texts v ++ itemsTexts rest

def fieldsTexts : List (String × Json) → List String
  | [] => []
  | (k, v) :: rest => k :: texts v ++ fieldsTexts rest
end

mutual
/-- The value with every text changed. -/
def mapTexts (f : String → String) : Json → Json
  | .str s => .str (f s)
  | .arr items => .arr (mapItems f items)
  | .obj fields => .obj (mapFields f fields)
  | v => v

def mapItems (f : String → String) : List Json → List Json
  | [] => []
  | v :: rest => mapTexts f v :: mapItems f rest

def mapFields (f : String → String) : List (String × Json) → List (String × Json)
  | [] => []
  | (k, v) :: rest => (f k, mapTexts f v) :: mapFields f rest
end

@[simp] theorem length_mapFields (f : String → String) (fields : List (String × Json)) :
    (mapFields f fields).length = fields.length := by
  induction fields with
  | nil => rfl
  | cons e rest ih => rw [mapFields, List.length_cons, List.length_cons, ih]

@[simp] theorem mapFields_append (f : String → String) (fields more : List (String × Json)) :
    mapFields f (fields ++ more) = mapFields f fields ++ mapFields f more := by
  induction fields with
  | nil => rfl
  | cons e rest ih => rw [List.cons_append, mapFields, mapFields, ih, List.cons_append]

@[simp] theorem fieldsTexts_append (fields more : List (String × Json)) :
    fieldsTexts (fields ++ more) = fieldsTexts fields ++ fieldsTexts more := by
  induction fields with
  | nil => rfl
  | cons e rest ih => simp only [List.cons_append, fieldsTexts, ih, List.append_assoc]

section Maps

variable (f g : String → String)

mutual
theorem mapTexts_mapTexts : ∀ v : Json, (v.mapTexts f).mapTexts g = v.mapTexts fun s => g (f s)
  | .null => rfl
  | .bool _ => rfl
  | .int _ => rfl
  | .float _ => rfl
  | .str _ => rfl
  | .arr items => by rw [mapTexts, mapTexts, mapTexts, mapItems_mapItems items]
  | .obj fields => by rw [mapTexts, mapTexts, mapTexts, mapFields_mapFields fields]

theorem mapItems_mapItems : ∀ items : List Json,
    mapItems g (mapItems f items) = mapItems (fun s => g (f s)) items
  | [] => rfl
  | v :: rest => by rw [mapItems, mapItems, mapItems, mapTexts_mapTexts v, mapItems_mapItems rest]

theorem mapFields_mapFields : ∀ fields : List (String × Json),
    mapFields g (mapFields f fields) = mapFields (fun s => g (f s)) fields
  | [] => rfl
  | (k, v) :: rest => by
    rw [mapFields, mapFields, mapFields, mapTexts_mapTexts v, mapFields_mapFields rest]
end

variable {f}

mutual
/-- A change of the texts leaves a value as it is when it leaves each of them. -/
theorem mapTexts_eq_iff : ∀ v : Json, v.mapTexts f = v ↔ ∀ s ∈ v.texts, f s = s
  | .null => by simp [mapTexts, texts]
  | .bool _ => by simp [mapTexts, texts]
  | .int _ => by simp [mapTexts, texts]
  | .float _ => by simp [mapTexts, texts]
  | .str _ => by simp [mapTexts, texts]
  | .arr items => by rw [mapTexts, texts, Json.arr.injEq, mapItems_eq_iff items]
  | .obj fields => by rw [mapTexts, texts, Json.obj.injEq, mapFields_eq_iff fields]

theorem mapItems_eq_iff : ∀ items : List Json,
    mapItems f items = items ↔ ∀ s ∈ itemsTexts items, f s = s
  | [] => by simp [mapItems, itemsTexts]
  | v :: rest => by
    rw [mapItems, itemsTexts, List.cons.injEq, List.forall_mem_append, mapTexts_eq_iff v,
      mapItems_eq_iff rest]

theorem mapFields_eq_iff : ∀ fields : List (String × Json),
    mapFields f fields = fields ↔ ∀ s ∈ fieldsTexts fields, f s = s
  | [] => by simp [mapFields, fieldsTexts]
  | (k, v) :: rest => by
    rw [mapFields, fieldsTexts, List.cons.injEq, Prod.mk.injEq, List.forall_mem_append,
      List.forall_mem_cons, mapTexts_eq_iff v, mapFields_eq_iff rest]
end

end Maps

/-! ## Outlines -/

/-- The value with all its texts empty. -/
def outline (v : Json) : Json := v.mapTexts fun _ => ""

theorem outline_mapTexts (f : String → String) (v : Json) :
    (v.mapTexts f).outline = v.outline := mapTexts_mapTexts f _ v

section Maps

variable (f : String → String)

mutual
theorem short_mapTexts : ∀ v : Json, (v.mapTexts f).Short ↔ v.Short
  | .null => Iff.rfl
  | .bool _ => Iff.rfl
  | .int _ => Iff.rfl
  | .float _ => Iff.rfl
  | .str _ => Iff.rfl
  | .arr items => by rw [mapTexts, Short, Short, shortItems_mapItems items]
  | .obj fields => by rw [mapTexts, Short, Short, shortFields_mapFields fields]

theorem shortItems_mapItems : ∀ items : List Json, ShortItems (mapItems f items) ↔ ShortItems items
  | [] => Iff.rfl
  | v :: rest => by
    rw [mapItems, ShortItems, ShortItems, short_mapTexts v, shortItems_mapItems rest]

theorem shortFields_mapFields : ∀ fields : List (String × Json),
    ShortFields (mapFields f fields) ↔ ShortFields fields
  | [] => Iff.rfl
  | (k, v) :: rest => by
    rw [mapFields, ShortFields, ShortFields, short_mapTexts v, shortFields_mapFields rest]
end

mutual
theorem isWithin_mapTexts : ∀ (v : Json) (levels : Nat),
    (v.mapTexts f).isWithin levels = v.isWithin levels
  | .null, _ => rfl
  | .bool _, _ => rfl
  | .int _, _ => rfl
  | .float _, _ => rfl
  | .str _, _ => rfl
  | .arr items, levels => by rw [mapTexts, isWithin, isWithin, areItemsWithin_mapItems items]
  | .obj fields, levels => by rw [mapTexts, isWithin, isWithin, areFieldsWithin_mapFields fields]

theorem areItemsWithin_mapItems : ∀ (items : List Json) (levels : Nat),
    areItemsWithin levels (mapItems f items) = areItemsWithin levels items
  | [], _ => rfl
  | v :: rest, levels => by
    rw [mapItems, areItemsWithin, areItemsWithin, isWithin_mapTexts v, areItemsWithin_mapItems rest]

theorem areFieldsWithin_mapFields : ∀ (fields : List (String × Json)) (levels : Nat),
    areFieldsWithin levels (mapFields f fields) = areFieldsWithin levels fields
  | [], _ => rfl
  | (k, v) :: rest, levels => by
    rw [mapFields, areFieldsWithin, areFieldsWithin, isWithin_mapTexts v,
      areFieldsWithin_mapFields rest]
end

end Maps

section Outlines

variable {v w : Json} (h : w.outline = v.outline)

include h

/-- Values of one outline have the same whole numbers. -/
theorem short_of_outline (hv : v.Short) : w.Short := by
  rw [← short_mapTexts (fun _ => "") w, ← outline, h, outline, short_mapTexts]
  exact hv

/-- Values of one outline are nested equally deep. -/
theorem isWithin_of_outline {levels : Nat} (hv : v.isWithin levels = true) :
    w.isWithin levels = true := by
  rw [← isWithin_mapTexts (fun _ => "") w, ← outline, h, outline, isWithin_mapTexts]
  exact hv

end Outlines

mutual
/-- A value that keeps its outline when its repeated keys are merged has none. -/
theorem merged_eq_of_outline : ∀ w : Json, w.merged.outline = w.outline → w.merged = w
  | .null, _ => rfl
  | .bool _, _ => rfl
  | .int _, _ => rfl
  | .float _, _ => rfl
  | .str _, _ => rfl
  | .arr items, h => by
    simp only [merged, outline, mapTexts, Json.arr.injEq] at h ⊢
    exact mergedItems_eq_of_outline items h
  | .obj fields, h => by
    simp only [merged, outline, mapTexts, Json.obj.injEq] at h ⊢
    have hlength := congrArg List.length h
    rw [length_mapFields, length_mapFields] at hlength
    have hkeys := congrArg List.length (keys_mergedFields fields)
    simp only [Table.keys, List.length_map] at hkeys
    have hnodup : (Table.keys (mergedFields fields)).Nodup :=
      Table.nodup_of_length_ofList (by omega)
    rw [Table.ofList_of_nodup hnodup] at h ⊢
    exact mergedFields_eq_of_outline fields h

theorem mergedItems_eq_of_outline : ∀ ws : List Json,
    mapItems (fun _ => "") (mergedItems ws) = mapItems (fun _ => "") ws → mergedItems ws = ws
  | [], _ => rfl
  | w :: ws, h => by
    simp only [mergedItems, mapItems, List.cons.injEq] at h ⊢
    exact ⟨merged_eq_of_outline w h.1, mergedItems_eq_of_outline ws h.2⟩

theorem mergedFields_eq_of_outline : ∀ ws : List (String × Json),
    mapFields (fun _ => "") (mergedFields ws) = mapFields (fun _ => "") ws → mergedFields ws = ws
  | [], _ => rfl
  | (k, w) :: ws, h => by
    simp only [mergedFields, mapFields, List.cons.injEq, Prod.mk.injEq, true_and] at h ⊢
    exact ⟨merged_eq_of_outline w h.1, mergedFields_eq_of_outline ws h.2⟩
end

/-- A value that is read as one of the same outline is that value. -/
theorem eq_of_merged {v w : Json} (h : w.outline = v.outline) (hmerged : w.merged = v) : w = v := by
  rw [← hmerged] at h ⊢
  exact (merged_eq_of_outline w h.symm).symm

end Gamebook.Json
