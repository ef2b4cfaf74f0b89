import Gamebook.Proofs.Json.Texts

/-!
# Texts nested too deeply

The reader meets the lists and objects of a value in the order in which they were written, reads what stands
in front of the first one that is too many, and stops there.

* `chars_head`        : the characters of a value begin as what is read as a value does.
* `stopsValues`       : reading stops at the first list or object that is one too many.
* `read_eq`           : what reading the text of a value comes to, however deep the value is.
* `tooDeep?_mapTexts` : other texts do not change how deep a value is.
-/

set_option autoImplicit false

namespace Gamebook.Json

/-! ## Values -/

section Stopping

variable (layout : JsonLayout)

/-- The characters of a value begin as what is read as a value does, however deep the value is. -/
theorem chars_head (level : Nat) {v : Json} (hv : v.Short) {rest : List Char} (hrest : Bounded rest) :
    ∃ c more, chars layout level v ++ rest = c :: more ∧ isGap c = false ∧ c ≠ ']' ∧ c ≠ '\ufeff' := by
  have hread (hdepth : v.tooDeep? 0 = none) :=
    value_head ((readsValues layout (fuelFor v)).1 v 0 level rest le_rfl hv hdepth hrest)
  cases v with
  | arr items => cases items <;> rw [chars] <;> exact ⟨'[', _, rfl, by decide, by decide, by decide⟩
  | obj fields => cases fields <;> rw [chars] <;> exact ⟨'\x7b', _, rfl, by decide, by decide, by decide⟩
  | _ => exact hread rfl

theorem skipGap_chars {gap : List Char} (hgap : ∀ c ∈ gap, isGap c = true) (level : Nat) {v : Json}
    (hv : v.Short) {rest : List Char} (hrest : Bounded rest) :
    skipGap (gap ++ (chars layout level v ++ rest)) = chars layout level v ++ rest := by
  obtain ⟨c, more, hhead, hc, -⟩ := chars_head layout level hv hrest
  rw [hhead, skipGap_append hgap, skipGap_cons hc]

/-- With this fuel the reading of every value stops at what is too deep in it. -/
def StopsValues (fuel : Nat) : Prop :=
  ∀ (v : Json) (depth level : Nat) (rest : List Char) (inObject : Bool), fuelFor v ≤ fuel → v.Short →
    v.tooDeep? depth = some inObject → Bounded rest →
      value fuel depth (chars layout level v ++ rest) = .error (.nestingLimit inObject)

/-- With this fuel the reading of the items of every list stops at what is too deep in them. -/
def StopsItems (fuel : Nat) : Prop :=
  ∀ (v : Json) (vs : List Json) (depth level : Nat) (gap rest : List Char) (inObject : Bool),
    fuelForItems (v :: vs) ≤ fuel → ShortItems (v :: vs) →
    itemsTooDeep? depth (v :: vs) = some inObject → (∀ c ∈ gap, isGap c = true) →
      items fuel depth
        (chars layout level v ++ (itemsChars layout level vs ++ (gap ++ ']' :: rest))) =
        .error (.nestingLimit inObject)

/-- With this fuel the reading of the fields of every object stops at what is too deep in them. -/
def StopsFields (fuel : Nat) : Prop :=
  ∀ (k : String) (v : Json) (fs : List (String × Json)) (depth level : Nat) (gap rest : List Char)
    (inObject : Bool), fuelForFields ((k, v) :: fs) ≤ fuel → ShortFields ((k, v) :: fs) →
    fieldsTooDeep? depth ((k, v) :: fs) = some inObject → (∀ c ∈ gap, isGap c = true) →
      fields fuel depth
        (stringChars layout.asciiOnly k ++ (':' :: ' ' :: (chars layout level v ++
          (fieldsChars layout level fs ++ (gap ++ '\x7d' :: rest))))) =
        .error (.nestingLimit inObject)

variable {layout} {fuel : Nat}

/-- Either the first item is too deep, or it is read and a later one is. -/
theorem stopsItems_step (hvalues : StopsValues layout fuel) (hitems : StopsItems layout fuel) :
    StopsItems layout (fuel + 1) := by
  intro v vs depth level gap rest inObject hfuel hv hdepth hgap
  simp only [fuelForItems] at hfuel
  simp only [ShortItems] at hv
  have hclose : Bounded (gap ++ ']' :: rest) := bounded_gap hgap (bounded_cons (by decide))
  have hbounded := bounded_items layout level vs hclose
  rw [itemsTooDeep?] at hdepth
  rw [items]
  cases hfirst : v.tooDeep? depth with
  | some found =>
    rw [hfirst] at hdepth
    cases hdepth
    rw [hvalues v depth level _ _ (by omega) hv.1 hfirst hbounded]
    rfl
  | none =>
    rw [hfirst, Option.none_or] at hdepth
    rw [(readsValues layout fuel).1 v depth level _ (by omega) hv.1 hfirst hbounded]
    cases vs with
    | nil => cases hdepth
    | cons w ws =>
      obtain ⟨mark, hmark, hwhite⟩ := itemMark_eq layout level
      have hmore := hitems w ws depth level gap rest inObject
        (by simp only [fuelForItems] at hfuel ⊢; omega) hv.2 hdepth hgap
      have hskip := skipGap_chars layout hwhite level hv.2.1 (bounded_items layout level ws hclose)
      simp only [bind, Except.bind, itemsChars, hmark, List.cons_append, List.append_assoc]
      rw [skipGap_cons (by decide)]
      simp only [hskip, hmore]

/-- Either the first value is too deep, or it is read and a later one is. -/
theorem stopsFields_step (hvalues : StopsValues layout fuel) (hfields : StopsFields layout fuel) :
    StopsFields layout (fuel + 1) := by
  intro k v fs depth level gap rest inObject hfuel hv hdepth hgap
  simp only [fuelForFields] at hfuel
  simp only [ShortFields] at hv
  have hclose : Bounded (gap ++ '\x7d' :: rest) := bounded_gap hgap (bounded_cons (by decide))
  have hbounded := bounded_fields layout level fs hclose
  have hblank : ∀ c ∈ [' '], isGap c = true := by simp [isGap]
  have hskip := skipGap_chars layout hblank level hv.1 hbounded
  rw [List.singleton_append] at hskip
  rw [fieldsTooDeep?] at hdepth
  rw [stringChars]
  simp only [List.cons_append, List.append_assoc, List.nil_append]
  rw [fields, stringBody_stringChars]
  simp only [bind, Except.bind]
  rw [skipGap_cons (by decide)]
  simp only [hskip]
  cases hfirst : v.tooDeep? depth with
  | some found =>
    rw [hfirst] at hdepth
    cases hdepth
    rw [hvalues v depth level _ _ (by omega) hv.1 hfirst hbounded]
  | none =>
    rw [hfirst, Option.none_or] at hdepth
    rw [(readsValues layout fuel).1 v depth level _ (by omega) hv.1 hfirst hbounded]
    cases fs with
    | nil => cases hdepth
    | cons e es =>
      obtain ⟨l, w⟩ := e
      obtain ⟨mark, hmark, hwhite⟩ := itemMark_eq layout level
      have hmore := hfields l w es depth level gap rest inObject
        (by simp only [fuelForFields] at hfuel ⊢; omega) hv.2 hdepth hgap
      have hkey : stringChars layout.asciiOnly l =
          '"' :: (l.toList.flatMap (stringChar layout.asciiOnly) ++ ['"']) := rfl
      simp only [fieldsChars, hmark, hkey, List.cons_append, List.append_assoc, List.nil_append] at hmore ⊢
      rw [skipGap_cons (by decide)]
      simp only [skipGap_append hwhite, skipGap_cons (show isGap '"' = false from rfl), hmore]

/-- A list is one too many itself, or is opened. -/
theorem stops_arr (hitems : StopsItems layout fuel) (vs : List Json) (depth level : Nat)
    (rest : List Char) {inObject : Bool} (hfuel : fuelFor (.arr vs) ≤ fuel + 1) (hv : (Json.arr vs).Short)
    (hdepth : (Json.arr vs).tooDeep? depth = some inObject) :
    value (fuel + 1) depth (chars layout level (.arr vs) ++ rest) = .error (.nestingLimit inObject) := by
  simp only [fuelFor] at hfuel
  simp only [Short] at hv
  cases depth with
  | zero =>
    cases hdepth
    cases vs <;> rw [chars] <;> rfl
  | succ d =>
    cases vs with
    | nil => cases hdepth
    | cons v vs =>
      have hstop := hitems v vs d (level + 1) (lineBreak layout level) rest inObject (by omega) hv hdepth
        (isGap_lineBreak layout level)
      have hclose : Bounded (lineBreak layout level ++ ']' :: rest) :=
        bounded_gap (isGap_lineBreak layout level) (bounded_cons (by decide))
      have hbounded := bounded_items layout (level + 1) vs hclose
      obtain ⟨c, more, hhead, hgap, hbracket, -⟩ := chars_head layout (level + 1) hv.1 hbounded
      rw [chars]
      simp only [List.cons_append, List.append_assoc, List.nil_append]
      rw [value]
      dsimp only
      rw [skipGap_append (isGap_lineBreak layout (level + 1))]
      rw [hhead] at hstop ⊢
      rw [skipGap_cons hgap]
      split
      · rename_i heq
        cases heq
        exact absurd rfl hbracket
      · rw [hstop]
        rfl

/-- An object is one too many itself, or is opened. -/
theorem stops_obj (hfields : StopsFields layout fuel) (fs : List (String × Json)) (depth level : Nat)
    (rest : List Char) {inObject : Bool} (hfuel : fuelFor (.obj fs) ≤ fuel + 1) (hv : (Json.obj fs).Short)
    (hdepth : (Json.obj fs).tooDeep? depth = some inObject) :
    value (fuel + 1) depth (chars layout level (.obj fs) ++ rest) = .error (.nestingLimit inObject) := by
  simp only [fuelFor] at hfuel
  simp only [Short] at hv
  cases depth with
  | zero =>
    cases hdepth
    cases fs <;> rw [chars] <;> rfl
  | succ d =>
    cases fs with
    | nil => cases hdepth
    | cons e fs =>
      obtain ⟨k, v⟩ := e
      have hstop := hfields k v fs d (level + 1) (lineBreak layout level) rest inObject (by omega) hv hdepth
        (isGap_lineBreak layout level)
      rw [chars]
      simp only [List.cons_append, List.append_assoc, List.nil_append, stringChars] at hstop ⊢
      rw [value]
      dsimp only
      rw [skipGap_append (isGap_lineBreak layout (level + 1)), skipGap_cons (by decide)]
      split
      · rename_i heq
        cases heq
      · rw [hstop]
        rfl

theorem stopsValues_step (hitems : StopsItems layout fuel) (hfields : StopsFields layout fuel) :
    StopsValues layout (fuel + 1) := by
  intro v depth level rest inObject hfuel hv hdepth hrest
  cases v with
  | arr vs => exact stops_arr hitems vs depth level rest hfuel hv hdepth
  | obj fs => exact stops_obj hfields fs depth level rest hfuel hv hdepth
  | _ => cases hdepth

/-- With enough fuel the reading of every value stops at the first list or object that is one too many. -/
theorem stopsValues (layout : JsonLayout) (fuel : Nat) :
    StopsValues layout fuel ∧ StopsItems layout fuel ∧ StopsFields layout fuel := by
  induction fuel with
  | zero =>
    refine ⟨?_, ?_, ?_⟩
    · intro v _ _ _ _ hfuel
      cases v <;> simp [fuelFor] at hfuel
    · intro v vs _ _ _ _ _ hfuel
      simp [fuelForItems] at hfuel
    · intro k v fs _ _ _ _ _ hfuel
      simp [fuelForFields] at hfuel
  | succ fuel ih =>
    obtain ⟨hvalues, hitems, hfields⟩ := ih
    exact ⟨stopsValues_step hitems hfields, stopsItems_step hvalues hitems,
      stopsFields_step hvalues hfields⟩

end Stopping

/-! ## Whole texts -/

theorem read_tooDeep (layout : JsonLayout) {v : Json} (hshort : v.Short) {inObject : Bool}
    (hdepth : v.tooDeep? nestingLimit = some inObject) :
    read (write layout v) = .error (.nestingLimit inObject) := by
  have hfuel := fuelFor_le layout 0 v
  have hvalue := (stopsValues layout (2 * (chars layout 0 v).length + 2)).1 v nestingLimit 0 [] inObject
    (Nat.le_succ_of_le (Nat.le_succ_of_le hfuel)) hshort hdepth bounded_nil
  obtain ⟨c, more, hcs, hgap, -, hmark⟩ := chars_head layout 0 hshort bounded_nil
  rw [List.append_nil] at hvalue hcs
  have hchars : readChars (chars layout 0 v) = .error (.nestingLimit inObject) := by
    rw [hcs] at hvalue ⊢
    unfold readChars
    split
    · rename_i heq
      cases heq
      exact absurd rfl hmark
    · simp only [skipGap_cons hgap, hvalue, bind, Except.bind]
  unfold read write
  rw [String.toList_ofList, hchars]
  rfl

/-- The text of a value, in any layout, is read as the value, unless the value is nested too deeply. -/
theorem read_eq (layout : JsonLayout) {v : Json} (hproper : v.Proper) :
    read (write layout v) =
      match v.tooDeep? nestingLimit with
      | none => .ok v
      | some inObject => .error (.nestingLimit inObject) := by
  have hshort := short_of_proper v hproper
  cases hdepth : v.tooDeep? nestingLimit with
  | none => rw [read_opened layout hshort hdepth, merged_of_proper v hproper]
  | some inObject => exact read_tooDeep layout hshort hdepth

/-! ## Other texts -/

section Maps

variable (f : String → String)

mutual
theorem tooDeep?_mapTexts : ∀ (v : Json) (levels : Nat), (v.mapTexts f).tooDeep? levels = v.tooDeep? levels
  | .null, _ => rfl
  | .bool _, _ => rfl
  | .int _, _ => rfl
  | .float _, _ => rfl
  | .str _, _ => rfl
  | .arr items, levels => by rw [mapTexts, tooDeep?, tooDeep?, itemsTooDeep?_mapItems items]
  | .obj fields, levels => by rw [mapTexts, tooDeep?, tooDeep?, fieldsTooDeep?_mapFields fields]

theorem itemsTooDeep?_mapItems : ∀ (items : List Json) (levels : Nat),
    itemsTooDeep? levels (mapItems f items) = itemsTooDeep? levels items
  | [], _ => rfl
  | v :: rest, levels => by
    rw [mapItems, itemsTooDeep?, itemsTooDeep?, tooDeep?_mapTexts v, itemsTooDeep?_mapItems rest]

theorem fieldsTooDeep?_mapFields : ∀ (fields : List (String × Json)) (levels : Nat),
    fieldsTooDeep? levels (mapFields f fields) = fieldsTooDeep? levels fields
  | [], _ => rfl
  | (_, v) :: rest, levels => by
    rw [mapFields, fieldsTooDeep?, fieldsTooDeep?, tooDeep?_mapTexts v, fieldsTooDeep?_mapFields rest]
end

end Maps

end Gamebook.Json
