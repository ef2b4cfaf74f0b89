import Gamebook.Proofs.Json.Finite
import Mathlib.Data.List.Perm.Subperm
import Mathlib.Data.Option.Basic

/-!
# Sameness of values

* `same_null_iff`, `same_str_iff`, `same_arr_iff`, `same_obj_iff` : what is the same as a value of each
  kind; objects are compared by look-up.
* `same_refl`     : a value with finite numbers is the same as itself.
* `same_isFinite` : what is the same as a value with finite numbers has finite numbers.
* `same_trans`    : what is the same as a third value is the same as each other.
-/

set_option autoImplicit false

namespace Gamebook

theorem Binary64.same_self {x : Binary64} (h : x.isFinite = true) : x.same x = true := by
  cases x with
  | finite negative units exact_ => simp [same, related, rank]
  | nan => cases h
  | infinite negative => cases h

theorem Binary64.isFinite_of_same {x y : Binary64} (hx : x.isFinite = true) (h : x.same y = true) :
    y.isFinite = true := by
  cases x with
  | nan => cases hx
  | infinite negative => cases hx
  | finite negative units hexact =>
    cases y with
    | finite negative' units' hexact' => rfl
    | nan => cases h
    | infinite negative' =>
      exfalso
      have hlt := hexact.1
      simp only [same, related, rank, beq_iff_eq] at h
      have habs := congrArg Int.natAbs h
      have hsigned (b : Bool) (n : Nat) : (signed b n).natAbs = n := by
        cases b <;> simp [signed]
      rw [hsigned, hsigned] at habs
      omega

theorem Binary64.same_iff {x y : Binary64} :
    x.same y = true ↔ ∃ a, x.rank = some a ∧ y.rank = some a := by
  unfold same related
  generalize x.rank = a
  generalize y.rank = b
  rcases a with _ | a
  · exact iff_of_false (fun h => by cases h) (fun ⟨_, h, _⟩ => by cases h)
  · rcases b with _ | b
    · exact iff_of_false (fun h => by cases h) (fun ⟨_, _, h⟩ => by cases h)
    · show (a == b) = true ↔ _
      rw [beq_iff_eq]
      exact ⟨fun h => ⟨a, rfl, by rw [h]⟩, fun ⟨_, ha, hb⟩ => Option.some.inj (ha.trans hb.symm)⟩

/-- The signed numbers of units that are a whole multiple of a unit. -/
theorem Binary64.signed_eq_mul_iff {negative : Bool} {units unit : Nat} {n : Int} (hunit : 0 < unit) :
    signed negative units = n * unit ↔
      units % unit = 0 ∧ signed negative (units / unit) = n := by
  have hcast : ((units / unit : Nat) : Int) * unit + (units % unit : Nat) = units := by
    exact_mod_cast Nat.div_add_mod' units unit
  have hpos : (unit : Int) ≠ 0 := by omega
  constructor
  · intro h
    have hdvd : unit ∣ units := by
      rw [← Int.natCast_dvd_natCast]
      cases negative
      · exact ⟨n, by rw [Int.mul_comm]; exact h⟩
      · exact Int.dvd_neg.1 ⟨n, by rw [Int.mul_comm]; exact h⟩
    have hmod : units % unit = 0 := Nat.mod_eq_zero_of_dvd hdvd
    rw [hmod] at hcast
    refine ⟨hmod, Int.eq_of_mul_eq_mul_right hpos ?_⟩
    rw [← h]
    cases negative
    · exact (Int.add_zero _).symm.trans hcast
    · show -((units / unit : Nat) : Int) * unit = -(units : Int)
      rw [Int.neg_mul]
      exact congrArg Neg.neg ((Int.add_zero _).symm.trans hcast)
  · rintro ⟨hmod, rfl⟩
    rw [hmod] at hcast
    cases negative
    · exact hcast.symm.trans (Int.add_zero _)
    · show -(units : Int) = -((units / unit : Nat) : Int) * unit
      rw [Int.neg_mul]
      exact congrArg Neg.neg (hcast.symm.trans (Int.add_zero _))

/-- A number is a whole one when it lies there on the number line. -/
theorem Binary64.toInt?_eq_some_iff {x : Binary64} {n : Int} :
    x.toInt? = some n ↔ x.isFinite = true ∧ x.rank = some (n * (Nat.pow 2 1074 : Nat)) := by
  have hpos (places : Nat) : 0 < Nat.pow 2 places := Nat.two_pow_pos places
  have hunit := hpos 1074
  cases x with
  | nan => exact iff_of_false (fun h => by cases h) (fun h => by cases h.1)
  | infinite negative => exact iff_of_false (fun h => by cases h) (fun h => by cases h.1)
  | finite negative units hexact =>
    unfold toInt? rank
    generalize Nat.pow 2 1074 = unit at hunit ⊢
    simp only [isFinite, true_and, Option.some.injEq]
    rw [signed_eq_mul_iff hunit]
    split
    · rename_i hmod
      rw [Option.some.injEq]
      exact (and_iff_right hmod).symm
    · rename_i hmod
      exact iff_of_false (fun h => by cases h) (fun h => hmod h.1)

namespace Json

-- Every proof below opens `same` at the kinds that its cases name.
attribute [local simp] same

@[simp] theorem same_null_iff (v : Json) : same .null v = true ↔ v = .null := by
  cases v <;> simp

@[simp] theorem same_str_iff (s : String) (v : Json) : same (.str s) v = true ↔ v = .str s := by
  cases v with
  | str t =>
    rw [same, beq_iff_eq, Json.str.injEq]
    exact eq_comm
  | _ => simp

theorem same_null_right {v : Json} (h : same v .null = true) : v = .null := by
  cases v <;> simp_all

theorem sameItems_iff (xs ys : List Json) :
    sameItems xs ys = true ↔ List.Forall₂ (fun x y => same x y = true) xs ys := by
  induction xs generalizing ys with
  | nil => cases ys <;> simp [sameItems]
  | cons x xs ih =>
    cases ys with
    | nil => simp [sameItems]
    | cons y ys => simp [sameItems, ih]

theorem same_arr_iff (xs : List Json) (v : Json) :
    same (.arr xs) v = true ↔
      ∃ ys, v = .arr ys ∧ List.Forall₂ (fun x y => same x y = true) xs ys := by
  cases v <;> simp [sameItems_iff]

/-! ## Objects by look-up -/

theorem sameFields_iff (xs ys : List (String × Json)) :
    sameFields xs ys = true ↔ ∀ e ∈ xs, ∃ y, Table.get? ys e.1 = some y ∧ same e.2 y = true := by
  induction xs with
  | nil => simp [sameFields]
  | cons e xs ih =>
    obtain ⟨k, x⟩ := e
    rw [sameFields, Bool.and_eq_true, ih, List.forall_mem_cons]
    cases Table.get? ys k <;> simp

/-- The same value, or none on both sides. -/
def SameOption : Option Json → Option Json → Prop := Option.Rel fun x y => same x y = true

theorem sameOption_some {v : Json} {o : Option Json} (h : SameOption (some v) o) :
    ∃ w, o = some w ∧ v.same w = true := by
  cases h with
  | some hsame => exact ⟨_, rfl, hsame⟩

theorem sameOption_none {o : Option Json} (h : SameOption none o) : o = none := by
  cases h
  rfl

/-- Objects are the same when they are so key by key. -/
theorem same_obj_iff {xs ys : Table Json} (hx : (Table.keys xs).Nodup) (hy : (Table.keys ys).Nodup) :
    same (.obj xs) (.obj ys) = true ↔ ∀ key, SameOption (xs.get? key) (ys.get? key) := by
  have hlength (t : Table Json) : t.length = (Table.keys t).length := (List.length_map _).symm
  rw [same, Bool.and_eq_true, sameFields_iff, beq_iff_eq, hlength, hlength]
  constructor
  · rintro ⟨hsize, hall⟩ key
    have hsub : Table.keys xs ⊆ Table.keys ys := by
      intro k hk
      obtain ⟨e, he, rfl⟩ := List.mem_map.1 hk
      obtain ⟨y, hy, -⟩ := hall e he
      exact (Table.has_iff ys e.1).1 (Option.isSome_of_eq_some hy)
    have hperm := (List.subperm_of_subset hx hsub).perm_of_length_le hsize.ge
    cases hget : xs.get? key with
    | none =>
      have hnot := Table.get?_eq_none_iff.1 hget
      rw [hperm.mem_iff] at hnot
      rw [Table.get?_of_not_mem hnot]
      exact .none
    | some x =>
      obtain ⟨y, hy, hsame⟩ := hall _ (Table.mem_of_get? hget)
      rw [hy]
      exact .some hsame
  · intro hall
    have hkeys : ∀ key, key ∈ Table.keys xs ↔ key ∈ Table.keys ys := by
      intro key
      rw [← not_iff_not, ← Table.get?_eq_none_iff, ← Table.get?_eq_none_iff]
      have hkey := hall key
      constructor
      · intro hnone
        rw [hnone] at hkey
        cases h : ys.get? key with
        | none => rfl
        | some y =>
          rw [h] at hkey
          cases hkey
      · intro hnone
        rw [hnone] at hkey
        cases h : xs.get? key with
        | none => rfl
        | some x =>
          rw [h] at hkey
          cases hkey
    refine ⟨((List.perm_ext_iff_of_nodup hx hy).2 hkeys).length_eq, ?_⟩
    intro e he
    have hkey := hall e.1
    rw [Table.get?_of_mem hx he] at hkey
    cases h : ys.get? e.1 with
    | none =>
      rw [h] at hkey
      cases hkey
    | some y =>
      rw [h] at hkey
      cases hkey with
      | some hsame => exact ⟨y, rfl, hsame⟩

theorem same_obj_left {xs : Table Json} {v : Json} (h : same (.obj xs) v = true) :
    ∃ ys, v = .obj ys := by
  cases v with
  | obj ys => exact ⟨ys, rfl⟩
  | _ => simp at h

/-! ## Finite numbers -/

theorem isFinite_arr_iff (items : List Json) :
    (Json.arr items).isFinite = true ↔ ∀ v ∈ items, v.isFinite = true := by
  have hitems : allFiniteItems (fun _ => true) items = true ↔ ∀ v ∈ items, v.isFinite = true := by
    induction items with
    | nil => simp [allFiniteItems]
    | cons v rest ih => simp [allFiniteItems, ih, isFinite]
  exact hitems

theorem isFinite_obj_iff (fields : List (String × Json)) :
    (Json.obj fields).isFinite = true ↔ ∀ e ∈ fields, e.2.isFinite = true := by
  have hfields : allFiniteFields (fun _ => true) fields = true ↔ ∀ e ∈ fields, e.2.isFinite = true := by
    induction fields with
    | nil => simp [allFiniteFields]
    | cons e rest ih =>
      obtain ⟨k, v⟩ := e
      simp [allFiniteFields, ih, isFinite]
  exact hfields

mutual
/-- A value with finite numbers is the same as itself. -/
theorem same_refl : ∀ {v : Json}, v.Proper → v.isFinite = true → same v v = true
  | .null, _, _ => rfl
  | .bool b, _, _ => by simp
  | .int n, _, _ => by simp
  | .float x, _, hfinite => Binary64.same_self hfinite
  | .str s, _, _ => by simp
  | .arr items, hproper, hfinite => by
    rw [same]
    exact sameItems_refl hproper ((isFinite_arr_iff items).1 hfinite)
  | .obj fields, hproper, hfinite => by
    rw [same_obj_iff hproper.1 hproper.1]
    intro key
    cases hget : Table.get? fields key with
    | none => exact .none
    | some v =>
      have hmem := Table.mem_of_get? hget
      exact .some (sameFields_refl hproper.2 ((isFinite_obj_iff fields).1 hfinite) _ hmem)

theorem sameItems_refl : ∀ {items : List Json}, ProperItems items →
    (∀ v ∈ items, v.isFinite = true) → sameItems items items = true
  | [], _, _ => rfl
  | v :: rest, hproper, hfinite => by
    rw [List.forall_mem_cons] at hfinite
    rw [sameItems, same_refl hproper.1 hfinite.1, sameItems_refl hproper.2 hfinite.2]
    rfl

theorem sameFields_refl : ∀ {fields : List (String × Json)}, ProperFields fields →
    (∀ e ∈ fields, e.2.isFinite = true) → ∀ e ∈ fields, same e.2 e.2 = true
  | [], _, _ => List.forall_mem_nil _
  | (_, _) :: _, hproper, hfinite => by
    rw [List.forall_mem_cons] at hfinite ⊢
    exact ⟨same_refl hproper.1 hfinite.1, sameFields_refl hproper.2 hfinite.2⟩
end

theorem sameOption_refl {o : Option Json} (h : ∀ v, o = some v → v.Proper ∧ v.isFinite = true) :
    SameOption o o := by
  cases o with
  | none => exact .none
  | some v => exact .some (same_refl (h v rfl).1 (h v rfl).2)

mutual
/-- What is the same as a value with finite numbers has finite numbers. -/
theorem same_isFinite : ∀ {v w : Json}, v.Proper → w.Proper → v.isFinite = true → same v w = true →
    w.isFinite = true
  | .null, w, _, _, _, h => by
    rw [(same_null_iff w).1 h]
    rfl
  | .bool b, w, _, _, _, h => by
    cases w <;> simp at h
    rfl
  | .int n, w, _, _, _, h => by
    cases w with
    | int m => rfl
    | float x =>
      cases x with
      | finite negative units hexact => rfl
      | nan => simp [Binary64.toInt?] at h
      | infinite negative => simp [Binary64.toInt?] at h
    | _ => simp at h
  | .float x, w, _, _, hfinite, h => by
    cases w with
    | int m => rfl
    | float y => exact Binary64.isFinite_of_same hfinite h
    | _ => simp at h
  | .str s, w, _, _, _, h => by
    rw [(same_str_iff s w).1 h]
    rfl
  | .arr items, w, hv, hw, hfinite, h => by
    obtain ⟨others, rfl, hitems⟩ := (same_arr_iff items w).1 h
    exact (isFinite_arr_iff others).2
      (sameItems_isFinite hv hw ((isFinite_arr_iff items).1 hfinite) hitems)
  | .obj fields, w, hv, hw, hfinite, h => by
    obtain ⟨others, rfl⟩ := same_obj_left h
    rw [same_obj_iff hv.1 hw.1] at h
    apply (isFinite_obj_iff others).2
    intro e he
    have hkey := h e.1
    rw [Table.get?_of_mem hw.1 he] at hkey
    cases hget : Table.get? fields e.1 with
    | none =>
      rw [hget] at hkey
      cases hkey
    | some v =>
      rw [hget] at hkey
      cases hkey with
      | some hsame =>
        exact sameFields_isFinite hv.2 ((isFinite_obj_iff fields).1 hfinite) _
          (Table.mem_of_get? hget) ((properFields_iff others).1 hw.2 e he) hsame

theorem sameItems_isFinite : ∀ {items others : List Json}, ProperItems items → ProperItems others →
    (∀ v ∈ items, v.isFinite = true) → List.Forall₂ (fun x y => same x y = true) items others →
    ∀ w ∈ others, w.isFinite = true
  | [], _, _, _, _, h => by
    cases h
    exact List.forall_mem_nil _
  | v :: rest, _, hv, hw, hfinite, h => by
    cases h with
    | cons hfirst hrest =>
      rw [List.forall_mem_cons] at hfinite ⊢
      exact ⟨same_isFinite hv.1 hw.1 hfinite.1 hfirst,
        sameItems_isFinite hv.2 hw.2 hfinite.2 hrest⟩

theorem sameFields_isFinite : ∀ {fields : List (String × Json)}, ProperFields fields →
    (∀ e ∈ fields, e.2.isFinite = true) → ∀ e ∈ fields, ∀ {w : Json}, w.Proper →
    same e.2 w = true → w.isFinite = true
  | [], _, _ => List.forall_mem_nil _
  | (_, _) :: _, hv, hfinite => by
    rw [List.forall_mem_cons] at hfinite ⊢
    exact ⟨fun hw h => same_isFinite hv.1 hw hfinite.1 h, sameFields_isFinite hv.2 hfinite.2⟩
end

/-! ## Transitivity -/

theorem same_trans_float {x y : Binary64} (h : x.same y = true) :
    ∀ {w : Json}, same (.float y) w = true → same (.float x) w = true
  | .int n, hw => by
    obtain ⟨a, hx, hy⟩ := Binary64.same_iff.1 h
    simp only [same, beq_iff_eq, Binary64.toInt?_eq_some_iff] at hw ⊢
    rw [hy] at hw
    rw [hx]
    refine ⟨Binary64.isFinite_of_same hw.1 (Binary64.same_iff.2 ⟨a, hy, hx⟩), hw.2⟩
  | .float z, hw => by
    obtain ⟨a, hx, hy⟩ := Binary64.same_iff.1 h
    obtain ⟨b, hy', hz⟩ := Binary64.same_iff.1 hw
    rw [hy] at hy'
    cases hy'
    exact Binary64.same_iff.2 ⟨a, hx, hz⟩

theorem same_trans_whole {n : Int} {x : Binary64} (h : x.toInt? = some n) :
    ∀ {w : Json}, same (.float x) w = true → same (.int n) w = true
  | .int m, hw => by
    simp only [same, beq_iff_eq] at hw ⊢
    rw [h] at hw
    exact Option.some.inj hw
  | .float y, hw => by
    obtain ⟨a, hx, hy⟩ := Binary64.same_iff.1 hw
    simp only [same, beq_iff_eq, Binary64.toInt?_eq_some_iff] at h ⊢
    rw [hx] at h
    rw [hy]
    exact ⟨Binary64.isFinite_of_same h.1 hw, h.2⟩

theorem same_trans_of_whole {n : Int} {x : Binary64} (h : x.toInt? = some n) :
    ∀ {w : Json}, same (.int n) w = true → same (.float x) w = true
  | .int m, hw => by
    simp only [same, beq_iff_eq] at hw ⊢
    rw [h, hw]
  | .float y, hw => by
    simp only [same, beq_iff_eq] at hw
    rw [Binary64.toInt?_eq_some_iff] at h hw
    exact Binary64.same_iff.2 ⟨_, h.2, hw.2⟩

mutual
/-- What is the same as a value is the same as what that value is the same as. -/
theorem same_trans : ∀ {u v w : Json}, u.Proper → v.Proper → w.Proper → same u v = true →
    same v w = true → same u w = true
  | .null, v, w, _, _, _, huv, hvw => by
    rw [(same_null_iff v).1 huv] at hvw
    exact hvw
  | .bool b, v, w, _, _, _, huv, hvw => by
    cases v <;> simp at huv
    rw [huv]
    exact hvw
  | .int n, v, w, _, _, _, huv, hvw => by
    cases v <;> simp at huv
    · rw [huv]
      exact hvw
    · exact same_trans_whole huv hvw
  | .float x, v, w, _, _, _, huv, hvw => by
    cases v <;> simp at huv
    · exact same_trans_of_whole huv hvw
    · exact same_trans_float huv hvw
  | .str s, v, w, _, _, _, huv, hvw => by
    rw [(same_str_iff s v).1 huv] at hvw
    exact hvw
  | .arr xs, v, w, hu, hv, hw, huv, hvw => by
    obtain ⟨ys, rfl, hxy⟩ := (same_arr_iff xs v).1 huv
    obtain ⟨zs, rfl, hyz⟩ := (same_arr_iff ys w).1 hvw
    exact (same_arr_iff xs _).2 ⟨zs, rfl, sameItems_trans hu hv hw hxy hyz⟩
  | .obj xs, v, w, hu, hv, hw, huv, hvw => by
    obtain ⟨ys, rfl⟩ := same_obj_left huv
    obtain ⟨zs, rfl⟩ := same_obj_left hvw
    rw [same_obj_iff hu.1 hv.1] at huv
    rw [same_obj_iff hv.1 hw.1] at hvw
    rw [same_obj_iff hu.1 hw.1]
    intro key
    have hxy := huv key
    have hyz := hvw key
    cases hx : Table.get? xs key with
    | none =>
      rw [hx] at hxy
      rw [sameOption_none hxy] at hyz
      rw [sameOption_none hyz]
      exact .none
    | some x =>
      rw [hx] at hxy
      obtain ⟨y, hy, hsame⟩ := sameOption_some hxy
      rw [hy] at hyz
      obtain ⟨z, hz, hsame'⟩ := sameOption_some hyz
      rw [hz]
      exact .some (sameFields_trans hu.2 _ (Table.mem_of_get? hx)
        ((properFields_iff ys).1 hv.2 _ (Table.mem_of_get? hy))
        ((properFields_iff zs).1 hw.2 _ (Table.mem_of_get? hz)) hsame hsame')

theorem sameItems_trans : ∀ {xs ys zs : List Json}, ProperItems xs → ProperItems ys →
    ProperItems zs → List.Forall₂ (fun x y => same x y = true) xs ys →
    List.Forall₂ (fun x y => same x y = true) ys zs →
    List.Forall₂ (fun x y => same x y = true) xs zs
  | [], _, _, _, _, _, hxy, hyz => by
    cases hxy
    exact hyz
  | x :: xs, _, _, hx, hy, hz, hxy, hyz => by
    cases hxy with
    | cons hfirst hrest =>
      cases hyz with
      | cons hfirst' hrest' =>
        exact .cons (same_trans hx.1 hy.1 hz.1 hfirst hfirst')
          (sameItems_trans hx.2 hy.2 hz.2 hrest hrest')

theorem sameFields_trans : ∀ {fields : List (String × Json)}, ProperFields fields →
    ∀ e ∈ fields, ∀ {v w : Json}, v.Proper → w.Proper → same e.2 v = true → same v w = true →
      same e.2 w = true
  | [], _ => List.forall_mem_nil _
  | (_, _) :: _, hfields => by
    rw [List.forall_mem_cons]
    exact ⟨fun hv hw huv hvw => same_trans hfields.1 hv hw huv hvw, sameFields_trans hfields.2⟩
end

end Json

end Gamebook
