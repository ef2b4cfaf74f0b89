import Gamebook.Proofs.Schema

/-!
# Checks and writers of one kind of value

* `Codec`                 : a check and a writer of one kind of value, what its loaded values satisfy,
  what becomes of one by writing and loading it, and the values of its unknown fields.
* `Codec.Lawful`          : how the two fit together.
* `Codec.list`, `Codec.table` : lists of a kind of value, and tables without repeated keys.
* `Lawful.optional`, `Lawful.of_optional` and the like : a field of a record, written and loaded.
* `ProperExtra`           : the unknown fields of a record.
* `Codec.Record`, `Record.lawful` : a record is its declared fields, a slot for each, beside unknown ones;
  its laws follow from what holds of the slots.
-/

set_option autoImplicit false

namespace Gamebook

/-- A check and a writer of one kind of value. -/
structure Codec (α : Type) where
  check : Json → Checked α
  write : α → Json
  /-- What loaded values satisfy. -/
  Proper : α → Prop
  /-- The value as it is once it was written and loaded. -/
  settled : α → α
  /-- The values of its unknown fields. -/
  unknown : α → List Json
  /-- How many levels there are above the unknown fields. -/
  level : Nat

/-- The check accepts what is written, and gives the value back but for numbers in unknown fields that
are not finite. -/
structure Codec.Lawful {α : Type} (c : Codec α) : Prop where
  check_write : ∀ a, c.Proper a → c.check (c.write a) = .ok (c.settled a)
  write_settled : ∀ a, c.write (c.settled a) = c.write a
  proper_settled : ∀ a, c.Proper a → c.Proper (c.settled a)
  proper_write : ∀ a, c.Proper a → (c.write a).Proper
  proper_check : ∀ v a, v.Proper → c.check v = .ok a → c.Proper a
  write_ne_null : ∀ a, c.write a ≠ .null
  within_write : ∀ a, (∀ v ∈ c.unknown a, v.isWithin unknownDepth = true) →
    (c.write a).isWithin (unknownDepth + c.level) = true
  unknown_settled : ∀ a, c.unknown (c.settled a) = (c.unknown a).map Json.finiteOnly
  settled_eq : ∀ a, (∀ v ∈ c.unknown a, v.finiteOnly = v) → c.settled a = a

namespace Codec

variable {α : Type}

/-- A kind of value without unknown fields. -/
def plain (check : Json → Checked α) (write : α → Json) (proper : α → Prop) (level : Nat) : Codec α :=
  ⟨check, write, proper, id, fun _ => [], level⟩

theorem plain_lawful {check : Json → Checked α} {write : α → Json} {proper : α → Prop} {level : Nat}
    (hcheck : ∀ a, proper a → check (write a) = .ok a)
    (hwrite : ∀ a, proper a → (write a).Proper)
    (hproper : ∀ v a, v.Proper → check v = .ok a → proper a) (hnull : ∀ a, write a ≠ .null)
    (hwithin : ∀ a, (write a).isWithin (unknownDepth + level) = true) :
    (plain check write proper level).Lawful where
  check_write := hcheck
  write_settled _ := rfl
  proper_settled _ h := h
  proper_write := hwrite
  proper_check := hproper
  write_ne_null := hnull
  within_write a _ := hwithin a
  unknown_settled _ := rfl
  settled_eq _ _ := rfl

/-- Lists of a kind of value. -/
def list (c : Codec α) : Codec (List α) where
  check := Check.list c.check
  write as := .arr (as.map c.write)
  Proper as := ∀ a ∈ as, c.Proper a
  settled as := as.map c.settled
  unknown as := as.flatMap c.unknown
  level := c.level + 1

/-- Tables of a kind of value. -/
def table (c : Codec α) : Codec (Table α) where
  check := Check.map c.check
  write t := .obj (t.mapValues c.write)
  Proper t := (Table.keys t).Nodup ∧ ∀ e ∈ t, c.Proper e.2
  settled t := t.mapValues c.settled
  unknown t := t.values.flatMap c.unknown
  level := c.level + 1

theorem Lawful.list {c : Codec α} (h : c.Lawful) : c.list.Lawful where
  check_write as hproper := Check.list_ok fun a ha => h.check_write a (hproper a ha)
  write_settled as := by
    simp only [Codec.list, List.map_map, Json.arr.injEq]
    exact List.map_congr_left fun a _ => h.write_settled a
  proper_settled as hproper := by
    intro b hb
    obtain ⟨a, ha, rfl⟩ := List.mem_map.1 hb
    exact h.proper_settled a (hproper a ha)
  proper_write as hproper := by
    apply (Json.properItems_iff _).2
    intro v hv
    obtain ⟨a, ha, rfl⟩ := List.mem_map.1 hv
    exact h.proper_write a (hproper a ha)
  proper_check v as hv hcheck := by
    obtain ⟨items, rfl, hitems⟩ := Check.of_list hcheck
    have hall := (Json.properItems_iff items).1 hv
    clear hv hcheck
    induction hitems with
    | nil => simp [Codec.list]
    | cons hfirst _ ih =>
      intro a ha
      rcases List.mem_cons.1 ha with rfl | ha
      · exact h.proper_check _ _ (hall _ List.mem_cons_self) hfirst
      · exact ih (fun v hv => hall v (List.mem_cons_of_mem _ hv)) a ha
  write_ne_null as := by simp [Codec.list]
  within_write as hwithin := by
    simp only [Codec.list, Json.isWithin, ← Nat.add_assoc, Nat.add_sub_cancel, Bool.and_eq_true,
      decide_eq_true_eq]
    refine ⟨Nat.succ_pos _, (Json.areItemsWithin_iff _ _).2 ?_⟩
    intro v hv
    obtain ⟨a, ha, rfl⟩ := List.mem_map.1 hv
    exact h.within_write a fun v hv => hwithin v (List.mem_flatMap.2 ⟨a, ha, hv⟩)
  unknown_settled as := by
    simp only [Codec.list, List.flatMap_map, List.map_flatMap, h.unknown_settled]
  settled_eq as hfinite := by
    refine (List.map_congr_left fun a ha => ?_).trans (List.map_id as)
    exact h.settled_eq a fun v hv => hfinite v (List.mem_flatMap.2 ⟨a, ha, hv⟩)

theorem Lawful.table {c : Codec α} (h : c.Lawful) : c.table.Lawful where
  check_write t hproper := Check.map_ok fun e he => h.check_write e.2 (hproper.2 e he)
  write_settled t := by
    simp only [Codec.table, Table.mapValues, List.map_map, Json.obj.injEq]
    refine List.map_congr_left fun e _ => ?_
    simp only [Function.comp, h.write_settled]
  proper_settled t hproper := by
    refine ⟨by simpa [Codec.table] using hproper.1, ?_⟩
    intro e he
    obtain ⟨a, ha, rfl⟩ := List.mem_map.1 he
    exact h.proper_settled a.2 (hproper.2 a ha)
  proper_write t hproper := by
    refine ⟨by simpa using hproper.1, (Json.properFields_iff _).2 ?_⟩
    intro e he
    obtain ⟨a, ha, rfl⟩ := List.mem_map.1 he
    exact h.proper_write a.2 (hproper.2 a ha)
  proper_check v t hv hcheck := by
    obtain ⟨fields, rfl, hfields⟩ := Check.of_map hcheck
    have hall := (Json.properFields_iff fields).1 hv.2
    refine ⟨by rw [Table.keys_of_forall₂ And.left hfields]; exact hv.1, ?_⟩
    clear hv hcheck
    induction hfields with
    | nil => simp
    | cons hfirst _ ih =>
      intro e he
      rcases List.mem_cons.1 he with rfl | he
      · exact h.proper_check _ _ (hall _ List.mem_cons_self) hfirst.2
      · exact ih (fun v hv => hall v (List.mem_cons_of_mem _ hv)) e he
  write_ne_null t := by simp [Codec.table]
  within_write t hwithin := by
    simp only [Codec.table, Json.isWithin, ← Nat.add_assoc, Nat.add_sub_cancel, Bool.and_eq_true,
      decide_eq_true_eq]
    refine ⟨Nat.succ_pos _, (Json.areFieldsWithin_iff _ _).2 ?_⟩
    intro e he
    obtain ⟨a, ha, rfl⟩ := List.mem_map.1 he
    exact h.within_write a.2 fun v hv =>
      hwithin v (List.mem_flatMap.2 ⟨a.2, List.mem_map_of_mem ha, hv⟩)
  unknown_settled t := by
    simp only [Codec.table, Table.values, Table.mapValues, List.flatMap_map, List.map_flatMap,
      h.unknown_settled]
  settled_eq t hfinite := by
    refine (List.map_congr_left fun e he => ?_).trans (List.map_id t)
    have heq := h.settled_eq e.2 fun v hv =>
      hfinite v (List.mem_flatMap.2 ⟨e.2, List.mem_map_of_mem he, hv⟩)
    rw [heq]
    rfl

/-! ## Fields of a record -/

namespace Lawful

/-- Writing and loading a value again changes nothing more. -/
theorem settled_settled {c : Codec α} (h : c.Lawful) (a : α) :
    c.settled (c.settled a) = c.settled a := by
  apply h.settled_eq
  intro v hv
  rw [h.unknown_settled] at hv
  obtain ⟨w, -, rfl⟩ := List.mem_map.1 hv
  exact Json.finiteOnly_idem w

section Written

variable {c : Codec α} (h : c.Lawful) {fields : Table Json} {key : String}

include h

theorem optional {f : Field α} (hget : fields.get? key = f.slot c.write) (hproper : f.All c.Proper) :
    Check.optional fields key c.check = .ok (f.map c.settled) :=
  Check.optional_ok hget fun a ha => ⟨h.write_ne_null a, h.check_write a (hproper a ha)⟩

theorem defaulted {o : Option α} (hget : fields.get? key = o.map c.write)
    (hproper : ∀ a, o = some a → c.Proper a) :
    Check.defaulted fields key c.check = .ok (o.map c.settled) :=
  Check.defaulted_ok hget fun a ha => h.check_write a (hproper a ha)

theorem required {a : α} (hget : fields.get? key = some (c.write a)) (hproper : c.Proper a) :
    Check.required fields key c.check = .ok (c.settled a) :=
  Check.required_ok hget (h.check_write a hproper)

end Written

section Plain

variable {check : Json → Checked α} {write : α → Json} {proper : α → Prop} {level : Nat}
  (h : (plain check write proper level).Lawful) {fields : Table Json} {key : String}

include h

/-- A value without unknown fields is loaded as it was. -/
theorem plain_optional {f : Field α} (hget : fields.get? key = f.slot write)
    (hproper : f.All proper) : Check.optional fields key check = .ok f := by
  have hok := h.optional hget hproper
  have hid : f.map (plain check write proper level).settled = f := Field.map_id fun _ _ => rfl
  rw [hid] at hok
  exact hok

theorem plain_defaulted {o : Option α} (hget : fields.get? key = o.map write)
    (hproper : ∀ a, o = some a → proper a) : Check.defaulted fields key check = .ok o := by
  have hok := h.defaulted hget hproper
  have hid : o.map (plain check write proper level).settled = o := by cases o <;> rfl
  rw [hid] at hok
  exact hok

theorem plain_required {a : α} (hget : fields.get? key = some (write a)) (hproper : proper a) :
    Check.required fields key check = .ok a := h.required hget hproper

end Plain

section Slots

variable {c : Codec α} (h : c.Lawful)

include h

theorem slot_settled (f : Field α) : (f.map c.settled).slot c.write = f.slot c.write := by
  cases f with
  | absent => rfl
  | null => rfl
  | value a => simp only [Field.map, Field.slot, h.write_settled]

theorem all_settled {f : Field α} (hproper : f.All c.Proper) :
    (f.map c.settled).All c.Proper := by
  cases f with
  | absent => rintro a ⟨⟩
  | null => rintro a ⟨⟩
  | value a =>
    rintro b ⟨⟩
    exact h.proper_settled a (hproper a rfl)

theorem proper_slot {f : Field α} (hproper : f.All c.Proper) :
    ∀ v, f.slot c.write = some v → v.Proper := by
  intro v hv
  cases f with
  | absent => cases hv
  | null =>
    cases hv
    trivial
  | value a =>
    cases hv
    exact h.proper_write a (hproper a rfl)

theorem proper_default {o : Option α} (hproper : ∀ a, o = some a → c.Proper a) :
    ∀ v, o.map c.write = some v → v.Proper := by
  intro v hv
  obtain ⟨a, ha, rfl⟩ := Option.map_eq_some_iff.1 hv
  exact h.proper_write a (hproper a ha)

theorem proper_value {a : α} (hproper : c.Proper a) :
    ∀ v, some (c.write a) = some v → v.Proper := by
  rintro v ⟨⟩
  exact h.proper_write a hproper

theorem within_slot {f : Field α} {levels : Nat} (hlevels : unknownDepth + c.level ≤ levels)
    (hwithin : ∀ v ∈ f.collect c.unknown, v.isWithin unknownDepth = true) :
    ∀ v, f.slot c.write = some v → v.isWithin levels = true := by
  intro v hv
  cases f with
  | absent => cases hv
  | null =>
    cases hv
    simp only [Json.isWithin, decide_eq_true_eq]
    exact Nat.lt_of_lt_of_le (by decide) (Nat.le_trans (Nat.le_add_right _ _) hlevels)
  | value a =>
    cases hv
    exact Json.isWithin_mono _ hlevels (h.within_write a hwithin)

theorem within_default {o : Option α} {levels : Nat} (hlevels : unknownDepth + c.level ≤ levels)
    (hwithin : ∀ a, o = some a → ∀ v ∈ c.unknown a, v.isWithin unknownDepth = true) :
    ∀ v, o.map c.write = some v → v.isWithin levels = true := by
  intro v hv
  obtain ⟨a, ha, rfl⟩ := Option.map_eq_some_iff.1 hv
  exact Json.isWithin_mono _ hlevels (h.within_write a (hwithin a ha))

theorem within_value {a : α} {levels : Nat} (hlevels : unknownDepth + c.level ≤ levels)
    (hwithin : ∀ v ∈ c.unknown a, v.isWithin unknownDepth = true) :
    ∀ v, some (c.write a) = some v → v.isWithin levels = true := by
  rintro v ⟨⟩
  exact Json.isWithin_mono _ hlevels (h.within_write a hwithin)

theorem collect_settled (f : Field α) :
    (f.map c.settled).collect c.unknown = (f.collect c.unknown).map Json.finiteOnly := by
  cases f with
  | absent => rfl
  | null => rfl
  | value a => exact h.unknown_settled a

theorem map_settled_eq {f : Field α} (hfinite : ∀ v ∈ f.collect c.unknown, v.finiteOnly = v) :
    f.map c.settled = f := by
  apply Field.map_id
  rintro a rfl
  exact h.settled_eq a hfinite

end Slots

section Plain

variable {check : Json → Checked α} {write : α → Json} {proper : α → Prop} {level : Nat}
  (h : (plain check write proper level).Lawful)

include h

theorem plain_within_slot {f : Field α} {levels : Nat} (hlevels : unknownDepth + level ≤ levels) :
    ∀ v, f.slot write = some v → v.isWithin levels = true := by
  apply h.within_slot hlevels
  cases f <;> simp [Field.collect, Field.get?, plain]

theorem plain_within_default {o : Option α} {levels : Nat}
    (hlevels : unknownDepth + level ≤ levels) :
    ∀ v, o.map write = some v → v.isWithin levels = true :=
  h.within_default hlevels (by simp [plain])

theorem plain_within_value {a : α} {levels : Nat} (hlevels : unknownDepth + level ≤ levels) :
    ∀ v, some (write a) = some v → v.isWithin levels = true :=
  h.within_value hlevels (by simp [plain])

end Plain

section Loaded

variable {c : Codec α} (h : c.Lawful) {fields : Table Json} {key : String}
  (hfields : (Json.obj fields).Proper)

include h hfields

/-- A field of a loaded record is proper. -/
theorem of_optional {f : Field α} (hcheck : Check.optional fields key c.check = .ok f) :
    f.All c.Proper := by
  rintro a rfl
  rcases Check.of_optional hcheck with ⟨heq, -⟩ | ⟨heq, -⟩ | ⟨v, b, heq, hget, -, hb⟩
  · cases heq
  · cases heq
  · cases heq
    exact h.proper_check v _ ((Json.properFields_iff _).1 hfields.2 _ (Table.mem_of_get? hget)) hb

theorem of_required {a : α} (hcheck : Check.required fields key c.check = .ok a) : c.Proper a := by
  obtain ⟨v, hget, ha⟩ := Check.of_required hcheck
  exact h.proper_check v a
    ((Json.properFields_iff _).1 hfields.2 _ (Table.mem_of_get? hget)) ha

end Loaded

end Lawful

end Codec

/-! ## Unknown fields -/

/-- The unknown fields of a record of declared keys: no key twice, none of them declared, and proper
values. -/
structure ProperExtra (declared : List String) (extra : Table Json) : Prop where
  nodup : (Table.keys extra).Nodup
  unknown : ∀ key ∈ Table.keys extra, key ∉ declared
  values : ∀ e ∈ extra, e.2.Proper

namespace ProperExtra

variable {declared : List String} {extra : Table Json}

theorem nil (declared : List String) : ProperExtra declared [] :=
  ⟨List.nodup_nil, fun _ h => absurd h List.not_mem_nil, fun _ h => absurd h List.not_mem_nil⟩

theorem of_fields {fields : Table Json} (h : (Json.obj fields).Proper) (declared : List String) :
    ProperExtra declared (Check.unknown fields declared) := by
  have hsub : (Check.unknown fields declared).Sublist fields := List.filter_sublist
  refine ⟨h.1.sublist (hsub.map Prod.fst), ?_, ?_⟩
  · intro key hkey
    obtain ⟨e, he, rfl⟩ := List.mem_map.1 hkey
    simpa using (List.mem_filter.1 he).2
  · exact fun e he => (Json.properFields_iff _).1 h.2 e (hsub.subset he)

theorem finite (h : ProperExtra declared extra) :
    ProperExtra declared (Json.finiteFields extra) := by
  refine ⟨by rw [Json.keys_finiteFields]; exact h.nodup,
    by rw [Json.keys_finiteFields]; exact h.unknown, ?_⟩
  have hall := (Json.properFields_iff extra).2 h.values
  exact (Json.properFields_iff _).1 (Json.properFields_finiteFields extra hall)

section Written

variable (h : ProperExtra declared extra) (slots : List (String × Option Json))
  (hslots : slots.map Prod.fst = declared)

include h hslots

/-- A declared key of a record that was written. -/
theorem get?_slot (hnodup : declared.Nodup) {key : String} {o : Option Json}
    (hmem : (key, o) ∈ slots) :
    Table.get? (Json.filled slots ++ Json.finiteFields extra) key = o := by
  subst hslots
  exact Json.get?_filled hnodup hmem fun hkey =>
    h.finite.unknown key hkey (List.mem_map_of_mem hmem)

theorem unknown_written :
    Check.unknown (Json.filled slots ++ Json.finiteFields extra) declared =
      Json.finiteFields extra := by
  subst hslots
  exact Json.unknown_filled h.finite.unknown

theorem proper_written (hnodup : declared.Nodup)
    (hvalues : ∀ slot ∈ slots, ∀ v, slot.2 = some v → v.Proper) :
    (Json.obj (Json.filled slots ++ Json.finiteFields extra)).Proper := by
  subst hslots
  exact Json.proper_filled hnodup h.finite.nodup h.finite.unknown hvalues h.finite.values

end Written

theorem values_finite (extra : Table Json) :
    (Table.values (Json.finiteFields extra)) = (Table.values extra).map Json.finiteOnly := by
  rw [Json.finiteFields_eq]
  simp [Table.values, Table.mapValues]

theorem finite_eq (hfinite : ∀ v ∈ Table.values extra, v.finiteOnly = v) :
    Json.finiteFields extra = extra := by
  rw [Json.finiteFields_eq]
  refine (List.map_congr_left fun e he => ?_).trans (List.map_id extra)
  rw [hfinite e.2 (List.mem_map_of_mem he)]
  rfl

theorem within_finite {levels : Nat} (hlevels : unknownDepth ≤ levels)
    (h : ∀ v ∈ Table.values extra, v.isWithin unknownDepth = true) :
    ∀ e ∈ Json.finiteFields extra, e.2.isWithin levels = true := by
  intro e he
  rw [Json.finiteFields_eq] at he
  obtain ⟨a, ha, rfl⟩ := List.mem_map.1 he
  dsimp only
  rw [Json.isWithin_finiteOnly]
  exact Json.isWithin_mono a.2 hlevels (h a.2 (List.mem_map_of_mem ha))

/-- A record that was written is nested one level deeper than its fields. -/
theorem within_written (slots : List (String × Option Json)) {levels : Nat}
    (hlevels : unknownDepth ≤ levels)
    (hvalues : ∀ slot ∈ slots, ∀ v, slot.2 = some v → v.isWithin levels = true)
    (h : ∀ v ∈ Table.values extra, v.isWithin unknownDepth = true) :
    (Json.obj (Json.filled slots ++ Json.finiteFields extra)).isWithin (levels + 1) = true :=
  Json.isWithin_filled hvalues (within_finite hlevels h)

end ProperExtra

/-! ## Records -/

/-- A record is written as its declared fields, a slot for each, and its unknown fields after them. -/
structure Codec.Record {α : Type} (c : Codec α) (declared : List String)
    (slots : α → List (String × Option Json)) (extra : α → Table Json) : Prop where
  nodup : declared.Nodup
  keys : ∀ a, (slots a).map Prod.fst = declared
  write_eq : ∀ a, c.write a = .obj (Json.filled (slots a) ++ Json.finiteFields (extra a))
  slots_settled : ∀ a, slots (c.settled a) = slots a
  extra_settled : ∀ a, extra (c.settled a) = Json.finiteFields (extra a)
  proper_extra : ∀ a, c.Proper a → ProperExtra declared (extra a)
  proper_slots : ∀ a, c.Proper a → ∀ slot ∈ slots a, ∀ v, slot.2 = some v → v.Proper
  mem_unknown : ∀ a, ∀ v ∈ (extra a).values, v ∈ c.unknown a
  level_pos : 0 < c.level
  within_slots : ∀ a, (∀ v ∈ c.unknown a, v.isWithin unknownDepth = true) →
    ∀ slot ∈ slots a, ∀ v, slot.2 = some v → v.isWithin (unknownDepth + (c.level - 1)) = true
  check_fields : ∀ a fields, c.Proper a → (∀ slot ∈ slots a, fields.get? slot.1 = slot.2) →
    Check.unknown fields declared = Json.finiteFields (extra a) →
    c.check (.obj fields) = .ok (c.settled a)

namespace Codec.Record

variable {α : Type} {c : Codec α} {declared : List String} {slots : α → List (String × Option Json)}
  {extra : α → Table Json}

/-- The laws of a record, from those of its fields. -/
theorem lawful (r : c.Record declared slots extra)
    (hsettled : ∀ a, c.Proper a → c.Proper (c.settled a))
    (hcheck : ∀ v a, v.Proper → c.check v = .ok a → c.Proper a)
    (hunknown : ∀ a, c.unknown (c.settled a) = (c.unknown a).map Json.finiteOnly)
    (heq : ∀ a, (∀ v ∈ c.unknown a, v.finiteOnly = v) → c.settled a = a) : c.Lawful where
  check_write a hproper := by
    have hextra := r.proper_extra a hproper
    rw [r.write_eq]
    exact r.check_fields a _ hproper
      (fun slot hmem => hextra.get?_slot (slots a) (r.keys a) r.nodup hmem)
      (hextra.unknown_written (slots a) (r.keys a))
  write_settled a := by
    rw [r.write_eq, r.write_eq, r.slots_settled, r.extra_settled, Json.finiteFields_idem]
  proper_settled := hsettled
  proper_write a hproper := by
    rw [r.write_eq]
    exact (r.proper_extra a hproper).proper_written (slots a) (r.keys a) r.nodup
      (r.proper_slots a hproper)
  proper_check := hcheck
  write_ne_null a := by
    rw [r.write_eq]
    exact fun h => nomatch h
  within_write a hwithin := by
    have hlevel : unknownDepth + c.level = unknownDepth + (c.level - 1) + 1 := by
      have hpos := r.level_pos
      omega
    rw [r.write_eq, hlevel]
    exact ProperExtra.within_written (slots a) (Nat.le_add_right _ _) (r.within_slots a hwithin)
      fun v hv => hwithin v (r.mem_unknown a v hv)
  unknown_settled := hunknown
  settled_eq := heq

theorem get?_slot (r : c.Record declared slots extra) {a : α} (ha : c.Proper a) {key : String}
    {o : Option Json} (hmem : (key, o) ∈ slots a) : (c.write a).get? key = o := by
  rw [r.write_eq]
  exact (r.proper_extra a ha).get?_slot (slots a) (r.keys a) r.nodup hmem

/-- An undeclared field of what is written. -/
theorem get?_unknown (r : c.Record declared slots extra) (a : α) {key : String}
    (hkey : key ∉ declared) :
    (c.write a).get? key = (Table.get? (extra a) key).map Json.finiteOnly := by
  rw [← r.keys a] at hkey
  rw [r.write_eq, ← Table.get?_mapValues, ← Json.finiteFields_eq]
  exact Json.get?_extra hkey

end Codec.Record

end Gamebook
