import Gamebook.Proofs.Json.Finite
import Gamebook.Story.Document
import Mathlib.Data.List.Forall2

/-!
# Checks against a schema

* `Json.filled`     : the fields of an object, given for each declared key a value or none.
* `Field.slot`      : the value that a document gives an optional field.
* `get?_filled`, `unknown_filled` : looking up a declared key among these fields and the unknown ones,
  and leaving the unknown ones.
* `list_of_items`, `map_of_values` : a check accepts what consists of what it accepts.
* `required_ok`, `optional_ok`, `defaulted_ok`, `list_ok`, `map_ok` : a check accepts what was written.
* `of_required`, `of_optional`, `of_defaulted`, `of_list`, `of_map` : what a check has accepted.
* `Checked.Reports` : a check that fails has an issue to report.
-/

set_option autoImplicit false

namespace Gamebook

/-! ## Checked values -/

namespace Checked

variable {α β : Type}

@[simp] theorem under_ok (part : String) (a : α) : (Checked.ok a).under part = .ok a := rfl

/-- Steps of a composed check. -/
theorem map_of {f : α → β} {x : Checked α} {a : α} (h : x = .ok a) : f <$> x = .ok (f a) := by
  rw [h]
  rfl

theorem seq_of {f : Checked (α → β)} {x : Checked α} {g : α → β} {a : α} (hf : f = .ok g)
    (hx : x = .ok a) : f <*> x = .ok (g a) := by
  rw [hf, hx]
  rfl

theorem of_map {f : α → β} {x : Checked α} {b : β} (h : map f x = .ok b) :
    ∃ a, x = .ok a ∧ f a = b := by
  cases x with
  | ok a =>
    cases h
    exact ⟨a, rfl, rfl⟩
  | bad issues => cases h

theorem of_seq {f : Checked (α → β)} {x : Checked α} {b : β} (h : seq f x = .ok b) :
    ∃ g a, f = .ok g ∧ x = .ok a ∧ g a = b := by
  cases f with
  | ok g =>
    cases x with
    | ok a =>
      cases h
      exact ⟨g, a, rfl, rfl, rfl⟩
    | bad issues => cases h
  | bad issues => cases x <;> cases h

theorem of_under {part : String} {x : Checked α} {a : α} (h : x.under part = .ok a) :
    x = .ok a := by
  cases x with
  | ok b => exact h
  | bad issues => cases h

end Checked

/-! ## Declared fields of an object -/

/-- The entry of a key that has a value, and none of a key that has not. -/
def Json.slotEntry (slot : String × Option Json) : Table Json := (slot.2.map (slot.1, ·)).toList

/-- The fields of an object, given for each declared key a value or none. -/
def Json.filled (slots : List (String × Option Json)) : Table Json := slots.flatMap Json.slotEntry

namespace Field

variable {α β : Type}

/-- The value that a document gives an optional field. -/
def slot (write : α → Json) : Field α → Option Json
  | .absent => none
  | .null => some .null
  | .value a => some (write a)

/-- A field has nothing but values of a kind. -/
def All (p : α → Prop) (f : Field α) : Prop := ∀ a, f = .value a → p a

theorem entry_eq (key : String) (write : α → Json) (f : Field α) :
    f.entry key write = Json.slotEntry (key, f.slot write) := by
  cases f <;> rfl

theorem map_id {f : Field α} {g : α → α} (h : f.All fun a => g a = a) : f.map g = f := by
  cases f with
  | absent => rfl
  | null => rfl
  | value a => rw [map, h a rfl]

end Field

theorem Json.defaultedEntry_eq {α : Type} (key : String) (write : α → Json) (o : Option α) :
    Json.defaultedEntry key write o = Json.slotEntry (key, o.map write) := by
  cases o <;> rfl

namespace Json

theorem mem_filled {slots : List (String × Option Json)} {e : String × Json}
    (h : e ∈ filled slots) : (e.1, some e.2) ∈ slots := by
  obtain ⟨⟨k, o⟩, hmem, he⟩ := List.mem_flatMap.1 h
  cases o with
  | none => cases he
  | some v =>
    rw [List.mem_singleton.1 he]
    exact hmem

theorem keys_filled_sublist (slots : List (String × Option Json)) :
    (Table.keys (filled slots)).Sublist (slots.map Prod.fst) := by
  induction slots with
  | nil => exact List.Sublist.slnil
  | cons slot slots ih =>
    obtain ⟨k, o⟩ := slot
    have hcons : filled ((k, o) :: slots) = slotEntry (k, o) ++ filled slots := rfl
    rw [hcons, Table.keys_append, List.map_cons]
    cases o with
    | none => exact ih.cons k
    | some v => exact ih.cons_cons k

/-- Looking up a declared key gives what its slot holds. -/
theorem get?_filled {slots : List (String × Option Json)} {extra : Table Json}
    (hslots : (slots.map Prod.fst).Nodup) {key : String} {o : Option Json}
    (hmem : (key, o) ∈ slots) (hextra : key ∉ Table.keys extra) :
    Table.get? (filled slots ++ extra) key = o := by
  rw [Table.get?_append, Table.get?_of_not_mem hextra, Option.or_none]
  induction slots with
  | nil => cases hmem
  | cons slot slots ih =>
    obtain ⟨k, p⟩ := slot
    have hcons : filled ((k, p) :: slots) = slotEntry (k, p) ++ filled slots := rfl
    rw [List.map_cons, List.nodup_cons] at hslots
    rw [hcons, Table.get?_append]
    rcases List.mem_cons.1 hmem with heq | hmem
    · cases heq
      have hnot : key ∉ Table.keys (filled slots) := fun h =>
        hslots.1 ((keys_filled_sublist slots).subset h)
      rw [Table.get?_of_not_mem hnot, Option.or_none]
      cases o with
      | none => rfl
      | some v =>
        have hentry : slotEntry (key, some v) = [(key, v)] := rfl
        rw [hentry, Table.get?_cons, if_pos (beq_self_eq_true key)]
    · have hkey : key ∈ slots.map Prod.fst := List.mem_map_of_mem hmem
      have hne : k ≠ key := fun heq => hslots.1 (heq ▸ hkey)
      have hnot : key ∉ Table.keys (slotEntry (k, p)) := by
        cases p with
        | none => exact List.not_mem_nil
        | some v => simpa [slotEntry] using hne.symm
      rw [Table.get?_of_not_mem hnot, Option.none_or]
      exact ih hslots.2 hmem

theorem field_obj (fields : Table Json) (key : String) :
    (Json.obj fields).field key = (Table.get? fields key).getD .null := rfl

theorem field_of_get? {fields : Table Json} {key : String} {v : Json}
    (h : Table.get? fields key = some v) : (Json.obj fields).field key = v := by
  rw [field_obj, h]
  rfl

/-- Looking up another key gives what the unknown fields hold. -/
theorem get?_extra {slots : List (String × Option Json)} {extra : Table Json} {key : String}
    (h : key ∉ slots.map Prod.fst) :
    Table.get? (filled slots ++ extra) key = Table.get? extra key := by
  have hnot : key ∉ Table.keys (filled slots) := fun hmem =>
    h ((keys_filled_sublist slots).subset hmem)
  rw [Table.get?_append, Table.get?_of_not_mem hnot, Option.none_or]

/-- The unknown fields are those that are not declared. -/
theorem unknown_filled {slots : List (String × Option Json)} {extra : Table Json}
    (hextra : ∀ key ∈ Table.keys extra, key ∉ slots.map Prod.fst) :
    Check.unknown (filled slots ++ extra) (slots.map Prod.fst) = extra := by
  unfold Check.unknown Table.filterKeys
  rw [List.filter_append]
  have hslots : (filled slots).filter (fun e => !(slots.map Prod.fst).contains e.1) = [] := by
    rw [List.filter_eq_nil_iff]
    intro e he
    have hmem : e.1 ∈ slots.map Prod.fst := List.mem_map_of_mem (mem_filled he)
    simpa using hmem
  have hall : extra.filter (fun e => !(slots.map Prod.fst).contains e.1) = extra := by
    rw [List.filter_eq_self]
    intro e he
    have hnot := hextra e.1 (List.mem_map_of_mem he)
    simpa using hnot
  rw [hslots, hall, List.nil_append]

/-- The fields of a record are proper when no key is repeated and every value is. -/
theorem proper_filled {slots : List (String × Option Json)} {extra : Table Json}
    (hslots : (slots.map Prod.fst).Nodup) (hkeys : (Table.keys extra).Nodup)
    (hextra : ∀ key ∈ Table.keys extra, key ∉ slots.map Prod.fst)
    (hvalues : ∀ slot ∈ slots, ∀ v, slot.2 = some v → v.Proper)
    (hunknown : ∀ e ∈ extra, e.2.Proper) : (Json.obj (filled slots ++ extra)).Proper := by
  refine ⟨?_, (properFields_iff _).2 ?_⟩
  · rw [Table.keys_append, List.nodup_append]
    refine ⟨hslots.sublist (keys_filled_sublist slots), hkeys, ?_⟩
    rintro a ha b hb rfl
    exact hextra a hb ((keys_filled_sublist slots).subset ha)
  · intro e he
    rcases List.mem_append.1 he with he | he
    · exact hvalues _ (mem_filled he) e.2 rfl
    · exact hunknown e he

/-- A record is nested one level deeper than its fields. -/
theorem isWithin_filled {slots : List (String × Option Json)} {extra : Table Json} {levels : Nat}
    (hvalues : ∀ slot ∈ slots, ∀ v, slot.2 = some v → v.isWithin levels = true)
    (hunknown : ∀ e ∈ extra, e.2.isWithin levels = true) :
    (Json.obj (filled slots ++ extra)).isWithin (levels + 1) = true := by
  simp only [isWithin, Nat.add_sub_cancel, Bool.and_eq_true, decide_eq_true_eq]
  refine ⟨Nat.succ_pos levels, (areFieldsWithin_iff _ _).2 ?_⟩
  intro e he
  rcases List.mem_append.1 he with he | he
  · exact hvalues _ (mem_filled he) e.2 rfl
  · exact hunknown e he

end Json

/-! ## Checks of fields -/

namespace Check

variable {α β : Type} {fields : Table Json} {key : String} {check : Json → Checked α}

/-- What is not declared stays when declared fields are left out. -/
theorem unknown_filterKeys (fields : Table Json) {p : String → Bool} {declared : List String}
    (h : ∀ key, key ∉ declared → p key = true) :
    unknown (fields.filterKeys p) declared = unknown fields declared :=
  Table.filterKeys_filterKeys fields fun key hkey => h key (by simpa using hkey)

/-- A check accepts a required field that was written. -/
theorem required_ok {v : Json} {a : α} (hget : fields.get? key = some v) (hcheck : check v = .ok a) :
    required fields key check = .ok a := by
  rw [required, hget]
  dsimp only
  rw [hcheck, Checked.under_ok]

theorem optional_ok {write : β → Json} {g : β → α} {f : Field β}
    (hget : fields.get? key = f.slot write)
    (hcheck : f.All fun b => write b ≠ .null ∧ check (write b) = .ok (g b)) :
    optional fields key check = .ok (f.map g) := by
  cases f with
  | absent => rw [optional, hget]; rfl
  | null => rw [optional, hget]; rfl
  | value b =>
    obtain ⟨hnull, hok⟩ := hcheck b rfl
    rw [optional, hget, Field.slot]
    split
    · rename_i heq
      cases heq
    · rename_i heq
      exact absurd (Option.some.inj heq) hnull
    · rename_i heq
      rw [← Option.some.inj heq, hok]
      rfl

/-- A field that is checked in documents with the same value in it. -/
theorem optional_congr {others : Table Json} (h : fields.get? key = others.get? key)
    (check : Json → Checked α) : optional fields key check = optional others key check := by
  unfold optional
  rw [h]

theorem defaulted_ok {write : β → Json} {g : β → α} {o : Option β}
    (hget : fields.get? key = o.map write) (hcheck : ∀ b, o = some b → check (write b) = .ok (g b)) :
    defaulted fields key check = .ok (o.map g) := by
  rw [defaulted, hget]
  cases o with
  | none => rfl
  | some b =>
    dsimp only [Option.map_some]
    rw [hcheck b rfl]
    rfl

/-- A check accepts a list whose items it accepts. -/
theorem list_of_items {items : List Json} {as : List α}
    (h : List.Forall₂ (fun v a => check v = .ok a) items as) : list check (.arr items) = .ok as := by
  have hitems : ∀ index, listItems check index items = .ok as := by
    induction h with
    | nil => exact fun _ => rfl
    | cons hfirst _ ih =>
      intro index
      rw [listItems, hfirst, ih (index + 1)]
      rfl
  exact hitems 0

/-- A check accepts a map whose values it accepts. -/
theorem map_of_values {t : Table Json} {u : Table α}
    (h : List.Forall₂ (fun e f => e.1 = f.1 ∧ check e.2 = .ok f.2) t u) :
    map check (.obj t) = .ok u := by
  have hentries : mapEntries check t = .ok u := by
    induction h with
    | nil => rfl
    | @cons e f _ _ hfirst _ ih =>
      obtain ⟨key, v⟩ := e
      obtain ⟨key', a⟩ := f
      obtain ⟨rfl, hv⟩ := hfirst
      dsimp only at hv
      rw [mapEntries, hv, ih]
      rfl
  exact hentries

theorem list_ok {write : β → Json} {g : β → α} {bs : List β}
    (h : ∀ b ∈ bs, check (write b) = .ok (g b)) :
    list check (.arr (bs.map write)) = .ok (bs.map g) := by
  apply list_of_items
  rw [List.forall₂_map_left_iff, List.forall₂_map_right_iff, List.forall₂_same]
  exact h

theorem map_ok {write : β → Json} {g : β → α} {t : Table β}
    (h : ∀ e ∈ t, check (write e.2) = .ok (g e.2)) :
    map check (.obj (t.mapValues write)) = .ok (t.mapValues g) := by
  apply map_of_values
  unfold Table.mapValues
  rw [List.forall₂_map_left_iff, List.forall₂_map_right_iff, List.forall₂_same]
  exact fun e he => ⟨rfl, h e he⟩

/-! ## What a check has accepted -/

theorem of_required {a : α} (h : required fields key check = .ok a) :
    ∃ v, fields.get? key = some v ∧ check v = .ok a := by
  unfold required at h
  split at h
  · rename_i v hv
    exact ⟨v, hv, Checked.of_under h⟩
  · cases h

theorem of_optional {f : Field α} (h : optional fields key check = .ok f) :
    (f = .absent ∧ fields.get? key = none) ∨ (f = .null ∧ fields.get? key = some .null) ∨
      ∃ v a, f = .value a ∧ fields.get? key = some v ∧ v ≠ .null ∧ check v = .ok a := by
  unfold optional at h
  split at h
  · rename_i hv
    cases h
    exact .inl ⟨rfl, hv⟩
  · rename_i hv
    cases h
    exact .inr (.inl ⟨rfl, hv⟩)
  · rename_i v hnull hv
    obtain ⟨a, ha, rfl⟩ := Checked.of_map h
    exact .inr (.inr ⟨v, a, rfl, hv, fun heq => hnull heq, Checked.of_under ha⟩)

theorem of_defaulted {o : Option α} (h : defaulted fields key check = .ok o) :
    (o = none ∧ fields.get? key = none) ∨
      ∃ v a, o = some a ∧ fields.get? key = some v ∧ check v = .ok a := by
  unfold defaulted at h
  split at h
  · rename_i hv
    cases h
    exact .inl ⟨rfl, hv⟩
  · rename_i v hv
    obtain ⟨a, ha, rfl⟩ := Checked.of_map h
    exact .inr ⟨v, a, rfl, hv, Checked.of_under ha⟩

theorem of_listItems {index : Nat} {items : List Json} {as : List α}
    (h : listItems check index items = .ok as) :
    List.Forall₂ (fun v a => check v = .ok a) items as := by
  induction items generalizing index as with
  | nil =>
    cases h
    exact .nil
  | cons v rest ih =>
    rw [listItems] at h
    obtain ⟨g, more, hg, hmore, rfl⟩ := Checked.of_seq h
    obtain ⟨a, ha, rfl⟩ := Checked.of_map hg
    exact .cons (Checked.of_under ha) (ih hmore)

theorem of_list {v : Json} {as : List α} (h : list check v = .ok as) :
    ∃ items, v = .arr items ∧ List.Forall₂ (fun v a => check v = .ok a) items as := by
  cases v with
  | arr items => exact ⟨items, rfl, of_listItems h⟩
  | _ => cases h

theorem of_map {v : Json} {t : Table α} (h : map check v = .ok t) :
    ∃ fields, v = .obj fields ∧
      List.Forall₂ (fun e f => e.1 = f.1 ∧ check e.2 = .ok f.2) fields t := by
  cases v with
  | obj fields =>
    refine ⟨fields, rfl, ?_⟩
    have hentries : mapEntries check fields = .ok t := h
    induction fields generalizing t with
    | nil =>
      cases hentries
      exact .nil
    | cons e rest ih =>
      obtain ⟨key, v⟩ := e
      rw [mapEntries] at hentries
      obtain ⟨g, more, hg, hmore, rfl⟩ := Checked.of_seq hentries
      obtain ⟨a, ha, rfl⟩ := Checked.of_map hg
      exact .cons ⟨rfl, Checked.of_under ha⟩ (ih hmore hmore)
  | _ => cases h

theorem of_model {check : Table Json → Checked α} {v : Json} {a : α} (h : model check v = .ok a) :
    ∃ fields, v = .obj fields ∧ check fields = .ok a := by
  cases v with
  | obj fields => exact ⟨fields, rfl, h⟩
  | _ => cases h

end Check

/-! ## A check that fails says why -/

namespace Checked

variable {α β : Type}

/-- When the check fails there is an issue. -/
def Reports (c : Checked α) : Prop := c ≠ .bad []

theorem reports_ok (a : α) : (Checked.ok a).Reports := nofun

theorem reports_fail (kind : IssueKind) (v : Json) : (Checked.fail kind v : Checked α).Reports := nofun

theorem reports_map (f : α → β) {c : Checked α} (h : c.Reports) : (c.map f).Reports := by
  cases c with
  | ok a => exact reports_ok _
  | bad issues => exact fun hbad => h (congrArg Checked.bad (Checked.bad.inj hbad))

theorem reports_under (part : String) {c : Checked α} (h : c.Reports) : (c.under part).Reports := by
  cases c with
  | ok a => exact reports_ok _
  | bad issues => exact fun hbad => h (congrArg Checked.bad (List.map_eq_nil_iff.1 (Checked.bad.inj hbad)))

theorem reports_seq {f : Checked (α → β)} {c : Checked α} (hf : f.Reports) (hc : c.Reports) :
    (Checked.seq f c).Reports := by
  cases f with
  | ok g =>
    cases c with
    | ok a => exact reports_ok _
    | bad issues => exact fun hbad => hc (congrArg Checked.bad (Checked.bad.inj hbad))
  | bad issues =>
    cases c with
    | ok a => exact fun hbad => hf (congrArg Checked.bad (Checked.bad.inj hbad))
    | bad more =>
      exact fun hbad => hf (congrArg Checked.bad (List.append_eq_nil_iff.1 (Checked.bad.inj hbad)).1)

end Checked

namespace Check

open Checked

variable {α : Type} {check : Json → Checked α}

theorem reports_scalarText (v : Json) : (scalarText v).Reports := by
  cases v <;> first | exact reports_ok _ | exact reports_fail _ _

theorem reports_text (v : Json) : (text v).Reports := by
  cases v <;> first | exact reports_ok _ | exact reports_fail _ _

section Fields

variable (h : ∀ v, (check v).Reports)

include h

theorem reports_optional (fields : Table Json) (key : String) : (optional fields key check).Reports := by
  unfold optional
  split
  · exact reports_ok _
  · exact reports_ok _
  · exact reports_map _ (reports_under _ (h _))

theorem reports_defaulted (fields : Table Json) (key : String) : (defaulted fields key check).Reports := by
  unfold defaulted
  split
  · exact reports_ok _
  · exact reports_map _ (reports_under _ (h _))

theorem reports_mapEntries (entries : Table Json) : (mapEntries check entries).Reports := by
  induction entries with
  | nil => exact reports_ok _
  | cons e rest ih => exact reports_seq (reports_map _ (reports_under _ (h _))) ih

theorem reports_mapOf (v : Json) : (map check v).Reports := by
  cases v with
  | obj fields => exact reports_mapEntries h fields
  | _ => exact reports_fail _ _

end Fields

end Check

end Gamebook
