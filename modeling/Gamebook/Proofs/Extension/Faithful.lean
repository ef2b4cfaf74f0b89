import Gamebook.Proofs.Extension.Content

/-!
# Documents that mean what they say

A document need not stand as the writer would write it, its keys may come in another order; it is
faithful when the value that is read from it is written as the same document.

* `Codec.Faithful`      : a document is read as a value that is written as the same document.
* `Codec.FaithfulField` : so is the value of an optional field.
* `Faithful.of_write`, `Faithful.list`, `Faithful.table` : what is written is faithful, and what
  consists of faithful parts.
* `faithful_section`    : the document of a section with other choices in it.
-/

set_option autoImplicit false

namespace Gamebook

namespace Codec

variable {α : Type} {c : Codec α}

/-- A document is read as a value that is written as the same document; it is one that a reader gives,
and neither it nor what is unknown in it is nested too deeply. -/
structure Faithful (c : Codec α) (v : Json) (a : α) : Prop where
  check : c.check v = .ok a
  same : (c.write a).same v = true
  proper : v.Proper
  within : v.isWithin (unknownDepth + c.level) = true
  unknown : ∀ w ∈ c.unknown a, w.isWithin unknownDepth = true

/-- The value that a document gives an optional field is faithful. -/
inductive FaithfulField (c : Codec α) : Option Json → Field α → Prop
  | absent : FaithfulField c none .absent
  | null : FaithfulField c (some .null) .null
  | value {v : Json} {a : α} (h : c.Faithful v a) : FaithfulField c (some v) (.value a)

theorem within_settled (h : c.Lawful) {a : α}
    (hwithin : ∀ v ∈ c.unknown a, v.isWithin unknownDepth = true) :
    ∀ v ∈ c.unknown (c.settled a), v.isWithin unknownDepth = true := by
  rw [h.unknown_settled]
  intro v hv
  obtain ⟨w, hw, rfl⟩ := List.mem_map.1 hv
  rw [Json.isWithin_finiteOnly]
  exact hwithin w hw

theorem Faithful.of_write (h : c.Lawful) {a : α} (ha : c.Proper a)
    (hfinite : (c.write a).isFinite = true)
    (hwithin : ∀ v ∈ c.unknown a, v.isWithin unknownDepth = true) :
    c.Faithful (c.write a) (c.settled a) where
  check := h.check_write a ha
  same := by
    rw [h.write_settled]
    exact Json.same_refl (h.proper_write a ha) hfinite
  proper := h.proper_write a ha
  within := h.within_write a hwithin
  unknown := within_settled h hwithin

theorem Faithful.list {docs : List Json} {as : List α} (h : List.Forall₂ c.Faithful docs as) :
    c.list.Faithful (.arr docs) as := by
  have hdocs : ∀ v ∈ docs, v.Proper ∧ v.isWithin (unknownDepth + c.level) = true := by
    induction h with
    | nil => exact List.forall_mem_nil _
    | cons hfirst _ ih => exact List.forall_mem_cons.2 ⟨⟨hfirst.proper, hfirst.within⟩, ih⟩
  constructor
  case check => exact Check.list_of_items (h.imp fun _ _ hfaithful => hfaithful.check)
  case same =>
    refine (Json.same_arr_iff _ _).2 ⟨docs, rfl, ?_⟩
    rw [List.forall₂_map_left_iff]
    exact h.flip.imp fun _ _ hfaithful => hfaithful.same
  case proper => exact (Json.properItems_iff docs).2 fun v hv => (hdocs v hv).1
  case within =>
    simp only [Codec.list, Json.isWithin, ← Nat.add_assoc, Nat.add_sub_cancel, Bool.and_eq_true,
      decide_eq_true_eq]
    exact ⟨Nat.succ_pos _, (Json.areItemsWithin_iff _ _).2 fun v hv => (hdocs v hv).2⟩
  case unknown =>
    intro w hw
    obtain ⟨a, ha, hw⟩ := List.mem_flatMap.1 hw
    obtain ⟨v, -, hfaithful⟩ := Extension.partner_of_forall₂ h ha
    exact hfaithful.unknown w hw

theorem Faithful.table {docs : Table Json} {t : Table α} (hnodup : (Table.keys docs).Nodup)
    (h : List.Forall₂ (fun e f => e.1 = f.1 ∧ c.Faithful e.2 f.2) docs t) :
    c.table.Faithful (.obj docs) t := by
  have hdocs : ∀ e ∈ docs, e.2.Proper ∧ e.2.isWithin (unknownDepth + c.level) = true := by
    clear hnodup
    induction h with
    | nil => exact List.forall_mem_nil _
    | cons hfirst _ ih => exact List.forall_mem_cons.2 ⟨⟨hfirst.2.proper, hfirst.2.within⟩, ih⟩
  have hkeys := Table.keys_of_forall₂ And.left h
  constructor
  case check => exact Check.map_of_values (h.imp fun _ _ hboth => ⟨hboth.1, hboth.2.check⟩)
  case same =>
    have hwritten : (Table.keys (Table.mapValues t c.write)).Nodup := by
      rw [Table.keys_mapValues, hkeys]
      exact hnodup
    refine (Json.same_obj_iff hwritten hnodup).2 ?_
    intro key
    rw [Table.get?_mapValues]
    cases hget : t.get? key with
    | none =>
      rw [Table.get?_eq_none_iff, hkeys, ← Table.get?_eq_none_iff] at hget
      rw [hget]
      exact .none
    | some a =>
      obtain ⟨v, hv, -, hfaithful⟩ := Table.get?_of_forall₂ And.left h hget
      rw [hv]
      exact .some hfaithful.same
  case proper => exact Json.proper_obj_iff.2 ⟨hnodup, fun e he => (hdocs e he).1⟩
  case within =>
    simp only [Codec.table, Json.isWithin, ← Nat.add_assoc, Nat.add_sub_cancel, Bool.and_eq_true,
      decide_eq_true_eq]
    exact ⟨Nat.succ_pos _, (Json.areFieldsWithin_iff _ _).2 fun e he => (hdocs e he).2⟩
  case unknown =>
    intro w hw
    obtain ⟨a, ha, hw⟩ := List.mem_flatMap.1 hw
    obtain ⟨f, hf, rfl⟩ := List.mem_map.1 ha
    obtain ⟨e, -, -, hfaithful⟩ := Extension.partner_of_forall₂ h hf
    exact hfaithful.unknown w hw

namespace FaithfulField

variable {o : Option Json} {f : Field α}

theorem check (h : c.FaithfulField o f) (hlawful : c.Lawful) {fields : Table Json} {key : String}
    (hget : fields.get? key = o) : Check.optional fields key c.check = .ok f := by
  cases h with
  | absent =>
    rw [Check.optional, hget]
  | null =>
    rw [Check.optional, hget]
  | value h =>
    rename_i v a
    have hnull : v ≠ .null := by
      rintro rfl
      exact hlawful.write_ne_null a (Json.same_null_right h.same)
    rw [Check.optional, hget]
    split
    · rename_i heq
      cases heq
    · rename_i heq
      exact absurd (Option.some.inj heq) hnull
    · rename_i heq
      rw [← Option.some.inj heq, h.check]
      rfl

theorem same (h : c.FaithfulField o f) : Json.SameOption (f.slot c.write) o := by
  cases h with
  | absent => exact .none
  | null => exact .some rfl
  | value h => exact .some h.same

theorem value_of (h : c.FaithfulField o f) {v : Json} (hv : o = some v) :
    v.Proper ∧ v.isWithin (unknownDepth + c.level) = true := by
  cases h with
  | absent => cases hv
  | null =>
    cases hv
    refine ⟨trivial, ?_⟩
    simp only [Json.isWithin, decide_eq_true_eq]
    exact Nat.lt_of_lt_of_le (by decide) (Nat.le_add_right _ _)
  | value h =>
    cases hv
    exact ⟨h.proper, h.within⟩

theorem unknown (h : c.FaithfulField o f) :
    ∀ w ∈ f.collect c.unknown, w.isWithin unknownDepth = true := by
  cases h with
  | absent => exact List.forall_mem_nil _
  | null => exact List.forall_mem_nil _
  | value h => exact h.unknown

end FaithfulField

end Codec

/-! ## Finite numbers -/

theorem Choice.isFinite_toJson (c : Choice) : c.toJson.isFinite = true := by
  apply choice_record.isFinite
  simp only [Choice.slots, List.forall_mem_cons, Option.some.injEq, Option.map_eq_some_iff]
  refine ⟨?_, ?_, List.forall_mem_nil _⟩
  · rintro v ⟨text, -, rfl⟩
    rfl
  · rintro v rfl
    cases c.next <;> rfl

theorem Picture.isFinite_toJson (p : Picture) : p.toJson.isFinite = true := by
  apply picture_record.isFinite
  simp only [Picture.slots, List.forall_mem_cons, Option.some.injEq]
  exact ⟨fun v hv => hv ▸ rfl, Field.isFinite_slot (fun _ => rfl) p.negative,
    Field.isFinite_slot (fun _ => rfl) p.size, List.forall_mem_nil _⟩

theorem Section.isFinite_toJson (a : Section) : a.toJson.isFinite = true := by
  have hlist {β : Type} {write : β → Json} (h : ∀ b, (write b).isFinite = true) (bs : List β) :
      (Json.arr (bs.map write)).isFinite = true := by
    refine (Json.isFinite_arr_iff _).2 ?_
    intro v hv
    obtain ⟨b, -, rfl⟩ := List.mem_map.1 hv
    exact h b
  apply section_record.isFinite
  simp only [Section.slots, List.forall_mem_cons, Option.some.injEq]
  exact ⟨fun v hv => hv ▸ rfl, Field.isFinite_slot isFinite_ofTexts a.textLines,
    Field.isFinite_slot (fun _ => rfl) a.text, Field.isFinite_slot Media.isFinite_toJson a.media,
    Field.isFinite_slot (hlist Choice.isFinite_toJson) a.next,
    Field.isFinite_slot (hlist Action.isFinite_toJson) a.script,
    Field.isFinite_slot (fun _ => rfl) a.extendable,
    Field.isFinite_slot Picture.isFinite_toJson a.picture, List.forall_mem_nil _⟩

/-! ## Sections -/

/-- The section that is read from the fields of another section's document when its choices are other
ones. -/
def Section.read (a : Section) (fields : Table Json) (next : Field (List Choice)) : Section :=
  { a.settled with next := next, extra := Check.unknown fields Section.declared }

/-- Such a section has the choices it was given, and the other declared fields of the first one. -/
theorem Section.mem_slots_read {a : Section} {fields : Table Json} {next : Field (List Choice)}
    {slot : String × Option Json} (h : slot ∈ (a.read fields next).slots) :
    slot = ("next", next.slot choiceCodec.list.write) ∨ slot.1 ≠ "next" ∧ slot ∈ a.slots := by
  have hsettled : a.settled.slots = a.slots := section_record.slots_settled a
  rw [← hsettled]
  simp only [Section.slots, Section.read, List.mem_cons, List.not_mem_nil, or_false] at h ⊢
  rcases h with rfl | rfl | rfl | rfl | rfl | rfl | rfl | rfl <;> simp

section Sections

variable {a : Section} (ha : a.Proper) {fields : Table Json} {next : Field (List Choice)}
  (hsame : ∀ key, key ≠ "next" → fields.get? key = a.toJson.get? key)
  (hnext : choiceCodec.list.FaithfulField (fields.get? "next") next)

include ha hsame

theorem get?_of_sameSlots {key : String} {o : Option Json} (hkey : key ≠ "next")
    (hmem : (key, o) ∈ a.slots) : fields.get? key = o := by
  rw [hsame key hkey, Section.get?_slot ha hmem]

include hnext

theorem check_read : Section.check (.obj fields) = .ok (a.read fields next) := by
  have hget {key : String} {o : Option Json} (hkey : key ≠ "next") (hmem : (key, o) ∈ a.slots) :=
    get?_of_sameSlots ha hsame hkey hmem
  have hid := scalarCodec_lawful.plain_required (hget (by decide) (.head _)) trivial
  have hlines := textsCodec_lawful.plain_optional (hget (by decide) (.tail _ (.head _)))
    fun _ _ => trivial
  have htext := textCodec_lawful.plain_optional (hget (by decide) (.tail _ (.tail _ (.head _))))
    fun _ _ => trivial
  have hmedia := mediaCodec_lawful.optional
    (hget (by decide) (.tail _ (.tail _ (.tail _ (.head _))))) ha.media
  have hscript := actionCodec_lawful.list.optional
    (hget (by decide) (.tail _ (.tail _ (.tail _ (.tail _ (.tail _ (.head _))))))) ha.script
  have hextendable := boolCodec_lawful.plain_optional
    (hget (by decide) (.tail _ (.tail _ (.tail _ (.tail _ (.tail _ (.tail _ (.head _))))))))
    fun _ _ => trivial
  have hpicture := pictureCodec_lawful.optional
    (hget (by decide) (.tail _ (.tail _ (.tail _ (.tail _ (.tail _ (.tail _ (.tail _ (.head _)))))))))
    ha.picture
  have hnextCheck := hnext.check choiceCodec_lawful.list rfl
  exact Checked.seq_of (Checked.seq_of (Checked.seq_of (Checked.seq_of (Checked.seq_of
    (Checked.seq_of (Checked.seq_of (Checked.map_of hid) hlines) htext) hmedia) hnextCheck) hscript)
    hextendable) hpicture

/-- A value of such an object is one of the section's document, or that of its choices. -/
theorem values_read (hwithin : ∀ v ∈ a.unknownValues, v.isWithin unknownDepth = true) {key : String}
    {v : Json} (hget : fields.get? key = some v) :
    v.Proper ∧ v.isWithin (unknownDepth + (sectionCodec.level - 1)) = true ∧
      (key ≠ "next" → v.isFinite = true) := by
  by_cases hkey : key = "next"
  · rw [hkey] at hget
    obtain ⟨hproper, hdepth⟩ := hnext.value_of hget
    exact ⟨hproper, Json.isWithin_mono _ (by decide) hdepth, absurd hkey⟩
  · have hwrite : a.toJson = .obj (Json.filled a.slots ++ Json.finiteFields a.extra) :=
      section_record.write_eq a
    have hproper := sectionCodec_lawful.proper_write a ha
    have hfinite := a.isFinite_toJson
    have hdepth := sectionCodec_lawful.within_write a hwithin
    simp only [sectionCodec] at hproper hdepth
    rw [hsame key hkey] at hget
    rw [hwrite] at hget hproper hfinite hdepth
    have hmem := Table.mem_of_get? hget
    simp only [Json.isWithin, Bool.and_eq_true] at hdepth
    exact ⟨(Json.proper_obj_iff.1 hproper).2 _ hmem,
      (Json.areFieldsWithin_iff _ _).1 hdepth.2 _ hmem,
      fun _ => (Json.isFinite_obj_iff _).1 hfinite _ hmem⟩

/-- The document of a section with other choices in it is faithful. -/
theorem faithful_section (hwithin : ∀ v ∈ a.unknownValues, v.isWithin unknownDepth = true)
    (hnodup : (Table.keys fields).Nodup) :
    sectionCodec.Faithful (.obj fields) (a.read fields next) := by
  have hvalues {key : String} {v : Json} (hget : fields.get? key = some v) :=
    values_read ha hsame hnext hwithin hget
  have hkept {key : String} (hkey : key ≠ "next") :
      Json.SameOption (fields.get? key) (fields.get? key) := by
    apply Json.sameOption_refl
    intro v hget
    obtain ⟨hproper, -, hfinite⟩ := hvalues hget
    exact ⟨hproper, hfinite hkey⟩
  have hcheck := check_read ha hsame hnext
  have hfields : (Json.obj fields).Proper :=
    Json.proper_obj_iff.2 ⟨hnodup, fun e he => (hvalues (Table.get?_of_mem hnodup he)).1⟩
  have hread : (a.read fields next).Proper := sectionCodec_lawful.proper_check _ _ hfields hcheck
  constructor
  case check => exact hcheck
  case same =>
    refine section_record.same_write hread (sectionCodec_lawful.proper_write _ hread) hnodup ?_ ?_
    · intro slot hslot
      rcases Section.mem_slots_read hslot with rfl | ⟨hkey, hmem⟩
      · exact hnext.same
      · rw [← get?_of_sameSlots ha hsame hkey hmem]
        exact hkept hkey
    · intro key hkey
      have hkeyNext : key ≠ "next" := by
        rintro rfl
        exact hkey (by decide)
      have hunknown : Table.get? (Check.unknown fields Section.declared) key = fields.get? key := by
        rw [Check.unknown, Table.get?_filterKeys, if_pos (by simpa using hkey)]
      have hfinite : (fields.get? key).map Json.finiteOnly = fields.get? key := by
        cases hget : fields.get? key with
        | none => rfl
        | some v => exact congrArg some ((Json.finiteOnly_eq_iff v).2 ((hvalues hget).2.2 hkeyNext))
      have hextra : (a.read fields next).extra = Check.unknown fields Section.declared := rfl
      rw [hextra, Json.finiteFields_eq, Table.get?_mapValues, hunknown, hfinite]
      exact hkept hkeyNext
  case proper => exact hfields
  case within =>
    have hlevel : unknownDepth + sectionCodec.level = unknownDepth + (sectionCodec.level - 1) + 1 :=
      rfl
    rw [hlevel]
    simp only [Json.isWithin, Nat.add_sub_cancel, Bool.and_eq_true, decide_eq_true_eq]
    exact ⟨Nat.succ_pos _, (Json.areFieldsWithin_iff _ _).2 fun e he =>
      (hvalues (Table.get?_of_mem hnodup he)).2.1⟩
  case unknown =>
    have hsettled := Codec.within_settled sectionCodec_lawful hwithin
    obtain ⟨-, hmedia, -, hscript, hpicture⟩ := (a.settled.forall_unknownValues _).1 hsettled
    refine ((a.read fields next).forall_unknownValues _).2
      ⟨?_, hmedia, hnext.unknown, hscript, hpicture⟩
    intro v hv
    obtain ⟨e, he, rfl⟩ := List.mem_map.1 hv
    obtain ⟨hmem, hfresh⟩ := List.mem_filter.1 he
    have hkey : e.1 ∉ Section.declared := by simpa using hfresh
    have hkeyNext : e.1 ≠ "next" := by
      intro hnextKey
      rw [hnextKey] at hkey
      exact hkey (by decide)
    have hget := hsame e.1 hkeyNext
    rw [Table.get?_of_mem hnodup hmem, a.get?_unknown hkey] at hget
    obtain ⟨w, hw, hwe⟩ := Option.map_eq_some_iff.1 hget.symm
    rw [← hwe, Json.isWithin_finiteOnly]
    exact ((a.forall_unknownValues _).1 hwithin).1 w (List.mem_map_of_mem (Table.mem_of_get? hw))

end Sections

end Gamebook
