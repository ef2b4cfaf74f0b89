import Gamebook.Proofs.Extension.Soundness

/-!
# What a story holds in another one

* `Section.SameContent` : the frozen fields of two sections are the same.
* `Story.KeptIn`        : every section of a story is in another one with the same content.
* `Story.Replayed`      : the sections of two stories differ in their choices only.
* `invariant_replayed`  : so it is while a story is played.
* `proper_of_review`, `keptIn_of_review`, `state_of_review`, `graph_of_review` : what holds of a story
  that the review gives.
-/

set_option autoImplicit false

namespace Gamebook

/-- The frozen fields of two sections are the same. -/
def Section.SameContent (a b : Section) : Prop :=
  ∀ key ∈ Extension.frozenFields, (a.toJson.field key).same (b.toJson.field key) = true

/-- Every section of a story is in another one with the same content. -/
def Story.KeptIn (s t : Story) : Prop :=
  ∀ id a, s.section? id = some a → ∃ b, t.section? id = some b ∧ a.SameContent b

/-- The sections of two stories differ in their choices only. -/
def Story.Replayed (s t : Story) : Prop :=
  ∀ id, ∃ next : Field (List Choice),
    t.section? id = (s.section? id).map fun a => { a with next := next }

/-! ## The same content -/

theorem Json.proper_field {v : Json} (h : v.Proper) (key : String) : (v.field key).Proper := by
  cases v with
  | obj fields =>
    show ((Table.get? fields key).getD .null).Proper
    cases hget : Table.get? fields key with
    | none => trivial
    | some w => exact (Json.properFields_iff fields).1 h.2 _ (Table.mem_of_get? hget)
  | _ => trivial

/-- A record with finite declared fields is written with finite numbers only. -/
theorem Codec.Record.isFinite {α : Type} {c : Codec α} {declared : List String}
    {slots : α → List (String × Option Json)} {extra : α → Table Json}
    (r : c.Record declared slots extra) {a : α}
    (h : ∀ slot ∈ slots a, ∀ v, slot.2 = some v → v.isFinite = true) :
    (c.write a).isFinite = true := by
  rw [r.write_eq, Json.isFinite_obj_iff]
  intro e he
  rcases List.mem_append.1 he with he | he
  · exact h _ (Json.mem_filled he) e.2 rfl
  · rw [Json.finiteFields_eq] at he
    obtain ⟨x, -, rfl⟩ := List.mem_map.1 he
    exact (Json.finiteOnly_eq_iff _).1 (Json.finiteOnly_idem x.2)

theorem Field.isFinite_slot {α : Type} {write : α → Json} (h : ∀ a, (write a).isFinite = true)
    (f : Field α) : ∀ v, f.slot write = some v → v.isFinite = true := by
  intro v hv
  cases f with
  | absent => cases hv
  | null =>
    cases hv
    rfl
  | value a =>
    cases hv
    exact h a

theorem Media.isFinite_toJson (m : Media) : m.toJson.isFinite = true := by
  apply media_record.isFinite
  simp only [Media.slots, List.forall_mem_cons, Option.some.injEq]
  exact ⟨fun v hv => hv ▸ rfl, fun v hv => hv ▸ rfl, List.forall_mem_nil _⟩

theorem Action.isFinite_toJson (a : Action) : a.toJson.isFinite = true := by
  apply action_record.isFinite
  simp only [Action.slots, List.forall_mem_cons, Option.some.injEq, Option.map_eq_some_iff]
  refine ⟨fun v hv => hv ▸ rfl, ?_, List.forall_mem_nil _⟩
  rintro v ⟨texts, -, rfl⟩
  exact isFinite_ofTexts texts

/-- A frozen field does not depend on the choices, and its numbers are finite. -/
theorem Section.slot_of_frozen (a : Section) {key : String} (h : key ∈ Extension.frozenFields) :
    ∃ o : Option Json, (∀ next, (key, o) ∈ ({ a with next := next } : Section).slots) ∧
      ∀ v, o = some v → v.isFinite = true := by
  simp only [Extension.frozenFields, List.mem_cons, List.not_mem_nil, or_false] at h
  rcases h with rfl | rfl | rfl | rfl | rfl
  · refine ⟨some (.str a.id), fun _ => .head _, ?_⟩
    intro v hv
    cases hv
    rfl
  · exact ⟨_, fun _ => .tail _ (.tail _ (.head _)), Field.isFinite_slot (fun _ => rfl) a.text⟩
  · exact ⟨_, fun _ => .tail _ (.head _), Field.isFinite_slot isFinite_ofTexts a.textLines⟩
  · exact ⟨_, fun _ => .tail _ (.tail _ (.tail _ (.head _))),
      Field.isFinite_slot Media.isFinite_toJson a.media⟩
  · refine ⟨_, fun _ => .tail _ (.tail _ (.tail _ (.tail _ (.tail _ (.head _))))),
      Field.isFinite_slot ?_ a.script⟩
    intro lines
    refine (Json.isFinite_arr_iff _).2 ?_
    intro v hv
    obtain ⟨line, -, rfl⟩ := List.mem_map.1 hv
    exact line.isFinite_toJson

namespace Section.SameContent

variable {a b c : Section}

/-- Sections that differ in their choices only have the same content. -/
theorem withNext (ha : a.Proper) (next : Field (List Choice))
    (hnext : ({ a with next := next } : Section).Proper) :
    a.SameContent { a with next := next } := by
  intro key hkey
  obtain ⟨o, hmem, hfinite⟩ := a.slot_of_frozen hkey
  have hproper := Json.proper_field (sectionCodec_lawful.proper_write a ha) key
  have hfield : a.toJson.field key = o.getD .null := field_slot ha (hmem a.next)
  have hfield' := field_slot hnext (hmem next)
  simp only [sectionCodec] at hproper
  rw [hfield] at hproper ⊢
  rw [hfield']
  apply Json.same_refl hproper
  cases o with
  | none => rfl
  | some v => exact hfinite v rfl

theorem trans (ha : a.Proper) (hb : b.Proper) (hc : c.Proper) (hab : a.SameContent b)
    (hbc : b.SameContent c) : a.SameContent c := by
  intro key hkey
  have hproper (x : Section) (hx : x.Proper) : (x.toJson.field key).Proper :=
    Json.proper_field (sectionCodec_lawful.proper_write x hx) key
  exact Json.same_trans (hproper a ha) (hproper b hb) (hproper c hc) (hab key hkey) (hbc key hkey)

/-- Content does not tell settled sections apart. -/
theorem settled (h : a.SameContent b) : a.SameContent b.settled := by
  intro key hkey
  have hwrite : b.settled.toJson = b.toJson := sectionCodec_lawful.write_settled b
  rw [hwrite]
  exact h key hkey

end Section.SameContent

namespace Story

open Extension (proper_section)

variable {s t u : Story}

/-! ## Stories kept in stories -/

theorem KeptIn.trans (hs : s.Proper) (ht : t.Proper) (hu : u.Proper) (hst : s.KeptIn t)
    (htu : t.KeptIn u) : s.KeptIn u := by
  intro id a ha
  obtain ⟨b, hb, hab⟩ := hst id a ha
  obtain ⟨c, hc, hbc⟩ := htu id b hb
  exact ⟨c, hc, hab.trans (proper_section hs ha) (proper_section ht hb) (proper_section hu hc) hbc⟩

theorem KeptIn.settled (h : s.KeptIn t) : s.KeptIn t.settled := by
  intro id a ha
  obtain ⟨b, hb, hab⟩ := h id a ha
  exact ⟨b.settled, by rw [section?_settled, hb]; rfl, hab.settled⟩

theorem Replayed.keptIn (hs : s.Proper) (ht : t.Proper) (h : s.Replayed t) : s.KeptIn t := by
  intro id a ha
  obtain ⟨next, hnext⟩ := h id
  rw [ha] at hnext
  have hproper : ({ a with next := next } : Section).Proper := proper_section ht hnext
  exact ⟨_, hnext, .withNext (proper_section hs ha) next hproper⟩

/-! ## Play -/

theorem Replayed.refl (s : Story) : s.Replayed s := by
  intro id
  cases h : s.section? id with
  | none => exact ⟨.absent, rfl⟩
  | some a => exact ⟨a.next, rfl⟩

theorem KeptIn.refl (hs : s.Proper) : s.KeptIn s := (Replayed.refl s).keptIn hs hs

theorem Replayed.modifySection (h : s.Replayed t) (id : String) {f : Section → Section}
    (hf : ∀ a, ∃ next : Field (List Choice), f a = { a with next := next }) :
    s.Replayed (t.modifySection id f) := by
  intro other
  obtain ⟨next, hnext⟩ := h other
  unfold section? at hnext ⊢
  rw [Story.modifySection, Table.get?_modify, hnext]
  cases s.sections.get? other with
  | none => exact ⟨next, by split <;> rfl⟩
  | some a =>
    split
    · obtain ⟨after, hafter⟩ := hf { a with next := next }
      exact ⟨after, congrArg some hafter⟩
    · exact ⟨next, rfl⟩

/-- Play changes nothing in the sections but their choices. -/
theorem invariant_replayed (s : Story) : Invariant s.Replayed where
  setVariable h _ _ := h
  addChoice h id _ _ := h.modifySection id fun _ => ⟨_, rfl⟩
  removeChoice h id _ := h.modifySection id fun _ => ⟨_, rfl⟩
  entered h _ _ _ := h
  popped h := h

end Story

/-! ## Proper objects -/

namespace Json

variable {fields more : Table Json}

theorem proper_obj_iff : (Json.obj fields).Proper ↔
    (Table.keys fields).Nodup ∧ ∀ e ∈ fields, e.2.Proper := by
  rw [← properFields_iff]
  rfl

/-- The fields of a value; a value that is no object has none. -/
theorem proper_asObj {v : Json} (h : v.Proper) : (Json.obj (v.asObj?.getD [])).Proper := by
  cases v with
  | obj fields => exact h
  | _ => exact ⟨List.nodup_nil, trivial⟩

theorem proper_filterKeys (h : (Json.obj fields).Proper) (p : String → Bool) :
    (Json.obj (Table.filterKeys fields p)).Proper := by
  rw [proper_obj_iff] at h ⊢
  exact ⟨h.1.sublist (List.filter_sublist.map Prod.fst), fun e he => h.2 e (List.mem_filter.1 he).1⟩

theorem proper_put (h : (Json.obj fields).Proper) {v : Json} (hv : v.Proper) (key : String) :
    (Json.obj (Table.put fields key v)).Proper := by
  rw [proper_obj_iff] at h ⊢
  refine ⟨Table.nodup_put h.1 key v, ?_⟩
  intro e he
  rcases Table.mem_put he with rfl | he
  · exact hv
  · exact h.2 e he

theorem proper_merge (h : (Json.obj fields).Proper) (hmore : (Json.obj more).Proper) :
    (Json.obj (Table.merge fields more)).Proper := by
  rw [proper_obj_iff] at h hmore ⊢
  refine ⟨Table.nodup_merge h.1 more, ?_⟩
  intro e he
  exact (Table.mem_merge he).elim (h.2 e) (hmore.2 e)

end Json

/-! ## Reviewed stories -/

namespace Extension

theorem proper_mergedMetadata {former response v : Json} (hformer : former.Proper)
    (hresponse : response.Proper) (h : mergedMetadata? former response = some v) : v.Proper := by
  have hbase := Json.proper_asObj (Json.proper_field hformer "meta")
  have hplain (h : ((former.field "meta").asObj?).map .obj = some v) : v.Proper := by
    obtain ⟨fields, hfields, rfl⟩ := Option.map_eq_some_iff.1 h
    rw [hfields] at hbase
    exact hbase
  unfold mergedMetadata? at h
  dsimp only at h
  split at h
  · exact hplain h
  · rename_i characters _ hcharacters
    cases h
    have hnew := Json.proper_field (Json.proper_field hresponse "meta") "characters"
    rw [hcharacters] at hnew
    exact Json.proper_put hbase
      (Json.proper_merge (Json.proper_asObj (Json.proper_field hbase "characters")) hnew) _
  · exact hplain h

/-- The document of an adopted story is a proper one. -/
theorem proper_adopt {former response : Table Json} (hformer : (Json.obj former).Proper)
    (hresponse : (Json.obj response).Proper) : (Json.obj (adopt former response)).Proper := by
  have hmerged := Json.proper_merge
    (Json.proper_filterKeys hresponse fun key => !notTheWriters.contains key)
    (Json.proper_filterKeys hformer fun key => !notKept.contains key)
  unfold adopt
  dsimp only
  split
  · rename_i hmeta
    exact Json.proper_put hmerged (proper_mergedMetadata hformer hresponse hmeta) _
  · exact hmerged

section Reviewed

variable {former s : Story} {response x : String} (hformer : former.Proper)
  (h : review former response x = .ok (.ok s))

include hformer h

theorem proper_of_review : s.Proper := by
  obtain ⟨fields, sections, hread, -, hjudged⟩ := of_review h
  have hdocument : former.toJson.Proper := storyCodec_lawful.proper_write former hformer
  rw [toJson_eq] at hdocument
  have hloaded := hjudged.loaded
  rw [toJson_eq] at hloaded
  exact storyCodec_lawful.proper_check _ s (proper_adopt hdocument (Json.proper_of_read hread))
    hloaded

/-- Every section of the former story is kept, with its content. -/
theorem keptIn_of_review : former.KeptIn s := by
  obtain ⟨fields, sections, hread, hsections, hjudged⟩ := of_review h
  have hall := sections_of_judged hformer hsections hjudged
  have hresponse : (Json.obj fields).Proper := Json.proper_of_read hread
  have hproper : (Json.obj sections).Proper :=
    (Json.proper_obj_iff.1 hresponse).2 _ (Table.mem_of_get? hsections)
  intro id a ha
  have hhas : s.hasSection id = true :=
    kept_of_judged hjudged hall (Option.isSome_of_eq_some ha)
  obtain ⟨b, hb⟩ := Option.isSome_iff_exists.1 hhas
  obtain ⟨doc, hget, hcheck, hunchanged⟩ := unchanged_of_judged hjudged hall ha hb
  have hdoc : (Json.obj doc).Proper := (Json.proper_obj_iff.1 hproper).2 _ (Table.mem_of_get? hget)
  exact ⟨b, hb, frozen_section (proper_section hformer ha) hdoc hcheck
    (of_checkUnchanged hunchanged).2.1⟩

theorem state_of_review : s.state = former.settled.state := by
  obtain ⟨fields, sections, -, -, hjudged⟩ := of_review h
  exact state_of_judged hformer hjudged

/-- No choice of a reviewed story leads nowhere. -/
theorem graph_of_review : s.checkGraph = .ok () := by
  obtain ⟨fields, sections, -, hsections, hjudged⟩ := of_review h
  have hdangling := dangling_of_judged hjudged (sections_of_judged hformer hsections hjudged)
  unfold Story.checkGraph
  rw [hdangling]
  rfl

/-- The section to extend is there, with more choices than before. -/
theorem extended_of_review : ∃ a b, former.section? x = some a ∧ s.section? x = some b ∧
    a.choices.length < b.choices.length := by
  obtain ⟨fields, sections, -, hsections, hjudged⟩ := of_review h
  exact extended_of_judged hformer hjudged (sections_of_judged hformer hsections hjudged)

theorem choices_of_review {id : String} {a b : Section} (ha : former.section? id = some a)
    (hb : s.section? id = some b) : a.choices.map pairOf <+: b.choices.map pairOf := by
  obtain ⟨fields, sections, -, hsections, hjudged⟩ := of_review h
  exact choices_of_judged hformer hjudged (sections_of_judged hformer hsections hjudged) ha hb

end Reviewed

end Extension

end Gamebook
