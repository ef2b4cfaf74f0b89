import Gamebook.Extension.Review
import Gamebook.Proofs.Json.Same
import Gamebook.Proofs.Story.Codec

/-!
# Sections that were accepted as unchanged

The review compares documents, while the story it gives is loaded from one.  A document that is the same
as a section's own is loaded as a section with the same document again.

* `Codec.Exact`, `Codec.Stable` : nothing but the document itself is the same as it; what is the same
  and is loaded has the same document.
* `frozen_section`              : the frozen fields of a loaded section.
* `pairs_prefix`                : the labels and targets of its choices.
-/

set_option autoImplicit false

namespace Gamebook

open Codec (Lawful)

namespace Codec

variable {α : Type} {c : Codec α}

/-- Nothing but what is written is the same as it. -/
def Exact (c : Codec α) : Prop := ∀ a v, (c.write a).same v = true → v = c.write a

/-- What is the same as something written, and accepted, is written as the same again. -/
def Stable (c : Codec α) : Prop :=
  ∀ a v b, c.Proper a → v.Proper → (c.write a).same v = true → c.check v = .ok b →
    (c.write a).same (c.write b) = true

section Exact

variable (h : c.Lawful) (hexact : c.Exact) {fields : Table Json} {key : String}

include h hexact

theorem Exact.required {a b : α} (ha : c.Proper a)
    (hsame : Json.SameOption (some (c.write a)) (fields.get? key))
    (hcheck : Check.required fields key c.check = .ok b) : b = c.settled a := by
  obtain ⟨v, hv, hsame⟩ := Json.sameOption_some hsame
  rw [hexact a v hsame] at hv
  have hok := h.required hv ha
  rw [hok] at hcheck
  cases hcheck
  rfl

theorem Exact.defaulted {o p : Option α} (ho : ∀ a, o = some a → c.Proper a)
    (hsame : Json.SameOption (o.map c.write) (fields.get? key))
    (hcheck : Check.defaulted fields key c.check = .ok p) : p = o.map c.settled := by
  have hget : fields.get? key = o.map c.write := by
    cases o with
    | none => exact Json.sameOption_none hsame
    | some a =>
      obtain ⟨v, hv, hsame⟩ := Json.sameOption_some hsame
      rw [hv, hexact a v hsame]
      rfl
  have hok := h.defaulted hget ho
  rw [hok] at hcheck
  cases hcheck
  rfl

end Exact

theorem Stable.list (h : c.Stable) : c.list.Stable := by
  intro as v bs ha hv hsame hcheck
  obtain ⟨items, rfl, hitems⟩ := Check.of_list hcheck
  obtain ⟨_, heq, hpairs⟩ := (Json.same_arr_iff _ _).1 hsame
  cases heq
  have hall := (Json.properItems_iff items).1 hv
  refine (Json.same_arr_iff _ _).2 ⟨_, rfl, ?_⟩
  clear hv hcheck hsame
  induction hitems generalizing as with
  | nil =>
    cases as with
    | nil => exact .nil
    | cons a as => cases hpairs
  | cons hfirst hrest ih =>
    cases as with
    | nil => cases hpairs
    | cons a as =>
      cases hpairs with
      | cons hsameFirst hsameRest =>
        rw [List.forall_mem_cons] at hall
        have ha : ∀ x ∈ a :: as, c.Proper x := ha
        rw [List.forall_mem_cons] at ha
        exact .cons (h a _ _ ha.1 hall.1 hsameFirst hfirst) (ih as ha.2 hsameRest hall.2)

/-- A record is written as the same document as the object that says the same of each key. -/
theorem Record.same_write {declared : List String} {slots : α → List (String × Option Json)}
    {extra : α → Table Json} (r : c.Record declared slots extra) {a : α} (ha : c.Proper a)
    (hwrite : (c.write a).Proper) {fields : Table Json} (hfields : (Table.keys fields).Nodup)
    (hslots : ∀ slot ∈ slots a, Json.SameOption slot.2 (fields.get? slot.1))
    (hextra : ∀ key ∉ declared,
      Json.SameOption (Table.get? (Json.finiteFields (extra a)) key) (fields.get? key)) :
    (c.write a).same (.obj fields) = true := by
  rw [r.write_eq] at hwrite ⊢
  rw [Json.same_obj_iff hwrite.1 hfields]
  intro key
  by_cases hkey : key ∈ declared
  · rw [← r.keys a] at hkey
    obtain ⟨⟨k, o⟩, hmem, rfl⟩ := List.mem_map.1 hkey
    rw [(r.proper_extra a ha).get?_slot (slots a) (r.keys a) r.nodup hmem]
    exact hslots _ hmem
  · have hnone : key ∉ (slots a).map Prod.fst := by
      rw [r.keys]
      exact hkey
    rw [Json.get?_extra hnone]
    exact hextra key hkey

theorem Record.stable {declared : List String} {slots : α → List (String × Option Json)}
    {extra : α → Table Json} (r : c.Record declared slots extra) (h : c.Lawful)
    (hslots : ∀ a (fields : Table Json) b, c.Proper a → (∀ slot ∈ slots a, Json.SameOption slot.2 (fields.get? slot.1)) →
      c.check (.obj fields) = .ok b → slots b = slots a)
    (hextra : ∀ fields b, c.check (.obj fields) = .ok b → extra b = Check.unknown fields declared)
    (hfinite : ∀ a, ∀ slot ∈ slots a, ∀ v, slot.2 = some v → v.isFinite = true) : c.Stable := by
  intro a v b ha hv hsame hcheck
  have hb := h.proper_check v b hv hcheck
  have hpa := h.proper_write a ha
  have hpb := h.proper_write b hb
  have hwa := r.write_eq a
  have hwb := r.write_eq b
  rw [hwa] at hsame hpa
  rw [hwb] at hpb
  obtain ⟨fields, rfl⟩ := Json.same_obj_left hsame
  rw [Json.same_obj_iff hpa.1 hv.1] at hsame
  have hslot (x : α) (hx : c.Proper x) (slot) (hmem : slot ∈ slots x) :=
    (r.proper_extra x hx).get?_slot (slots x) (r.keys x) r.nodup hmem
  have heq : slots b = slots a := by
    refine hslots a fields b ha ?_ hcheck
    intro slot hmem
    rw [← hslot a ha slot hmem]
    exact hsame slot.1
  rw [hwb]
  refine r.same_write ha (h.proper_write a ha) hpb.1 ?_ ?_
  · intro slot hmem
    rw [hslot b hb slot (by rw [heq]; exact hmem)]
    exact Json.sameOption_refl fun v hv =>
      ⟨r.proper_slots a ha slot hmem v hv, hfinite a slot hmem v hv⟩
  · intro key hkey
    have hsameKey := hsame key
    have hka : key ∉ (slots a).map Prod.fst := by rw [r.keys]; exact hkey
    have hkb : key ∉ (slots b).map Prod.fst := by rw [r.keys]; exact hkey
    rw [Json.get?_extra hka] at hsameKey
    rw [Json.get?_extra hkb, hextra fields b hcheck, Json.finiteFields_eq
      (Check.unknown fields declared), Table.get?_mapValues, Check.unknown, Table.get?_filterKeys,
      if_pos (by simpa using hkey)]
    -- what is not declared is finite in the document, and so it is in what is the same
    cases hget : Table.get? (Json.finiteFields (extra a)) key with
    | none =>
      rw [hget] at hsameKey
      rw [Json.sameOption_none hsameKey]
      exact .none
    | some x =>
      rw [hget] at hsameKey
      obtain ⟨y, hy, hxy⟩ := Json.sameOption_some hsameKey
      have hxProper : x.Proper := (r.proper_extra a ha).finite.values _ (Table.mem_of_get? hget)
      have hyProper : y.Proper := (Json.properFields_iff fields).1 hv.2 _ (Table.mem_of_get? hy)
      have hxFinite : x.isFinite = true := by
        rw [Json.finiteFields_eq, Table.get?_mapValues, Option.map_eq_some_iff] at hget
        obtain ⟨z, -, rfl⟩ := hget
        exact (Json.finiteOnly_eq_iff _).1 (Json.finiteOnly_idem z)
      have hyFinite := Json.same_isFinite hxProper hyProper hxFinite hxy
      rw [hy, Option.map_some, (Json.finiteOnly_eq_iff y).2 hyFinite]
      exact .some hxy

end Codec

/-! ## The frozen fields -/

theorem textCodec_exact : textCodec.Exact := fun s v h => (Json.same_str_iff s v).1 h

theorem scalarCodec_exact : scalarCodec.Exact := fun s v h => (Json.same_str_iff s v).1 h

theorem kindCodec_exact : kindCodec.Exact := fun k v h => (Json.same_str_iff k.word v).1 h

theorem parametersCodec_exact : parametersCodec.Exact := by
  intro texts v h
  obtain ⟨items, rfl, hitems⟩ := (Json.same_arr_iff _ _).1 h
  have heq : items = texts.map .str := by
    clear h
    induction texts generalizing items with
    | nil =>
      cases hitems
      rfl
    | cons s texts ih =>
      cases hitems with
      | cons hfirst hrest =>
        rw [(Json.same_str_iff s _).1 hfirst, ih _ hrest]
        rfl
  rw [heq]
  rfl

theorem textCodec_stable : textCodec.Stable := by
  intro s v t _ _ hsame hcheck
  rw [textCodec_exact s v hsame] at hcheck
  cases hcheck
  exact (Json.same_str_iff _ _).2 rfl

theorem isFinite_ofTexts (texts : List String) : (Json.ofTexts texts).isFinite = true := by
  apply (Json.isFinite_arr_iff _).2
  intro v hv
  obtain ⟨s, -, rfl⟩ := List.mem_map.1 hv
  rfl

theorem mediaCodec_stable : mediaCodec.Stable := by
  refine media_record.stable mediaCodec_lawful ?_ ?_ ?_
  · intro m fields n _ hslots hcheck
    simp only [Media.slots, List.forall_mem_cons] at hslots
    obtain ⟨hkind, hsource, -⟩ := hslots
    obtain ⟨g, source, hg, hsourceCheck, rfl⟩ := Checked.of_seq hcheck
    obtain ⟨kind, hkindCheck, rfl⟩ := Checked.of_map hg
    rw [kindCodec_exact.required kindCodec_lawful trivial hkind hkindCheck,
      textCodec_exact.required textCodec_lawful trivial hsource hsourceCheck]
    rfl
  · intro fields n hcheck
    obtain ⟨g, source, hg, -, rfl⟩ := Checked.of_seq hcheck
    obtain ⟨kind, -, rfl⟩ := Checked.of_map hg
    rfl
  · intro m
    simp only [Media.slots, List.forall_mem_cons, Option.some.injEq]
    exact ⟨fun v hv => hv ▸ rfl, fun v hv => hv ▸ rfl, List.forall_mem_nil _⟩

theorem actionCodec_stable : actionCodec.Stable := by
  refine action_record.stable actionCodec_lawful ?_ ?_ ?_
  · intro a fields b _ hslots hcheck
    simp only [Action.slots, List.forall_mem_cons] at hslots
    obtain ⟨htag, hparameters, -⟩ := hslots
    obtain ⟨g, parameters, hg, hparametersCheck, rfl⟩ := Checked.of_seq hcheck
    obtain ⟨tag, htagCheck, rfl⟩ := Checked.of_map hg
    have htagEq := textCodec_exact.required textCodec_lawful trivial htag htagCheck
    have hparametersEq := parametersCodec_exact.defaulted parametersCodec_lawful
      (fun _ _ => trivial) hparameters hparametersCheck
    have hid : a.parameters.map parametersCodec.settled = a.parameters := by
      cases a.parameters <;> rfl
    rw [htagEq, hparametersEq, hid]
    rfl
  · intro fields b hcheck
    obtain ⟨g, parameters, hg, -, rfl⟩ := Checked.of_seq hcheck
    obtain ⟨tag, -, rfl⟩ := Checked.of_map hg
    rfl
  · intro a
    simp only [Action.slots, List.forall_mem_cons, Option.some.injEq, Option.map_eq_some_iff]
    refine ⟨fun v hv => hv ▸ rfl, ?_, List.forall_mem_nil _⟩
    rintro v ⟨texts, -, rfl⟩
    exact isFinite_ofTexts texts

/-- An optional field that is the same in the document it is loaded from. -/
theorem Codec.Stable.optional {α : Type} {c : Codec α} (hstable : c.Stable) (h : c.Lawful)
    {fields : Table Json} {key : String} (hfields : (Json.obj fields).Proper) {f g : Field α}
    (hf : f.All c.Proper)
    (hsame : ((f.slot c.write).getD .null).same ((Json.obj fields).field key) = true)
    (hcheck : Check.optional fields key c.check = .ok g) :
    ((f.slot c.write).getD .null).same ((g.slot c.write).getD .null) = true := by
  rw [Json.field_obj] at hsame
  have hempty (hnull : (f.slot c.write).getD .null = .null) : (g.slot c.write).getD .null = .null := by
    rw [hnull, Json.same_null_iff] at hsame
    rcases Check.of_optional hcheck with ⟨rfl, -⟩ | ⟨rfl, -⟩ | ⟨v, b, rfl, hget, hne, -⟩
    · rfl
    · rfl
    · rw [hget] at hsame
      exact absurd hsame hne
  cases f with
  | absent =>
    rw [hempty rfl]
    rfl
  | null =>
    rw [hempty rfl]
    rfl
  | value a =>
    have ha : c.Proper a := hf a rfl
    have hsame : (c.write a).same ((fields.get? key).getD .null) = true := hsame
    have hnotNull : (fields.get? key).getD .null ≠ .null := by
      intro hnull
      rw [hnull] at hsame
      exact h.write_ne_null a (Json.same_null_right hsame)
    rcases Check.of_optional hcheck with ⟨rfl, hget⟩ | ⟨rfl, hget⟩ | ⟨v, b, rfl, hget, -, hb⟩
    · rw [hget] at hnotNull
      exact absurd rfl hnotNull
    · rw [hget] at hnotNull
      exact absurd rfl hnotNull
    · rw [hget] at hsame
      have hv : v.Proper := (Json.properFields_iff fields).1 hfields.2 _ (Table.mem_of_get? hget)
      exact hstable a v b ha hv hsame hb

theorem Section.get?_slot {s : Section} (h : s.Proper) {key : String} {o : Option Json}
    (hmem : (key, o) ∈ s.slots) : s.toJson.get? key = o := section_record.get?_slot h hmem

theorem Section.get?_unknown (s : Section) {key : String} (hkey : key ∉ Section.declared) :
    s.toJson.get? key = (Table.get? s.extra key).map Json.finiteOnly :=
  section_record.get?_unknown s hkey

theorem Section.field_slot {s : Section} (h : s.Proper) {key : String} {o : Option Json}
    (hmem : (key, o) ∈ s.slots) : s.toJson.field key = o.getD .null :=
  congrArg (fun o => o.getD Json.null) (Section.get?_slot h hmem)

/-- What a section's document says of each declared field, and that nothing else is lost. -/
structure Section.LoadedFrom (fields : Table Json) (s : Section) : Prop where
  id : Check.required fields "id" Check.scalarText = .ok s.id
  lines : Check.optional fields "text_lines" (Check.list Check.text) = .ok s.textLines
  text : Check.optional fields "text" Check.text = .ok s.text
  media : Check.optional fields "media" Media.check = .ok s.media
  next : Check.optional fields "next" (Check.list Choice.check) = .ok s.next
  script : Check.optional fields "script" (Check.list Action.check) = .ok s.script
  extendable : Check.optional fields "ai_extendable" Check.bool = .ok s.extendable
  picture : Check.optional fields "ai_gen" Picture.check = .ok s.picture
  extra : s.extra = Check.unknown fields Section.declared

theorem Section.loadedFrom {fields : Table Json} {s : Section}
    (h : Section.check (.obj fields) = .ok s) : Section.LoadedFrom fields s := by
  obtain ⟨_, picture, h7, hpicture, rfl⟩ := Checked.of_seq h
  obtain ⟨_, extendable, h6, hextendable, rfl⟩ := Checked.of_seq h7
  obtain ⟨_, script, h5, hscript, rfl⟩ := Checked.of_seq h6
  obtain ⟨_, next, h4, hnext, rfl⟩ := Checked.of_seq h5
  obtain ⟨_, media, h3, hmedia, rfl⟩ := Checked.of_seq h4
  obtain ⟨_, text, h2, htext, rfl⟩ := Checked.of_seq h3
  obtain ⟨_, lines, h1, hlines, rfl⟩ := Checked.of_seq h2
  obtain ⟨id, hid, rfl⟩ := Checked.of_map h1
  exact ⟨hid, hlines, htext, hmedia, hnext, hscript, hextendable, hpicture, rfl⟩

/-- A section that is loaded from a document with the same frozen fields has them in its own. -/
theorem frozen_section {a b : Section} {fields : Table Json} (ha : a.Proper)
    (hfields : (Json.obj fields).Proper) (hcheck : Section.check (.obj fields) = .ok b)
    (hsame : ∀ key ∈ Extension.frozenFields,
      (a.toJson.field key).same ((Json.obj fields).field key) = true) :
    ∀ key ∈ Extension.frozenFields, (a.toJson.field key).same (b.toJson.field key) = true := by
  have hb : b.Proper := sectionCodec_lawful.proper_check _ b hfields hcheck
  have hloaded := Section.loadedFrom hcheck
  simp only [Extension.frozenFields, List.forall_mem_cons] at hsame ⊢
  obtain ⟨hsameId, hsameText, hsameLines, hsameMedia, hsameScript, -⟩ := hsame
  refine ⟨?_, ?_, ?_, ?_, ?_, List.forall_mem_nil _⟩
  · rw [Section.field_slot ha (.head _)] at hsameId ⊢
    rw [Section.field_slot hb (.head _)]
    obtain ⟨v, hget, hv⟩ := Check.of_required hloaded.id
    rw [Json.field_of_get? hget] at hsameId
    rw [scalarCodec_exact a.id v hsameId] at hv
    exact (Json.same_str_iff _ _).2 (congrArg Json.str (Checked.ok.inj hv).symm)
  · have hmem (s : Section) : ("text", s.text.slot textCodec.write) ∈ s.slots :=
      .tail _ (.tail _ (.head _))
    rw [Section.field_slot ha (hmem a)] at hsameText ⊢
    rw [Section.field_slot hb (hmem _)]
    exact textCodec_stable.optional textCodec_lawful hfields (fun _ _ => trivial) hsameText
      hloaded.text
  · have hmem (s : Section) : ("text_lines", s.textLines.slot textCodec.list.write) ∈ s.slots :=
      .tail _ (.head _)
    rw [Section.field_slot ha (hmem a)] at hsameLines ⊢
    rw [Section.field_slot hb (hmem _)]
    exact textCodec_stable.list.optional textCodec_lawful.list hfields (fun _ _ _ _ => trivial)
      hsameLines hloaded.lines
  · have hmem (s : Section) : ("media", s.media.slot mediaCodec.write) ∈ s.slots :=
      .tail _ (.tail _ (.tail _ (.head _)))
    rw [Section.field_slot ha (hmem a)] at hsameMedia ⊢
    rw [Section.field_slot hb (hmem _)]
    exact mediaCodec_stable.optional mediaCodec_lawful hfields ha.media hsameMedia
      hloaded.media
  · have hmem (s : Section) : ("script", s.script.slot actionCodec.list.write) ∈ s.slots :=
      .tail _ (.tail _ (.tail _ (.tail _ (.tail _ (.head _)))))
    rw [Section.field_slot ha (hmem a)] at hsameScript ⊢
    rw [Section.field_slot hb (hmem _)]
    exact actionCodec_stable.list.optional actionCodec_lawful.list hfields ha.script hsameScript
      hloaded.script

/-! ## Choices -/

namespace Extension

/-- The label and the target of a choice. -/
def pairOf (c : Choice) : String × String := (c.label, c.target)

theorem choiceLabel_toJson (c : Choice) (h : choiceCodec.Proper c) :
    choiceLabel c.toJson = .str c.label := by
  have hget : c.toJson.get? "text" = c.text.map .str := choice_record.get?_slot h (.head _)
  unfold choiceLabel Choice.label
  rw [hget]
  cases c.text <;> rfl

/-- The target stands in the document of a choice, whatever else does. -/
theorem choiceTarget_toJson (id : String) (c : Choice) : choiceTarget id c.toJson = .ok c.target := by
  have hget : c.toJson.get? "next" = some c.next.toJson := by
    unfold Choice.toJson Json.record
    cases c.text <;> simp [Json.defaultedEntry, Json.get?, Table.get?_cons]
  obtain ⟨fields, hwrite⟩ : ∃ fields, c.toJson = .obj fields := ⟨_, choice_record.write_eq c⟩
  unfold choiceTarget Json.field
  rw [hwrite] at hget ⊢
  simp only [hget, Option.getD_some]
  unfold Choice.target
  cases c.next <;> rfl

theorem choiceList_toJson (id : String) (s : Section) (h : s.Proper) :
    choiceList id s.toJson = .ok (s.choices.map Choice.toJson) := by
  have hmem : ("next", s.next.slot choiceCodec.list.write) ∈ s.slots :=
    .tail _ (.tail _ (.tail _ (.tail _ (.head _))))
  unfold choiceList Section.choices
  rw [Section.field_slot h hmem]
  cases s.next <;> rfl

/-- The choices that the document of a section lists. -/
def listed (section_ : Json) : List Json :=
  match section_.field "next" with
  | .arr choices => choices
  | _ => []

theorem listed_toJson {a : Section} (ha : a.Proper) :
    listed a.toJson = a.choices.map Choice.toJson := by
  have hmem : ("next", a.next.slot choiceCodec.list.write) ∈ a.slots :=
    .tail _ (.tail _ (.tail _ (.tail _ (.head _))))
  unfold listed Section.choices
  rw [Section.field_slot ha hmem]
  cases a.next <;> rfl

theorem listed_of_choiceList {id : String} {v : Json} {docs : List Json}
    (h : choiceList id v = .ok docs) : listed v = docs := by
  unfold choiceList at h
  unfold listed
  split at h
  · rename_i hnull
    rw [hnull]
    exact Except.ok.inj h
  · rename_i choices harr
    rw [harr]
    exact Except.ok.inj h
  · cases h

/-- A loaded choice has the target that its document shows. -/
theorem target_of_check {id : String} {v : Json} {c : Choice} (hcheck : Choice.check v = .ok c)
    {target : String} (htarget : choiceTarget id v = .ok target) : c.target = target := by
  obtain ⟨fields, rfl, hfields⟩ := Check.of_model hcheck
  obtain ⟨g, next, hg, hnext, rfl⟩ := Checked.of_seq hfields
  obtain ⟨text, -, rfl⟩ := Checked.of_map hg
  obtain ⟨w, hget, hw⟩ := Check.of_required hnext
  simp only [choiceTarget, Json.field_of_get? hget] at htarget
  cases w with
  | str s =>
    cases htarget
    cases hw
    rfl
  | int n =>
    cases htarget
    cases hw
    rfl
  | _ => cases htarget

/-- A loaded choice has the label that its document shows. -/
theorem label_of_check {v : Json} {c : Choice} (hcheck : Choice.check v = .ok c) {label : String}
    (hlabel : choiceLabel v = .str label) : c.label = label := by
  obtain ⟨fields, rfl, hfields⟩ := Check.of_model hcheck
  obtain ⟨g, next, hg, -, rfl⟩ := Checked.of_seq hfields
  obtain ⟨text, htext, rfl⟩ := Checked.of_map hg
  have hget : choiceLabel (.obj fields) = (Table.get? fields "text").getD (.str "") := rfl
  rw [hget] at hlabel
  rcases Check.of_defaulted htext with ⟨rfl, hnone⟩ | ⟨w, s, rfl, hsome, hw⟩
  · rw [hnone] at hlabel
    cases hlabel
    rfl
  · rw [hsome] at hlabel
    have hlabel : w = .str label := hlabel
    rw [hlabel] at hw
    cases hw
    rfl

/-- The choices of a loaded section are those its document lists. -/
theorem choices_of_check {id : String} {v : Json} {s : Section} (hcheck : Section.check v = .ok s)
    {docs : List Json} (hdocs : choiceList id v = .ok docs) :
    List.Forall₂ (fun doc c => Choice.check doc = .ok c) docs s.choices := by
  obtain ⟨fields, rfl, -⟩ := Check.of_model hcheck
  have hnext := (Section.loadedFrom hcheck).next
  unfold choiceList at hdocs
  unfold Section.choices
  rw [Json.field_obj] at hdocs
  rcases Check.of_optional hnext with ⟨hvalue, hget⟩ | ⟨hvalue, hget⟩ | ⟨w, cs, hvalue, hget, -, hcs⟩
  · rw [hget] at hdocs
    rw [hvalue]
    cases hdocs
    exact .nil
  · rw [hget] at hdocs
    rw [hvalue]
    cases hdocs
    exact .nil
  · obtain ⟨items, rfl, hitems⟩ := Check.of_list hcs
    rw [hget] at hdocs
    rw [hvalue]
    cases hdocs
    exact hitems

/-- A choice that was accepted as the same has the label and the target of the former one. -/
theorem pairOf_of_same {id : String} {a c : Choice} {doc : Json} (ha : choiceCodec.Proper a)
    (hsame : sameChoice id a.toJson doc = .ok true) (hcheck : Choice.check doc = .ok c) :
    pairOf c = pairOf a := by
  unfold sameChoice at hsame
  split at hsame
  · split at hsame
    · rename_i hlabel
      rw [choiceLabel_toJson a ha, Json.same_str_iff] at hlabel
      simp only [choiceTarget_toJson id a, bind, Except.bind, pure, Except.pure] at hsame
      split at hsame
      · cases hsame
      · rename_i target htarget
        have htargets : a.target = target := by simpa using hsame
        unfold pairOf
        rw [label_of_check hcheck hlabel, target_of_check hcheck htarget, htargets]
    · cases hsame
  · cases hsame

/-- The choices of a section that was accepted as unchanged begin with the former ones. -/
theorem pairs_prefix {id : String} {formers : List Choice} {docs : List Json} {cs : List Choice}
    {position : Nat} (hformers : ∀ a ∈ formers, choiceCodec.Proper a)
    (hcheck : checkChoices id position (formers.map Choice.toJson) docs = .ok ())
    (hdocs : List.Forall₂ (fun doc c => Choice.check doc = .ok c) docs cs) :
    formers.map pairOf <+: cs.map pairOf := by
  induction formers generalizing docs cs position with
  | nil => exact List.nil_prefix
  | cons a formers ih =>
    rw [List.forall_mem_cons] at hformers
    cases hdocs with
    | nil => cases hcheck
    | cons hfirst hrest =>
      rw [List.map_cons, checkChoices] at hcheck
      simp only [bind, Except.bind] at hcheck
      split at hcheck
      · cases hcheck
      · rename_i same hsame
        split at hcheck
        · rename_i htrue
          rw [htrue] at hsame
          rw [List.map_cons, List.map_cons, pairOf_of_same hformers.1 hsame hfirst,
            List.prefix_cons_inj]
          exact ih hformers.2 hcheck hrest
        · cases hcheck

end Extension

end Gamebook
