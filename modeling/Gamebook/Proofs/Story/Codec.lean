import Gamebook.Proofs.Codec
import Gamebook.Proofs.Number.Whole
import Gamebook.Story.Load

/-!
# The records of a story, written and loaded

Each record has its declared fields as slots, beside its unknown ones; from them follows that its check
accepts what its writer writes.

* `textCodec`, `scalarCodec`, `wholeCodec`, `targetCodec` and the like : single values.
* `choiceCodec` ... `stateCodec` : the records of a story.
* `storyCodec`, `storyCodec_lawful` : the story as a whole.
-/

set_option autoImplicit false

namespace Gamebook

open Codec (Lawful)

/-! ## Single values -/

def textCodec : Codec String := .plain Check.text .str (fun _ => True) 0

/-- Texts that may be written as numbers or truth values. -/
def scalarCodec : Codec String := .plain Check.scalarText .str (fun _ => True) 0

def boolCodec : Codec Bool := .plain Check.bool .bool (fun _ => True) 0

def wholeCodec : Codec Int := .plain Check.int .int (fun n => (Json.int n).Proper) 0

def targetCodec : Codec Target := .plain Target.check Target.toJson (fun t => t.toJson.Proper) 0

def kindCodec : Codec MediaKind := .plain MediaKind.check (fun k => .str k.word) (fun _ => True) 0

def parametersCodec : Codec (List String) :=
  .plain Action.checkParameters Json.ofTexts (fun _ => True) 1

def Action.checkParameter (p : Json) : Checked String :=
  if p.isNull then .ok "" else Check.scalarText p

/-- Parameters are read from null, which stands for none, or from a list item by item. -/
theorem Action.of_checkParameters {v : Json} {texts : List String}
    (h : Action.checkParameters v = .ok texts) : (v = .null ∧ texts = []) ∨ ∃ items, v = .arr items ∧
      List.Forall₂ (fun p text => Action.checkParameter p = .ok text) items texts := by
  unfold Action.checkParameters at h
  split at h
  · cases h
    exact .inl ⟨rfl, rfl⟩
  · exact .inr (Check.of_list h)

theorem textCodec_lawful : textCodec.Lawful :=
  Codec.plain_lawful (fun _ _ => rfl) (fun _ _ => trivial) (fun _ _ _ _ => trivial) (by simp)
    fun _ => rfl

theorem scalarCodec_lawful : scalarCodec.Lawful :=
  Codec.plain_lawful (fun _ _ => rfl) (fun _ _ => trivial) (fun _ _ _ _ => trivial) (by simp)
    fun _ => rfl

theorem boolCodec_lawful : boolCodec.Lawful :=
  Codec.plain_lawful (fun _ _ => rfl) (fun _ _ => trivial) (fun _ _ _ _ => trivial) (by simp)
    fun _ => rfl

theorem kindCodec_lawful : kindCodec.Lawful :=
  Codec.plain_lawful (fun k _ => by cases k <;> rfl) (fun _ _ => trivial) (fun _ _ _ _ => trivial)
    (by simp) fun _ => rfl

/-- A whole number that is accepted has no more digits than are read. -/
theorem proper_int {v : Json} {n : Int} (hv : v.Proper) (h : Check.int v = .ok n) :
    (Json.int n).Proper := by
  cases v with
  | int m =>
    cases h
    exact hv
  | bool b =>
    cases h
    have hdigits : (Nat.repr 0).length ≤ digitLimit ∧ (Nat.repr 1).length ≤ digitLimit := by decide
    cases b
    · exact hdigits.1
    · exact hdigits.2
  | str s =>
    simp only [Check.int] at h
    split at h
    · rename_i m hm
      cases h
      exact wholeOfText_length hm
    · cases h
  | float x =>
    simp only [Check.int] at h
    split at h
    · split at h
      · rename_i hbound
        cases h
        unfold Check.wordBound at hbound
        exact Nat.le_trans ((Nat.length_repr_le_iff (k := 19) (by omega)).2 (by omega)) (by decide)
      · cases h
    · cases h
    · cases h
  | null => cases h
  | arr items => cases h
  | obj fields => cases h

theorem wholeCodec_lawful : wholeCodec.Lawful :=
  Codec.plain_lawful (fun _ _ => rfl) (fun _ h => h) (fun _ _ => proper_int) (by simp)
    fun _ => rfl

theorem proper_target {v : Json} {t : Target} (hv : v.Proper) (h : Target.check v = .ok t) :
    t.toJson.Proper := by
  unfold Target.check at h
  split at h
  · cases h
    trivial
  · split at h
    · rename_i n hn
      cases h
      exact proper_int hv hn
    · rename_i hbad
      obtain ⟨g, a, -, ha, -⟩ := Checked.of_seq h
      obtain ⟨n, hn, -⟩ := Checked.of_map ha
      exact absurd (Checked.of_under hn) (hbad n)

theorem targetCodec_lawful : targetCodec.Lawful :=
  Codec.plain_lawful (fun t _ => by cases t <;> rfl) (fun _ h => h) (fun _ _ => proper_target)
    (fun t => by cases t <;> simp [Target.toJson]) fun t => by cases t <;> rfl

def textsCodec : Codec (List String) :=
  .plain (Check.list Check.text) Json.ofTexts (fun _ => True) 1

def scalarsCodec : Codec (List String) :=
  .plain (Check.list Check.scalarText) Json.ofTexts (fun _ => True) 1

def textTableCodec : Codec (Table String) :=
  .plain (Check.map Check.text) Json.ofTextTable (fun t => (Table.keys t).Nodup) 1

def scalarTableCodec : Codec (Table String) :=
  .plain (Check.map Check.scalarText) Json.ofTextTable (fun t => (Table.keys t).Nodup) 1

theorem plain_list {check : Json → Checked String}
    (h : (Codec.plain check .str (fun _ => True) 0).Lawful) :
    (Codec.plain (Check.list check) Json.ofTexts (fun _ => True) 1).Lawful := by
  refine Codec.plain_lawful (fun texts _ => ?_) (fun texts _ => ?_) (fun _ _ _ _ => trivial)
    (by simp [Json.ofTexts]) fun texts => ?_
  · have hlist := h.list.check_write texts fun _ _ => trivial
    have hid : (Codec.plain check .str (fun _ => True) 0).list.settled texts = texts :=
      List.map_id texts
    rw [hid] at hlist
    exact hlist
  · exact h.list.proper_write texts fun _ _ => trivial
  · apply h.list.within_write texts
    simp [Codec.list, Codec.plain]

theorem plain_table {check : Json → Checked String}
    (h : (Codec.plain check .str (fun _ => True) 0).Lawful) :
    (Codec.plain (Check.map check) Json.ofTextTable (fun t => (Table.keys t).Nodup) 1).Lawful := by
  refine Codec.plain_lawful (fun t ht => ?_) (fun t ht => ?_) (fun v t hv ht => ?_)
    (by simp [Json.ofTextTable]) fun t => ?_
  · have htable := h.table.check_write t ⟨ht, fun _ _ => trivial⟩
    have hid : (Codec.plain check .str (fun _ => True) 0).table.settled t = t := List.map_id t
    rw [hid] at htable
    exact htable
  · exact h.table.proper_write t ⟨ht, fun _ _ => trivial⟩
  · exact (h.table.proper_check v t hv ht).1
  · apply h.table.within_write t
    simp [Codec.table, Codec.plain]

theorem textsCodec_lawful : textsCodec.Lawful := plain_list textCodec_lawful

theorem scalarsCodec_lawful : scalarsCodec.Lawful := plain_list scalarCodec_lawful

theorem textTableCodec_lawful : textTableCodec.Lawful := plain_table textCodec_lawful

theorem scalarTableCodec_lawful : scalarTableCodec.Lawful := plain_table scalarCodec_lawful

theorem parametersCodec_lawful : parametersCodec.Lawful := by
  refine Codec.plain_lawful (fun texts _ => ?_) (fun texts _ => ?_) (fun _ _ _ _ => trivial)
    (by simp [Json.ofTexts]) fun texts => ?_
  · have hlist := @Check.list_ok String String
      (fun item => if item.isNull then .ok "" else Check.scalarText item) .str id texts
      fun _ _ => rfl
    rw [List.map_id] at hlist
    exact hlist
  · exact textsCodec_lawful.proper_write texts trivial
  · exact textsCodec_lawful.within_write texts (by simp [textsCodec, Codec.plain])

/-! ## Settled records

A record that is written and loaded again has the numbers of its unknown fields that are not finite
replaced by null. -/

/-- A choice as it is once written and loaded. -/
def Choice.settled (c : Choice) : Choice := { c with extra := Json.finiteFields c.extra }

/-- A line of a script as it is once written and loaded. -/
def Action.settled (a : Action) : Action := { a with extra := Json.finiteFields a.extra }

/-- Media as they are once written and loaded. -/
def Media.settled (m : Media) : Media := { m with extra := Json.finiteFields m.extra }

/-- The wish for a drawing as it is once written and loaded. -/
def Picture.settled (p : Picture) : Picture := { p with extra := Json.finiteFields p.extra }

/-- A section as it is once written and loaded. -/
def Section.settled (s : Section) : Section :=
  { s with
    media := s.media.map Media.settled
    next := s.next.map fun cs => cs.map Choice.settled
    script := s.script.map fun as => as.map Action.settled
    picture := s.picture.map Picture.settled
    extra := Json.finiteFields s.extra }

/-- An author or a licence as it is once written and loaded. -/
def Credit.settled (c : Credit) : Credit := { c with extra := Json.finiteFields c.extra }

/-- A credit as it is once written and loaded. -/
def Attribution.settled : Attribution → Attribution
  | .credit c => .credit c.settled
  | .name s => .name s

/-- Metadata as they are once written and loaded. -/
def Metadata.settled (m : Metadata) : Metadata :=
  { m with
    author := m.author.map Attribution.settled
    license := m.license.map Attribution.settled
    extra := Json.finiteFields m.extra }

/-- The definition of a variable as it is once written and loaded. -/
def VariableDefinition.settled (d : VariableDefinition) : VariableDefinition :=
  { d with extra := Json.finiteFields d.extra }

/-- The state of play as it is once written and loaded. -/
def PlayState.settled (s : PlayState) : PlayState := { s with extra := Json.finiteFields s.extra }

/-- A story as it is once written and loaded. -/
def Story.settled (s : Story) : Story :=
  { metadata := s.metadata.map Metadata.settled
    state := s.state.map PlayState.settled
    sections := s.sections.mapValues Section.settled
    definitions := s.definitions.map fun t => t.mapValues VariableDefinition.settled
    extra := Json.finiteFields s.extra }

/-! ## Choices, scripts and media -/

def Choice.slots (c : Choice) : List (String × Option Json) :=
  [("text", c.text.map .str), ("next", some c.next.toJson)]

def choiceCodec : Codec Choice where
  check := Choice.check
  write := Choice.toJson
  Proper c := c.next.toJson.Proper ∧ ProperExtra ["text", "next"] c.extra
  settled := Choice.settled
  unknown c := c.extra.values
  level := 1

theorem choice_record : choiceCodec.Record ["text", "next"] Choice.slots Choice.extra where
  nodup := by decide
  keys _ := rfl
  write_eq c := by
    simp only [choiceCodec, Choice.toJson, Json.record, Json.defaultedEntry_eq]
    rfl
  slots_settled _ := rfl
  extra_settled _ := rfl
  proper_extra _ h := h.2
  proper_slots c h := by
    simp only [Choice.slots, List.forall_mem_cons]
    exact ⟨textCodec_lawful.proper_default fun _ _ => trivial, targetCodec_lawful.proper_value h.1,
      List.forall_mem_nil _⟩
  mem_unknown _ _ h := h
  level_pos := by decide
  within_slots c _ := by
    simp only [Choice.slots, List.forall_mem_cons]
    exact ⟨textCodec_lawful.plain_within_default (by decide),
      targetCodec_lawful.plain_within_value (by decide), List.forall_mem_nil _⟩
  check_fields c fields h hget hunknown := by
    simp only [Choice.slots, List.forall_mem_cons] at hget
    obtain ⟨htext, hnext, -⟩ := hget
    simp only [choiceCodec, Choice.check, Check.model, hunknown]
    exact Checked.seq_of
      (Checked.map_of (textCodec_lawful.plain_defaulted htext fun _ _ => trivial))
      (targetCodec_lawful.plain_required hnext h.1)

theorem choiceCodec_lawful : choiceCodec.Lawful := by
  refine choice_record.lawful (fun c h => ⟨h.1, h.2.finite⟩) ?_
    (fun c => ProperExtra.values_finite c.extra) ?_
  · intro v c hv h
    obtain ⟨fields, rfl, hcheck⟩ := Check.of_model h
    obtain ⟨g, next, hg, hnext, rfl⟩ := Checked.of_seq hcheck
    obtain ⟨text, -, rfl⟩ := Checked.of_map hg
    exact ⟨targetCodec_lawful.of_required hv hnext, ProperExtra.of_fields hv _⟩
  · intro c hfinite
    simp only [choiceCodec, Choice.settled, ProperExtra.finite_eq hfinite]

def Action.slots (a : Action) : List (String × Option Json) :=
  [("action", some (.str a.tag)), ("parameters", a.parameters.map Json.ofTexts)]

def actionCodec : Codec Action where
  check := Action.check
  write := Action.toJson
  Proper a := ProperExtra ["action", "parameters"] a.extra
  settled := Action.settled
  unknown a := a.extra.values
  level := 2

theorem action_record : actionCodec.Record ["action", "parameters"] Action.slots Action.extra where
  nodup := by decide
  keys _ := rfl
  write_eq a := by
    simp only [actionCodec, Action.toJson, Json.record, Json.defaultedEntry_eq]
    rfl
  slots_settled _ := rfl
  extra_settled _ := rfl
  proper_extra _ h := h
  proper_slots a _ := by
    simp only [Action.slots, List.forall_mem_cons]
    exact ⟨textCodec_lawful.proper_value trivial,
      parametersCodec_lawful.proper_default fun _ _ => trivial, List.forall_mem_nil _⟩
  mem_unknown _ _ h := h
  level_pos := by decide
  within_slots a _ := by
    simp only [Action.slots, List.forall_mem_cons]
    exact ⟨textCodec_lawful.plain_within_value (by decide),
      parametersCodec_lawful.plain_within_default (by decide), List.forall_mem_nil _⟩
  check_fields a fields _ hget hunknown := by
    simp only [Action.slots, List.forall_mem_cons] at hget
    obtain ⟨htag, hparameters, -⟩ := hget
    simp only [actionCodec, Action.check, Check.model, hunknown]
    exact Checked.seq_of
      (Checked.map_of (textCodec_lawful.plain_required htag trivial))
      (parametersCodec_lawful.plain_defaulted hparameters fun _ _ => trivial)

theorem actionCodec_lawful : actionCodec.Lawful := by
  refine action_record.lawful (fun a h => h.finite) ?_
    (fun a => ProperExtra.values_finite a.extra) ?_
  · intro v a hv h
    obtain ⟨fields, rfl, hcheck⟩ := Check.of_model h
    obtain ⟨g, parameters, hg, -, rfl⟩ := Checked.of_seq hcheck
    obtain ⟨tag, -, rfl⟩ := Checked.of_map hg
    exact ProperExtra.of_fields hv _
  · intro a hfinite
    simp only [actionCodec, Action.settled, ProperExtra.finite_eq hfinite]

def Media.slots (m : Media) : List (String × Option Json) :=
  [("type", some (.str m.kind.word)), ("src", some (.str m.source))]

def mediaCodec : Codec Media where
  check := Media.check
  write := Media.toJson
  Proper m := ProperExtra ["type", "src"] m.extra
  settled := Media.settled
  unknown m := m.extra.values
  level := 1

theorem media_record : mediaCodec.Record ["type", "src"] Media.slots Media.extra where
  nodup := by decide
  keys _ := rfl
  write_eq _ := rfl
  slots_settled _ := rfl
  extra_settled _ := rfl
  proper_extra _ h := h
  proper_slots m _ := by
    simp only [Media.slots, List.forall_mem_cons]
    exact ⟨kindCodec_lawful.proper_value trivial, textCodec_lawful.proper_value trivial,
      List.forall_mem_nil _⟩
  mem_unknown _ _ h := h
  level_pos := by decide
  within_slots m _ := by
    simp only [Media.slots, List.forall_mem_cons]
    exact ⟨kindCodec_lawful.plain_within_value (by decide),
      textCodec_lawful.plain_within_value (by decide), List.forall_mem_nil _⟩
  check_fields m fields _ hget hunknown := by
    simp only [Media.slots, List.forall_mem_cons] at hget
    obtain ⟨hkind, hsource, -⟩ := hget
    simp only [mediaCodec, Media.check, Check.model, hunknown]
    exact Checked.seq_of
      (Checked.map_of (kindCodec_lawful.plain_required hkind trivial))
      (textCodec_lawful.plain_required hsource trivial)

theorem mediaCodec_lawful : mediaCodec.Lawful := by
  refine media_record.lawful (fun m h => h.finite) ?_
    (fun m => ProperExtra.values_finite m.extra) ?_
  · intro v m hv h
    obtain ⟨fields, rfl, hcheck⟩ := Check.of_model h
    obtain ⟨g, source, hg, -, rfl⟩ := Checked.of_seq hcheck
    obtain ⟨kind, -, rfl⟩ := Checked.of_map hg
    exact ProperExtra.of_fields hv _
  · intro m hfinite
    simp only [mediaCodec, Media.settled, ProperExtra.finite_eq hfinite]

def Picture.slots (p : Picture) : List (String × Option Json) :=
  [("prompt", some (.str p.prompt)), ("negative_prompt", p.negative.slot .str),
   ("size", p.size.slot .str)]

def pictureCodec : Codec Picture where
  check := Picture.check
  write := Picture.toJson
  Proper p := ProperExtra ["prompt", "negative_prompt", "size"] p.extra
  settled := Picture.settled
  unknown p := p.extra.values
  level := 1

theorem picture_record :
    pictureCodec.Record ["prompt", "negative_prompt", "size"] Picture.slots Picture.extra where
  nodup := by decide
  keys _ := rfl
  write_eq p := by
    simp only [pictureCodec, Picture.toJson, Json.record, Field.entry_eq]
    rfl
  slots_settled _ := rfl
  extra_settled _ := rfl
  proper_extra _ h := h
  proper_slots p _ := by
    simp only [Picture.slots, List.forall_mem_cons]
    exact ⟨textCodec_lawful.proper_value trivial, textCodec_lawful.proper_slot fun _ _ => trivial,
      textCodec_lawful.proper_slot fun _ _ => trivial, List.forall_mem_nil _⟩
  mem_unknown _ _ h := h
  level_pos := by decide
  within_slots p _ := by
    simp only [Picture.slots, List.forall_mem_cons]
    exact ⟨textCodec_lawful.plain_within_value (by decide),
      textCodec_lawful.plain_within_slot (by decide),
      textCodec_lawful.plain_within_slot (by decide), List.forall_mem_nil _⟩
  check_fields p fields _ hget hunknown := by
    simp only [Picture.slots, List.forall_mem_cons] at hget
    obtain ⟨hprompt, hnegative, hsize, -⟩ := hget
    simp only [pictureCodec, Picture.check, Check.model, hunknown]
    exact Checked.seq_of (Checked.seq_of
      (Checked.map_of (textCodec_lawful.plain_required hprompt trivial))
      (textCodec_lawful.plain_optional hnegative fun _ _ => trivial))
      (textCodec_lawful.plain_optional hsize fun _ _ => trivial)

theorem pictureCodec_lawful : pictureCodec.Lawful := by
  refine picture_record.lawful (fun p h => h.finite) ?_
    (fun p => ProperExtra.values_finite p.extra) ?_
  · intro v p hv h
    obtain ⟨fields, rfl, hcheck⟩ := Check.of_model h
    obtain ⟨g, size, hg, -, rfl⟩ := Checked.of_seq hcheck
    obtain ⟨k, negative, hk, -, rfl⟩ := Checked.of_seq hg
    obtain ⟨prompt, -, rfl⟩ := Checked.of_map hk
    exact ProperExtra.of_fields hv _
  · intro p hfinite
    simp only [pictureCodec, Picture.settled, ProperExtra.finite_eq hfinite]

/-! ## Sections -/

/-- What loaded sections satisfy. -/
structure Section.Proper (s : Section) : Prop where
  media : s.media.All mediaCodec.Proper
  next : s.next.All choiceCodec.list.Proper
  script : s.script.All actionCodec.list.Proper
  picture : s.picture.All pictureCodec.Proper
  extra : ProperExtra Section.declared s.extra

def Section.slots (s : Section) : List (String × Option Json) :=
  [("id", some (.str s.id)), ("text_lines", s.textLines.slot Json.ofTexts),
   ("text", s.text.slot .str), ("media", s.media.slot mediaCodec.write),
   ("next", s.next.slot choiceCodec.list.write), ("script", s.script.slot actionCodec.list.write),
   ("ai_extendable", s.extendable.slot .bool), ("ai_gen", s.picture.slot pictureCodec.write)]

def sectionCodec : Codec Section where
  check := Section.check
  write := Section.toJson
  Proper := Section.Proper
  settled := Section.settled
  unknown := Section.unknownValues
  level := 4

namespace Section

theorem forall_unknownValues (s : Section) (p : Json → Prop) :
    (∀ v ∈ s.unknownValues, p v) ↔
      (∀ v ∈ s.extra.values, p v) ∧ (∀ v ∈ s.media.collect mediaCodec.unknown, p v) ∧
        (∀ v ∈ s.next.collect choiceCodec.list.unknown, p v) ∧
        (∀ v ∈ s.script.collect actionCodec.list.unknown, p v) ∧
        ∀ v ∈ s.picture.collect pictureCodec.unknown, p v := by
  unfold unknownValues
  simp only [List.forall_mem_append, and_assoc]
  rfl

theorem unknownValues_settled (s : Section) :
    s.settled.unknownValues = s.unknownValues.map Json.finiteOnly := by
  unfold unknownValues
  simp only [List.map_append]
  have hextra := ProperExtra.values_finite s.extra
  have hmedia := mediaCodec_lawful.collect_settled s.media
  have hnext := choiceCodec_lawful.list.collect_settled s.next
  have hscript := actionCodec_lawful.list.collect_settled s.script
  have hpicture := pictureCodec_lawful.collect_settled s.picture
  exact congrArg₂ _ (congrArg₂ _ (congrArg₂ _ (congrArg₂ _ hextra hmedia) hnext) hscript) hpicture

end Section

theorem section_record : sectionCodec.Record Section.declared Section.slots Section.extra where
  nodup := by decide
  keys _ := rfl
  write_eq s := by
    simp only [sectionCodec, Section.toJson, Json.record, Field.entry_eq]
    rfl
  slots_settled s := by
    simp only [Section.slots, ← mediaCodec_lawful.slot_settled s.media,
      ← choiceCodec_lawful.list.slot_settled s.next, ← actionCodec_lawful.list.slot_settled s.script,
      ← pictureCodec_lawful.slot_settled s.picture]
    rfl
  extra_settled _ := rfl
  proper_extra _ h := h.extra
  proper_slots s h := by
    simp only [Section.slots, List.forall_mem_cons]
    exact ⟨scalarCodec_lawful.proper_value trivial, textsCodec_lawful.proper_slot fun _ _ => trivial,
      textCodec_lawful.proper_slot fun _ _ => trivial, mediaCodec_lawful.proper_slot h.media,
      choiceCodec_lawful.list.proper_slot h.next, actionCodec_lawful.list.proper_slot h.script,
      boolCodec_lawful.proper_slot fun _ _ => trivial, pictureCodec_lawful.proper_slot h.picture,
      List.forall_mem_nil _⟩
  mem_unknown s v hv := by
    simp only [sectionCodec, Section.unknownValues, List.mem_append]
    exact .inl (.inl (.inl (.inl hv)))
  level_pos := by decide
  within_slots s h := by
    obtain ⟨-, hmedia, hnext, hscript, hpicture⟩ := (s.forall_unknownValues _).1 h
    simp only [Section.slots, List.forall_mem_cons]
    exact ⟨scalarCodec_lawful.plain_within_value (by decide),
      textsCodec_lawful.plain_within_slot (by decide),
      textCodec_lawful.plain_within_slot (by decide),
      mediaCodec_lawful.within_slot (by decide) hmedia,
      choiceCodec_lawful.list.within_slot (by decide) hnext,
      actionCodec_lawful.list.within_slot (by decide) hscript,
      boolCodec_lawful.plain_within_slot (by decide),
      pictureCodec_lawful.within_slot (by decide) hpicture, List.forall_mem_nil _⟩
  check_fields s fields h hget hunknown := by
    simp only [Section.slots, List.forall_mem_cons] at hget
    obtain ⟨hid, hlines, htext, hmedia, hnext, hscript, hextendable, hpicture, -⟩ := hget
    simp only [sectionCodec, Section.check, Check.model, hunknown]
    have hid := scalarCodec_lawful.plain_required hid trivial
    have hlines := textsCodec_lawful.plain_optional hlines fun _ _ => trivial
    have htext := textCodec_lawful.plain_optional htext fun _ _ => trivial
    have hmedia := mediaCodec_lawful.optional hmedia h.media
    have hnext := choiceCodec_lawful.list.optional hnext h.next
    have hscript := actionCodec_lawful.list.optional hscript h.script
    have hextendable := boolCodec_lawful.plain_optional hextendable fun _ _ => trivial
    have hpicture := pictureCodec_lawful.optional hpicture h.picture
    exact Checked.seq_of (Checked.seq_of (Checked.seq_of (Checked.seq_of (Checked.seq_of
      (Checked.seq_of (Checked.seq_of (Checked.map_of hid) hlines) htext) hmedia) hnext) hscript)
      hextendable) hpicture

theorem sectionCodec_lawful : sectionCodec.Lawful := by
  refine section_record.lawful ?_ ?_ Section.unknownValues_settled ?_
  · intro s h
    exact ⟨mediaCodec_lawful.all_settled h.media, choiceCodec_lawful.list.all_settled h.next,
      actionCodec_lawful.list.all_settled h.script, pictureCodec_lawful.all_settled h.picture,
      h.extra.finite⟩
  · intro v s hv h
    obtain ⟨fields, rfl, hcheck⟩ := Check.of_model h
    obtain ⟨_, picture, h7, hpicture, rfl⟩ := Checked.of_seq hcheck
    obtain ⟨_, extendable, h6, -, rfl⟩ := Checked.of_seq h7
    obtain ⟨_, script, h5, hscript, rfl⟩ := Checked.of_seq h6
    obtain ⟨_, next, h4, hnext, rfl⟩ := Checked.of_seq h5
    obtain ⟨_, media, h3, hmedia, rfl⟩ := Checked.of_seq h4
    obtain ⟨_, text, h2, -, rfl⟩ := Checked.of_seq h3
    obtain ⟨_, lines, h1, -, rfl⟩ := Checked.of_seq h2
    obtain ⟨id, -, rfl⟩ := Checked.of_map h1
    exact ⟨mediaCodec_lawful.of_optional hv hmedia, choiceCodec_lawful.list.of_optional hv hnext,
      actionCodec_lawful.list.of_optional hv hscript, pictureCodec_lawful.of_optional hv hpicture,
      ProperExtra.of_fields hv _⟩
  · intro s h
    obtain ⟨hextra, hmedia, hnext, hscript, hpicture⟩ := (s.forall_unknownValues _).1 h
    have hmediaEq := mediaCodec_lawful.map_settled_eq hmedia
    have hnextEq := choiceCodec_lawful.list.map_settled_eq hnext
    have hscriptEq := actionCodec_lawful.list.map_settled_eq hscript
    have hpictureEq := pictureCodec_lawful.map_settled_eq hpicture
    have hextraEq := ProperExtra.finite_eq hextra
    obtain ⟨id, lines, text, media, next, script, extendable, picture, extra⟩ := s
    simp only [sectionCodec, Section.settled, Section.mk.injEq, true_and]
    exact ⟨hmediaEq, hnextEq, hscriptEq, hpictureEq, hextraEq⟩

/-! ## Metadata -/

def Credit.slots (c : Credit) : List (String × Option Json) :=
  [("name", some (.str c.name)), ("url", c.url.slot .str)]

def creditCodec : Codec Credit where
  check := Credit.check
  write := Credit.toJson
  Proper c := ProperExtra ["name", "url"] c.extra
  settled := Credit.settled
  unknown c := c.extra.values
  level := 1

theorem credit_record : creditCodec.Record ["name", "url"] Credit.slots Credit.extra where
  nodup := by decide
  keys _ := rfl
  write_eq c := by
    simp only [creditCodec, Credit.toJson, Json.record, Field.entry_eq]
    rfl
  slots_settled _ := rfl
  extra_settled _ := rfl
  proper_extra _ h := h
  proper_slots c _ := by
    simp only [Credit.slots, List.forall_mem_cons]
    exact ⟨textCodec_lawful.proper_value trivial, textCodec_lawful.proper_slot fun _ _ => trivial,
      List.forall_mem_nil _⟩
  mem_unknown _ _ h := h
  level_pos := by decide
  within_slots c _ := by
    simp only [Credit.slots, List.forall_mem_cons]
    exact ⟨textCodec_lawful.plain_within_value (by decide),
      textCodec_lawful.plain_within_slot (by decide), List.forall_mem_nil _⟩
  check_fields c fields _ hget hunknown := by
    simp only [Credit.slots, List.forall_mem_cons] at hget
    obtain ⟨hname, hurl, -⟩ := hget
    simp only [creditCodec, Credit.check, Check.model, hunknown]
    exact Checked.seq_of
      (Checked.map_of (textCodec_lawful.plain_required hname trivial))
      (textCodec_lawful.plain_optional hurl fun _ _ => trivial)

theorem creditCodec_lawful : creditCodec.Lawful := by
  refine credit_record.lawful (fun c h => h.finite) ?_
    (fun c => ProperExtra.values_finite c.extra) ?_
  · intro v c hv h
    obtain ⟨fields, rfl, hcheck⟩ := Check.of_model h
    obtain ⟨g, url, hg, -, rfl⟩ := Checked.of_seq hcheck
    obtain ⟨name, -, rfl⟩ := Checked.of_map hg
    exact ProperExtra.of_fields hv _
  · intro c hfinite
    simp only [creditCodec, Credit.settled, ProperExtra.finite_eq hfinite]

def Attribution.Proper : Attribution → Prop
  | .credit c => creditCodec.Proper c
  | .name _ => True

/-- Credits in full and names. -/
def attributionCodec (member : String) : Codec Attribution where
  check := Attribution.check member
  write := Attribution.toJson
  Proper := Attribution.Proper
  settled := Attribution.settled
  unknown := Attribution.unknownValues
  level := 1

theorem attributionCodec_lawful (member : String) : (attributionCodec member).Lawful where
  check_write a h := by
    cases a with
    | name s => rfl
    | credit c =>
      have hok := creditCodec_lawful.check_write c h
      have hobj := credit_record.write_eq c
      simp only [creditCodec] at hok hobj
      simp only [attributionCodec, Attribution.toJson, Attribution.check]
      rw [hobj] at hok ⊢
      simp only [hok]
      rfl
  write_settled a := by
    cases a with
    | name s => rfl
    | credit c => exact creditCodec_lawful.write_settled c
  proper_settled a h := by
    cases a with
    | name s => trivial
    | credit c => exact creditCodec_lawful.proper_settled c h
  proper_write a h := by
    cases a with
    | name s => trivial
    | credit c => exact creditCodec_lawful.proper_write c h
  proper_check v a hv h := by
    simp only [attributionCodec, Attribution.check] at h
    split at h
    · cases h
      trivial
    · split at h
      · rename_i c hc
        cases h
        exact creditCodec_lawful.proper_check v c hv hc
      · obtain ⟨g, b, -, hb, -⟩ := Checked.of_seq h
        cases hb
  write_ne_null a := by
    cases a with
    | name s => exact fun h => nomatch h
    | credit c => exact creditCodec_lawful.write_ne_null c
  within_write a h := by
    cases a with
    | name s => rfl
    | credit c => exact creditCodec_lawful.within_write c h
  unknown_settled a := by
    cases a with
    | name s => rfl
    | credit c => exact creditCodec_lawful.unknown_settled c
  settled_eq a h := by
    cases a with
    | name s => rfl
    | credit c => exact congrArg Attribution.credit (creditCodec_lawful.settled_eq c h)

/-- What loaded metadata satisfy. -/
structure Metadata.Proper (m : Metadata) : Prop where
  author : m.author.All Attribution.Proper
  year : m.year.All fun t => t.toJson.Proper
  license : m.license.All Attribution.Proper
  lookAhead : m.lookAhead.All fun n => (Json.int n).Proper
  characters : m.characters.All fun t => (Table.keys t).Nodup
  extra : ProperExtra Metadata.declared m.extra

def Metadata.slots (m : Metadata) : List (String × Option Json) :=
  [("title", m.title.slot .str), ("author", m.author.slot Attribution.toJson),
   ("year", m.year.slot Target.toJson), ("license", m.license.slot Attribution.toJson),
   ("ai_gen_look_ahead", m.lookAhead.slot .int),
   ("characters", m.characters.slot Json.ofTextTable)]

def metadataCodec : Codec Metadata where
  check := Metadata.check
  write := Metadata.toJson
  Proper := Metadata.Proper
  settled := Metadata.settled
  unknown := Metadata.unknownValues
  level := 2

theorem Metadata.forall_unknownValues (m : Metadata) (p : Json → Prop) :
    (∀ v ∈ m.unknownValues, p v) ↔
      (∀ v ∈ m.extra.values, p v) ∧ (∀ v ∈ m.author.collect Attribution.unknownValues, p v) ∧
        ∀ v ∈ m.license.collect Attribution.unknownValues, p v := by
  unfold unknownValues
  simp only [List.forall_mem_append, and_assoc]

theorem Metadata.unknownValues_settled (m : Metadata) :
    m.settled.unknownValues = m.unknownValues.map Json.finiteOnly := by
  unfold unknownValues
  simp only [List.map_append]
  have hextra := ProperExtra.values_finite m.extra
  have hauthor := (attributionCodec_lawful "Author").collect_settled m.author
  have hlicense := (attributionCodec_lawful "License").collect_settled m.license
  exact congrArg₂ _ (congrArg₂ _ hextra hauthor) hlicense

theorem metadata_record :
    metadataCodec.Record Metadata.declared Metadata.slots Metadata.extra where
  nodup := by decide
  keys _ := rfl
  write_eq m := by
    simp only [metadataCodec, Metadata.toJson, Json.record, Field.entry_eq]
    rfl
  slots_settled m := by
    have hauthor := (attributionCodec_lawful "Author").slot_settled m.author
    have hlicense := (attributionCodec_lawful "License").slot_settled m.license
    simp only [attributionCodec] at hauthor hlicense
    simp only [Metadata.slots, metadataCodec, Metadata.settled, hauthor, hlicense]
  extra_settled _ := rfl
  proper_extra _ h := h.extra
  proper_slots m h := by
    simp only [Metadata.slots, List.forall_mem_cons]
    exact ⟨textCodec_lawful.proper_slot fun _ _ => trivial,
      (attributionCodec_lawful "Author").proper_slot h.author,
      targetCodec_lawful.proper_slot h.year,
      (attributionCodec_lawful "License").proper_slot h.license,
      wholeCodec_lawful.proper_slot h.lookAhead, textTableCodec_lawful.proper_slot h.characters,
      List.forall_mem_nil _⟩
  mem_unknown m v hv := by
    simp only [metadataCodec, Metadata.unknownValues, List.mem_append]
    exact .inl (.inl hv)
  level_pos := by decide
  within_slots m h := by
    obtain ⟨-, hauthor, hlicense⟩ := (m.forall_unknownValues _).1 h
    simp only [Metadata.slots, List.forall_mem_cons]
    exact ⟨textCodec_lawful.plain_within_slot (by decide),
      (attributionCodec_lawful "Author").within_slot (by decide) hauthor,
      targetCodec_lawful.plain_within_slot (by decide),
      (attributionCodec_lawful "License").within_slot (by decide) hlicense,
      wholeCodec_lawful.plain_within_slot (by decide),
      textTableCodec_lawful.plain_within_slot (by decide), List.forall_mem_nil _⟩
  check_fields m fields h hget hunknown := by
    simp only [Metadata.slots, List.forall_mem_cons] at hget
    obtain ⟨htitle, hauthor, hyear, hlicense, hahead, hcharacters, -⟩ := hget
    simp only [metadataCodec, Metadata.check, Check.model, hunknown]
    have htitle := textCodec_lawful.plain_optional htitle fun _ _ => trivial
    have hauthor := (attributionCodec_lawful "Author").optional hauthor h.author
    have hyear := targetCodec_lawful.plain_optional hyear h.year
    have hlicense := (attributionCodec_lawful "License").optional hlicense h.license
    have hahead := wholeCodec_lawful.plain_optional hahead h.lookAhead
    have hcharacters := textTableCodec_lawful.plain_optional hcharacters h.characters
    exact Checked.seq_of (Checked.seq_of (Checked.seq_of (Checked.seq_of (Checked.seq_of
      (Checked.map_of htitle) hauthor) hyear) hlicense) hahead) hcharacters

theorem metadataCodec_lawful : metadataCodec.Lawful := by
  refine metadata_record.lawful ?_ ?_ Metadata.unknownValues_settled ?_
  · intro m h
    exact ⟨(attributionCodec_lawful "Author").all_settled h.author, h.year,
      (attributionCodec_lawful "License").all_settled h.license, h.lookAhead, h.characters,
      h.extra.finite⟩
  · intro v m hv h
    obtain ⟨fields, rfl, hcheck⟩ := Check.of_model h
    obtain ⟨_, characters, h5, hcharacters, rfl⟩ := Checked.of_seq hcheck
    obtain ⟨_, lookAhead, h4, hahead, rfl⟩ := Checked.of_seq h5
    obtain ⟨_, license, h3, hlicense, rfl⟩ := Checked.of_seq h4
    obtain ⟨_, year, h2, hyear, rfl⟩ := Checked.of_seq h3
    obtain ⟨_, author, h1, hauthor, rfl⟩ := Checked.of_seq h2
    obtain ⟨title, -, rfl⟩ := Checked.of_map h1
    exact ⟨(attributionCodec_lawful "Author").of_optional hv hauthor,
      targetCodec_lawful.of_optional hv hyear,
      (attributionCodec_lawful "License").of_optional hv hlicense,
      wholeCodec_lawful.of_optional hv hahead, textTableCodec_lawful.of_optional hv hcharacters,
      ProperExtra.of_fields hv _⟩
  · intro m h
    obtain ⟨hextra, hauthor, hlicense⟩ := (m.forall_unknownValues _).1 h
    have hauthorEq := (attributionCodec_lawful "Author").map_settled_eq hauthor
    have hlicenseEq := (attributionCodec_lawful "License").map_settled_eq hlicense
    have hextraEq := ProperExtra.finite_eq hextra
    obtain ⟨title, author, year, license, lookAhead, characters, extra⟩ := m
    simp only [metadataCodec, Metadata.settled, Metadata.mk.injEq, true_and]
    exact ⟨hauthorEq, hlicenseEq, hextraEq⟩

/-! ## Variables and the state of play -/

def VariableDefinition.slots (d : VariableDefinition) : List (String × Option Json) :=
  [("default", d.initial.map .str), ("description", d.description.slot .str)]

def definitionCodec : Codec VariableDefinition where
  check := VariableDefinition.check
  write := VariableDefinition.toJson
  Proper d := ProperExtra ["default", "description"] d.extra
  settled := VariableDefinition.settled
  unknown d := d.extra.values
  level := 1

theorem definition_record : definitionCodec.Record ["default", "description"]
    VariableDefinition.slots VariableDefinition.extra where
  nodup := by decide
  keys _ := rfl
  write_eq d := by
    simp only [definitionCodec, VariableDefinition.toJson, Json.record, Json.defaultedEntry_eq,
      Field.entry_eq]
    rfl
  slots_settled _ := rfl
  extra_settled _ := rfl
  proper_extra _ h := h
  proper_slots d _ := by
    simp only [VariableDefinition.slots, List.forall_mem_cons]
    exact ⟨scalarCodec_lawful.proper_default fun _ _ => trivial,
      textCodec_lawful.proper_slot fun _ _ => trivial, List.forall_mem_nil _⟩
  mem_unknown _ _ h := h
  level_pos := by decide
  within_slots d _ := by
    simp only [VariableDefinition.slots, List.forall_mem_cons]
    exact ⟨scalarCodec_lawful.plain_within_default (by decide),
      textCodec_lawful.plain_within_slot (by decide), List.forall_mem_nil _⟩
  check_fields d fields _ hget hunknown := by
    simp only [VariableDefinition.slots, List.forall_mem_cons] at hget
    obtain ⟨hinitial, hdescription, -⟩ := hget
    simp only [definitionCodec, VariableDefinition.check, Check.model, hunknown]
    exact Checked.seq_of
      (Checked.map_of (scalarCodec_lawful.plain_defaulted hinitial fun _ _ => trivial))
      (textCodec_lawful.plain_optional hdescription fun _ _ => trivial)

theorem definitionCodec_lawful : definitionCodec.Lawful := by
  refine definition_record.lawful (fun d h => h.finite) ?_
    (fun d => ProperExtra.values_finite d.extra) ?_
  · intro v d hv h
    obtain ⟨fields, rfl, hcheck⟩ := Check.of_model h
    obtain ⟨g, description, hg, -, rfl⟩ := Checked.of_seq hcheck
    obtain ⟨initial, -, rfl⟩ := Checked.of_map hg
    exact ProperExtra.of_fields hv _
  · intro d hfinite
    simp only [definitionCodec, VariableDefinition.settled, ProperExtra.finite_eq hfinite]

def PlayState.declared : List String := ["current_section", "variables", "history"]

def PlayState.slots (s : PlayState) : List (String × Option Json) :=
  [("current_section", s.currentSection.slot .str), ("variables", s.values.slot Json.ofTextTable),
   ("history", s.history.slot Json.ofTexts)]

def stateCodec : Codec PlayState where
  check := PlayState.check
  write := PlayState.toJson
  Proper s := (s.values.All fun t => (Table.keys t).Nodup) ∧ ProperExtra PlayState.declared s.extra
  settled := PlayState.settled
  unknown s := s.extra.values
  level := 2

theorem state_record :
    stateCodec.Record PlayState.declared PlayState.slots PlayState.extra where
  nodup := by decide
  keys _ := rfl
  write_eq s := by
    simp only [stateCodec, PlayState.toJson, Json.record, Field.entry_eq]
    rfl
  slots_settled _ := rfl
  extra_settled _ := rfl
  proper_extra _ h := h.2
  proper_slots s h := by
    simp only [PlayState.slots, List.forall_mem_cons]
    exact ⟨scalarCodec_lawful.proper_slot fun _ _ => trivial,
      scalarTableCodec_lawful.proper_slot h.1, scalarsCodec_lawful.proper_slot fun _ _ => trivial,
      List.forall_mem_nil _⟩
  mem_unknown _ _ h := h
  level_pos := by decide
  within_slots s _ := by
    simp only [PlayState.slots, List.forall_mem_cons]
    exact ⟨scalarCodec_lawful.plain_within_slot (by decide),
      scalarTableCodec_lawful.plain_within_slot (by decide),
      scalarsCodec_lawful.plain_within_slot (by decide), List.forall_mem_nil _⟩
  check_fields s fields h hget hunknown := by
    simp only [PlayState.slots, List.forall_mem_cons] at hget
    obtain ⟨hcurrent, hvalues, hhistory, -⟩ := hget
    simp only [PlayState.declared] at hunknown
    simp only [stateCodec, PlayState.check, Check.model, hunknown]
    exact Checked.seq_of (Checked.seq_of
      (Checked.map_of (scalarCodec_lawful.plain_optional hcurrent fun _ _ => trivial))
      (scalarTableCodec_lawful.plain_optional hvalues h.1))
      (scalarsCodec_lawful.plain_optional hhistory fun _ _ => trivial)

theorem stateCodec_lawful : stateCodec.Lawful := by
  refine state_record.lawful (fun s h => ⟨h.1, h.2.finite⟩) ?_
    (fun s => ProperExtra.values_finite s.extra) ?_
  · intro v s hv h
    obtain ⟨fields, rfl, hcheck⟩ := Check.of_model h
    obtain ⟨g, history, hg, -, rfl⟩ := Checked.of_seq hcheck
    obtain ⟨k, values, hk, hvalues, rfl⟩ := Checked.of_seq hg
    obtain ⟨current, -, rfl⟩ := Checked.of_map hk
    exact ⟨scalarTableCodec_lawful.of_optional hv hvalues, ProperExtra.of_fields hv _⟩
  · intro s hfinite
    simp only [stateCodec, PlayState.settled, ProperExtra.finite_eq hfinite]

/-! ## Stories -/

/-- What loaded stories satisfy. -/
structure Story.Proper (s : Story) : Prop where
  metadata : s.metadata.All Metadata.Proper
  state : s.state.All stateCodec.Proper
  sections : sectionCodec.table.Proper s.sections
  definitions : s.definitions.All definitionCodec.table.Proper
  extra : ProperExtra Story.declared s.extra

def Story.slots (s : Story) : List (String × Option Json) :=
  [("meta", s.metadata.slot metadataCodec.write), ("state", s.state.slot stateCodec.write),
   ("sections", some (sectionCodec.table.write s.sections)),
   ("variables", s.definitions.slot definitionCodec.table.write)]

def storyCodec : Codec Story where
  check := Story.check
  write := Story.toJson
  Proper := Story.Proper
  settled := Story.settled
  unknown := Story.unknownValues
  level := 6

namespace Story

theorem forall_unknownValues (s : Story) (p : Json → Prop) :
    (∀ v ∈ s.unknownValues, p v) ↔
      (∀ v ∈ s.extra.values, p v) ∧ (∀ v ∈ s.metadata.collect metadataCodec.unknown, p v) ∧
        (∀ v ∈ s.state.collect stateCodec.unknown, p v) ∧
        (∀ v ∈ sectionCodec.table.unknown s.sections, p v) ∧
        ∀ v ∈ s.definitions.collect definitionCodec.table.unknown, p v := by
  unfold unknownValues
  simp only [List.forall_mem_append, and_assoc]
  rfl

theorem unknownValues_settled (s : Story) :
    s.settled.unknownValues = s.unknownValues.map Json.finiteOnly := by
  unfold unknownValues
  simp only [List.map_append]
  have hextra := ProperExtra.values_finite s.extra
  have hmetadata := metadataCodec_lawful.collect_settled s.metadata
  have hstate := stateCodec_lawful.collect_settled s.state
  have hsections := sectionCodec_lawful.table.unknown_settled s.sections
  have hdefinitions := definitionCodec_lawful.table.collect_settled s.definitions
  exact congrArg₂ _ (congrArg₂ _ (congrArg₂ _ (congrArg₂ _ hextra hmetadata) hstate) hsections)
    hdefinitions

end Story

theorem story_record : storyCodec.Record Story.declared Story.slots Story.extra where
  nodup := by decide
  keys _ := rfl
  write_eq s := by
    simp only [storyCodec, Story.toJson, Json.record, Field.entry_eq]
    rfl
  slots_settled s := by
    simp only [Story.slots, ← metadataCodec_lawful.slot_settled s.metadata,
      ← stateCodec_lawful.slot_settled s.state, ← sectionCodec_lawful.table.write_settled s.sections,
      ← definitionCodec_lawful.table.slot_settled s.definitions]
    rfl
  extra_settled _ := rfl
  proper_extra _ h := h.extra
  proper_slots s h := by
    simp only [Story.slots, List.forall_mem_cons]
    exact ⟨metadataCodec_lawful.proper_slot h.metadata, stateCodec_lawful.proper_slot h.state,
      sectionCodec_lawful.table.proper_value h.sections,
      definitionCodec_lawful.table.proper_slot h.definitions, List.forall_mem_nil _⟩
  mem_unknown s v hv := by
    simp only [storyCodec, Story.unknownValues, List.mem_append]
    exact .inl (.inl (.inl (.inl hv)))
  level_pos := by decide
  within_slots s h := by
    obtain ⟨-, hmetadata, hstate, hsections, hdefinitions⟩ := (s.forall_unknownValues _).1 h
    simp only [Story.slots, List.forall_mem_cons]
    exact ⟨metadataCodec_lawful.within_slot (by decide) hmetadata,
      stateCodec_lawful.within_slot (by decide) hstate,
      sectionCodec_lawful.table.within_value (by decide) hsections,
      definitionCodec_lawful.table.within_slot (by decide) hdefinitions, List.forall_mem_nil _⟩
  check_fields s fields h hget hunknown := by
    simp only [Story.slots, List.forall_mem_cons] at hget
    obtain ⟨hmetadata, hstate, hsections, hdefinitions, -⟩ := hget
    simp only [storyCodec, Story.check, Check.model, hunknown]
    have hmetadata := metadataCodec_lawful.optional hmetadata h.metadata
    have hstate := stateCodec_lawful.optional hstate h.state
    have hsections := sectionCodec_lawful.table.required hsections h.sections
    have hdefinitions := definitionCodec_lawful.table.optional hdefinitions h.definitions
    exact Checked.seq_of (Checked.seq_of (Checked.seq_of (Checked.map_of hmetadata) hstate)
      hsections) hdefinitions

theorem storyCodec_lawful : storyCodec.Lawful := by
  refine story_record.lawful ?_ ?_ Story.unknownValues_settled ?_
  · intro s h
    exact ⟨metadataCodec_lawful.all_settled h.metadata, stateCodec_lawful.all_settled h.state,
      sectionCodec_lawful.table.proper_settled _ h.sections,
      definitionCodec_lawful.table.all_settled h.definitions, h.extra.finite⟩
  · intro v s hv h
    obtain ⟨fields, rfl, hcheck⟩ := Check.of_model h
    obtain ⟨_, definitions, h3, hdefinitions, rfl⟩ := Checked.of_seq hcheck
    obtain ⟨_, sections, h2, hsections, rfl⟩ := Checked.of_seq h3
    obtain ⟨_, state, h1, hstate, rfl⟩ := Checked.of_seq h2
    obtain ⟨metadata, hmetadata, rfl⟩ := Checked.of_map h1
    exact ⟨metadataCodec_lawful.of_optional hv hmetadata, stateCodec_lawful.of_optional hv hstate,
      sectionCodec_lawful.table.of_required hv hsections,
      definitionCodec_lawful.table.of_optional hv hdefinitions, ProperExtra.of_fields hv _⟩
  · intro s h
    obtain ⟨hextra, hmetadata, hstate, hsections, hdefinitions⟩ := (s.forall_unknownValues _).1 h
    have hmetadataEq := metadataCodec_lawful.map_settled_eq hmetadata
    have hstateEq := stateCodec_lawful.map_settled_eq hstate
    have hsectionsEq := sectionCodec_lawful.table.settled_eq _ hsections
    have hdefinitionsEq := definitionCodec_lawful.table.map_settled_eq hdefinitions
    have hextraEq := ProperExtra.finite_eq hextra
    obtain ⟨metadata, state, sections, definitions, extra⟩ := s
    simp only [storyCodec, Story.settled, Story.mk.injEq]
    exact ⟨hmetadataEq, hstateEq, hsectionsEq, hdefinitionsEq, hextraEq⟩

end Gamebook
