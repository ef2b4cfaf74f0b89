import Gamebook.Proofs.Story.Reload
import Gamebook.Proofs.Story.Shape

/-!
# A story document loaded and written back

* `Choice.shape` ... `Story.shape` : what the records of a story do to their documents.
* `keeps_choice` ... `keeps_story` : their checks and writers do that.
* `Story.isExact_shape`            : a document that needs no coercion comes back as it was.
* `Story.kept_iff`                 : when a loaded document keeps its unknown values.
* `Story.nan_not_kept`             : a number in an unknown field that is not kept.
-/

set_option autoImplicit false

namespace Gamebook

open Codec

/-! ## Single values -/

theorem keeps_text : textCodec.Keeps (.single KeptText) := keeps_plain fun v s h => by
  cases v with
  | str t =>
    cases h
    exact .text _
  | _ => cases h

/-- Texts are read from texts, numbers and truth values. -/
theorem asText_of_check {v : Json} {s : String} (h : Check.scalarText v = .ok s) :
    AsText v (.str s) := by
  cases v with
  | str t =>
    cases h
    exact .text _
  | bool b =>
    cases h
    exact .truth _
  | int n =>
    cases h
    exact .whole _
  | float x =>
    cases h
    exact .number _
  | _ => cases h

theorem keeps_scalar : scalarCodec.Keeps (.single AsText) := keeps_plain fun _ _ => asText_of_check

/-- Whole numbers are read from values that mean one. -/
theorem asWhole_of_check {v : Json} {n : Int} (h : Check.int v = .ok n) : AsWhole v (.int n) := by
  cases v with
  | int m =>
    cases h
    exact .whole _
  | bool b =>
    cases h
    exact .truth _
  | str s =>
    simp only [Check.int] at h
    split at h
    · rename_i m hm
      cases h
      exact .text hm
    · cases h
  | float x =>
    simp only [Check.int] at h
    split at h
    · rename_i hx
      split at h
      · cases h
        exact .number hx
      · cases h
    · cases h
    · cases h
  | _ => cases h

theorem keeps_whole : wholeCodec.Keeps (.single AsWhole) := keeps_plain fun _ _ => asWhole_of_check

theorem keeps_truth : boolCodec.Keeps (.single AsTruth) := keeps_plain fun v b h => by
  cases v with
  | bool b =>
    cases h
    exact .truth _
  | str s =>
    simp only [Check.bool] at h
    split at h
    · rename_i hword
      cases h
      exact .word hword
    · cases h
  | int n =>
    simp only [Check.bool] at h
    split_ifs at h with hzero hone
    · cases h
      exact hzero ▸ .whole false
    · cases h
      exact hone ▸ .whole true
    · cases h
    · cases h
  | float x =>
    simp only [Check.bool] at h
    split at h
    · rename_i n hn
      split_ifs at h with hzero hone
      · cases h
        exact .number (hzero ▸ hn)
      · cases h
        exact .number (hone ▸ hn)
      · cases h
      · cases h
    · cases h
  | _ => cases h

theorem keeps_target : targetCodec.Keeps (.single AsTarget) := keeps_plain fun v t h => by
  unfold Target.check at h
  split at h
  · cases h
    exact .text _
  · rename_i hother
    split at h
    · rename_i n hn
      cases h
      have hv : v.asStr? = none := by
        cases v with
        | str s => exact absurd rfl (hother s)
        | _ => rfl
      exact .whole hv (asWhole_of_check hn)
    · rename_i hbad
      obtain ⟨g, a, -, ha, -⟩ := Checked.of_seq h
      obtain ⟨n, hn, -⟩ := Checked.of_map ha
      exact absurd (Checked.of_under hn) (hbad n)

theorem keeps_kind : kindCodec.Keeps (.single KeptText) := keeps_plain fun v k h => by
  unfold MediaKind.check at h
  split at h
  · cases h
    exact .text _
  · cases h
    exact .text _
  · cases h

theorem keeps_texts {check : Json → Checked String} {R : Form}
    (h : (Codec.plain check .str (fun _ => True) 0).Keeps (.single R)) :
    (Codec.plain (Check.list check) Json.ofTexts (fun _ => True) 1).Keeps
      (.list (.single R)) := by
  intro v texts hv hcheck u
  have hnone : ∀ x ∈ (Codec.plain check .str (fun _ => True) 0).list.unknown texts,
      u x x.finiteOnly := by simp [Codec.list, Codec.plain]
  exact iff_of_true ((h.list v texts hv hcheck u).2 hnone) (List.forall_mem_nil _)

theorem keeps_textTable {check : Json → Checked String} {R : Form}
    (h : (Codec.plain check .str (fun _ => True) 0).Keeps (.single R)) :
    (Codec.plain (Check.map check) Json.ofTextTable (fun t => (Table.keys t).Nodup) 1).Keeps
      (.table (.single R)) := by
  intro v t hv hcheck u
  have hnone : ∀ x ∈ (Codec.plain check .str (fun _ => True) 0).table.unknown t,
      u x x.finiteOnly := by simp [Codec.table, Codec.plain]
  exact iff_of_true ((h.table v t hv hcheck u).2 hnone) (List.forall_mem_nil _)

theorem keeps_parameters : parametersCodec.Keeps .parameters := by
  intro v texts hv hcheck u
  refine iff_of_true ?_ (List.forall_mem_nil _)
  obtain ⟨rfl, rfl⟩ | ⟨items, rfl, hitems⟩ := Action.of_checkParameters hcheck
  · exact .inl ⟨rfl, rfl⟩
  refine .inr ⟨items, texts.map .str, rfl, rfl, ?_⟩
  rw [List.forall₂_map_right_iff]
  refine hitems.imp fun p text htext => ?_
  cases p with
  | null =>
    cases htext
    exact .null
  | _ => exact .text (asText_of_check htext)

/-! ## Choices, scripts and media -/

/-- A choice: the label is a text, the target a text or a whole number. -/
def Choice.shape : Shape := .record [("text", .single KeptText), ("next", .single AsTarget)]

theorem keeps_choice : choiceCodec.Keeps Choice.shape := by
  refine keeps_record choice_record choiceCodec_lawful fun v c hv h => ?_
  obtain ⟨fields, rfl, hcheck⟩ := Check.of_model h
  obtain ⟨g, next, hg, hnext, rfl⟩ := Checked.of_seq hcheck
  obtain ⟨text, htext, rfl⟩ := Checked.of_map hg
  refine ⟨fields, rfl, rfl, _, .cons (keeps_text.plain_defaulted hv htext)
    (.cons (keeps_target.plain_required hv hnext) .nil), fun p => ?_⟩
  exact (and_iff_left (List.forall_mem_nil _)).symm

/-- A line of a script: the tag is a text, the parameters become texts. -/
def Action.shape : Shape := .record [("action", .single KeptText), ("parameters", .parameters)]

theorem keeps_action : actionCodec.Keeps Action.shape := by
  refine keeps_record action_record actionCodec_lawful fun v a hv h => ?_
  obtain ⟨fields, rfl, hcheck⟩ := Check.of_model h
  obtain ⟨g, parameters, hg, hparameters, rfl⟩ := Checked.of_seq hcheck
  obtain ⟨tag, htag, rfl⟩ := Checked.of_map hg
  refine ⟨fields, rfl, rfl, _, .cons (keeps_text.plain_required hv htag)
    (.cons (keeps_parameters.plain_defaulted hv hparameters) .nil), fun p => ?_⟩
  exact (and_iff_left (List.forall_mem_nil _)).symm

/-- Media: two texts. -/
def Media.shape : Shape := .record [("type", .single KeptText), ("src", .single KeptText)]

theorem keeps_media : mediaCodec.Keeps Media.shape := by
  refine keeps_record media_record mediaCodec_lawful fun v m hv h => ?_
  obtain ⟨fields, rfl, hcheck⟩ := Check.of_model h
  obtain ⟨g, source, hg, hsource, rfl⟩ := Checked.of_seq hcheck
  obtain ⟨kind, hkind, rfl⟩ := Checked.of_map hg
  refine ⟨fields, rfl, rfl, _, .cons (keeps_kind.plain_required hv hkind)
    (.cons (keeps_text.plain_required hv hsource) .nil), fun p => ?_⟩
  exact (and_iff_left (List.forall_mem_nil _)).symm

/-- The wish for a drawing: texts. -/
def Picture.shape : Shape := .record [("prompt", .single KeptText),
  ("negative_prompt", .nullable (.single KeptText)), ("size", .nullable (.single KeptText))]

theorem keeps_picture : pictureCodec.Keeps Picture.shape := by
  refine keeps_record picture_record pictureCodec_lawful fun v q hv h => ?_
  obtain ⟨fields, rfl, hcheck⟩ := Check.of_model h
  obtain ⟨g, size, hg, hsize, rfl⟩ := Checked.of_seq hcheck
  obtain ⟨k, negative, hk, hnegative, rfl⟩ := Checked.of_seq hg
  obtain ⟨prompt, hprompt, rfl⟩ := Checked.of_map hk
  refine ⟨fields, rfl, rfl, _, .cons (keeps_text.plain_required hv hprompt)
    (.cons (keeps_text.plain_optional hv hnegative)
      (.cons (keeps_text.plain_optional hv hsize) .nil)), fun p => ?_⟩
  exact (and_iff_left (List.forall_mem_nil _)).symm

/-! ## Sections -/

/-- A section: the id becomes a text. -/
def Section.shape : Shape := .record [("id", .single AsText),
  ("text_lines", .nullable (.list (.single KeptText))), ("text", .nullable (.single KeptText)),
  ("media", .nullable Media.shape), ("next", .nullable (.list Choice.shape)),
  ("script", .nullable (.list Action.shape)), ("ai_extendable", .nullable (.single AsTruth)),
  ("ai_gen", .nullable Picture.shape)]

theorem keeps_section : sectionCodec.Keeps Section.shape := by
  refine keeps_record section_record sectionCodec_lawful fun v s hv h => ?_
  obtain ⟨fields, rfl, hcheck⟩ := Check.of_model h
  obtain ⟨_, picture, h7, hpicture, rfl⟩ := Checked.of_seq hcheck
  obtain ⟨_, extendable, h6, hextendable, rfl⟩ := Checked.of_seq h7
  obtain ⟨_, script, h5, hscript, rfl⟩ := Checked.of_seq h6
  obtain ⟨_, next, h4, hnext, rfl⟩ := Checked.of_seq h5
  obtain ⟨_, media, h3, hmedia, rfl⟩ := Checked.of_seq h4
  obtain ⟨_, text, h2, htext, rfl⟩ := Checked.of_seq h3
  obtain ⟨_, lines, h1, hlines, rfl⟩ := Checked.of_seq h2
  obtain ⟨id, hid, rfl⟩ := Checked.of_map h1
  refine ⟨fields, rfl, rfl, _, .cons (keeps_scalar.plain_required hv hid)
    (.cons ((keeps_texts keeps_text).plain_optional hv hlines)
    (.cons (keeps_text.plain_optional hv htext) (.cons (keeps_media.optional hv hmedia)
    (.cons (keeps_choice.list.optional hv hnext) (.cons (keeps_action.list.optional hv hscript)
    (.cons (keeps_truth.plain_optional hv hextendable)
    (.cons (keeps_picture.optional hv hpicture) .nil))))))), fun p => ?_⟩
  simp only [List.nil_append, List.append_nil, List.forall_mem_append]
  exact Section.forall_unknownValues _ p

/-! ## Metadata -/

/-- An author or a licence: texts. -/
def Credit.shape : Shape := .record [("name", .single KeptText),
  ("url", .nullable (.single KeptText))]

theorem keeps_credit : creditCodec.Keeps Credit.shape := by
  refine keeps_record credit_record creditCodec_lawful fun v c hv h => ?_
  obtain ⟨fields, rfl, hcheck⟩ := Check.of_model h
  obtain ⟨g, url, hg, hurl, rfl⟩ := Checked.of_seq hcheck
  obtain ⟨name, hname, rfl⟩ := Checked.of_map hg
  refine ⟨fields, rfl, rfl, _, .cons (keeps_text.plain_required hv hname)
    (.cons (keeps_text.plain_optional hv hurl) .nil), fun p => ?_⟩
  exact (and_iff_left (List.forall_mem_nil _)).symm

/-- A credit: a name, or a credit in full. -/
def Attribution.shape : Shape := .either (.single KeptText) Credit.shape

theorem keeps_attribution (member : String) :
    (attributionCodec member).Keeps Attribution.shape := by
  intro v a hv h u
  simp only [attributionCodec, Attribution.check] at h
  split at h
  · cases h
    exact iff_of_true (.inl (.text _)) (List.forall_mem_nil _)
  · rename_i hother
    split at h
    · rename_i c hc
      cases h
      refine Iff.trans ⟨?_, .inr⟩ (keeps_credit v c hv hc u)
      rintro (hname | hcredit)
      · obtain ⟨s, rfl⟩ := hname.exists_str
        exact absurd rfl (hother s)
      · exact hcredit
    · obtain ⟨g, b, -, hb, -⟩ := Checked.of_seq h
      cases hb

/-- Metadata: the year is a target, the look-ahead becomes a whole number. -/
def Metadata.shape : Shape := .record [("title", .nullable (.single KeptText)),
  ("author", .nullable Attribution.shape), ("year", .nullable (.single AsTarget)),
  ("license", .nullable Attribution.shape), ("ai_gen_look_ahead", .nullable (.single AsWhole)),
  ("characters", .nullable (.table (.single KeptText)))]

theorem keeps_metadata : metadataCodec.Keeps Metadata.shape := by
  refine keeps_record metadata_record metadataCodec_lawful fun v m hv h => ?_
  obtain ⟨fields, rfl, hcheck⟩ := Check.of_model h
  obtain ⟨_, characters, h5, hcharacters, rfl⟩ := Checked.of_seq hcheck
  obtain ⟨_, lookAhead, h4, hahead, rfl⟩ := Checked.of_seq h5
  obtain ⟨_, license, h3, hlicense, rfl⟩ := Checked.of_seq h4
  obtain ⟨_, year, h2, hyear, rfl⟩ := Checked.of_seq h3
  obtain ⟨_, author, h1, hauthor, rfl⟩ := Checked.of_seq h2
  obtain ⟨title, htitle, rfl⟩ := Checked.of_map h1
  refine ⟨fields, rfl, rfl, _, .cons (keeps_text.plain_optional hv htitle)
    (.cons ((keeps_attribution "Author").optional hv hauthor)
    (.cons (keeps_target.plain_optional hv hyear)
    (.cons ((keeps_attribution "License").optional hv hlicense)
    (.cons (keeps_whole.plain_optional hv hahead)
    (.cons ((keeps_textTable keeps_text).plain_optional hv hcharacters) .nil))))), fun p => ?_⟩
  simp only [List.nil_append, List.append_nil, List.forall_mem_append]
  exact Metadata.forall_unknownValues _ p

/-! ## Variables and the state of play -/

/-- The definition of a variable: the default becomes a text. -/
def VariableDefinition.shape : Shape := .record [("default", .single AsText),
  ("description", .nullable (.single KeptText))]

theorem keeps_definition : definitionCodec.Keeps VariableDefinition.shape := by
  refine keeps_record definition_record definitionCodec_lawful fun v d hv h => ?_
  obtain ⟨fields, rfl, hcheck⟩ := Check.of_model h
  obtain ⟨g, description, hg, hdescription, rfl⟩ := Checked.of_seq hcheck
  obtain ⟨initial, hinitial, rfl⟩ := Checked.of_map hg
  refine ⟨fields, rfl, rfl, _, .cons (keeps_scalar.plain_defaulted hv hinitial)
    (.cons (keeps_text.plain_optional hv hdescription) .nil), fun p => ?_⟩
  exact (and_iff_left (List.forall_mem_nil _)).symm

/-- The state of play: the current section, the values and the history become texts. -/
def PlayState.shape : Shape := .record [("current_section", .nullable (.single AsText)),
  ("variables", .nullable (.table (.single AsText))),
  ("history", .nullable (.list (.single AsText)))]

theorem keeps_state : stateCodec.Keeps PlayState.shape := by
  refine keeps_record state_record stateCodec_lawful fun v s hv h => ?_
  obtain ⟨fields, rfl, hcheck⟩ := Check.of_model h
  obtain ⟨g, history, hg, hhistory, rfl⟩ := Checked.of_seq hcheck
  obtain ⟨k, values, hk, hvalues, rfl⟩ := Checked.of_seq hg
  obtain ⟨current, hcurrent, rfl⟩ := Checked.of_map hk
  refine ⟨fields, rfl, rfl, _, .cons (keeps_scalar.plain_optional hv hcurrent)
    (.cons ((keeps_textTable keeps_scalar).plain_optional hv hvalues)
    (.cons ((keeps_texts keeps_scalar).plain_optional hv hhistory) .nil)), fun p => ?_⟩
  exact (and_iff_left (List.forall_mem_nil _)).symm

/-! ## Stories -/

def Story.shape : Shape := .record [("meta", .nullable Metadata.shape),
  ("state", .nullable PlayState.shape), ("sections", .table Section.shape),
  ("variables", .nullable (.table VariableDefinition.shape))]

theorem keeps_story : storyCodec.Keeps Story.shape := by
  refine keeps_record story_record storyCodec_lawful fun v s hv h => ?_
  obtain ⟨fields, rfl, hcheck⟩ := Check.of_model h
  obtain ⟨_, definitions, h3, hdefinitions, rfl⟩ := Checked.of_seq hcheck
  obtain ⟨_, sections, h2, hsections, rfl⟩ := Checked.of_seq h3
  obtain ⟨_, state, h1, hstate, rfl⟩ := Checked.of_seq h2
  obtain ⟨metadata, hmetadata, rfl⟩ := Checked.of_map h1
  refine ⟨fields, rfl, rfl, _, .cons (keeps_metadata.optional hv hmetadata)
    (.cons (keeps_state.optional hv hstate) (.cons (keeps_section.table.required hv hsections)
    (.cons (keeps_definition.table.optional hv hdefinitions) .nil))), fun p => ?_⟩
  simp only [List.append_nil, List.forall_mem_append]
  exact Story.forall_unknownValues _ p

/-! ## Documents that need no coercion -/

theorem isExact_text : (Shape.single KeptText).IsExact := .single fun _ _ _ h => by
  cases h
  rfl

theorem isExact_scalar : (Shape.single AsText).IsExact := .single fun _ _ hsame h => by
  cases hsame
  cases h
  rfl

theorem isExact_whole : (Shape.single AsWhole).IsExact := .single fun _ _ hsame h => by
  cases hsame
  cases h
  rfl

theorem isExact_truth : (Shape.single AsTruth).IsExact := .single fun _ _ hsame h => by
  cases hsame
  cases h
  rfl

theorem isExact_target : (Shape.single AsTarget).IsExact := .single fun v w hsame h => by
  cases hsame with
  | text s =>
    cases h with
    | text => rfl
    | whole hv => cases hv
  | whole hv hsame =>
    cases hsame
    cases h with
    | whole _ h =>
      cases h
      rfl

theorem isExact_choice : Choice.shape.IsExact := .record (by
  simp only [List.forall_mem_cons]
  exact ⟨isExact_text, isExact_target, List.forall_mem_nil _⟩)

theorem isExact_action : Action.shape.IsExact := .record (by
  simp only [List.forall_mem_cons]
  exact ⟨isExact_text, .parameters, List.forall_mem_nil _⟩)

theorem isExact_media : Media.shape.IsExact := .record (by
  simp only [List.forall_mem_cons]
  exact ⟨isExact_text, isExact_text, List.forall_mem_nil _⟩)

theorem isExact_picture : Picture.shape.IsExact := .record (by
  simp only [List.forall_mem_cons]
  exact ⟨isExact_text, isExact_text.nullable, isExact_text.nullable, List.forall_mem_nil _⟩)

theorem isExact_section : Section.shape.IsExact := .record (by
  simp only [List.forall_mem_cons]
  exact ⟨isExact_scalar, isExact_text.list.nullable, isExact_text.nullable,
    isExact_media.nullable, isExact_choice.list.nullable, isExact_action.list.nullable,
    isExact_truth.nullable, isExact_picture.nullable, List.forall_mem_nil _⟩)

theorem isExact_credit : Credit.shape.IsExact := .record (by
  simp only [List.forall_mem_cons]
  exact ⟨isExact_text, isExact_text.nullable, List.forall_mem_nil _⟩)

theorem isExact_attribution : Attribution.shape.IsExact := by
  refine .either isExact_text isExact_credit fun v w w' hname hcredit => ?_
  obtain ⟨s, rfl⟩ := KeptText.exists_str hname
  obtain ⟨fs, gs, hfs, -⟩ := hcredit
  cases hfs

theorem isExact_metadata : Metadata.shape.IsExact := .record (by
  simp only [List.forall_mem_cons]
  exact ⟨isExact_text.nullable, isExact_attribution.nullable, isExact_target.nullable,
    isExact_attribution.nullable, isExact_whole.nullable, isExact_text.table.nullable,
    List.forall_mem_nil _⟩)

theorem isExact_definition : VariableDefinition.shape.IsExact := .record (by
  simp only [List.forall_mem_cons]
  exact ⟨isExact_scalar, isExact_text.nullable, List.forall_mem_nil _⟩)

theorem isExact_state : PlayState.shape.IsExact := .record (by
  simp only [List.forall_mem_cons]
  exact ⟨isExact_scalar.nullable, isExact_scalar.table.nullable, isExact_scalar.list.nullable,
    List.forall_mem_nil _⟩)

/-- A story document that needs no coercion comes back as it was, its keys perhaps in another order. -/
theorem Story.isExact_shape : Story.shape.IsExact := .record (by
  simp only [List.forall_mem_cons]
  exact ⟨isExact_metadata.nullable, isExact_state.nullable, isExact_section.table,
    isExact_definition.table.nullable, List.forall_mem_nil _⟩)

/-! ## Loading is lossless -/

/-- A loaded document and the one written of it have the same keys and lists of the same lengths at every
level, declared values are the ones before under the coercion of their field, and unknown values are the
ones before but for numbers that are not finite.  The document is written with all unknown values as they
were exactly when no unknown field is nested too deeply and all their numbers are finite; and if it
needs no coercion either, it comes back as it was, its keys perhaps in another order. -/
theorem Story.kept_iff {d : Json} {s : Story} (hd : d.Proper) (hload : Story.ofJson d = .ok s) :
    Story.shape (fun v w => w = v.finiteOnly) d s.toJson ∧
      ((∃ doc, s.write = .ok doc ∧ Story.shape Eq d doc) ↔
        s.isWritable = true ∧ ∀ v ∈ s.unknownValues, v.isFinite = true) ∧
      ∀ doc, s.write = .ok doc → Story.shape Eq d doc → Story.shape Eq d d → Reordered d doc := by
  have hcheck : Story.check d = .ok s := by
    unfold Story.ofJson at hload
    split at hload
    · split at hload
      · rename_i hcheck
        cases hload
        exact hcheck
      · cases hload
    · cases hload
  have hkeeps := keeps_story d s hd hcheck
  refine ⟨(hkeeps _).2 fun _ _ => rfl, ?_, fun doc _ hdoc hsame => isExact_shape d doc hsame hdoc⟩
  have hfinite : Story.shape Eq d s.toJson ↔ ∀ v ∈ s.unknownValues, v.isFinite = true := by
    refine (hkeeps Eq).trans (forall₂_congr fun v _ => ?_)
    rw [← Json.finiteOnly_eq_iff]
    exact eq_comm
  rw [← hfinite]
  unfold Story.write
  by_cases hwritable : s.isWritable = true
  · rw [if_pos hwritable]
    constructor
    · rintro ⟨doc, ⟨⟩, hdoc⟩
      exact ⟨hwritable, hdoc⟩
    · exact fun h => ⟨_, rfl, h.2⟩
  · rw [if_neg hwritable]
    constructor
    · rintro ⟨doc, hdoc, -⟩
      cases hdoc
    · exact fun h => absurd h.1 hwritable

/-- A document that needs no coercion, its keys not in the order of the writer. -/
def caveDocument : Json :=
  .obj [("x", .int 1), ("sections", .obj [("1", .obj [("text", .str "A cave."), ("id", .str "1")])])]

theorem proper_caveDocument : caveDocument.Proper := by
  simp [caveDocument, Json.Proper, Json.ProperFields, Table.keys]
  decide

theorem shape_caveDocument : Story.shape Eq caveDocument caveDocument := by
  refine Shape.record_self ?_
  simp only [List.forall_mem_cons]
  refine ⟨rfl, ⟨_, _, rfl, rfl, .cons ⟨rfl, Shape.record_self ?_⟩ .nil⟩, List.forall_mem_nil _⟩
  simp only [List.forall_mem_cons]
  exact ⟨.inr ⟨by simp, .text _⟩, .text _, List.forall_mem_nil _⟩

theorem Story.kept_cave : ∃ s doc, Story.ofJson caveDocument = .ok s ∧ s.write = .ok doc ∧
    Story.shape Eq caveDocument doc ∧ Reordered caveDocument doc := by
  obtain ⟨-, hiff, hexact⟩ := Story.kept_iff proper_caveDocument rfl
  obtain ⟨doc, hwrite, hdoc⟩ := hiff.2 ⟨by decide, by decide⟩
  exact ⟨_, doc, rfl, hwrite, hdoc, hexact doc hwrite hdoc shape_caveDocument⟩

/-- A number in an unknown field that is not finite comes back as null. -/
theorem Story.nan_not_kept : ∃ s doc,
    Story.ofJson (.obj [("sections", .obj []), ("x", .float .nan)]) = .ok s ∧ s.write = .ok doc ∧
      doc.field "x" = .null ∧
      ¬ Story.shape Eq (.obj [("sections", .obj []), ("x", .float .nan)]) doc := by
  refine ⟨_, _, rfl, rfl, rfl, ?_⟩
  rintro ⟨fs, gs, hfs, hgs, -, hrelated⟩
  cases hfs
  cases hgs
  exact nomatch hrelated "x" (.float .nan) .null rfl rfl

end Gamebook
