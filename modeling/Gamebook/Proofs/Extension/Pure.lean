import Gamebook.Proofs.Extension.Answer
import Gamebook.Proofs.Extension.Completeness
import Gamebook.Proofs.Extension.Faithful
import Mathlib.Data.List.Permutation

/-!
# Pure extensions

An answer may echo the sections of a story with choices appended, and add sections of its own.  No such
answer is refused, whatever the story looks like: in which spelling its targets are, which of its lists
are null, and which fields it has that nobody declared.

* `IsGrown`, `IsNewSection`, `IsPureExtension` : documents that only add to a story.
* `readable_grown`, `readable_new` : what the review needs of each of their sections.
* `pure_accepted` : they are accepted, and what is written of the outcome is the answer.
-/

set_option autoImplicit false

namespace Gamebook.Extension

/-! ## Documents that only add to a story -/

/-- A label and a target, in either order. -/
def IsBareChoice (v : Json) : Prop :=
  ∃ label target fields, v = .obj fields ∧
    List.Perm fields [("text", .str label), ("next", .str target)]

/-- The document of a section with new choices behind the former ones. -/
structure IsGrown (former : Json) (new : List Json) (fields : Table Json) : Prop where
  nodup : (Table.keys fields).Nodup
  same : ∀ key, key ≠ "next" → fields.get? key = former.get? key
  next : fields.get? "next" = some (.arr (listed former ++ new)) ∨
    new = [] ∧ fields.get? "next" = former.get? "next"
  bare : ∀ c ∈ new, IsBareChoice c

/-- The document of a new section: an id, a text or lines of text, and choices. -/
structure IsNewSection (id : String) (fields : Table Json) : Prop where
  nodup : (Table.keys fields).Nodup
  known : ∀ key ∈ Table.keys fields, key ∈ ["id", "text_lines", "text", "next"]
  id : fields.get? "id" = some (.str id)
  lines : ∀ v, fields.get? "text_lines" = some v → ∃ lines, v = Json.ofTexts lines
  text : ∀ v, fields.get? "text" = some v → ∃ text, v = .str text
  content : fields.has "text_lines" = true ∨ ∃ text, fields.get? "text" = some (.str text) ∧ text ≠ ""
  next : ∀ v, fields.get? "next" = some v → ∃ choices, v = .arr choices ∧ ∀ c ∈ choices, IsBareChoice c

/-- The sections of a document with choices appended, to the section to extend at least, and with new
sections; no choice leads nowhere. -/
structure IsPureExtension (former : Table Json) (x : String) (later : Table Json) : Prop where
  nodup : (Table.keys later).Nodup
  extended : former.has x = true
  grown : ∀ id v, former.get? id = some v → ∃ fields new, later.get? id = some (.obj fields) ∧
    IsGrown v new fields ∧ (id = x → new ≠ [])
  new : ∀ id v, later.get? id = some v → former.has id = false →
    ∃ fields, v = .obj fields ∧ IsNewSection id fields
  closed : ∀ id v, later.get? id = some v → ∀ c ∈ listed v, ∀ target,
    choiceTarget id c = .ok target → later.has target = true

/-! ## Choices -/

/-- Each item has a partner, and so has the list of them. -/
theorem exists_forall₂ {α β : Type} {R : α → β → Prop} {xs : List α} (h : ∀ x ∈ xs, ∃ y, R x y) :
    ∃ ys, List.Forall₂ R xs ys := by
  induction xs with
  | nil => exact ⟨[], .nil⟩
  | cons x xs ih =>
    rw [List.forall_mem_cons] at h
    obtain ⟨⟨y, hy⟩, hrest⟩ := h
    obtain ⟨ys, hys⟩ := ih hrest
    exact ⟨y :: ys, .cons hy hys⟩

/-- A label and a target are read as a choice of these. -/
theorem faithful_bare {v : Json} (h : IsBareChoice v) : ∃ c, choiceCodec.Faithful v c := by
  obtain ⟨label, target, fields, rfl, hperm⟩ := h
  have hwrite : choiceCodec.write ⟨some label, .name target, []⟩ =
      .obj [("text", .str label), ("next", .str target)] := rfl
  refine ⟨⟨some label, .name target, []⟩, ?_⟩
  rcases List.perm_pair.1 hperm with rfl | rfl <;> constructor
  case inl.same | inr.same =>
    rw [hwrite]
    simp [Json.same, Json.sameFields, Table.get?_cons]
  case inl.proper | inr.proper => simp [Json.Proper, Json.ProperFields]
  case inl.unknown | inr.unknown => exact List.forall_mem_nil _
  all_goals rfl

theorem target_bare {v : Json} (h : IsBareChoice v) (id : String) :
    ∃ target, choiceTarget id v = .ok target := by
  obtain ⟨label, target, fields, rfl, hperm⟩ := h
  rcases List.perm_pair.1 hperm with rfl | rfl <;> exact ⟨target, rfl⟩

theorem faithful_choices {docs : List Json} (h : ∀ v ∈ docs, ∃ c, choiceCodec.Faithful v c) :
    ∃ cs, choiceCodec.list.Faithful (.arr docs) cs := by
  obtain ⟨cs, hcs⟩ := exists_forall₂ h
  exact ⟨cs, .list hcs⟩

/-- The choices of a faithful section are those that its document lists. -/
theorem choiceList_faithful {fields : Table Json} {next : Field (List Choice)}
    (h : choiceCodec.list.FaithfulField (fields.get? "next") next) (id : String) :
    choiceList id (.obj fields) = .ok (listed (.obj fields)) := by
  unfold choiceList listed
  rw [Json.field_obj]
  cases hget : fields.get? "next" with
  | none => rfl
  | some v =>
    rw [hget] at h
    cases h with
    | null => rfl
    | value hv =>
      obtain ⟨docs, rfl, -⟩ := Check.of_list hv.check
      rfl

/-! ## Sections that are echoed -/

/-- What the review needs of the document of a section. -/
structure Readable (id : String) (fields : Table Json) (b : Section) : Prop where
  faithful : sectionCodec.Faithful (.obj fields) b
  choices : choiceList id (.obj fields) = .ok (listed (.obj fields))
  targets : ∀ c ∈ listed (.obj fields), ∃ target, choiceTarget id c = .ok target

section Grown

variable {a : Section} (ha : a.Proper) {fields : Table Json} {new : List Json}

variable (hgrown : IsGrown a.toJson new fields)

include ha hgrown

theorem listed_grown : listed (.obj fields) = a.choices.map Choice.toJson ++ new := by
  rw [← listed_toJson ha]
  rcases hgrown.next with hnext | ⟨rfl, hnext⟩
  · unfold listed
    rw [Json.field_of_get? hnext]
    rfl
  · unfold listed
    rw [Json.field_obj, hnext, List.append_nil]
    rfl

/-- A section with choices appended is readable. -/
theorem readable_grown (hwithin : ∀ v ∈ a.unknownValues, v.isWithin unknownDepth = true)
    (id : String) : ∃ b, Readable id fields b := by
  have hchoices : ∀ c ∈ a.choices, choiceCodec.Proper c ∧
      ∀ v ∈ choiceCodec.unknown c, v.isWithin unknownDepth = true := by
    intro c hc
    refine ⟨Story.proper_choices ha c hc, fun v hv => ?_⟩
    obtain ⟨-, -, hnext, -, -⟩ := (a.forall_unknownValues _).1 hwithin
    unfold Section.choices at hc
    cases hvalue : a.next with
    | absent => rw [hvalue] at hc; cases hc
    | null => rw [hvalue] at hc; cases hc
    | value cs =>
      rw [hvalue] at hc hnext
      exact hnext v (List.mem_flatMap.2 ⟨c, hc, hv⟩)
  have hformers : ∀ v ∈ a.choices.map Choice.toJson, ∃ c, choiceCodec.Faithful v c := by
    intro v hv
    obtain ⟨c, hc, rfl⟩ := List.mem_map.1 hv
    obtain ⟨hproper, hdepth⟩ := hchoices c hc
    exact ⟨_, .of_write choiceCodec_lawful hproper c.isFinite_toJson hdepth⟩
  have hnext : ∃ next, choiceCodec.list.FaithfulField (fields.get? "next") next := by
    rcases hgrown.next with hnext | ⟨-, hnext⟩
    · rw [hnext, listed_toJson ha]
      have hall : ∀ v ∈ a.choices.map Choice.toJson ++ new, ∃ c, choiceCodec.Faithful v c :=
        List.forall_mem_append.2 ⟨hformers, fun v hv => faithful_bare (hgrown.bare v hv)⟩
      obtain ⟨cs, hcs⟩ := faithful_choices hall
      exact ⟨_, .value hcs⟩
    · have hmem : ("next", a.next.slot choiceCodec.list.write) ∈ a.slots :=
        .tail _ (.tail _ (.tail _ (.tail _ (.head _))))
      rw [hnext, Section.get?_slot ha hmem]
      unfold Section.choices at hformers
      cases hvalue : a.next with
      | absent => exact ⟨_, .absent⟩
      | null => exact ⟨_, .null⟩
      | value cs =>
        rw [hvalue] at hformers
        obtain ⟨others, hothers⟩ := faithful_choices hformers
        exact ⟨_, .value hothers⟩
  obtain ⟨next, hnext⟩ := hnext
  refine ⟨a.read fields next, faithful_section ha hgrown.same hnext hwithin hgrown.nodup,
    choiceList_faithful hnext id, ?_⟩
  rw [listed_grown ha hgrown]
  intro v hv
  rcases List.mem_append.1 hv with hv | hv
  · obtain ⟨c, hc, rfl⟩ := List.mem_map.1 hv
    exact ⟨c.target, choiceTarget_toJson id c⟩
  · exact target_bare (hgrown.bare v hv) id

/-- A section with choices appended is unchanged. -/
theorem checkUnchanged_grown (id : String)
    (hchoices : choiceList id (.obj fields) = .ok (listed (.obj fields))) :
    checkUnchanged id a.toJson (.obj fields) = .ok () := by
  rw [listed_grown ha hgrown] at hchoices
  refine checkUnchanged_ok ?_ (choiceList_toJson id a ha) hchoices ?_ ?_
  · intro key hkey
    have hnext : key ≠ "next" := by
      rintro rfl
      exact absurd hkey (by decide)
    have hself : a.SameContent a := .withNext ha a.next ha
    rw [Json.field_obj, hgrown.same key hnext]
    exact hself key hkey
  · rw [List.length_append]
    exact Nat.le_add_right _ _
  · exact checkChoices_ok (Story.proper_choices ha) (Story.proper_choices ha) (List.prefix_refl _)
      new 0

end Grown

/-! ## New sections -/

/-- A section with an id and maybe lines of text or a text, and nothing else. -/
def bareSection (id : String) (lines : Option (List String)) (text : Option String) : Section :=
  ⟨id, lines.elim .absent .value, text.elim .absent .value, .absent, .absent, .absent, .absent,
    .absent, []⟩

theorem proper_bareSection (id : String) (lines : Option (List String)) (text : Option String) :
    (bareSection id lines text).Proper where
  media := fun _ h => nomatch h
  next := fun _ h => nomatch h
  script := fun _ h => nomatch h
  picture := fun _ h => nomatch h
  extra := ProperExtra.nil _

section New

variable {id : String} {fields : Table Json} (h : IsNewSection id fields)

include h

/-- But for its choices, the document of a new section is that of a section with an id and texts. -/
theorem IsNewSection.same_bare {lines : Option (List String)} {text : Option String}
    (hlines : fields.get? "text_lines" = lines.map Json.ofTexts)
    (htext : fields.get? "text" = text.map .str) (key : String) (hkey : key ≠ "next") :
    fields.get? key = (bareSection id lines text).toJson.get? key := by
  have hbare := proper_bareSection id lines text
  have hnone (hunknown : key ∉ ["id", "text_lines", "text", "next"]) : fields.get? key = none :=
    Table.get?_eq_none_iff.2 fun hmem => hunknown (h.known key hmem)
  by_cases hdeclared : key ∈ Section.declared
  · have hslot {o : Option Json} (hmem : (key, o) ∈ (bareSection id lines text).slots)
        (hget : fields.get? key = o) : fields.get? key = (bareSection id lines text).toJson.get? key := by
      rw [hget, Section.get?_slot hbare hmem]
    simp only [Section.declared, List.mem_cons, List.not_mem_nil, or_false] at hdeclared
    rcases hdeclared with rfl | rfl | rfl | rfl | rfl | rfl | rfl | rfl
    · exact hslot (.head _) h.id
    · refine hslot (.tail _ (.head _)) ?_
      rw [hlines]
      cases lines <;> rfl
    · refine hslot (.tail _ (.tail _ (.head _))) ?_
      rw [htext]
      cases text <;> rfl
    · exact hslot (.tail _ (.tail _ (.tail _ (.head _)))) (hnone (by decide))
    · exact absurd rfl hkey
    · exact hslot (.tail _ (.tail _ (.tail _ (.tail _ (.tail _ (.head _)))))) (hnone (by decide))
    · exact hslot (.tail _ (.tail _ (.tail _ (.tail _ (.tail _ (.tail _ (.head _)))))))
        (hnone (by decide))
    · exact hslot (.tail _ (.tail _ (.tail _ (.tail _ (.tail _ (.tail _ (.tail _ (.head _))))))))
        (hnone (by decide))
  · rw [Section.get?_unknown _ hdeclared, hnone]
    · rfl
    · intro hmem
      have hsub : ["id", "text_lines", "text", "next"] ⊆ Section.declared := by decide
      exact hdeclared (hsub hmem)

/-- The document of a new section is readable, and has text. -/
theorem readable_new : ∃ b, Readable id fields b ∧ b.id = id ∧ b.hasText = true := by
  have hlines : ∃ lines : Option (List String), fields.get? "text_lines" = lines.map Json.ofTexts := by
    cases hget : fields.get? "text_lines" with
    | none => exact ⟨none, rfl⟩
    | some v =>
      obtain ⟨lines, rfl⟩ := h.lines v hget
      exact ⟨some lines, rfl⟩
  have htext : ∃ text : Option String, fields.get? "text" = text.map .str := by
    cases hget : fields.get? "text" with
    | none => exact ⟨none, rfl⟩
    | some v =>
      obtain ⟨text, rfl⟩ := h.text v hget
      exact ⟨some text, rfl⟩
  have hchoices : ∀ v, fields.get? "next" = some v →
      ∃ docs, v = .arr docs ∧ ∃ cs, choiceCodec.list.Faithful (.arr docs) cs := by
    intro v hv
    obtain ⟨docs, hdocs, hbare⟩ := h.next v hv
    exact ⟨docs, hdocs, faithful_choices fun c hc => faithful_bare (hbare c hc)⟩
  have hnext : ∃ next, choiceCodec.list.FaithfulField (fields.get? "next") next := by
    cases hget : fields.get? "next" with
    | none => exact ⟨_, .absent⟩
    | some v =>
      obtain ⟨docs, rfl, cs, hcs⟩ := hchoices v hget
      exact ⟨_, .value hcs⟩
  obtain ⟨lines, hlines⟩ := hlines
  obtain ⟨text, htext⟩ := htext
  obtain ⟨next, hnext⟩ := hnext
  have hfaithful := faithful_section (proper_bareSection id lines text)
    (h.same_bare hlines htext) hnext (List.forall_mem_nil _) h.nodup
  refine ⟨_, ⟨hfaithful, choiceList_faithful hnext id, ?_⟩, rfl, ?_⟩
  · intro c hc
    unfold listed at hc
    rw [Json.field_obj] at hc
    cases hget : fields.get? "next" with
    | none =>
      rw [hget] at hc
      cases hc
    | some v =>
      obtain ⟨docs, rfl, hbare⟩ := h.next v hget
      rw [hget] at hc
      exact target_bare (hbare c hc) id
  · rcases h.content with hhas | ⟨nonempty, hget, hne⟩
    · unfold Table.has at hhas
      rw [hlines, Option.isSome_map] at hhas
      obtain ⟨texts, rfl⟩ := Option.isSome_iff_exists.1 hhas
      rfl
    · rw [htext] at hget
      obtain ⟨found, rfl, hfound⟩ := Option.map_eq_some_iff.1 hget
      cases hfound
      have hany : (some nonempty).any (fun text => !text.isEmpty) = true := by simp [hne]
      exact Bool.or_eq_true_iff.2 (.inr hany)

end New

/-! ## Stories -/

/-- The answer that gives sections and nothing else. -/
def sectionsOnly (sections : Table Json) : Table Json := [("sections", .obj sections)]

def presentMetadata (s : Story) : Field Metadata := s.metadata.get?.elim .absent .value

/-- A story with other sections, as it is loaded from the document with these. -/
def withSections (original : Story) (t : Table Section) : Story :=
  { metadata := (presentMetadata original).map Metadata.settled
    state := original.settled.state
    sections := t
    definitions := original.settled.definitions
    extra := original.settled.extra }

/-- A section's document is read as a section; a new one is named by its key and has text. -/
def Reads (original : Story) (e : String × Json) (f : String × Section) : Prop :=
  e.1 = f.1 ∧ ∃ fields, e.2 = .obj fields ∧ Readable e.1 fields f.2 ∧
    (original.hasSection e.1 = false → f.2.id = e.1 ∧ f.2.hasText = true)

section Story

variable {original : Story}

/-- Such a story can be written when the former one can, and what is unknown in its sections is not
nested too deeply. -/
theorem isWritable_withSections (hwritable : original.isWritable = true) {t : Table Section}
    (ht : ∀ v ∈ sectionCodec.table.unknown t, v.isWithin unknownDepth = true) :
    (withSections original t).isWritable = true := by
  have hsettled : ∀ v ∈ original.settled.unknownValues, v.isWithin unknownDepth = true :=
    Codec.within_settled storyCodec_lawful (original.isWritable_iff.1 hwritable)
  obtain ⟨hextra, hmetadata, hstate, -, hdefinitions⟩ := (original.settled.forall_unknownValues _).1 hsettled
  refine (Story.isWritable_iff _).2 ((Story.forall_unknownValues _ _).2
    ⟨hextra, ?_, hstate, ht, hdefinitions⟩)
  unfold Story.settled at hmetadata
  show ∀ v ∈ ((presentMetadata original).map Metadata.settled).collect metadataCodec.unknown, _
  unfold presentMetadata
  cases hvalue : original.metadata with
  | value m =>
    rw [hvalue] at hmetadata
    exact hmetadata
  | absent => exact List.forall_mem_nil _
  | null => exact List.forall_mem_nil _

variable (horiginal : original.Proper)

include horiginal

theorem all_presentMetadata : (presentMetadata original).All metadataCodec.Proper := by
  have hproper := horiginal.metadata
  unfold presentMetadata
  cases hvalue : original.metadata with
  | value m =>
    rw [hvalue] at hproper
    exact hproper
  | absent => exact fun _ h => nomatch h
  | null => exact fun _ h => nomatch h

/-- An answer with sections only is loaded with these, and the rest of the story stays. -/
theorem loaded_sectionsOnly {sections : Table Json} {t : Table Section}
    (h : sectionCodec.table.Faithful (.obj sections) t) :
    LoadedFrom (adopted original (sectionsOnly sections)) (withSections original t) := by
  constructor
  case metadata =>
    have hplain : grownMeta? original .null = original.metadata.get?.map Metadata.toJson :=
      grownMeta_plain original fun _ _ h => nomatch h
    have hget : Table.get? (adopted original (sectionsOnly sections)) "meta" =
        (presentMetadata original).slot metadataCodec.write := by
      rw [adopted_meta horiginal]
      refine hplain.trans ?_
      unfold presentMetadata
      cases original.metadata <;> rfl
    exact metadataCodec_lawful.optional hget (all_presentMetadata horiginal)
  case state => exact stateCodec_lawful.optional (adopted_state _ horiginal) horiginal.state
  case sections => exact Check.required_ok (adopted_sections _ horiginal) h.check
  case definitions =>
    have hadopted := adopted_definitions (sectionsOnly sections) horiginal
    have hnone : Table.get? (sectionsOnly sections) "variables" = none := rfl
    rw [hnone, Option.or_none] at hadopted
    exact definitionCodec_lawful.table.optional hadopted horiginal.definitions
  case extra =>
    have hnone : Check.unknown (sectionsOnly sections) Story.declared = [] := rfl
    rw [unknown_adopted horiginal, hnone]
    exact (Table.ofList_of_nodup horiginal.extra.finite.nodup).symm

variable {later : Table Json} {x : String}
  (hpure : IsPureExtension original.sectionsJson x later)

include hpure

/-- The sections of a pure extension are readable. -/
theorem readable_sections (hwritable : original.isWritable = true) : ∃ t, List.Forall₂ (Reads original) later t := by
  apply exists_forall₂
  intro e he
  have hlater : Table.get? later e.1 = some e.2 := Table.get?_of_mem hpure.nodup he
  cases ha : original.section? e.1 with
  | none =>
    have hnew : original.hasSection e.1 = false := Option.isSome_eq_false_iff.2 (Option.isNone_iff_eq_none.2 ha)
    obtain ⟨fields, hfields, hsection⟩ :=
      hpure.new e.1 e.2 hlater ((has_sectionsJson original e.1).trans hnew)
    obtain ⟨b, hb, hid, htext⟩ := readable_new hsection
    exact ⟨(e.1, b), rfl, fields, hfields, hb, fun _ => ⟨hid, htext⟩⟩
  | some a =>
    have hformer : Table.get? original.sectionsJson e.1 = some a.toJson := by
      rw [get?_sectionsJson, ha]
      rfl
    obtain ⟨fields, new, hget, hgrown, -⟩ := hpure.grown e.1 a.toJson hformer
    have hfields : e.2 = .obj fields := Option.some.inj (hlater.symm.trans hget)
    have hmem := Table.mem_of_get? ha
    have hwithin : ∀ v ∈ a.unknownValues, v.isWithin unknownDepth = true := by
      intro v hv
      obtain ⟨-, -, -, hsections, -⟩ :=
        (original.forall_unknownValues _).1 (original.isWritable_iff.1 hwritable)
      exact hsections v (List.mem_flatMap.2 ⟨a, List.mem_map_of_mem hmem, hv⟩)
    obtain ⟨b, hb⟩ := readable_grown (horiginal.sections.2 _ hmem) hgrown hwithin e.1
    have hold : original.hasSection e.1 = true := Option.isSome_of_eq_some ha
    exact ⟨(e.1, b), rfl, fields, hfields, hb, fun hnew => absurd hold (by simp [hnew])⟩

/-- A pure extension passes every check. -/
theorem judged_pure {t : Table Section} (ht : List.Forall₂ (Reads original) later t)
    (hfaithful : sectionCodec.table.Faithful (.obj later) t) :
    Judged original later (sectionsOnly later) x (withSections original t) := by
  have hread {id : String} {v : Json} (hget : later.get? id = some v) :
      ∃ fields, v = .obj fields ∧ ∃ b, Readable id fields b := by
    obtain ⟨f, -, -, fields, rfl, hb, -⟩ := partner_of_forall₂ ht.flip (Table.mem_of_get? hget)
    exact ⟨fields, rfl, f.2, hb⟩
  have hgrown {id : String} {a : Section} (ha : original.section? id = some a) :
      a.Proper ∧ ∃ fields new, later.get? id = some (.obj fields) ∧ IsGrown a.toJson new fields ∧
        (id = x → new ≠ []) := by
    refine ⟨proper_section horiginal ha, hpure.grown id a.toJson ?_⟩
    rw [get?_sectionsJson, ha]
    rfl
  constructor
  case kept =>
    apply checkKept_ok
    intro id hid
    rw [← Table.has_iff, has_sectionsJson] at hid
    obtain ⟨a, ha⟩ := Option.isSome_iff_exists.1 hid
    obtain ⟨-, fields, new, hget, -⟩ := hgrown ha
    exact Option.isSome_of_eq_some hget
  case unchanged =>
    apply checkAllUnchanged_ok
    intro e he
    obtain ⟨⟨id, a⟩, hmem, rfl⟩ := List.mem_map.1 he
    have ha : original.section? id = some a := Table.get?_of_mem horiginal.sections.1 hmem
    obtain ⟨hproper, fields, new, hget, hsection, -⟩ := hgrown ha
    obtain ⟨_, heq, b, hb⟩ := hread hget
    cases heq
    dsimp only
    rw [Json.field_of_get? hget]
    exact checkUnchanged_grown hproper hsection id hb.choices
  case extended =>
    have hhas := hpure.extended
    rw [has_sectionsJson] at hhas
    obtain ⟨a, ha⟩ := Option.isSome_iff_exists.1 hhas
    obtain ⟨hproper, fields, new, hget, hsection, hnew⟩ := hgrown ha
    obtain ⟨_, heq, b, hb⟩ := hread hget
    cases heq
    have hchoices := hb.choices
    have hlength := List.length_pos_iff.2 (hnew rfl)
    rw [listed_grown hproper hsection] at hchoices
    refine checkExtended_ok (get?_sectionsJson original x ▸ congrArg (Option.map _) ha) hget
      (choiceList_toJson x a hproper) hchoices ?_
    rw [List.length_append]
    exact Nat.lt_add_of_pos_right hlength
  case graph =>
    apply checkGraph_ok
    intro e he
    have hget : Table.get? later e.1 = some e.2 := Table.get?_of_mem hpure.nodup he
    obtain ⟨fields, hfields, b, hb⟩ := hread hget
    refine ⟨fields, listed e.2, hfields, hfields ▸ hb.choices, ?_⟩
    intro c hc
    obtain ⟨target, htarget⟩ := hb.targets c (hfields ▸ hc)
    exact ⟨target, htarget, hpure.closed e.1 e.2 hget c hc target htarget⟩
  case loaded =>
    rw [toJson_eq]
    exact check_of_loadedFrom (loaded_sectionsOnly horiginal hfaithful)
  case new =>
    apply checkNew_ok
    intro f hf hnew
    obtain ⟨e, -, hkey, fields, -, -, htext⟩ := partner_of_forall₂ ht hf
    rw [hkey] at htext
    exact htext hnew

end Story

/-- An answer that only adds to the sections of a story is accepted, in every layout of its text.  The
sections of the outcome are written as they stand in the answer, and its state is the former one. -/
theorem pure_accepted {original : Story} (h : original.Reached) {document : Json}
    (hwrite : original.write = .ok document) {former later : Table Json}
    (hformer : document.get? "sections" = some (.obj former)) {x : String}
    (hpure : IsPureExtension former x later) (layout : JsonLayout) :
    ∃ s written sections,
      review original ((Json.obj [("sections", .obj later)]).write layout) x = .ok (.ok s) ∧
      s.write = .ok written ∧ written.get? "sections" = some sections ∧
      sections.same (.obj later) = true ∧ written.get? "state" = document.get? "state" ∧
      s.state = original.settled.state ∧
      ((∀ v ∈ original.unknownValues, v.isFinite = true) → s.state = original.state) := by
  have horiginal := h.proper
  obtain ⟨hwritable, hdocument⟩ : original.isWritable = true ∧ original.toJson = document := by
    unfold Story.write at hwrite
    split at hwrite
    · rename_i hwritable
      exact ⟨hwritable, Except.ok.inj hwrite⟩
    · cases hwrite
  rw [toJson_eq] at hdocument
  subst hdocument
  have hslot (s : Story) : ("sections", some (sectionCodec.table.write s.sections)) ∈ s.slots :=
    .tail _ (.tail _ (.head _))
  have hsections : former = original.sectionsJson := by
    have hget := get?_fieldsOf horiginal.extra.unknown (hslot original)
    exact Json.obj.inj (Option.some.inj (hformer.symm.trans hget))
  subst hsections
  obtain ⟨t, ht⟩ := readable_sections horiginal hpure hwritable
  have hfaithful : sectionCodec.table.Faithful (.obj later) t := by
    apply Codec.Faithful.table hpure.nodup
    refine ht.imp fun e f hreads => ?_
    obtain ⟨hkey, fields, hfields, hb, -⟩ := hreads
    exact ⟨hkey, hfields ▸ hb.faithful⟩
  have hjudged := judged_pure horiginal hpure ht hfaithful
  have hread : readResponse ((Json.obj (sectionsOnly later)).write layout) =
      .ok (.obj (sectionsOnly later)) := by
    apply readResponse_write
    · refine Json.proper_obj_iff.2 ⟨List.nodup_singleton _, ?_⟩
      exact List.forall_mem_singleton.2 hfaithful.proper
    · rw [Json.isWithin, Bool.and_eq_true, Json.areFieldsWithin_iff]
      exact ⟨rfl, List.forall_mem_singleton.2 (Json.isWithin_mono _ (by decide) hfaithful.within)⟩
  have hreview : review original ((Json.obj (sectionsOnly later)).write layout) x =
      .ok (.ok (withSections original t)) := by
    rw [review_of_read hread]
    exact reviewDocument_of_judged hwritable rfl hjudged
  have hextra := (proper_of_review horiginal hreview).extra.unknown
  have hs := isWritable_withSections hwritable hfaithful.unknown
  refine ⟨withSections original t, (withSections original t).toJson, sectionCodec.table.write t,
    hreview, ?_, ?_, hfaithful.same, ?_, rfl, ?_⟩
  · unfold Story.write
    rw [if_pos hs]
  · rw [toJson_eq]
    exact get?_fieldsOf hextra (hslot _)
  · have hstate (s : Story) : ("state", s.state.slot stateCodec.write) ∈ s.slots := .tail _ (.head _)
    rw [toJson_eq]
    refine (get?_fieldsOf hextra (hstate _)).trans ?_
    refine Eq.trans ?_ (get?_fieldsOf horiginal.extra.unknown (hstate _)).symm
    exact stateCodec_lawful.slot_settled original.state
  · intro hfinite
    show original.settled.state = original.state
    rw [original.settled_eq_iff.2 hfinite]

/-- The section of the fresh story with a choice, and the section that it leads to. -/
def forkedSections : Table Json :=
  [("1", .obj [("id", .str "1"), ("text_lines", .arr [.str ""]),
      ("next", .arr [.obj [("text", .str "Climb"), ("next", .str "2")]])]),
   ("2", .obj [("id", .str "2"), ("text", .str "A treetop.")])]

theorem pure_forked : IsPureExtension Story.fresh.sectionsJson "1" forkedSections where
  nodup := by decide
  extended := rfl
  grown := by
    intro id v hget
    cases List.mem_singleton.1 (Table.mem_of_get? hget)
    refine ⟨_, [.obj [("text", .str "Climb"), ("next", .str "2")]], rfl, ?_,
      fun _ => List.cons_ne_nil _ _⟩
    constructor
    case nodup => decide
    case same =>
      intro key hkey
      let former : Table Json := [("id", .str "1"), ("text_lines", .arr [.str ""])]
      show Table.get? (former ++ [("next", _)]) key = Table.get? former key
      rw [Table.get?_append, Table.get?_of_not_mem (t := [("next", _)]) (by simpa using hkey),
        Option.or_none]
    case next => exact .inl rfl
    case bare => exact List.forall_mem_singleton.2 ⟨"Climb", "2", _, rfl, .refl _⟩
  new := by
    intro id v hget hnew
    have hmem := Table.mem_of_get? hget
    simp only [forkedSections, List.mem_cons, Prod.mk.injEq, List.not_mem_nil, or_false] at hmem
    rcases hmem with ⟨rfl, -⟩ | ⟨rfl, rfl⟩
    · cases hnew
    · refine ⟨_, rfl, ?_⟩
      constructor
      case nodup => decide
      case known => decide
      case id => rfl
      case lines => exact fun v hv => nomatch hv
      case text => exact fun v hv => ⟨_, (Option.some.inj hv).symm⟩
      case content => exact .inr ⟨"A treetop.", rfl, by decide⟩
      case next => exact fun v hv => nomatch hv
  closed := by
    intro id v hget c hc target htarget
    have hmem := Table.mem_of_get? hget
    simp only [forkedSections, List.mem_cons, Prod.mk.injEq, List.not_mem_nil, or_false] at hmem
    rcases hmem with ⟨rfl, rfl⟩ | ⟨rfl, rfl⟩
    · cases List.mem_singleton.1 hc
      cases htarget
      rfl
    · cases hc

theorem pure_accepted_forked : ∃ document,
    Story.fresh.Reached ∧ Story.fresh.write = .ok document ∧
    document.get? "sections" = some (.obj Story.fresh.sectionsJson) ∧
    IsPureExtension Story.fresh.sectionsJson "1" forkedSections ∧
    ∃ s written sections,
      review .fresh ((Json.obj [("sections", .obj forkedSections)]).write ⟨none, true⟩) "1" =
        .ok (.ok s) ∧
      s.write = .ok written ∧ written.get? "sections" = some sections ∧
      sections.same (.obj forkedSections) = true ∧ written.get? "state" = document.get? "state" ∧
      s.state = Story.fresh.settled.state ∧
      ((∀ v ∈ Story.fresh.unknownValues, v.isFinite = true) → s.state = Story.fresh.state) :=
  ⟨_, .fresh, rfl, rfl, pure_forked, pure_accepted .fresh rfl rfl pure_forked ⟨none, true⟩⟩

end Gamebook.Extension
