import Gamebook.Proofs.Extension.Unchanged
import Gamebook.Proofs.Story.Respelled

/-!
# The review and the spelling of targets

The review compares the document of the former story with an answer.  It looks at a target only as the
id that it means, so that the story with every target written as a text has the same review.

* `Section.document`        : where the choices stand in the document of a section.
* `choiceList_spelled`      : the choices of a section, and of the section with targets as texts.
* `checkUnchanged_spelled`  : a section of an answer is held against either of them.
* `adopt_sections`          : the sections of the former story are not adopted.
* `review_spelled`          : the whole review.
-/

set_option autoImplicit false

namespace Gamebook

/-! ## Documents -/

theorem Choice.get?_text (c : Choice) : c.spelled.toJson.get? "text" = c.toJson.get? "text" := by
  unfold toJson Json.record spelled
  cases c.text <;> simp [Json.defaultedEntry, Json.get?, Table.get?_cons]

theorem Field.get?_entry_of_ne {α : Type} (f : Field α) (write : α → Json) {key other : String}
    (h : key ≠ other) : Table.get? (f.entry other write) key = none := by
  cases f <;> simp [entry, Table.get?_cons, h]

/-- The fields of a section's document: the choices stand between others, and not before their place. -/
theorem Section.document (x : Section) : ∃ front back : Table Json, Table.get? front "next" = none ∧
    ∀ next, ({ x with next := next } : Section).toJson =
      .obj (front ++ (next.entry "next" (fun cs => .arr (cs.map Choice.toJson)) ++ back)) := by
  refine ⟨[("id", .str x.id)] ++ x.textLines.entry "text_lines" .ofTexts ++ x.text.entry "text" .str ++
      x.media.entry "media" Media.toJson,
    x.script.entry "script" (fun as => .arr (as.map Action.toJson)) ++
      x.extendable.entry "ai_extendable" .bool ++ x.picture.entry "ai_gen" Picture.toJson ++
      Json.finiteFields x.extra, ?_, fun next => ?_⟩
  · simp only [Table.get?_append, Table.get?_cons, Field.get?_entry_of_ne, ne_eq, String.reduceEq,
      not_false_eq_true, Option.or_none]
    rfl
  · unfold toJson Json.record
    simp only [List.flatten_cons, List.flatten_nil, List.append_nil, List.append_assoc]

theorem Section.field_spelled (x : Section) {key : String} (hkey : key ≠ "next") :
    x.spelled.toJson.field key = x.toJson.field key := by
  obtain ⟨front, back, -, hdocument⟩ := x.document
  have hget (next : Field (List Choice)) : ({ x with next := next } : Section).toJson.field key =
      (Table.get? (front ++ back) key).getD .null := by
    rw [hdocument, Json.field_obj, Table.get?_append, Table.get?_append, Table.get?_append,
      next.get?_entry_of_ne _ hkey, Option.none_or]
  exact (hget x.spelled.next).trans (hget x.next).symm

namespace Extension

/-- A section without a list of choices has no target to spell. -/
theorem choiceList_spelled (id : String) (x : Section) : x.spelled = x ∨ ∃ cs : List Choice,
    choiceList id x.toJson = .ok (cs.map Choice.toJson) ∧
      choiceList id x.spelled.toJson = .ok (cs.map fun c => c.spelled.toJson) := by
  have hlist (cs : List Choice) :
      choiceList id ({ x with next := .value cs } : Section).toJson = .ok (cs.map Choice.toJson) := by
    obtain ⟨front, back, hfront, hdocument⟩ := x.document
    have hfield : ({ x with next := .value cs } : Section).toJson.field "next" =
        .arr (cs.map Choice.toJson) := by
      rw [hdocument, Json.field_obj, Table.get?_append, hfront, Option.none_or]
      rfl
    unfold choiceList
    rw [hfield]
  cases hnext : x.next with
  | absent => exact .inl (by rw [Section.spelled, hnext, Field.map, ← hnext])
  | null => exact .inl (by rw [Section.spelled, hnext, Field.map, ← hnext])
  | value cs =>
    refine .inr ⟨cs, ?_, ?_⟩
    · have hold := hlist cs
      rwa [← hnext] at hold
    · rw [Section.spelled, hnext, Field.map, hlist, List.map_map]
      rfl

/-! ## Sections of an answer -/

theorem sameChoice_spelled (id : String) (c : Choice) (candidate : Json) :
    sameChoice id c.spelled.toJson candidate = sameChoice id c.toJson candidate := by
  have hlabel : choiceLabel c.spelled.toJson = choiceLabel c.toJson := by
    unfold choiceLabel
    rw [c.get?_text]
  have htarget : choiceTarget id c.spelled.toJson = choiceTarget id c.toJson := by
    rw [choiceTarget_toJson, choiceTarget_toJson]
    rfl
  unfold sameChoice
  rw [hlabel, htarget]

theorem checkChoices_spelled (id : String) (position : Nat) (cs : List Choice) (new : List Json) :
    checkChoices id position (cs.map fun c => c.spelled.toJson) new =
      checkChoices id position (cs.map Choice.toJson) new := by
  induction cs generalizing position new with
  | nil => rfl
  | cons c cs ih =>
    cases new with
    | nil => rfl
    | cons candidate more =>
      simp only [List.map_cons, checkChoices, sameChoice_spelled, ih]

theorem changedField?_spelled (x : Section) (candidate : Json) :
    changedField? x.spelled.toJson candidate = changedField? x.toJson candidate := by
  have hfield : ∀ key ∈ frozenFields, x.spelled.toJson.field key = x.toJson.field key := by
    simp only [frozenFields, List.forall_mem_cons]
    exact ⟨x.field_spelled (by decide), x.field_spelled (by decide), x.field_spelled (by decide),
      x.field_spelled (by decide), x.field_spelled (by decide), List.forall_mem_nil _⟩
  unfold changedField?
  generalize frozenFields = keys at hfield ⊢
  induction keys with
  | nil => rfl
  | cons key keys ih =>
    rw [List.forall_mem_cons] at hfield
    rw [List.find?_cons, List.find?_cons, hfield.1, ih hfield.2]

/-- A section of an answer is held against a section, or against the one with targets as texts. -/
theorem checkUnchanged_spelled (id : String) (x : Section) (candidate : Json) :
    checkUnchanged id x.spelled.toJson candidate = checkUnchanged id x.toJson candidate := by
  rcases choiceList_spelled id x with hsame | ⟨cs, hold, hspelled⟩
  · rw [hsame]
  · unfold checkUnchanged
    simp only [changedField?_spelled, hold, hspelled, bind, Except.bind, List.length_map,
      checkChoices_spelled]

theorem checkAllUnchanged_spelled (sections : Table Json) (t : Table Section) :
    checkAllUnchanged sections ((t.mapValues Section.spelled).mapValues Section.toJson) =
      checkAllUnchanged sections (t.mapValues Section.toJson) := by
  induction t with
  | nil => rfl
  | cons e t ih =>
    obtain ⟨key, x⟩ := e
    have hcons (x : Section) (t : Table Section) :
        checkAllUnchanged sections (Table.mapValues ((key, x) :: t) Section.toJson) =
          (checkUnchanged key x.toJson ((Json.obj sections).field key)).bind fun _ =>
            checkAllUnchanged sections (Table.mapValues t Section.toJson) := rfl
    have hspelled : Table.mapValues ((key, x) :: t) Section.spelled =
      (key, x.spelled) :: Table.mapValues t Section.spelled := rfl
    rw [hspelled, hcons, hcons, checkUnchanged_spelled, ih]

theorem checkExtended_spelled (sections : Table Json) (s : Story) (id : String) :
    checkExtended sections s.spelled.sectionsJson id = checkExtended sections s.sectionsJson id := by
  have hspelled : s.spelled.sectionsJson.get? id =
      (s.section? id).map fun x => x.spelled.toJson := by
    have hget := s.section?_spelled id
    rw [Story.section?] at hget
    rw [Story.sectionsJson, Table.get?_mapValues, hget, Option.map_map]
    rfl
  have hold : s.sectionsJson.get? id = (s.section? id).map Section.toJson := Table.get?_mapValues _ _ _
  unfold checkExtended
  rw [hspelled, hold]
  cases s.section? id with
  | none => rfl
  | some x =>
    cases sections.get? id with
    | none => rfl
    | some candidate =>
      rcases choiceList_spelled id x with hsame | ⟨cs, hlist, hlist'⟩
      · simp only [Option.map_some, hsame]
      · simp only [Option.map_some, hlist, hlist', bind, Except.bind, List.length_map]

theorem checkNew_spelled (s : Story) (entries : List (String × Section)) :
    checkNew s.spelled entries = checkNew s entries := by
  induction entries with
  | nil => rfl
  | cons e entries ih => simp only [checkNew, s.hasSection_spelled, ih]

/-! ## What is adopted -/

/-- The sections of the former story are not adopted. -/
theorem adopt_sections (front back response : Table Json) (v w : Json) :
    adopt (front ++ ("sections", v) :: back) response =
      adopt (front ++ ("sections", w) :: back) response := by
  have hkept : (front ++ ("sections", v) :: back).filterKeys (fun key => !notKept.contains key) =
      (front ++ ("sections", w) :: back).filterKeys fun key => !notKept.contains key := by
    unfold Table.filterKeys
    rw [List.filter_append, List.filter_append]
    rfl
  have hmeta : (Json.obj (front ++ ("sections", v) :: back)).field "meta" =
      (Json.obj (front ++ ("sections", w) :: back)).field "meta" := by
    rw [Json.field_obj, Json.field_obj, Table.get?_append, Table.get?_append, Table.get?_cons,
      Table.get?_cons]
    rfl
  unfold adopt mergedMetadata?
  rw [hkept, hmeta]

theorem document_spelled (s : Story) : ∃ front back : Table Json,
    s.toJson = .obj (front ++ ("sections", .obj s.sectionsJson) :: back) ∧
      s.spelled.toJson = .obj (front ++ ("sections", .obj s.spelled.sectionsJson) :: back) :=
  ⟨s.metadata.entry "meta" Metadata.toJson ++ s.state.entry "state" PlayState.toJson,
    s.definitions.entry "variables" (fun t => .obj (t.mapValues VariableDefinition.toJson)) ++
      Json.finiteFields s.extra,
    by simp [Story.toJson, Json.record], by simp [Story.toJson, Json.record, Story.spelled]⟩

/-! ## The review -/

theorem reviewDocument_spelled (s : Story) (response : Json) (x : String) :
    reviewDocument s.spelled response x = reviewDocument s response x := by
  obtain ⟨front, back, hold, hspelled⟩ := document_spelled s
  have hjudge (sections fields : Table Json) :
      judgeSections s.spelled (s.spelled.toJson.asObj?.getD []) sections fields x =
        judgeSections s (s.toJson.asObj?.getD []) sections fields x := by
    have hkeys : Table.keys s.spelled.sectionsJson = Table.keys s.sectionsJson := by
      simp only [Story.sectionsJson, Table.keys_mapValues]
      exact s.ids_spelled
    have hkept : checkKept sections s.spelled.sectionsJson = checkKept sections s.sectionsJson := by
      unfold checkKept
      rw [hkeys]
    have hunchanged : checkAllUnchanged sections s.spelled.sectionsJson =
        checkAllUnchanged sections s.sectionsJson := checkAllUnchanged_spelled sections s.sections
    rw [hold, hspelled]
    unfold judgeSections
    simp only [hkept, hunchanged, checkExtended_spelled, checkNew_spelled, Json.asObj?, Option.getD_some,
      adopt_sections front back fields (.obj s.spelled.sectionsJson) (.obj s.sectionsJson)]
  unfold reviewDocument Story.write
  rw [s.isWritable_spelled]
  cases s.isWritable with
  | false => rfl
  | true => simp only [if_true, Except.map, hjudge]

/-- The review of an answer to the story with every target written as a text. -/
theorem review_spelled (s : Story) (response x : String) :
    review s.spelled response x = review s response x := by
  unfold review
  cases readResponse response with
  | error e => rfl
  | ok document => exact reviewDocument_spelled s document x

end Extension

end Gamebook
