import Gamebook.Proofs.Extension.Answer
import Gamebook.Proofs.Extension.Content

/-!
# What becomes of a section that the writer echoes

The review compares the frozen fields of an existing section, and the labels and targets of its choices.
The rest of the section is taken from the answer: it is kept when the answer repeats it, and lost or
replaced when it does not.

* `KeptExactly`    : everything in a section's document but the list of choices is kept, and everything
  in its choices.
* `Echoed`         : the answer repeats what the review does not compare.
* `kept_iff_echoed` : an existing section is kept exactly when it is echoed.
* `mood_lost`      : an accepted answer that drops a field.
-/

set_option autoImplicit false

namespace Gamebook

/-! ## What is written of a value that was read -/

namespace Json

/-- Objects that say the same of each key are the same as the same values. -/
theorem same_congr {xs ys : Table Json} (hx : (Table.keys xs).Nodup) (hy : (Table.keys ys).Nodup)
    (h : ∀ key, xs.get? key = ys.get? key) {v : Json} (hv : v.Proper) :
    v.same (.obj xs) = v.same (.obj ys) := by
  cases v with
  | obj fields =>
    rw [Bool.eq_iff_iff, same_obj_iff hv.1 hx, same_obj_iff hv.1 hy]
    simp only [h]
  | _ => rfl

end Json

theorem text_of_check {v : Json} {s : String} (h : Check.text v = .ok s) : v = .str s := by
  cases v <;> cases h
  rfl

/-- An optional text is written as it was read. -/
theorem slot_of_text {fields : Table Json} {key : String} {f : Field String}
    (h : Check.optional fields key Check.text = .ok f) : fields.get? key = f.slot .str := by
  rcases Check.of_optional h with ⟨rfl, hget⟩ | ⟨rfl, hget⟩ | ⟨v, s, rfl, hget, -, hcheck⟩
  · exact hget
  · exact hget
  · rw [hget, text_of_check hcheck]
    rfl

/-- The wish for a drawing is written as it was read. -/
theorem Picture.same_toJson {v u : Json} {p : Picture} (hv : v.Proper) (hu : u.Proper)
    (h : Picture.check v = .ok p) : u.same p.toJson = u.same v.finiteOnly := by
  have hp : pictureCodec.Proper p := pictureCodec_lawful.proper_check v p hv h
  obtain ⟨fields, rfl, hcheck⟩ := Check.of_model h
  obtain ⟨_, size, h2, hsize, rfl⟩ := Checked.of_seq hcheck
  obtain ⟨_, negative, h1, hnegative, rfl⟩ := Checked.of_seq h2
  obtain ⟨prompt, hprompt, rfl⟩ := Checked.of_map h1
  have hproper := pictureCodec_lawful.proper_write _ hp
  have hwrite := picture_record.write_eq ⟨prompt, negative, size,
    Check.unknown fields ["prompt", "negative_prompt", "size"]⟩
  have hwritten : ∀ key, (pictureCodec.write ⟨prompt, negative, size,
      Check.unknown fields ["prompt", "negative_prompt", "size"]⟩).get? key =
        (Table.get? fields key).map Json.finiteOnly := by
    intro key
    have htexts (f : Field String) : f.slot .str = (f.slot .str).map Json.finiteOnly := by
      cases f <;> rfl
    by_cases hkey : key ∈ ["prompt", "negative_prompt", "size"]
    · simp only [List.mem_cons, List.not_mem_nil, or_false] at hkey
      rcases hkey with rfl | rfl | rfl
      · obtain ⟨w, hget, hw⟩ := Check.of_required hprompt
        rw [picture_record.get?_slot hp (.head _), hget, text_of_check hw]
        rfl
      · rw [picture_record.get?_slot hp (.tail _ (.head _)), slot_of_text hnegative]
        exact htexts negative
      · rw [picture_record.get?_slot hp (.tail _ (.tail _ (.head _))), slot_of_text hsize]
        exact htexts size
    · rw [picture_record.get?_unknown _ hkey, Check.unknown, Table.get?_filterKeys,
        if_pos (by simpa using hkey)]
  rw [hwrite] at hproper hwritten
  refine (congrArg u.same hwrite).trans ?_
  refine Json.same_congr hproper.1 (by rw [Json.keys_finiteFields]; exact hv.1) ?_ hu
  intro key
  rw [Json.finiteFields_eq fields, Table.get?_mapValues]
  exact hwritten key

namespace Extension

/-! ## Sections that are kept and sections that are echoed -/

/-- A document keeps each value of a section's document, its list of choices aside, and at each place of
that list each value beside the label and the target. -/
structure KeptExactly (former later : Json) : Prop where
  fields : ∀ key, key ≠ "next" → ∀ v, former.get? key = some v → v.same (later.field key) = true
  choices : ∀ (position : Nat) (choice : Json), (listed former)[position]? = some choice →
    ∃ other, (listed later)[position]? = some other ∧
      ∀ key, key ∉ ["text", "next"] → ∀ v, choice.get? key = some v →
        v.same (other.field key) = true

/-- A truth value in any spelling. -/
def truthOf (v : Json) : Json :=
  match Check.bool v with
  | .ok b => .bool b
  | .bad _ => .null

/-- An answer repeats what the review does not compare: the truth value in any spelling, and the other
values up to numbers that are not finite, which stand for null. -/
structure Echoed (former answer : Json) : Prop where
  extendable : ∀ v, former.get? "ai_extendable" = some v →
    v.same (truthOf (answer.field "ai_extendable")) = true
  fields : ∀ key, key ∉ "next" :: "ai_extendable" :: frozenFields → ∀ v, former.get? key = some v →
    v.same (answer.field key).finiteOnly = true
  choices : ∀ (position : Nat) (choice : Json), (listed former)[position]? = some choice →
    ∃ other, (listed answer)[position]? = some other ∧
      ∀ key, key ∉ ["text", "next"] → ∀ v, choice.get? key = some v →
        v.same (other.field key).finiteOnly = true

section Loaded

variable {fields : Table Json} {b : Section} (hfields : (Json.obj fields).Proper)
  (hcheck : Section.check (.obj fields) = .ok b)

include hfields hcheck

theorem extendable_of_check :
    b.toJson.field "ai_extendable" = truthOf ((Json.obj fields).field "ai_extendable") := by
  have hb : b.Proper := sectionCodec_lawful.proper_check _ b hfields hcheck
  have hmem : ("ai_extendable", b.extendable.slot .bool) ∈ b.slots :=
    .tail _ (.tail _ (.tail _ (.tail _ (.tail _ (.tail _ (.head _))))))
  rw [Section.field_slot hb hmem, Json.field_obj]
  rcases Check.of_optional (Section.loadedFrom hcheck).extendable with
    ⟨hvalue, hget⟩ | ⟨hvalue, hget⟩ | ⟨v, truth, hvalue, hget, -, htruth⟩
  · rw [hvalue, hget]
    rfl
  · rw [hvalue, hget]
    rfl
  · rw [hvalue, hget]
    unfold truthOf
    dsimp only [Option.getD_some]
    rw [htruth]
    rfl

/-- What is not frozen is written as it stands in the document. -/
theorem same_field_of_check {key : String} (hkey : key ∉ "next" :: "ai_extendable" :: frozenFields)
    {v : Json} (hv : v.Proper) :
    v.same (b.toJson.field key) = v.same ((Json.obj fields).field key).finiteOnly := by
  have hb : b.Proper := sectionCodec_lawful.proper_check _ b hfields hcheck
  by_cases hdeclared : key ∈ Section.declared
  · have hpicture : key = "ai_gen" := by
      simp only [Section.declared, frozenFields, List.mem_cons, List.not_mem_nil, or_false, not_or]
        at hdeclared hkey
      tauto
    subst hpicture
    have hmem : ("ai_gen", b.picture.slot pictureCodec.write) ∈ b.slots :=
      .tail _ (.tail _ (.tail _ (.tail _ (.tail _ (.tail _ (.tail _ (.head _)))))))
    rw [Section.field_slot hb hmem, Json.field_obj]
    rcases Check.of_optional (Section.loadedFrom hcheck).picture with
      ⟨hvalue, hget⟩ | ⟨hvalue, hget⟩ | ⟨w, p, hvalue, hget, -, hp⟩
    · rw [hvalue, hget]
      rfl
    · rw [hvalue, hget]
      rfl
    · have hw : w.Proper := (Json.proper_obj_iff.1 hfields).2 _ (Table.mem_of_get? hget)
      rw [hvalue, hget]
      exact Picture.same_toJson hw hv hp
  · have hget : b.toJson.get? key = (fields.get? key).map Json.finiteOnly := by
      rw [b.get?_unknown hdeclared, (Section.loadedFrom hcheck).extra, Check.unknown,
        Table.get?_filterKeys, if_pos (by simpa using hdeclared)]
    rw [Json.field, hget, Json.field_obj]
    cases fields.get? key <;> rfl

end Loaded

/-- What is unknown in a choice is written as it stands in its document. -/
theorem field_of_choice {doc : Json} {c : Choice} (hcheck : Choice.check doc = .ok c) {key : String}
    (hkey : key ∉ ["text", "next"]) : c.toJson.field key = (doc.field key).finiteOnly := by
  obtain ⟨fields, rfl, hfields⟩ := Check.of_model hcheck
  obtain ⟨g, next, hg, -, rfl⟩ := Checked.of_seq hfields
  obtain ⟨text, -, rfl⟩ := Checked.of_map hg
  have hget : (Choice.toJson ⟨text, next, Check.unknown fields ["text", "next"]⟩).get? key =
      (Table.get? fields key).map Json.finiteOnly := by
    refine (choice_record.get?_unknown _ hkey).trans ?_
    rw [Check.unknown, Table.get?_filterKeys, if_pos (by simpa using hkey)]
  rw [Json.field, hget, Json.field_obj]
  cases Table.get? fields key <;> rfl

/-- The items of related lists are related place by place. -/
theorem getElem?_of_forall₂ {α β : Type} {R : α → β → Prop} {xs : List α} {ys : List β}
    (h : List.Forall₂ R xs ys) {i : Nat} {y : β} (hy : ys[i]? = some y) :
    ∃ x, xs[i]? = some x ∧ R x y := by
  induction h generalizing i with
  | nil => cases hy
  | cons hfirst _ ih =>
    cases i with
    | zero =>
      cases hy
      exact ⟨_, rfl, hfirst⟩
    | succ i => exact ih hy

/-- A section that was accepted as unchanged is kept exactly when the answer echoes it. -/
theorem kept_iff_of_check {id : String} {a b : Section} {fields : Table Json} (ha : a.Proper)
    (hfields : (Json.obj fields).Proper) (hcheck : Section.check (.obj fields) = .ok b)
    (hunchanged : checkUnchanged id a.toJson (.obj fields) = .ok ()) :
    KeptExactly a.toJson b.toJson ↔ Echoed a.toJson (.obj fields) := by
  have hb : b.Proper := sectionCodec_lawful.proper_check _ b hfields hcheck
  obtain ⟨-, hsame, old, docs, -, hdocs, -⟩ := of_checkUnchanged hunchanged
  have hfrozen := frozen_section ha hfields hcheck hsame
  have hvalue {key : String} {v : Json} (hget : a.toJson.get? key = some v) :
      v.Proper ∧ a.toJson.field key = v := by
    have hfield : a.toJson.field key = v := by rw [Json.field, hget, Option.getD_some]
    refine ⟨?_, hfield⟩
    rw [← hfield]
    exact Json.proper_field (sectionCodec_lawful.proper_write a ha) key
  have hlisted : List.Forall₂ (fun doc other => ∀ key, key ∉ ["text", "next"] →
      other.field key = (doc.field key).finiteOnly) (listed (.obj fields)) (listed b.toJson) := by
    rw [listed_of_choiceList hdocs, listed_toJson hb, List.forall₂_map_right_iff]
    exact (choices_of_check hcheck hdocs).imp fun _ _ hchoice _ hkey => field_of_choice hchoice hkey
  constructor
  · rintro ⟨hkept, hchoices⟩
    constructor
    case extendable =>
      intro v hget
      rw [← extendable_of_check hfields hcheck]
      exact hkept "ai_extendable" (by decide) v hget
    case fields =>
      intro key hkey v hget
      rw [← same_field_of_check hfields hcheck hkey (hvalue hget).1]
      exact hkept key (fun hnext => hkey (hnext ▸ .head _)) v hget
    case choices =>
      intro position choice hchoice
      obtain ⟨other, hother, hvalues⟩ := hchoices position choice hchoice
      obtain ⟨doc, hdoc, hfield⟩ := getElem?_of_forall₂ hlisted hother
      refine ⟨doc, hdoc, fun key hkey v hget => ?_⟩
      rw [← hfield key hkey]
      exact hvalues key hkey v hget
  · rintro ⟨hextendable, hechoed, hchoices⟩
    constructor
    case fields =>
      intro key hnext v hget
      obtain ⟨hv, hfield⟩ := hvalue hget
      by_cases hkey : key ∈ "ai_extendable" :: frozenFields
      · rcases List.mem_cons.1 hkey with rfl | hkey
        · rw [extendable_of_check hfields hcheck]
          exact hextendable v hget
        · rw [← hfield]
          exact hfrozen key hkey
      · have hother : key ∉ "next" :: "ai_extendable" :: frozenFields := by
          rw [List.mem_cons, not_or]
          exact ⟨hnext, hkey⟩
        rw [same_field_of_check hfields hcheck hother hv]
        exact hechoed key hother v hget
    case choices =>
      intro position choice hchoice
      obtain ⟨doc, hdoc, hvalues⟩ := hchoices position choice hchoice
      obtain ⟨other, hother, hfield⟩ := getElem?_of_forall₂ hlisted.flip hdoc
      refine ⟨other, hother, fun key hkey v hget => ?_⟩
      rw [hfield key hkey]
      exact hvalues key hkey v hget

/-- In a story that the review gives, an existing section is kept exactly when the answer echoes what the
review does not compare. -/
theorem kept_iff_echoed {original s : Story} {response x : String} (h : original.Reached)
    (hreview : review original response x = .ok (.ok s)) :
    ∃ answer, readResponse response = .ok answer ∧
      ∀ id a, original.section? id = some a → ∃ b, s.section? id = some b ∧
        (KeptExactly a.toJson b.toJson ↔
          Echoed a.toJson ((answer.field "sections").field id)) := by
  have horiginal := h.proper
  obtain ⟨fields, sections, hread, hsections, hjudged⟩ := of_review hreview
  have hall := sections_of_judged horiginal hsections hjudged
  have hproper : (Json.obj sections).Proper :=
    (Json.proper_obj_iff.1 (Json.proper_of_read hread)).2 _ (Table.mem_of_get? hsections)
  refine ⟨_, hread, fun id a ha => ?_⟩
  obtain ⟨b, hb, -⟩ := keptIn_of_review horiginal hreview id a ha
  obtain ⟨doc, hdoc, hcheck, hunchanged⟩ := unchanged_of_judged hjudged hall ha hb
  refine ⟨b, hb, ?_⟩
  rw [Json.field_of_get? hsections, Json.field_of_get? hdoc]
  exact kept_iff_of_check (proper_section horiginal ha)
    ((Json.proper_obj_iff.1 hproper).2 _ (Table.mem_of_get? hdoc)) hcheck hunchanged

/-! ## A field that is lost -/

/-- A section that may be extended, with a field that nobody declared. -/
def moodySection : Section :=
  ⟨"1", .absent, .value "A fork.", .absent, .value [], .absent, .value true, .absent,
    [("mood", .str "calm")]⟩

def moodyStory : Story := ⟨.absent, .absent, [("1", moodySection)], .absent, []⟩

theorem reached_moody : moodyStory.Reached := by
  have hsection : moodySection.Proper := by
    constructor
    case media => exact fun _ h => nomatch h
    case next =>
      intro cs hcs
      cases hcs
      exact List.forall_mem_nil _
    case script => exact fun _ h => nomatch h
    case picture => exact fun _ h => nomatch h
    case extra => exact ⟨by decide, by decide, List.forall_mem_singleton.2 trivial⟩
  have hproper : moodyStory.Proper := by
    constructor
    case metadata => exact fun _ h => nomatch h
    case state => exact fun _ h => nomatch h
    case sections => exact ⟨by decide, List.forall_mem_singleton.2 hsection⟩
    case definitions => exact fun _ h => nomatch h
    case extra => exact ProperExtra.nil _
  exact .loaded (Story.reload hproper rfl ⟨none, false⟩)

/-- An answer that repeats what the review compares, and adds a choice and a section. -/
def fadedAnswer : Table Json :=
  [("sections", .obj [
      ("1", .obj [("id", .str "1"), ("text", .str "A fork."),
        ("next", .arr [.obj [("text", .str "Climb"), ("next", .str "2")]])]),
      ("2", .obj [("id", .str "2"), ("text", .str "A treetop.")])])]

/-- The story with that choice and that section. -/
def fadedStory : Story :=
  ⟨.absent, .absent,
    [("1", ⟨"1", .absent, .value "A fork.", .absent, .value [.added "2" "Climb"], .absent, .absent, .absent, []⟩),
     ("2", ⟨"2", .absent, .value "A treetop.", .absent, .absent, .absent, .absent, .absent, []⟩)], .absent, []⟩

/-- It is accepted, and the truth value and the field are lost. -/
theorem review_faded : ∃ s b, review moodyStory (Json.obj fadedAnswer).compact "1" = .ok (.ok s) ∧
    s.section? "1" = some b ∧ b.toJson.get? "ai_extendable" = none ∧ b.toJson.get? "mood" = none := by
  have hproper : (Json.obj fadedAnswer).Proper := by
    simp [fadedAnswer, Json.Proper, Json.ProperFields, Json.ProperItems]
  have hread : readResponse (Json.obj fadedAnswer).compact = .ok (.obj fadedAnswer) :=
    readResponse_write hproper rfl ⟨none, false⟩
  have hreview : reviewDocument moodyStory (.obj fadedAnswer) "1" = .ok (.ok fadedStory) := rfl
  exact ⟨fadedStory, _, (review_of_read hread _ _).trans hreview, rfl, rfl, rfl⟩

theorem mood_lost : moodyStory.Reached ∧
    ∃ s b, review moodyStory (Json.obj fadedAnswer).compact "1" = .ok (.ok s) ∧
      moodyStory.section? "1" = some moodySection ∧ s.section? "1" = some b ∧
      ¬ KeptExactly moodySection.toJson b.toJson := by
  obtain ⟨s, b, hreview, hb, hextendable, -⟩ := review_faded
  refine ⟨reached_moody, s, b, hreview, rfl, hb, fun hkept => ?_⟩
  have hsame := hkept.fields "ai_extendable" (by decide) (.bool true) rfl
  rw [Json.field, hextendable] at hsame
  cases hsame

theorem kept_iff_echoed_mood : moodyStory.Reached ∧
    ∃ s answer, review moodyStory (Json.obj fadedAnswer).compact "1" = .ok (.ok s) ∧
      readResponse (Json.obj fadedAnswer).compact = .ok answer ∧
      ∀ id a, moodyStory.section? id = some a → ∃ b, s.section? id = some b ∧
        (KeptExactly a.toJson b.toJson ↔ Echoed a.toJson ((answer.field "sections").field id)) := by
  obtain ⟨s, b, hreview, -⟩ := review_faded
  obtain ⟨answer, hread, hkept⟩ := kept_iff_echoed reached_moody hreview
  exact ⟨reached_moody, s, answer, hreview, hread, hkept⟩

end Extension

end Gamebook
