import Gamebook.Extension.Fence
import Gamebook.Story.Document
import Gamebook.Story.Load

/-!
# Reviewing a proposed extension

The writer's answer is not trusted.  It is adopted only when every existing section stands in it as
it was, with choices at most appended, when the section to extend gained a choice, and when no choice
leads nowhere.  The answer does not decide about play state, metadata and variables.

* `Rejection` : why an answer is not adopted, and the wording.
* `judgeSections` : judges the sections and the other fields of an answer.
* `review` : judges the text of an answer: the extended story, or the first reason against it.

The checks run on the documents, in a fixed order: the shape of the answer, deleted sections,
changed sections, the section to extend, the graph, the schema, the new sections.  Behind the first
of them the document of the former story is needed, so that a story that cannot be written has no
review.

Models `validate_ai_story_update` with `_check_unchanged`, `_check_graph`, `_check_new_sections` and
`_adopt_runtime_fields`.
-/

set_option autoImplicit false

namespace Gamebook.Extension

/-- Why an answer is not adopted. -/
inductive Rejection where
  | unreadable (error : JsonError)
  | notObject
  | noSections
  | deleted (id : String)
  | modified (id : String)
  | fieldChanged (id field : String)
  | choicesRemoved (id : String)
  | choiceChanged (id : String) (position : Nat)
  | malformedNext (id : String)
  | malformedChoice (id : String)
  | invalidTarget (id : String)
  | unknownExtended (id : String)
  | notExtended (id : String)
  | notSection (id : String)
  | danglingChoice (id target : String)
  | mismatch (issues : List Issue)
  | mismatchedId (key id : String)
  | missingText (id : String)
  deriving DecidableEq, Repr

def Rejection.message : Rejection → String
  | .unreadable e => "Failed to parse JSON from LLM response: " ++ e.message
  | .notObject => "LLM response is not a valid JSON object"
  | .noSections => "Response is missing sections object"
  | .deleted id => "Section " ++ id ++ " was deleted"
  | .modified id => "Section " ++ id ++ " was modified"
  | .fieldChanged id field => "Section " ++ id ++ " was modified (" ++ field ++ " changed)"
  | .choicesRemoved id => "Section " ++ id ++ " was modified (choices removed)"
  | .choiceChanged id position =>
    "Section " ++ id ++ " was modified (choice " ++ Nat.repr position ++ " changed)"
  | .malformedNext id => "Section " ++ id ++ " has a malformed next list"
  | .malformedChoice id => "Section " ++ id ++ " has a malformed choice"
  | .invalidTarget id => "Section " ++ id ++ " has a choice without a valid target"
  | .unknownExtended id => "Extended section " ++ id ++ " not found"
  | .notExtended id => "Section " ++ id ++ " was not extended with new choices"
  | .notSection id => "Section " ++ id ++ " is not an object"
  | .danglingChoice id target =>
    "Section " ++ id ++ " has choice pointing to non-existent section " ++ target
  | .mismatch issues =>
    "Response does not match the story format [" ++ Issue.reports issues ++ "]"
  | .mismatchedId key id =>
    "Section " ++ key ++ " has mismatched or missing id field (expected: " ++ key ++
      ", got: " ++ id ++ ")"
  | .missingText id => "Section " ++ id ++ " is missing both text and text_lines"

/-- The outcome of a check. -/
abbrev Verdict (α : Type) := Except Rejection α

/-! ## Choices in a document -/

/-- The choices of a section's document. -/
def choiceList (id : String) (section_ : Json) : Verdict (List Json) :=
  match section_.field "next" with
  | .null => .ok []
  | .arr choices => .ok choices
  | _ => .error (.malformedNext id)

/-- The section that a choice's document leads to. -/
def choiceTarget (id : String) (choice : Json) : Verdict String :=
  match choice with
  | .obj _ =>
    match choice.field "next" with
    | .str s => .ok s
    | .int n => .ok (Json.intText n)
    | _ => .error (.invalidTarget id)
  | _ => .error (.malformedChoice id)

/-- The label of a choice's document; a choice without one has the empty label. -/
def choiceLabel (choice : Json) : Json := (choice.get? "text").getD (.str "")

/-- The candidate is an object with the label and the target of the former choice. -/
def sameChoice (id : String) (former candidate : Json) : Verdict Bool :=
  match candidate with
  | .obj _ =>
    if (choiceLabel former).same (choiceLabel candidate) then do
      let a ← choiceTarget id former
      let b ← choiceTarget id candidate
      return a == b
    else .ok false
  | _ => .ok false

/-- The former choices stand at the front of the candidate's, from a position on. -/
def checkChoices (id : String) (position : Nat) : List Json → List Json → Verdict Unit
  | [], _ => .ok ()
  | _ :: _, [] => .error (.choicesRemoved id)
  | former :: rest, candidate :: more => do
    if ← sameChoice id former candidate then checkChoices id (position + 1) rest more
    else throw (.choiceChanged id position)

/-! ## Sections in a document -/

/-- The fields of an existing section that stay as they are. -/
def frozenFields : List String := ["id", "text", "text_lines", "media", "script"]

/-- The first of the frozen fields that differs; absent and null are the same. -/
def changedField? (former candidate : Json) : Option String :=
  frozenFields.find? fun key => !(former.field key).same (candidate.field key)

/-- An existing section stands in the answer as it was, with choices at most appended. -/
def checkUnchanged (id : String) (former candidate : Json) : Verdict Unit :=
  match candidate with
  | .obj _ =>
    match changedField? former candidate with
    | some key => .error (.fieldChanged id key)
    | none => do
      let old ← choiceList id former
      let new ← choiceList id candidate
      if new.length < old.length then throw (.choicesRemoved id)
      checkChoices id 0 old new
  | _ => .error (.modified id)

/-- Every choice of a section leads to a section of the answer. -/
def checkTargets (sections : Table Json) (id : String) : List Json → Verdict Unit
  | [] => .ok ()
  | choice :: rest => do
    let target ← choiceTarget id choice
    if sections.has target then checkTargets sections id rest
    else throw (.danglingChoice id target)

/-- Every section of the answer is an object whose choices lead to sections of the answer. -/
def checkGraph (sections : Table Json) : List (String × Json) → Verdict Unit
  | [] => .ok ()
  | (id, section_) :: rest =>
    match section_ with
    | .obj _ => do
      let choices ← choiceList id section_
      checkTargets sections id choices
      checkGraph sections rest
    | _ => .error (.notSection id)

/-- Every section that the former story does not have is named by its key and has text. -/
def checkNew (former : Story) : List (String × Section) → Verdict Unit
  | [] => .ok ()
  | (id, section_) :: rest =>
    if former.hasSection id then checkNew former rest
    else if section_.id != id then .error (.mismatchedId id section_.id)
    else if !section_.hasText then .error (.missingText id)
    else checkNew former rest

/-! ## The extended document -/

/-- The metadata of the extended story: the former metadata, with the answer's characters put in. -/
def mergedMetadata? (former response : Json) : Option Json :=
  let base := (former.field "meta").asObj?
  match (response.field "meta").field "characters" with
  | .obj [] => base.map .obj
  | .obj characters =>
    let fields := base.getD []
    let known := ((Json.obj fields).field "characters").asObj?.getD []
    some (.obj (fields.put "characters" (.obj (Table.merge known characters))))
  | _ => base.map .obj

/-- What the answer does not decide about. -/
def notTheWriters : List String := ["state", "meta"]

/-- What the former document does not decide about alone. -/
def notKept : List String := ["sections", "meta"]

/-- The document of the extended story: the answer's, with the former state and all else that the
former document has beside its sections. -/
def adopt (former response : Table Json) : Table Json :=
  let own := response.filterKeys fun key => !notTheWriters.contains key
  let kept := former.filterKeys fun key => !notKept.contains key
  let document := Table.merge own kept
  match mergedMetadata? (.obj former) (.obj response) with
  | some meta_ => document.put "meta" meta_
  | none => document

/-! ## The review -/

/-- Every section of the baseline stands in the answer. -/
def checkKept (sections : Table Json) (baseline : Table Json) : Verdict Unit :=
  match baseline.keys.find? fun id => !sections.has id with
  | some id => .error (.deleted id)
  | none => .ok ()

/-- Every section of the baseline stands in the answer as it was. -/
def checkAllUnchanged (sections : Table Json) : List (String × Json) → Verdict Unit
  | [] => .ok ()
  | (id, former) :: rest => do
    checkUnchanged id former (((Json.obj sections).field id))
    checkAllUnchanged sections rest

/-- The section to extend exists and has more choices than before. -/
def checkExtended (sections baseline : Table Json) (id : String) : Verdict Unit :=
  match baseline.get? id, sections.get? id with
  | some former, some candidate => do
    let old ← choiceList id former
    let new ← choiceList id candidate
    if new.length ≤ old.length then throw (.notExtended id)
  | _, _ => .error (.unknownExtended id)

/-- Judges the sections and all fields of an answer against the document of the former story. -/
def judgeSections (former : Story) (document sections response : Table Json) (extended : String) :
    Verdict Story := do
  let baseline := former.sectionsJson
  checkKept sections baseline
  checkAllUnchanged sections baseline
  checkExtended sections baseline extended
  checkGraph sections sections
  match Story.check (.obj (adopt document response)) with
  | .bad issues => throw (.mismatch issues)
  | .ok story => do
    checkNew former story.sections
    return story

/-- Judges the document of an answer. -/
def reviewDocument (former : Story) (response : Json) (extended : String) :
    Except WriteFault (Verdict Story) :=
  match response with
  | .obj fields =>
    match response.field "sections" with
    | .obj sections =>
      former.write.map fun document =>
        judgeSections former (document.asObj?.getD []) sections fields extended
    | _ => .ok (.error .noSections)
  | _ => .ok (.error .notObject)

/-- Judges the text of an answer: the extended story, or the first reason against it. -/
def review (former : Story) (response : String) (extended : String) :
    Except WriteFault (Verdict Story) :=
  match readResponse response with
  | .error e => .ok (.error (.unreadable e))
  | .ok document => reviewDocument former document extended

end Gamebook.Extension
