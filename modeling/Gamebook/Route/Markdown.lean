import Gamebook.Prose
import Gamebook.Route.Search

/-!
# A read-through as Markdown

* `Section.markdown`  : one section: its text, and its picture if it has one.
* `Story.markdown`    : sections in order; ids without a section are passed over.
* `Story.linearize`   : the sections of the first route that meets the wishes.
* `LinearizeError`    : why there is no such text, and the wording.

Models `markdown_from_section_ids` and `linearize_story`.
-/

set_option autoImplicit false

namespace Gamebook

/-- A section asked for, or nothing. -/
abbrev SectionRef := Option String

/-- A section asked for, as messages show it. -/
def SectionRef.shown (ref : SectionRef) : String := ref.getD "None"

def Section.markdown (values : Table String) (s : Section) : String :=
  interpolate values s.plainText ++ "\n\n" ++
    match s.media.get? with
    | some ⟨.image, source, _⟩ => if source.isEmpty then "" else "![](" ++ source ++ ")\n\n"
    | _ => ""

def Story.markdown (s : Story) (ids : List SectionRef) : String :=
  String.join (ids.filterMap fun ref =>
    (ref.bind s.section?).map (Section.markdown s.variableValues))

/-- Why there is no read-through. -/
inductive LinearizeError where
  | missingSection (ref : SectionRef)
  | noRoute (start finish : SectionRef) (through : List SectionRef)
  | number (fault : NumberFault)
  deriving DecidableEq, Repr

def LinearizeError.message : LinearizeError → String
  | .missingSection ref => "Section \"" ++ ref.shown ++ "\" does not exist"
  | .noRoute start finish through =>
    "Could not find a linear story which starts at " ++ start.shown ++ " and ends at " ++
      finish.shown ++ " while passing through all of " ++
      ", ".intercalate (through.map SectionRef.shown)
  | .number fault => fault.message

/-- A read-through from a start to an end, by way of the sections asked for. -/
def Story.linearize (s : Story) (start finish : SectionRef) (through : List SectionRef)
    (maxLength : Option Int) : Except LinearizeError String :=
  match (start :: finish :: through).find? fun ref => !ref.any s.hasSection with
  | some ref => .error (.missingSection ref)
  | none =>
    match Route.search s start.toList ⟨finish.shown, through.map SectionRef.shown, maxLength⟩ with
    | .error fault => .error (.number fault)
    | .ok none => .error (.noRoute start finish through)
    | .ok (some route) => .ok (s.markdown (route.map some))

end Gamebook
