import Gamebook.Schema

/-!
# Stories

A story is a graph of sections joined by choices, with play state and descriptive data.  Every
record keeps which optional fields its document has and the fields nobody declared, so that a
document can be written back as it was.

* `Target`, `Choice`, `Section` : the graph.
* `Action`                      : one line of a section's script, not yet parsed.
* `Media`, `Picture`            : what is shown with a section, and the wish for a drawing.
* `Credit`, `Attribution`, `Metadata`, `VariableDefinition`, `PlayState` : the rest of a document.
* `Story`                       : the whole, with `section?`, `firstId?`, `variableValues` and the
  writes `withState`, `setVariable`, `modifySection` that play uses.

Models `Story` and its parts, with `get_section`, `first_section_id`, `ensure_state`, `variable_values`,
`look_ahead`, `set_story_variable` and `file_safe_title`.
-/

set_option autoImplicit false

namespace Gamebook

/-- The section that a choice leads to, named by a text or by a number. -/
inductive Target where
  | name (s : String)
  | number (n : Int)
  deriving DecidableEq, Repr

/-- The section id that a target means. -/
def Target.id : Target → String
  | .name s => s
  | .number n => Json.intText n

/-- A choice: its label, if the document has one, and where it leads. -/
structure Choice where
  text : Option String
  next : Target
  extra : Table Json := []

namespace Choice

/-- The label; a choice without one has the empty label. -/
def label (c : Choice) : String := c.text.getD ""

/-- The id of the section that the choice leads to. -/
def target (c : Choice) : String := c.next.id

def added (target label : String) : Choice := ⟨some label, .name target, []⟩

end Choice

/-- One line of a script: a tag, and parameters if the document has them. -/
structure Action where
  tag : String
  parameters : Option (List String)
  extra : Table Json := []

/-- The parameters; a line without them has none. -/
def Action.arguments (a : Action) : List String := a.parameters.getD []

inductive MediaKind where
  | image
  | video
  deriving DecidableEq, Repr

def MediaKind.word : MediaKind → String
  | .image => "image"
  | .video => "video"

/-- A picture or film shown with a section. -/
structure Media where
  kind : MediaKind
  source : String
  extra : Table Json := []

/-- The wish for a drawing. -/
structure Picture where
  prompt : String
  negative : Field String
  size : Field String
  extra : Table Json := []

/-- A section: its text, its media, its choices and its script. -/
structure Section where
  id : String
  textLines : Field (List String)
  text : Field String
  media : Field Media
  next : Field (List Choice)
  script : Field (List Action)
  extendable : Field Bool
  picture : Field Picture
  extra : Table Json := []

namespace Section

def choices (s : Section) : List Choice := s.next.get?.getD []

/-- The section has lines of text, were it none, or a text that is not empty. -/
def hasText (s : Section) : Bool :=
  s.textLines.get?.isSome || s.text.get?.any fun t => !t.isEmpty

/-- A section of an id and lines of text only. -/
def ofLines (id : String) (lines : List String) : Section :=
  ⟨id, .value lines, .absent, .absent, .absent, .absent, .absent, .absent, []⟩

end Section

/-- An author or a licence. -/
structure Credit where
  name : String
  url : Field String
  extra : Table Json := []

/-- A credit in full, or only a name. -/
inductive Attribution where
  | credit (c : Credit)
  | name (s : String)

/-- Descriptive data of a story. -/
structure Metadata where
  title : Field String
  author : Field Attribution
  year : Field Target
  license : Field Attribution
  lookAhead : Field Int
  characters : Field (Table String)
  extra : Table Json := []

/-- The definition of a variable. -/
structure VariableDefinition where
  initial : Option String
  description : Field String
  extra : Table Json := []

/-- The state of play. -/
structure PlayState where
  currentSection : Field String
  values : Field (Table String)
  history : Field (List String)
  extra : Table Json := []

/-- A state that says nothing. -/
def PlayState.empty : PlayState := ⟨.absent, .absent, .absent, []⟩

/-- A story document. -/
structure Story where
  metadata : Field Metadata
  state : Field PlayState
  sections : Table Section
  definitions : Field (Table VariableDefinition)
  extra : Table Json := []

namespace Story

/-- A fresh story with one empty section. -/
def fresh : Story := ⟨.absent, .absent, [("1", .ofLines "1" [""])], .absent, []⟩

def section? (s : Story) (id : String) : Option Section := s.sections.get? id

def hasSection (s : Story) (id : String) : Bool := s.sections.has id

def ids (s : Story) : List String := s.sections.keys

def firstId? (s : Story) : Option String := s.ids.head?

/-- The state of play, empty when the document has none. -/
def stateOrEmpty (s : Story) : PlayState := s.state.get?.getD .empty

def variableValues (s : Story) : Table String := s.stateOrEmpty.values.get?.getD []

def currentId? (s : Story) : Option String := s.stateOrEmpty.currentSection.get?

/-- The sections visited before. -/
def history (s : Story) : List String := s.stateOrEmpty.history.get?.getD []

def lookAhead? (s : Story) : Option Int := s.metadata.get?.bind fun m => m.lookAhead.get?

def title? (s : Story) : Option String := s.metadata.get?.bind fun m => m.title.get?

/-- The story with its state changed, which is there afterwards. -/
def withState (s : Story) (f : PlayState → PlayState) : Story :=
  { s with state := .value (f s.stateOrEmpty) }

def setVariable (s : Story) (name value : String) : Story :=
  s.withState fun st =>
    { st with values := .value (Table.put (st.values.get?.getD []) name value) }

def modifySection (s : Story) (id : String) (f : Section → Section) : Story :=
  { s with sections := s.sections.modify id f }

/-- A title as a file name: letters and digits of ASCII, underscores and hyphens stay, every other
character becomes an underscore. -/
def fileTitle (story? : Option Story) : String :=
  match (story?.bind title?) with
  | none => "story_adventure"
  | some t =>
    if t.isEmpty then "story_adventure"
    else t.map fun c => if c.isAlphanum || c == '_' || c == '-' then c else '_'

end Story

end Gamebook
