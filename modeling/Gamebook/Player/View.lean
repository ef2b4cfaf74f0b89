import Gamebook.Player.Basic
import Gamebook.Story.Document

/-!
# What the player sees

* `View`, `Story.view`                              : all that is seen of a story in play.
* `Player.text`, `Player.choices`, `Player.history` : what is seen through a player, who may have no
  story.
* `View.toJson`                                     : the view as a document, every field written.
* `View.write`                                      : the same, if its media may be written.

Models `view` of `StoryPlayer` with all that it collects, and `PlayerView`.
-/

set_option autoImplicit false

namespace Gamebook

/-- What the player sees. -/
structure View where
  sectionId : Option String
  text : String
  media : Option Media
  choices : List Choice
  history : List String
  values : Table String
  canForward : Bool
  canBack : Bool

namespace Story

/-- The text of the current section, the values of the variables filled in. -/
def currentText (s : Story) : String := sectionText s.currentSection? s.variableValues

/-- The current choices, the values of the variables filled in. -/
def shownChoices (s : Story) : List Choice :=
  s.currentChoices.map fun c => ⟨some (interpolate s.variableValues c.label), c.next, []⟩

/-- There is exactly one choice. -/
def canForward (s : Story) : Bool := s.currentChoices.length == 1

/-- There is a section to return to. -/
def canBack (s : Story) : Bool := !s.history.isEmpty

def view (s : Story) : View where
  sectionId := s.currentId?
  text := s.currentText
  media := s.currentSection?.bind fun section_ => section_.media.get?
  choices := s.shownChoices
  history := s.history
  values := s.variableValues
  canForward := s.canForward
  canBack := s.canBack

end Story

namespace Player

variable {σ : Type}

def currentId? (p : Player σ) : Option String := p.story.bind Story.currentId?

/-- The sections visited before. -/
def history (p : Player σ) : List String := p.story.elim [] Story.history

/-- The text of the current section; without a story there is none. -/
def text (p : Player σ) : String := p.story.elim "" Story.currentText

/-- The current choices, the values of the variables filled in. -/
def choices (p : Player σ) : List Choice := p.story.elim [] Story.shownChoices

/-- There is exactly one choice. -/
def canForward (p : Player σ) : Bool := p.story.any Story.canForward

/-- There is a section to return to. -/
def canBack (p : Player σ) : Bool := p.story.any Story.canBack

def view (p : Player σ) : Except PlayError View :=
  match p.story with
  | none => .error .notLoaded
  | some s => .ok s.view

end Player

def View.toJson (v : View) : Json :=
  .obj [("section_id", v.sectionId.elim .null .str), ("text", .str v.text),
    ("media", v.media.elim .null Media.toJson), ("choices", .arr (v.choices.map Choice.toJson)),
    ("history", .ofTexts v.history), ("variables", .ofTextTable v.values),
    ("can_step_forward", .bool v.canForward), ("can_step_back", .bool v.canBack)]

/-- No unknown field of the media is nested too deeply to be written. -/
def View.isWritable (v : View) : Bool :=
  v.media.all fun m => m.extra.values.all (Json.isWithin unknownDepth)

/-- The document of a view that may be written. -/
def View.write (v : View) : Except WriteFault Json :=
  if v.isWritable then .ok v.toJson else .error .tooDeep

end Gamebook
