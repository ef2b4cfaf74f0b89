import Gamebook.Script.Run

/-!
# Playing a story

* `PlayError`            : why a step is refused, and the wording.
* `Player`               : a story in play, or none, with the questions asked and the lines skipped.
* `Player.load`          : starts a story at its saved position, or at its first section.
* `Player.enter`         : makes a section current and runs its script.
* `Player.forward`, `Player.back`, `Player.choose` : follow the only choice, the history, a choice.
* `Move`, `Player.move` : a step of play as a value, and taking it.

Every step returns the player after it.  A refused step leaves the player as it was, except that a
story without sections takes the former one away.

Models `StoryPlayer` with `load_story`, `load_section`, `one_step_forward`, `one_step_back` and
`choose`.
-/

set_option autoImplicit false

namespace Gamebook

/-- Why a step of play is refused. -/
inductive PlayError where
  | notLoaded
  | noSections
  | missingSection (id : String)
  | invalidChoice (index : Int) (available : Nat)
  /-- A script ended before its last line, after the section was entered. -/
  | interrupted (cause : Interruption)
  deriving DecidableEq, Repr

def PlayError.message : PlayError → String
  | .notLoaded => "No story loaded"
  | .noSections => "This story has no sections. Please load a different one."
  | .missingSection id => "Section " ++ id ++ " is missing from the story"
  | .invalidChoice index available =>
    "Choice " ++ Json.intText index ++ " does not exist (the section has " ++
      Nat.repr available ++ " choices)"
  | .interrupted cause => cause.message

inductive PlayMode where
  | menu
  | playing
  deriving DecidableEq, Repr

def PlayMode.word : PlayMode → String
  | .menu => "MENU"
  | .playing => "PLAYING"

/-- A player. -/
structure Player (σ : Type) where
  story : Option Story
  desk : σ
  asked : List String
  skipped : List Skip

namespace Player

variable {σ : Type}

/-- A player without a story. -/
def idle (desk : σ) : Player σ := ⟨none, desk, [], []⟩

/-- A player is in the menu until a story is loaded. -/
def mode (p : Player σ) : PlayMode := if p.story.isSome then .playing else .menu

end Player

/-- The story as it is when its play starts: the current section is there, else the first one is
current, and there is a history. -/
def Story.started (s : Story) : Story :=
  s.withState fun st =>
    let saved := st.currentSection.get?.filter fun id => !id.isEmpty && s.hasSection id
    { st with
      currentSection := match saved with
        | some _ => st.currentSection
        | none =>
          match s.firstId? with
          | some id => .value id
          | none => .null
      history := .value (st.history.get?.getD []) }

/-- The story with a section made current; the former one is remembered if asked. -/
def Story.entered (s : Story) (id : String) (remember : Bool) : Story :=
  s.withState fun st =>
    let past := st.history.get?.getD []
    let past := if remember then past ++ st.currentSection.get?.toList else past
    { st with history := .value past, currentSection := .value id }

def Story.currentSection? (s : Story) : Option Section := s.currentId?.bind s.section?

/-- The choices of the current section as they are stored. -/
def Story.currentChoices (s : Story) : List Choice := s.currentSection?.elim [] Section.choices

namespace Player

variable {σ : Type}

/-- A step: the player after it, and its result or why it is refused. -/
abbrev Step (σ : Type) (α : Type) := Player σ × Except PlayError α

def load (p : Player σ) (story : Option Story) : Step σ Unit :=
  match story with
  | none => ({ p with story := none }, .error .noSections)
  | some s =>
    if s.sections.isEmpty then ({ p with story := none }, .error .noSections)
    else ({ p with story := some s.started }, .ok ())

/-- Runs the script of the section just entered. -/
def runEntered (prompter : Option (Prompter σ)) (p : Player σ) (s : Story) (entered : Section) :
    Step σ Unit :=
  let (scene, ended) :=
    runScript prompter (entered.script.get?.getD []) ⟨s, p.desk, p.asked, p.skipped⟩
  (⟨some scene.story, scene.desk, scene.asked, scene.skipped⟩,
    match ended with
    | none => .ok ()
    | some cause => .error (.interrupted cause))

/-- Makes a section current and runs its script. -/
def enter (prompter : Option (Prompter σ)) (p : Player σ) (id : String) (remember : Bool) :
    Step σ Unit :=
  match p.story with
  | none => (p, .error .notLoaded)
  | some s =>
    match s.section? id with
    | none => (p, .error (.missingSection id))
    | some entered => p.runEntered prompter (s.entered id remember) entered

/-- The choices of the current section as they are stored. -/
def storedChoices (p : Player σ) : List Choice := p.story.elim [] Story.currentChoices

/-- Follows the only choice; false when there is none or more than one. -/
def forward (prompter : Option (Prompter σ)) (p : Player σ) : Step σ Bool :=
  match p.storedChoices with
  | [c] =>
    let (p, result) := p.enter prompter c.target true
    (p, result.map fun _ => true)
  | _ => (p, .ok false)

/-- Returns to the section entered last before, which leaves the history; false when there is none. -/
def back (prompter : Option (Prompter σ)) (p : Player σ) : Step σ Bool :=
  match p.story with
  | none => (p, .error .notLoaded)
  | some s =>
    match s.history.getLast? with
    | none => (p, .ok false)
    | some previous =>
      if s.hasSection previous then
        let popped := s.withState fun st => { st with history := st.history.map List.dropLast }
        let (p, result) := { p with story := some popped }.enter prompter previous false
        (p, result.map fun _ => true)
      else (p, .error (.missingSection previous))

/-- Follows the choice of an index, counted from zero. -/
def choose (prompter : Option (Prompter σ)) (p : Player σ) (index : Int) : Step σ Unit :=
  let choices := p.storedChoices
  match (if index < 0 then none else choices[index.toNat]?) with
  | some c => p.enter prompter c.target true
  | none => (p, .error (.invalidChoice index choices.length))

end Player

/-- A step of play. -/
inductive Move where
  /-- To a section of one's own choice, the current one remembered. -/
  | enter (id : String)
  | choose (index : Int)
  | forward
  | back
  deriving DecidableEq, Repr

def Player.move {σ : Type} (prompter : Option (Prompter σ)) (p : Player σ) : Move → Step σ Unit
  | .enter id => p.enter prompter id true
  | .choose index => p.choose prompter index
  | .forward =>
    let (p, result) := p.forward prompter
    (p, result.map fun _ => ())
  | .back =>
    let (p, result) := p.back prompter
    (p, result.map fun _ => ())

end Gamebook
