import Gamebook.Prose
import Gamebook.Script.Compare

/-!
# Running a script

A script is run line by line against a story.  A line that cannot be parsed, or that needs a prompt
or a current section which is not there, is skipped with a reason; the lines after it still run.

* `Reply`, `Prompter`   : how the player is asked; `Prompter.ofAnswers` hands out a list of answers.
* `SkipReason`, `Skip`  : why a line was skipped.
* `Interruption`        : what ends a script before its last line.
* `Scene`               : a story with the state of the asking, the questions asked and the skips.
* `Instruction.run`, `Line.run`, `runLines` : one instruction, one line, a script.
* `Line.ofAction`, `Line.ofJson` : lines of a loaded script, and of plain objects.
* `Line.linesOf`        : the lines of a script given as a plain value.
* `runScript`, `runPlain` : a loaded script, and one given as a plain value.

Models `execute_actions` and `run_action`, with `ActionContext` as the scene and one branch of
`Instruction.run` for each handler.
-/

set_option autoImplicit false

namespace Gamebook

/-- The answer to a question. -/
inductive Reply where
  | answer (text : String)
  | cancelled
  /-- Nobody is there to answer any more. -/
  | ended
  deriving DecidableEq, Repr

/-- A way to ask the player, with a state of its own. -/
structure Prompter (σ : Type) where
  ask : String → σ → Reply × σ

/-- Answers in order; an answer of none, or no answer left, cancels. -/
def Prompter.ofAnswers : Prompter (List (Option String)) where
  ask _ answers :=
    match answers with
    | [] => (.cancelled, [])
    | some text :: rest => (.answer text, rest)
    | none :: rest => (.cancelled, rest)

/-- Why a line was skipped. -/
inductive SkipReason where
  | unparsed (error : InvalidAction)
  | noPrompt
  | noCurrentSection
  | missingSection (id : String)
  deriving DecidableEq, Repr

def SkipReason.message : SkipReason → String
  | .unparsed e => e.message
  | .noPrompt => "no prompt available for INPUT"
  | .noCurrentSection => "no current section"
  | .missingSection id => "current section " ++ id ++ " not found"

/-- A skipped line: its index, its tag as written, and the reason. -/
structure Skip where
  index : Nat
  tag : String
  reason : SkipReason
  deriving DecidableEq, Repr

/-- What ends a script before its last line. -/
inductive Interruption where
  | number (fault : NumberFault)
  | promptEnded
  /-- A value of some kind stands where there are items. -/
  | notIterable (kind : String)
  /-- A value of some kind stands where there is a line. -/
  | notLine (kind : String)
  deriving DecidableEq, Repr

def Interruption.message : Interruption → String
  | .number fault => fault.message
  | .promptEnded => ""
  | .notIterable kind => "'" ++ kind ++ "' object is not iterable"
  | .notLine kind => "'" ++ kind ++ "' object has no attribute 'action'"

/-- A story while a script runs. -/
structure Scene (σ : Type) where
  story : Story
  desk : σ
  asked : List String
  skipped : List Skip

namespace Scene

variable {σ : Type}

/-- Notes a skipped line. -/
def skip (scene : Scene σ) (index : Nat) (tag : String) (reason : SkipReason) : Scene σ :=
  { scene with skipped := scene.skipped ++ [⟨index, tag, reason⟩] }

def update (scene : Scene σ) (f : Story → Story) : Scene σ := { scene with story := f scene.story }

end Scene

/-- A variable is set when it has a value that is not empty. -/
def Story.isSet (s : Story) (name : String) : Bool :=
  (s.variableValues.get? name).any fun v => !v.isEmpty

def Story.setValue? (s : Story) (name : String) : Option String :=
  (s.variableValues.get? name).filter fun v => !v.isEmpty

/-- Adds a choice at the end, unless there is one of the same target and label. -/
def Section.addChoice (target label : String) (s : Section) : Section :=
  let choices := s.choices
  let present := choices.any fun c => c.target == target && c.label == label
  { s with next := .value (if present then choices else choices ++ [.added target label]) }

/-- Removes the first choice of a target. -/
def Section.removeChoice (target : String) (s : Section) : Section :=
  { s with next := s.next.map fun choices => choices.eraseP fun c => c.target == target }

/-- The current section, or why there is none. -/
def Story.currentForChoices (s : Story) : Except SkipReason String :=
  match s.currentId? with
  | none => .error .noCurrentSection
  | some id =>
    if id.isEmpty then .error .noCurrentSection
    else if s.hasSection id then .ok id
    else .error (.missingSection id)

section Running

variable {σ : Type}

/-- A scene, and what ended the script if something did. -/
abbrev Outcome (σ : Type) := Scene σ × Option Interruption

/-- Changes the choices of the current section, or skips the line. -/
def changeChoices (index : Nat) (tag : String) (change : Section → Section) (scene : Scene σ) :
    Outcome σ :=
  match scene.story.currentForChoices with
  | .ok id => (scene.update fun s => s.modifySection id change, none)
  | .error reason => (scene.skip index tag reason, none)

/-- Asks for the value of a variable. -/
def askFor (prompter : Option (Prompter σ)) (index : Nat) (tag : String) (name message : String)
    (scene : Scene σ) : Outcome σ :=
  match prompter with
  | none => (scene.skip index tag .noPrompt, none)
  | some p =>
    let (reply, desk) := p.ask message scene.desk
    let scene := { scene with desk := desk, asked := scene.asked ++ [message] }
    match reply with
    | .answer text => (scene.update fun s => s.setVariable name text, none)
    | .cancelled => (scene, none)
    | .ended => (scene, some .promptEnded)

/-- The text of the sum of a variable, zero when it is not set, and an amount. -/
def sumText (s : Story) (name amount : String) : Except NumberFault String := do
  let current ← numberOfText ((s.setValue? name).getD "0")
  let added ← numberOfText amount
  return textOfNumber (current.add added)

/-- Runs one instruction for the line of the given index and tag, at any depth of guarded instructions: the
call stack bounds this no more than it bounds `Instruction.parse`. -/
def Instruction.run (prompter : Option (Prompter σ)) (index : Nat) (tag : String) :
    Instruction String → Scene σ → Outcome σ
  | .none, scene => (scene, Option.none)
  | .input name message, scene => askFor prompter index tag name message scene
  | .set name value, scene => (scene.update fun s => s.setVariable name value, Option.none)
  | .addToVariable name amount, scene =>
    match sumText scene.story name amount with
    | .ok text => (scene.update fun s => s.setVariable name text, Option.none)
    | .error fault => (scene, some (.number fault))
  | .compareDo name operator target guarded, scene =>
    match scene.story.setValue? name with
    | Option.none => (scene, Option.none)
    | some value =>
      match operator.holds (.str value) (.str target) with
      | .ok true => run prompter index tag guarded scene
      | .ok false => (scene, Option.none)
      | .error fault => (scene, some (.number fault))
  | .ifSetDo name guarded, scene =>
    if scene.story.isSet name then run prompter index tag guarded scene else (scene, Option.none)
  | .ifNotSetDo name guarded, scene =>
    if scene.story.isSet name then (scene, Option.none) else run prompter index tag guarded scene
  | .addChoice target label, scene =>
    changeChoices index tag (Section.addChoice target label) scene
  | .removeChoice target, scene => changeChoices index tag (Section.removeChoice target) scene
  | .ifSetAddChoice name target label, scene =>
    if scene.story.isSet name then changeChoices index tag (Section.addChoice target label) scene
    else (scene, Option.none)
  | .ifSetRemoveChoice name target, scene =>
    if scene.story.isSet name then changeChoices index tag (Section.removeChoice target) scene
    else (scene, Option.none)

/-! ## Lines -/

/-- A line of a script as it is run: its tag, and the parameters as texts. -/
structure Line where
  tag : Json
  parameters : Except Interruption (List String)

namespace Line

/-- A line of a loaded script. -/
def ofAction (a : Action) : Line := ⟨.str a.tag, .ok a.arguments⟩

/-- A parameter as text; null is the empty text. -/
def parameterText : Json → String
  | .null => ""
  | v => v.spoken

/-- The items of a value: those of a list, the characters of a text, the keys of an object; none of
a value that counts as missing. -/
def itemsOf (v : Json) : Except Interruption (List Json) :=
  if v.isEmpty then .ok []
  else match v with
    | .arr items => .ok items
    | .str s => .ok (s.toList.map fun c => .str (String.singleton c))
    | .obj fields => .ok ((Table.keys fields).map .str)
    | other => .error (.notIterable other.kindName)

/-- A line given as a plain object; what is no object interrupts the script when its turn comes. -/
def ofJson : Json → Line
  | .obj fields =>
    let v := Json.obj fields
    ⟨v.field "action", (itemsOf (v.field "parameters")).map (·.map parameterText)⟩
  | other => ⟨.null, .error (.notLine other.kindName)⟩

/-- The lines of a script given as a plain value. -/
def linesOf (v : Json) : Except Interruption (List Line) := (itemsOf v).map (·.map ofJson)

def parse (line : Line) (parameters : List String) : Except InvalidAction (Instruction String) :=
  match line.tag with
  | .str tag => Instruction.parse tag parameters
  | tag => .error (.unknownTag tag.shown)

/-- Runs a line; one that cannot be parsed is skipped. -/
def run (prompter : Option (Prompter σ)) (index : Nat) (line : Line) (scene : Scene σ) :
    Outcome σ :=
  match line.parameters with
  | .error interruption => (scene, some interruption)
  | .ok parameters =>
    match line.parse parameters with
    | .error e => (scene.skip index line.tag.spoken (.unparsed e), none)
    | .ok instruction => instruction.run prompter index line.tag.spoken scene

end Line

/-- Runs lines in order, the first of them with the given index. -/
def runLines (prompter : Option (Prompter σ)) (index : Nat) : List Line → Scene σ → Outcome σ
  | [], scene => (scene, none)
  | line :: rest, scene =>
    match line.run prompter index scene with
    | (scene, none) => runLines prompter (index + 1) rest scene
    | (scene, some interruption) => (scene, some interruption)

def runScript (prompter : Option (Prompter σ)) (script : List Action) (scene : Scene σ) :
    Outcome σ :=
  runLines prompter 0 (script.map Line.ofAction) scene

/-- Runs a script that is given as a plain value. -/
def runPlain (prompter : Option (Prompter σ)) (script : Json) (scene : Scene σ) : Outcome σ :=
  match Line.linesOf script with
  | .ok lines => runLines prompter 0 lines scene
  | .error interruption => (scene, some interruption)

end Running

end Gamebook
