import Gamebook.Story.Load
import Gamebook.Text.Encoding

/-!
# Bodies of requests

* `BodyFault`                  : why a body is refused.
* `readBody`, `readOptional`   : a body that must be there, and one that may be missing.
* `Creation`, `Entrance`, `Pick`, `Answers`, `Journey`, `Wish`, `Proposal` : the bodies.

Models `StoryCreate`, `SectionRequest`, `ChoiceRequest`, `Answers`, `LinearizeRequest`, `ExtendRequest`
and `ValidateExtensionRequest`.
-/

set_option autoImplicit false

namespace Gamebook.Service

open Check

/-- Why a body is refused. -/
inductive BodyFault where
  | missing
  /-- The body is not JSON from a position on. -/
  | notJson (position : Nat)
  /-- The body is no text, or goes beyond a limit of the reader. -/
  | unread
  | mismatch (issues : List Issue)
  deriving DecidableEq, Repr

/-- A value in place of an object is reported as lacking attributes. -/
def bodyIssue (i : Issue) : Issue :=
  if i.kind = .notModel then { i with kind := .notAttributes } else i

def checkBody {α : Type} (check : Json → Checked α) (v : Json) : Except BodyFault α :=
  match check v with
  | .ok a => .ok a
  | .bad issues => .error (.mismatch (issues.map bodyIssue))

/-- The value of a body; none for an empty one.  The octets of the body decide about its encoding. -/
def bodyValue (body : Option String) : Except BodyFault (Option Json) :=
  let octets := body.getD ""
  if octets.isEmpty then .ok none
  else
    match Text.ofJsonOctets? octets with
    | none => .error .unread
    | some text =>
      match Json.read text with
      | .ok v => .ok (some v)
      | .error (.syntaxFault _ position ..) => .error (.notJson position)
      | .error _ => .error .unread

/-- A body that must be there. -/
def readBody {α : Type} (check : Json → Checked α) (body : Option String) : Except BodyFault α := do
  match ← bodyValue body with
  | none => throw .missing
  | some v => checkBody check v

/-- A body that may be missing or null. -/
def readOptional {α : Type} (check : Json → Checked α) (body : Option String) :
    Except BodyFault (Option α) := do
  match ← bodyValue body with
  | none => return none
  | some .null => return none
  | some v => some <$> checkBody check v

/-- A story to store, under a key if one is given; a fresh one if none is. -/
structure Creation where
  key : Option String
  story : Option Story

def Creation.check : Json → Checked Creation := model fun fs =>
  (fun key story => ⟨key.get?, story.get?⟩)
    <$> optional fs "key" text
    <*> optional fs "story" Story.check

/-- The field of the answers to the questions of scripts. -/
def answersField (fs : Table Json) : Checked (List String) :=
  .map (·.getD []) (defaulted fs "answers" (list text))

def Answers.check : Json → Checked (List String) := model answersField

/-- A section to enter. -/
structure Entrance where
  answers : List String
  section_ : Target

def Entrance.check : Json → Checked Entrance := model fun fs =>
  Entrance.mk <$> answersField fs <*> required fs "section_id" Target.check

/-- A choice to follow. -/
structure Pick where
  answers : List String
  index : Int

def Pick.check : Json → Checked Pick := model fun fs =>
  Pick.mk <$> answersField fs <*> required fs "index" int

/-- A read-through to write. -/
structure Journey where
  start : Target
  finish : Target
  through : List Target

/-- A read-through to write. -/
def Journey.check : Json → Checked Journey := model fun fs =>
  (fun start finish through => ⟨start, finish, through.getD []⟩)
    <$> required fs "start_at" Target.check
    <*> required fs "end_at" Target.check
    <*> defaulted fs "passing_through" (list Target.check)

/-- The section to extend, if one is named. -/
def Wish.check : Json → Checked (Option Target) := model fun fs =>
  .map Field.get? (optional fs "section_id" Target.check)

/-- An answer of a writer asked by somebody else. -/
structure Proposal where
  section_ : Target
  response : String

/-- An answer of a writer asked by somebody else. -/
def Proposal.check : Json → Checked Proposal := model fun fs =>
  Proposal.mk <$> required fs "section_id" Target.check <*> required fs "response" text

end Gamebook.Service
