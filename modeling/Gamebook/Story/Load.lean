import Gamebook.Story.Basic
import Gamebook.Json.Reader

/-!
# Loading a story document

* `Story.check`   : a story out of a JSON object, or all issues in the order of the declared fields.
* `StoryError`    : why a text is no story, and the wording.
* `Story.ofJson`, `Story.ofText` : loading with that error.

Models `from_json_dict` and `from_json_text`, with the validators of each part of a story.
-/

set_option autoImplicit false

namespace Gamebook

open Check

namespace Target

/-- A target: a text or whole number as it is, otherwise read as a whole number. -/
def check (v : Json) : Checked Target :=
  match v with
  | .str s => .ok (.name s)
  | v =>
    match int v with
    | .ok n => .ok (.number n)
    | bad => .seq (.map (fun _ t => t) ((Checked.fail .notText v : Checked Unit).under "str"))
        (.map .number (bad.under "int"))

end Target

def Choice.check : Json → Checked Choice := model fun fs =>
  (Choice.mk · · (unknown fs ["text", "next"]))
    <$> defaulted fs "text" Check.text
    <*> required fs "next" Target.check

/-- The parameters of an action: null is an empty list, a null in it the empty text. -/
def Action.checkParameters : Json → Checked (List String)
  | .null => .ok []
  | v => list (fun item => if item.isNull then .ok "" else scalarText item) v

def Action.check : Json → Checked Action := model fun fs =>
  (Action.mk · · (unknown fs ["action", "parameters"]))
    <$> required fs "action" text
    <*> defaulted fs "parameters" Action.checkParameters

def MediaKind.check : Json → Checked MediaKind
  | .str "image" => .ok .image
  | .str "video" => .ok .video
  | v => .fail .notLiteral v

def Media.check : Json → Checked Media := model fun fs =>
  (Media.mk · · (unknown fs ["type", "src"]))
    <$> required fs "type" MediaKind.check
    <*> required fs "src" text

def Picture.check : Json → Checked Picture := model fun fs =>
  (Picture.mk · · · (unknown fs ["prompt", "negative_prompt", "size"]))
    <$> required fs "prompt" text
    <*> optional fs "negative_prompt" text
    <*> optional fs "size" text

def Section.declared : List String :=
  ["id", "text_lines", "text", "media", "next", "script", "ai_extendable", "ai_gen"]

def Section.check : Json → Checked Section := model fun fs =>
  (Section.mk · · · · · · · · (unknown fs Section.declared))
    <$> required fs "id" scalarText
    <*> optional fs "text_lines" (list Check.text)
    <*> optional fs "text" Check.text
    <*> optional fs "media" Media.check
    <*> optional fs "next" (list Choice.check)
    <*> optional fs "script" (list Action.check)
    <*> optional fs "ai_extendable" bool
    <*> optional fs "ai_gen" Picture.check

/-- An author or a licence in full. -/
def Credit.check : Json → Checked Credit := model fun fs =>
  (Credit.mk · · (unknown fs ["name", "url"]))
    <$> required fs "name" text
    <*> optional fs "url" text

/-- A credit in full or a name; `member` names the full form in reports. -/
def Attribution.check (member : String) : Json → Checked Attribution
  | .str s => .ok (.name s)
  | v =>
    match Credit.check v with
    | .ok c => .ok (.credit c)
    | bad => .seq (.map (fun _ a => a) (bad.under member)) ((Checked.fail .notText v).under "str")

def Metadata.declared : List String :=
  ["title", "author", "year", "license", "ai_gen_look_ahead", "characters"]

def Metadata.check : Json → Checked Metadata := model fun fs =>
  (Metadata.mk · · · · · · (unknown fs Metadata.declared))
    <$> optional fs "title" text
    <*> optional fs "author" (Attribution.check "Author")
    <*> optional fs "year" Target.check
    <*> optional fs "license" (Attribution.check "License")
    <*> optional fs "ai_gen_look_ahead" int
    <*> optional fs "characters" (Check.map text)

def VariableDefinition.check : Json → Checked VariableDefinition := model fun fs =>
  (VariableDefinition.mk · · (unknown fs ["default", "description"]))
    <$> defaulted fs "default" scalarText
    <*> optional fs "description" text

def PlayState.check : Json → Checked PlayState := model fun fs =>
  (PlayState.mk · · · (unknown fs ["current_section", "variables", "history"]))
    <$> optional fs "current_section" scalarText
    <*> optional fs "variables" (Check.map scalarText)
    <*> optional fs "history" (list scalarText)

def Story.declared : List String := ["meta", "state", "sections", "variables"]

def Story.check : Json → Checked Story := model fun fs =>
  (Story.mk · · · · (unknown fs Story.declared))
    <$> optional fs "meta" Metadata.check
    <*> optional fs "state" PlayState.check
    <*> required fs "sections" (Check.map Section.check)
    <*> optional fs "variables" (Check.map VariableDefinition.check)

/-! ## Loading -/

/-- Why a document is no story. -/
inductive StoryError where
  /-- The text is not JSON. -/
  | json (error : JsonError)
  /-- The document is no object. -/
  | notObject
  /-- The object does not match the schema. -/
  | mismatch (issues : List Issue)
  deriving DecidableEq, Repr

def StoryError.message : StoryError → String
  | .json e =>
    match e with
    | .syntaxFault .. => "Story file is not valid JSON: " ++ e.message
    | _ => e.message
  | .notObject => "Story document must be a JSON object"
  | .mismatch issues =>
    "Story document does not match the story format [" ++ Issue.reports issues ++ "]"

/-- A limit of the reader stopped the loading, so that the text was not judged as a story. -/
def StoryError.isLimit : StoryError → Bool
  | .json (.syntaxFault ..) => false
  | .json _ => true
  | _ => false

def Story.ofJson (v : Json) : Except StoryError Story :=
  match v with
  | .obj _ =>
    match Story.check v with
    | .ok s => .ok s
    | .bad issues => .error (.mismatch issues)
  | _ => .error .notObject

def Story.ofText (text : String) : Except StoryError Story :=
  match Json.read text with
  | .ok v => Story.ofJson v
  | .error e => .error (.json e)

end Gamebook
