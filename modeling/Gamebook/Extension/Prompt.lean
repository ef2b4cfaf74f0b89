import Gamebook.Extension.Media
import Gamebook.Story.Document
import Gamebook.Story.Graph

/-!
# What the writer is asked

* `instructions`   : the standing instructions to the writer.
* `userPrompt`     : the request for one section, with the story's metadata and all its sections.
* `Request.build`  : both messages, and the placeholders of the embedded media.
* `PromptError`    : why no request can be made, and the wording.

Models `build_user_prompt` and `build_prompt_messages`.
-/

set_option autoImplicit false

namespace Gamebook.Extension

def instructionLines : List String := [
  "You are a creative writer extending an interactive branching story adventure.",
  "",
  "## Story Structure",
  "The story is a directed graph of sections. Each section has:",
  "- a unique \"id\" equal to its key in \"sections\"",
  "- text content in \"text_lines\" (a list of Markdown lines) or \"text\"",
  "- optional \"media\" (\x7b\"type\": \"image\" | \"video\", \"src\": \"...\"\x7d)",
  "- \"next\": the choices leading to other sections, each \x7b\"text\": \"label\", \"next\": \"target id\"\x7d",
  "- optional \"script\" actions and an optional \"ai_gen\" object with a visual description",
  "",
  "## Your Task",
  "You receive the story metadata, every existing section and the id of the section to extend.",
  "Answer with the complete story \"sections\" object, extended:",
  "- every existing section, byte for byte as you received it, including its id, text, text_lines, media and script",
  "- existing choices stay in place and in order; new choices are only appended at the end of a \"next\" list",
  "- the section to extend gets at least one new choice",
  "- new sections use new unique ids such as \"<id>_ext_1\", \"<id>_ext_2\"",
  "- every choice target is an existing section or one of your new sections",
  "",
  "## Critical Rules",
  "1. Respond with ONLY a JSON object of the form \x7b\"sections\": \x7b...\x7d, \"meta\": \x7b\"characters\": \x7b...\x7d\x7d\x7d.",
  "   No explanations and no markdown code fences.",
  "2. Never delete or rename a section and never edit existing text, media or scripts.",
  "3. Give each new section text and, ideally, an \"ai_gen\": \x7b\"prompt\": \"visual description\"\x7d.",
  "4. Match the style, tone and language of the existing story and keep characters consistent.",
  "   Add profiles for new characters to meta.characters.",
  "5. Create meaningful choices (usually 2-3 per branch point). Branches may merge back into existing sections.",
  "",
  "## Example",
  "Extending section \"5\" of a story whose section \"5\" has one choice to \"6\":",
  "\x7b",
  "  \"sections\": \x7b",
  "    \"5\": \x7b\"id\": \"5\", \"text_lines\": [\"You stand at a crossroads.\"],",
  "          \"next\": [\x7b\"text\": \"Go left\", \"next\": \"6\"\x7d, \x7b\"text\": \"Enter the library\", \"next\": \"5_ext_1\"\x7d]\x7d,",
  "    \"6\": \x7b\"id\": \"6\", \"text\": \"The left road ends at the sea.\", \"next\": []\x7d,",
  "    \"5_ext_1\": \x7b\"id\": \"5_ext_1\", \"text_lines\": [\"# A New Discovery\", \"\", \"Dusty books line the walls.\"],",
  "                \"ai_gen\": \x7b\"prompt\": \"Ancient library interior, candlelight, gothic architecture\"\x7d,",
  "                \"next\": [\x7b\"text\": \"Leave quickly\", \"next\": \"6\"\x7d]\x7d",
  "  \x7d,",
  "  \"meta\": \x7b\"characters\": \x7b\"Librarian\": \"Elderly keeper of the library, speaks in riddles\"\x7d\x7d",
  "\x7d"]

def instructions : String := "\n".intercalate instructionLines

/-- Why no request can be made. -/
inductive PromptError where
  /-- The story cannot be written. -/
  | write (fault : WriteFault)
  /-- A number has too many digits to be written. -/
  | digitLimit
  deriving DecidableEq, Repr

def PromptError.message : PromptError → String
  | .write fault => fault.message
  | .digitLimit =>
    "Exceeds the limit (4300 digits) for integer string conversion; " ++
      "use sys.set_int_max_str_digits() to increase the limit"

/-! ## The story's metadata for the writer -/

/-- A credit for the writer: fields without a value are left out. -/
def attributionSummary : Attribution → Json
  | .name s => .str s
  | .credit c =>
    .obj ([("name", .str c.name)] ++ (c.url.get?.map fun u => ("url", Json.str u)).toList ++
      (c.extra.filter fun e => !e.2.isNull).map fun e => (e.1, e.2.finiteOnly))

/-- Title, author and characters, as far as there are any; the characters always. -/
def metadataSummary (m : Field Metadata) : Json :=
  match m.get? with
  | none => .obj [("title", .str "Untitled Story"), ("characters", .obj [])]
  | some m =>
    .obj ((m.title.get?.map fun t => ("title", Json.str t)).toList ++
      (m.author.get?.map fun a => ("author", attributionSummary a)).toList ++
      [("characters", .ofTextTable (m.characters.get?.getD []))])

/-! ## The request -/

/-- The sections to focus on: those visited before, then those within the look-ahead. -/
def relevantIds (s : Story) (start : String) (lookAhead : Int) : List String :=
  (s.reachable start lookAhead).foldl
    (fun ids id => if ids.contains id then ids else ids ++ [id]) (s.history.filter s.hasSection)

/-- The least length of a path that is asked for. -/
def pathLength (lookAhead : Int) : Except PromptError String :=
  let text := Json.intText (4 * lookAhead)
  if 4300 < (Nat.repr (4 * lookAhead).natAbs).length then .error .digitLimit else .ok text

def userPromptLines (s : Story) (start : String) (lookAhead : Int) (sections : Json)
    (length : String) : List String := [
  "Extend the story from section \"" ++ start ++ "\".",
  "",
  "## Story Context",
  "",
  "Story metadata and existing character profiles:",
  (Json.obj [("meta", metadataSummary s.metadata)]).pretty,
  "",
  "Sections the player visited and sections near \"" ++ start ++
    "\" (focus your writing on these):",
  ", ".intercalate (relevantIds s start lookAhead),
  "",
  "All existing sections (return every one of them unchanged):",
  sections.pretty,
  "",
  "## Your Task",
  "",
  "1. Return every existing section exactly as given, including section \"" ++ start ++ "\"",
  "2. Append new choices to the \"next\" list of section \"" ++ start ++ "\"",
  "3. Create new sections with unique ids (\"" ++ start ++ "_ext_1\", \"" ++ start ++
    "_ext_2\", ...)",
  "4. Generate at least one complete story path of minimum length: " ++ length ++ " sections",
  "5. Every choice target must be an existing section id or one of your new sections",
  "",
  "Respond with ONLY the JSON object."]

def userPrompt (s : Story) (start : String) (lookAhead : Int) (sections : Json) :
    Except PromptError String := do
  let length ← pathLength lookAhead
  return "\n".intercalate (userPromptLines s start lookAhead sections length)

/-- A message to the writer. -/
structure Message where
  role : String
  content : String
  deriving DecidableEq, Repr

/-- The messages of a request, and what stands for the embedded media in them. -/
structure Request where
  messages : List Message
  placeholders : Placeholders

/-- The request to extend a story from a section. -/
def Request.build (s : Story) (start : String) (lookAhead : Option Int)
    (setting : Int := Story.defaultLookAhead) : Except PromptError Request := do
  if !s.isWritable then throw (.write .tooDeep)
  let (fields, placeholders) := stripFields s.sectionsJson []
  let content ← userPrompt s start (s.effectiveLookAhead lookAhead setting) (.obj fields)
  return ⟨[⟨"system", instructions⟩, ⟨"user", content⟩], placeholders⟩

end Gamebook.Extension
