import Gamebook.Story.Basic

/-!
# Writing a story document

A document shows the fields that were loaded or set since, declared fields first and in their order,
then the unknown fields in theirs.  Numbers that are not finite are written as null.  A document is
written only when no unknown field is nested too deeply.

* `Story.toJson`                       : the document of a story.
* `Story.compactText`, `Story.prettyText` : its text on one line, and indented.
* `Story.unknownValues`, `Story.isWritable` : the values of all unknown fields, and whether they may
  be written.
* `WriteFault`                         : why a document is not written, and the wording.
* `Story.write`, `Story.writeCompact`, `Story.writePretty` : the document and its texts, or that fault.

Models `to_json_dict` and `to_json_text`.
-/

set_option autoImplicit false

namespace Gamebook

def Target.toJson : Target → Json
  | .name s => .str s
  | .number n => .int n

def Json.ofTexts (texts : List String) : Json := .arr (texts.map .str)

def Json.ofTextTable (t : Table String) : Json := .obj (t.mapValues .str)

def Json.defaultedEntry {α : Type} (key : String) (write : α → Json) :
    Option α → List (String × Json)
  | none => []
  | some a => [(key, write a)]

/-- The object of declared entries and unknown fields. -/
def Json.record (entries : List (List (String × Json))) (extra : Table Json) : Json :=
  .obj (entries.flatten ++ Json.finiteFields extra)

def Choice.toJson (c : Choice) : Json :=
  .record [Json.defaultedEntry "text" .str c.text, [("next", c.next.toJson)]] c.extra

def Action.toJson (a : Action) : Json :=
  .record [[("action", .str a.tag)], Json.defaultedEntry "parameters" .ofTexts a.parameters] a.extra

def Media.toJson (m : Media) : Json :=
  .record [[("type", .str m.kind.word), ("src", .str m.source)]] m.extra

def Picture.toJson (p : Picture) : Json :=
  .record [[("prompt", .str p.prompt)], p.negative.entry "negative_prompt" .str,
    p.size.entry "size" .str] p.extra

def Section.toJson (s : Section) : Json :=
  .record [[("id", .str s.id)], s.textLines.entry "text_lines" .ofTexts, s.text.entry "text" .str,
    s.media.entry "media" Media.toJson,
    s.next.entry "next" fun cs => .arr (cs.map Choice.toJson),
    s.script.entry "script" fun as => .arr (as.map Action.toJson),
    s.extendable.entry "ai_extendable" .bool, s.picture.entry "ai_gen" Picture.toJson] s.extra

def Credit.toJson (c : Credit) : Json :=
  .record [[("name", .str c.name)], c.url.entry "url" .str] c.extra

/-- A credit in full or a name. -/
def Attribution.toJson : Attribution → Json
  | .credit c => c.toJson
  | .name s => .str s

def Metadata.toJson (m : Metadata) : Json :=
  .record [m.title.entry "title" .str, m.author.entry "author" Attribution.toJson,
    m.year.entry "year" Target.toJson, m.license.entry "license" Attribution.toJson,
    m.lookAhead.entry "ai_gen_look_ahead" .int,
    m.characters.entry "characters" .ofTextTable] m.extra

def VariableDefinition.toJson (d : VariableDefinition) : Json :=
  .record [Json.defaultedEntry "default" .str d.initial,
    d.description.entry "description" .str] d.extra

def PlayState.toJson (s : PlayState) : Json :=
  .record [s.currentSection.entry "current_section" .str,
    s.values.entry "variables" .ofTextTable, s.history.entry "history" .ofTexts] s.extra

def Story.sectionsJson (s : Story) : Table Json := s.sections.mapValues Section.toJson

def Story.toJson (s : Story) : Json :=
  .record [s.metadata.entry "meta" Metadata.toJson, s.state.entry "state" PlayState.toJson,
    [("sections", .obj s.sectionsJson)],
    s.definitions.entry "variables" fun t => .obj (t.mapValues VariableDefinition.toJson)] s.extra

/-- The text of a story on one line. -/
def Story.compactText (s : Story) : String := s.toJson.compact

/-- The indented text of a story. -/
def Story.prettyText (s : Story) : String := s.toJson.pretty

/-! ## What may be written -/

/-- What is collected from the value of a field; a field without a value has nothing. -/
def Field.collect {α β : Type} (items : α → List β) (f : Field α) : List β := f.get?.elim [] items

/-- The values of the unknown fields of a section and of what is in it. -/
def Section.unknownValues (s : Section) : List Json :=
  s.extra.values ++ s.media.collect (fun m => m.extra.values) ++
    s.next.collect (fun cs => cs.flatMap fun c => c.extra.values) ++
    s.script.collect (fun as => as.flatMap fun a => a.extra.values) ++
    s.picture.collect fun p => p.extra.values

/-- The values of the unknown fields of an author or a licence. -/
def Attribution.unknownValues : Attribution → List Json
  | .credit c => c.extra.values
  | .name _ => []

/-- The values of the unknown fields of metadata and of what is in it. -/
def Metadata.unknownValues (m : Metadata) : List Json :=
  m.extra.values ++ m.author.collect Attribution.unknownValues ++
    m.license.collect Attribution.unknownValues

def Story.unknownValues (s : Story) : List Json :=
  s.extra.values ++ s.metadata.collect Metadata.unknownValues ++
    s.state.collect (fun st => st.extra.values) ++
    s.sections.values.flatMap Section.unknownValues ++
    s.definitions.collect fun t => t.values.flatMap fun d => d.extra.values

/-- The deepest nesting of an unknown field that is written. -/
def unknownDepth : Nat := 255

/-- No unknown field is nested too deeply to be written. -/
def Story.isWritable (s : Story) : Bool := s.unknownValues.all (Json.isWithin unknownDepth)

/-- Why a document is not written. -/
inductive WriteFault where
  /-- An unknown field is nested too deeply. -/
  | tooDeep
  deriving DecidableEq, Repr

def WriteFault.message : WriteFault → String
  | .tooDeep => "Maximum serialization depth exceeded"

/-- The document of a story that may be written. -/
def Story.write (s : Story) : Except WriteFault Json :=
  if s.isWritable then .ok s.toJson else .error .tooDeep

/-- The text of a story on one line, if it may be written. -/
def Story.writeCompact (s : Story) : Except WriteFault String := s.write.map Json.compact

/-- The indented text of a story, if it may be written. -/
def Story.writePretty (s : Story) : Except WriteFault String := s.write.map Json.pretty

end Gamebook
