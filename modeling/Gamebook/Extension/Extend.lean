import Gamebook.Channel
import Gamebook.Extension.Prompt
import Gamebook.Extension.Review
import Gamebook.Extension.Writer

/-!
# Extending a story

* `Result`      : the extended story, or why there is none.
* `Run`         : the events announced on the way, and the result or the error that broke it off.
* `extendStory` : asks the writer, judges the answer and announces what happens.

Models `extend_story`.
-/

set_option autoImplicit false

namespace Gamebook.Extension

/-- Why there is no extended story. -/
inductive Failure where
  | writer (error : String)
  | rejected (reason : Rejection)
  deriving DecidableEq, Repr

def Failure.message : Failure → String
  | .writer error => "AI extension failed: " ++ (if error.isEmpty then "Unknown error" else error)
  | .rejected reason => reason.message

def Failure.announcement : Failure → String
  | .rejected reason => "AI extension validation failed: " ++ reason.message
  | failure => failure.message

/-- What came of an extension. -/
abbrev Result := Except Failure Story

/-- What breaks an extension off. -/
inductive Break where
  | prompt (error : PromptError)
  | clock (fault : NumberFault)
  | review (fault : WriteFault)
  | graph (error : GraphError)
  deriving DecidableEq, Repr

def Break.message : Break → String
  | .prompt e => e.message
  | .clock e => e.message
  | .review e => e.message
  | .graph e => e.message

/-- The events announced, and the result unless something broke the run off. -/
structure Run where
  events : List ExtensionEvent
  result : Except Break Result

/-- The ids of the sections that only the extended story has. -/
def newSections (former extended : Story) : List String :=
  extended.ids.filter fun id => !former.hasSection id

/-- Judges the text of the writer, its embedded media put back. -/
def judgeText (s : Story) (start : String) (placeholders : Placeholders) (text : String) :
    Except Break Result :=
  match review s (restore text placeholders) start with
  | .error fault => .error (.review fault)
  | .ok (.error reason) => .ok (.error (.rejected reason))
  | .ok (.ok extended) =>
    match extended.checkGraph with
    | .error e => .error (.graph e)
    | .ok () => .ok (.ok extended)

def judge (s : Story) (start : String) (placeholders : Placeholders) (reply : WriterReply) :
    Except Break Result :=
  match reply.progress.fault, reply.outcome with
  | some fault, _ => .error (.clock fault)
  | none, .error error => .ok (.error (.writer error))
  | none, .ok text => judgeText s start placeholders text

/-- Extends a story from a section with what the writer delivers. -/
def extendStory (s : Story) (start : String) (delivery : Delivery) (clock : List Reading) : Run :=
  let started := ExtensionEvent.started start
  match Request.build s start none with
  | .error e => ⟨[started], .error (.prompt e)⟩
  | .ok request =>
    let reply := delivery.reply clock
    let before := started :: reply.progress.lengths.map (ExtensionEvent.progress start)
    match judge s start request.placeholders reply with
    | .error cause => ⟨before, .error cause⟩
    | .ok (.error failure) =>
      ⟨before ++ [.failed start failure.announcement], .ok (.error failure)⟩
    | .ok (.ok extended) =>
      ⟨before ++ [.complete start (newSections s extended)], .ok (.ok extended)⟩

end Gamebook.Extension
