import Gamebook.Json.Reader
import Gamebook.Json.Shown

/-!
# Events about an extension

* `ExtensionEvent`            : what is announced while a story is extended.
* `channelName`, `ExtensionEvent.toJson` : where and as what it is announced.
* `eventFrame`                : a channel message as one event of an event stream.
* `eventStream`               : the frames of a channel up to the event that ends an extension.

Models `story_channel`, `publish_story_event`, `format_sse` and `sse_generator`.
-/

set_option autoImplicit false

namespace Gamebook

/-- What is announced while a story is extended from a section. -/
inductive ExtensionEvent where
  | started (sectionId : String)
  | progress (sectionId : String) (received : Nat)
  | failed (sectionId : String) (message : String)
  | complete (sectionId : String) (newSections : List String)
  deriving DecidableEq, Repr

def channelName (key : String) : String := "story:" ++ key

namespace ExtensionEvent

def name : ExtensionEvent → String
  | .started .. => "extension_started"
  | .progress .. => "extension_progress"
  | .failed .. => "extension_failed"
  | .complete .. => "extension_complete"

def isTerminal : ExtensionEvent → Bool
  | .failed .. => true
  | .complete .. => true
  | _ => false

def sectionId : ExtensionEvent → String
  | .started id => id
  | .progress id _ => id
  | .failed id _ => id
  | .complete id _ => id

/-- What an event says besides its name and section. -/
def detail : ExtensionEvent → String × Json
  | .started id => ("status", .str ("Generating new story content from section " ++ id ++ "..."))
  | .progress _ received => ("received", .int received)
  | .failed _ message => ("message", .str message)
  | .complete _ newSections => ("new_sections", .arr (newSections.map .str))

def toJson (e : ExtensionEvent) : Json :=
  .obj [("event", .str e.name), ("section_id", .str e.sectionId), e.detail]

end ExtensionEvent

/-! ## The event stream -/

/-- The names of the events that end a stream. -/
def terminalNames : List String := ["extension_complete", "extension_failed"]

/-- One event of a stream. -/
def frameOf (name data : String) : String := "event: " ++ name ++ "\ndata: " ++ data ++ "\n\n"

/-- The event name that a message gives itself. -/
def eventName (v : Json) : String :=
  match v.get? "event" with
  | some name => name.spoken
  | none => "message"

/-- A channel message as an event of a stream; a text that is not JSON stands as it is. -/
def eventFrame (message : String) : Except JsonError String :=
  match Json.read message with
  | .ok v => .ok (frameOf (eventName v) v.compact)
  | .error (.syntaxFault ..) => .ok (frameOf "message" message)
  | .error limit => .error limit

def endsStream (message : String) : Bool :=
  match Json.read message with
  | .ok v => ((v.get? "event").bind Json.asStr?).any terminalNames.contains
  | .error _ => false

/-- The frames of the messages of a channel, up to the one that ends an extension. -/
def eventStream : List String → Except JsonError (List String)
  | [] => .ok []
  | message :: rest => do
    let frame ← eventFrame message
    if endsStream message then return [frame]
    else return frame :: (← eventStream rest)

end Gamebook
