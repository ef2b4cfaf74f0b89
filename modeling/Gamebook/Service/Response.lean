import Gamebook.Channel
import Gamebook.Extension.Extend
import Gamebook.Player.View
import Gamebook.Route.Markdown
import Gamebook.Service.Body
import Gamebook.Service.Path
import Gamebook.Store

/-!
# What the service answers

* `Response` : a request that was carried out.
* `Refusal`  : a request that was not, for a reason with a status of its own.
* `Fault`    : an error that no status is made for.
* `Failure`  : either of the last two.

Models `StoryCreateResponse`, `LinearizeResponse`, `ExtendResponse`, `ValidationResponse`, and the
errors that the endpoints turn into statuses.
-/

set_option autoImplicit false

namespace Gamebook.Service

/-- The response to a request that was carried out. -/
inductive Response where
  | created (key : String) (view : View)
  | summaries (list : List Summary)
  | document (s : Story)
  | view (v : View)
  | deleted
  | readThrough (fileName markdown : String)
  | scheduled (key sectionId : String)
  | adopted (v : View)
  | events (frames : List String)
  /-- A page about the service itself, which says nothing about stories. -/
  | documentation

namespace Response

def status : Response → Nat
  | .created .. => 201
  | .scheduled .. => 202
  | .deleted => 204
  | _ => 200

/-- One line of the list of stories. -/
def summaryJson (s : Summary) : Json :=
  .obj [("key", .str s.key), ("title", s.title.elim .null .str), ("updated_at", .int s.updated)]

/-- The body of a response, null for an empty one. -/
def body : Response → Json
  | .created key v => .obj [("key", .str key), ("view", v.toJson)]
  | .summaries list => .arr (list.map summaryJson)
  | .document s => s.toJson
  | .view v => v.toJson
  | .deleted => .null
  | .readThrough fileName markdown => .obj [("filename", .str fileName), ("markdown", .str markdown)]
  | .scheduled key sectionId =>
    .obj [("key", .str key), ("section_id", .str sectionId), ("status", .str "scheduled")]
  | .adopted v => .obj [("valid", .bool true), ("error", .null), ("view", v.toJson)]
  | .events frames => if frames.isEmpty then .null else .str (String.join frames)
  | .documentation => .null

end Response

/-- Why a request is not carried out. -/
inductive Refusal where
  | unknownPath
  | wrongMethod
  | elsewhere
  | body (fault : BodyFault)
  | taken (key : String)
  | noStory
  | unreadable
  | noSections
  | missingSection (id : String)
  | invalidChoice (index : Int) (available : Nat)
  | noReadThrough (error : LinearizeError)
  | nothingToExtend
  | rejected (reason : Extension.Rejection)
  deriving DecidableEq, Repr

namespace Refusal

def status : Refusal → Nat
  | .elsewhere => 307
  | .body .unread => 400
  | .unknownPath => 404
  | .noStory => 404
  | .missingSection _ => 404
  | .wrongMethod => 405
  | .taken _ => 409
  | .unreadable => 500
  | _ => 422

/-- An issue at a path in a body, as a refusal lists it: the parts of the path stand as they are. -/
def issueLine (path : List String) (word : String) : String :=
  ".".intercalate ("body" :: path) ++ " " ++ word

/-- What a refusal says about a body. -/
def bodyDetail : BodyFault → Json
  | .missing => .ofTexts [issueLine [] IssueKind.missing.word]
  | .notJson position => .ofTexts [issueLine [Nat.repr position] "json_invalid"]
  | .unread => .str "There was an error parsing the body"
  | .mismatch issues => .ofTexts (issues.map fun i => issueLine i.path i.kind.word)

def detail : Refusal → Json
  | .unknownPath => .str "Not Found"
  | .wrongMethod => .str "Method Not Allowed"
  | .elsewhere => .null
  | .body fault => bodyDetail fault
  | .taken key => .str ("Story " ++ key ++ " already exists")
  | .noStory => .str "Story not found"
  | .unreadable => .str "Failed to parse stored story."
  | .noSections => .str PlayError.noSections.message
  | .missingSection id => .str (PlayError.missingSection id).message
  | .invalidChoice index available => .str (PlayError.invalidChoice index available).message
  | .noReadThrough error => .str error.message
  | .nothingToExtend => .str "No AI-extendable section within look-ahead range"
  | .rejected reason => .str reason.message

/-- The body of a refusal, null for an empty one. -/
def toJson (r : Refusal) : Json :=
  match r with
  | .elsewhere => .null
  | r => .obj [("detail", r.detail)]

end Refusal

/-- An error that no status is made for. -/
inductive Fault where
  | target (fault : TargetFault)
  | story (error : StoryError)
  | play (error : PlayError)
  | number (fault : NumberFault)
  | graph (error : GraphError)
  | prompt (error : Extension.PromptError)
  | event (error : JsonError)
  | write (fault : WriteFault)
  /-- The view that the answer shows cannot be written. -/
  | view (fault : WriteFault)
  /-- A refusal would show a number that is not finite. -/
  | notFinite
  deriving DecidableEq, Repr

def Fault.message : Fault → String
  | .target e => e.message
  | .story e => StoryError.message e
  | .play e => e.message
  | .number e => e.message
  | .graph e => e.message
  | .prompt e => e.message
  | .event e => e.message
  | .write e => e.message
  | .view e => "Error serializing to JSON: ValueError: " ++ e.message
  | .notFinite => "Out of range float values are not JSON compliant"

/-- Why a request has no response. -/
inductive Failure where
  | refused (r : Refusal)
  | broken (f : Fault)
  deriving DecidableEq, Repr

/-- A body that is refused, as the service sees it: it shows the values that issues are about, which
it cannot do with a number that is not finite. -/
def Failure.ofBody : BodyFault → Failure
  | .mismatch issues =>
    if issues.all Issue.isFinite then .refused (.body (.mismatch issues)) else .broken .notFinite
  | fault => .refused (.body fault)

/-- A refused step of play, as the service sees it. -/
def Failure.ofPlay : PlayError → Failure
  | .noSections => .refused .noSections
  | .missingSection id => .refused (.missingSection id)
  | .invalidChoice index available => .refused (.invalidChoice index available)
  | .notLoaded => .broken (.play .notLoaded)
  | .interrupted cause => .broken (.play (.interrupted cause))

/-- A read-through that cannot be written, as the service sees it. -/
def Failure.ofReadThrough : LinearizeError → Failure
  | .number fault => .broken (.number fault)
  | error => .refused (.noReadThrough error)

/-- A stored story that cannot be read, as most requests see it: only the limits of the reader are
beyond them. -/
def Failure.ofStored (e : StoryError) : Failure :=
  if e.isLimit then .broken (.story e) else .refused .unreadable

end Gamebook.Service
