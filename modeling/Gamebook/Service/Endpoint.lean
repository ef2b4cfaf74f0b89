import Gamebook.Service.Path

/-!
# Requests and what they address

* `Request`       : a request to the service.
* `Endpoint`      : what the service can be asked for.
* `routes`        : the methods of a path and what each asks for.
* `methodsOf`     : the same, a line feed at the end of the path left aside.
* `Request.find`  : what a request asks for, if anything.

Models the routes at which `create_story`, `list_stories`, `_navigate` and the other endpoints stand.
-/

set_option autoImplicit false

namespace Gamebook.Service

/-- A request.  `published` holds the messages of the event channel that the request listens to. -/
structure Request where
  method : String
  path : String
  body : Option String
  published : List String
  deriving DecidableEq, Repr

/-- What the service can be asked for; most of it about the story under a key. -/
inductive Endpoint where
  | create
  | list
  | read (key : String)
  | replace (key : String)
  | delete (key : String)
  | view (key : String)
  | enter (key : String)
  | choose (key : String)
  | forward (key : String)
  | back (key : String)
  | readThrough (key : String)
  | extend (key : String)
  | adopt (key : String)
  | events (key : String)
  /-- A page about the service itself. -/
  | documentation
  deriving DecidableEq, Repr

/-- The methods of the paths under a stored story. -/
def storyRoutes (key : String) : List String → List (String × Endpoint)
  | [] => [("GET", .read key), ("PUT", .replace key), ("DELETE", .delete key)]
  | ["play"] => [("GET", .view key)]
  | ["play", "section"] => [("POST", .enter key)]
  | ["play", "choice"] => [("POST", .choose key)]
  | ["play", "forward"] => [("POST", .forward key)]
  | ["play", "back"] => [("POST", .back key)]
  | ["linearize"] => [("POST", .readThrough key)]
  | ["extend"] => [("POST", .extend key)]
  | ["validate-extension"] => [("POST", .adopt key)]
  | _ => []

/-- The paths of the pages about the service. -/
def documentationPaths : List (List String) :=
  [["", "openapi.json"], ["", "docs"], ["", "docs", "oauth2-redirect"], ["", "redoc"]]

/-- The methods of a path, given by its parts; an unknown path has none, and a key is not empty. -/
def routes : List String → List (String × Endpoint)
  | ["", "api", "v1", "stories"] => [("POST", .create), ("GET", .list)]
  | "" :: "api" :: "v1" :: "stories" :: key :: rest => if key.isEmpty then [] else storyRoutes key rest
  | ["", "events", key] => if key.isEmpty then [] else [("GET", .events key)]
  | parts =>
    if documentationPaths.contains parts then
      [("GET", .documentation), ("HEAD", .documentation)]
    else []

/-- A text without a line feed at its end. -/
def withoutFinalFeed (s : String) : String :=
  if s.toList.getLast? = some '\n' then String.ofList s.toList.dropLast else s

/-- The parts of a path without a line feed at its very end. -/
def withoutPathFeed : List String → List String
  | [] => []
  | [last] => [withoutFinalFeed last]
  | part :: rest => part :: withoutPathFeed rest

/-- The methods of a path; a line feed at its very end counts only as the end of a key. -/
def methodsOf (parts : List String) : List (String × Endpoint) :=
  match routes parts with
  | [] => routes (withoutPathFeed parts)
  | methods => methods

/-- What a request asks for. -/
inductive Found where
  | endpoint (e : Endpoint)
  /-- The path is known, but not with this method. -/
  | wrongMethod
  /-- The path is known without the slashes at its end. -/
  | elsewhere
  | unknown
  deriving DecidableEq, Repr

/-- The parts of a path without the slashes at its end. -/
def dropTrailing (parts : List String) : List String :=
  (parts.reverse.dropWhile String.isEmpty).reverse

/-- The capital of a letter, as far as it is one of ASCII: the long s and the ligatures of s and t have
such capitals, too. -/
def asciiCapital (c : Char) : List Char :=
  if c = 'ſ' then ['S'] else if c = 'ﬅ' ∨ c = 'ﬆ' then ['S', 'T'] else [c.toUpper]

def Request.methodName (r : Request) : String := String.ofList (r.method.toList.flatMap asciiCapital)

/-- The answer to a request has a body, as far as there is something to say. -/
def Request.wantsBody (r : Request) : Bool := r.methodName != "HEAD"

def Request.find (r : Request) : Except TargetFault Found := do
  let parts ← targetParts r.path
  match methodsOf parts with
  | [] => return if (methodsOf (dropTrailing parts)).isEmpty then .unknown else .elsewhere
  | methods => return (methods.lookup r.methodName).elim .wrongMethod .endpoint

end Gamebook.Service
