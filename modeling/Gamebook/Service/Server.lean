import Gamebook.Service.Endpoint
import Gamebook.Service.Response

/-!
# Carrying out requests

* `Server`        : the stored stories, the clock, and the supply of keys that nobody gives.
* `Action`        : something done with a server that may fail; what was done before stays done.
* `navigate`      : one step of play on a stored story; it is stored again only if the step succeeds.
* `Server.handle` : carries out a request.

Every request that stores a story does so as its last deed, behind everything that may fail.

Models `create_story`, `list_stories`, `get_story`, `replace_story`, `delete_story`, `get_player_view`,
`load_section`, `choose`, `step_forward`, `step_back`, `linearize`, `extend` and `validate_extension`,
with `_get_story_or_404`, `_start_player` and `_navigate`.
-/

set_option autoImplicit false

namespace Gamebook.Service

def numberedKey (n : Nat) : String := "generated" ++ Nat.repr n

/-- A server.  Nothing is assumed of the keys that it draws: one may come twice, or be a client's. -/
structure Server where
  store : Store
  now : Int
  keysMade : Nat
  supply : Nat → String

/-- A server without stories, at a time. -/
def Server.start (now : Int) (supply : Nat → String := numberedKey) : Server :=
  ⟨.empty, now, 0, supply⟩

/-- Something done with a server. -/
abbrev Action (α : Type) := ExceptT Failure (StateM Server) α

/-- Answers of a request to the questions of scripts. -/
abbrev Answered := Player (List (Option String))

/-- The next key of the supply.  It is not checked that it is free. -/
def makeKey : Action String := do
  modify fun s => { s with keysMade := s.keysMade + 1 }
  let server ← get
  return server.supply server.keysMade

def stored (key : String) : Action Story := do
  match (← get).store.load key with
  | .error e => throw (.ofStored e)
  | .ok none => throw (.refused .noStory)
  | .ok (some s) => return s

/-- Does what may fail without the server. -/
def attempt {α : Type} : Except Failure α → Action α
  | .ok a => return a
  | .error failure => throw failure

/-- What needs a story or a view that may be written. -/
def written {α : Type} (outcome : Except WriteFault α) : Except Failure α :=
  outcome.mapError fun fault => .broken (.write fault)

def keep (key : String) (s : Story) : Action Unit := do
  let server ← get
  let store ← attempt (written (server.store.save server.now key s))
  set { server with store := store }

def setUp (s : Story) (answers : List String) : Except Failure Answered :=
  match (Player.idle (answers.map some)).load (some s) with
  | (p, .ok ()) => .ok p
  | (_, .error e) => .error (.ofPlay e)

def live (p : Answered) : Except Failure Story :=
  match p.story with
  | some s => .ok s
  | none => .error (.ofPlay .notLoaded)

/-- A story at the start of its play. -/
def opened (s : Story) : Except Failure Story := do live (← setUp s [])

/-- A story after one step of play. -/
def moved (s : Story) (answers : List String) (move : Move) : Except Failure Story := do
  match (← setUp s answers).move (some .ofAnswers) move with
  | (p, .ok ()) => live p
  | (_, .error e) => throw (.ofPlay e)

/-- One step of play on a stored story, which is stored again if the step succeeds. -/
def navigate (key : String) (answers : List String) (move : Move) : Action Response := do
  let s ← attempt (moved (← stored key) answers move)
  keep key s
  return .view s.view

/-- Refuses a key that is taken. -/
def checkFree (key : String) : Action Unit := do
  match (← get).store.load key with
  | .error e => throw (.broken (.story e))
  | .ok none => return
  | .ok (some _) => throw (.refused (.taken key))

/-- The key of a new story: the one given, if it is free, or a new one. -/
def keyFor : Option String → Action String
  | none => makeKey
  | some key => do
    if key.isEmpty then makeKey
    else
      checkFree key
      return key

/-- Stores a new story. -/
def create (c : Creation) : Action Response := do
  let key ← keyFor c.key
  let s ← attempt (opened (c.story.getD .fresh))
  keep key s
  return .created key s.view

/-- Stores a story in place of another. -/
def replace (key : String) (s : Story) : Action Response := do
  let s ← attempt (opened s)
  keep key s
  return .view s.view

def delete (key : String) : Action Response := do
  let server ← get
  let (store, found) := server.store.delete key
  if found then
    set { server with store := store }
    return .deleted
  else throw (.refused .noStory)

/-- The document of a stored story. -/
def read (key : String) : Action Response := do
  let s ← stored key
  let _ ← attempt (written s.write)
  return .document s

def view (key : String) : Action Response := do
  let s ← attempt (opened (← stored key))
  let _ ← attempt (s.view.write.mapError fun fault => .broken (.view fault))
  return .view s.view

/-- Writes a read-through of a stored story. -/
def readThrough (key : String) (j : Journey) : Action Response := do
  let s ← stored key
  match s.linearize (some j.start.id) (some j.finish.id) (j.through.map (some ·.id)) none with
  | .ok markdown => return .readThrough (Story.fileTitle (some s) ++ ".md") markdown
  | .error e => throw (.ofReadThrough e)

/-- The section to extend: the one asked for, or the nearest one open to extension. -/
def sectionToExtend (s : Story) : Option Target → Except Failure String
  | some target =>
    if s.hasSection target.id then .ok target.id else .error (.refused (.missingSection target.id))
  | none => do
    let played ← opened s
    match played.currentId?.bind fun id => played.extendable? id none [] with
    | some id => return id
    | none => throw (.refused .nothingToExtend)

/-- Schedules an extension of a stored story. -/
def extend (key : String) (target : Option Target) : Action Response := do
  let s ← stored key
  let id ← attempt (sectionToExtend s target)
  return .scheduled key id

/-- A story extended by a writer's answer, at the start of its play. -/
def adopted (s : Story) (p : Proposal) : Except Failure Story := do
  match ← written (Extension.review s p.response p.section_.id) with
  | .error reason => throw (.refused (.rejected reason))
  | .ok extended =>
    match extended.checkGraph with
    | .error e => throw (.broken (.graph e))
    | .ok () => opened extended

/-- Extends a stored story by a writer's answer. -/
def adopt (key : String) (p : Proposal) : Action Response := do
  let s ← attempt (adopted (← stored key) p)
  keep key s
  return .adopted s.view

def bodyOf {α : Type} (b : Except BodyFault α) : Action α := attempt (b.mapError .ofBody)

def perform (r : Request) : Endpoint → Action Response
  | .create => do create (← bodyOf (readBody Creation.check r.body))
  | .list => do return .summaries (← get).store.summaries
  | .read key => read key
  | .replace key => do replace key (← bodyOf (readBody Story.check r.body))
  | .delete key => delete key
  | .view key => view key
  | .enter key => do
    let b ← bodyOf (readBody Entrance.check r.body)
    navigate key b.answers (.enter b.section_.id)
  | .choose key => do
    let b ← bodyOf (readBody Pick.check r.body)
    navigate key b.answers (.choose b.index)
  | .forward key => do
    let b ← bodyOf (readOptional Answers.check r.body)
    navigate key (b.getD []) .forward
  | .back key => do
    let b ← bodyOf (readOptional Answers.check r.body)
    navigate key (b.getD []) .back
  | .readThrough key => do readThrough key (← bodyOf (readBody Journey.check r.body))
  | .extend key => do extend key (← bodyOf (readBody Wish.check r.body))
  | .adopt key => do adopt key (← bodyOf (readBody Proposal.check r.body))
  | .events _ =>
    match eventStream r.published with
    | .ok frames => return .events frames
    | .error e => throw (.broken (.event e))
  | .documentation => return .documentation

def handle (r : Request) : Action Response :=
  match r.find with
  | .error fault => throw (.broken (.target fault))
  | .ok (.endpoint e) => perform r e
  | .ok .wrongMethod => throw (.refused .wrongMethod)
  | .ok .elsewhere => throw (.refused .elsewhere)
  | .ok .unknown => throw (.refused .unknownPath)

/-- Carries out a request; gives the server after it, and the response or why there is none. -/
def Server.handle (s : Server) (r : Request) : Server × Except Failure Response :=
  let (outcome, after) := (Service.handle r).run.run s
  (after, outcome)

end Gamebook.Service
