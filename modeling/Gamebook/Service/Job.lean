import Gamebook.Service.Server

/-!
# Extending a stored story in the background

An extension works on a snapshot of the story.  While the writer writes, other requests may change
the store; so the result is reviewed again, against the story as it is stored by then.

* `Job`            : a scheduled extension.
* `Job.begin`      : takes the snapshot and has the writer deliver.
* `Draft.announced`, `Draft.reachedWriter` : what is announced before the writer is done, and whether
  the writer was asked at all.
* `Draft.finish`   : announces the outcome and stores the story if it still is an extension.

Models `run_extension` and `_extend_stored_story`.
-/

set_option autoImplicit false

namespace Gamebook.Service

open Extension

/-- A scheduled extension of the story under a key from a section. -/
structure Job where
  key : String
  sectionId : String
  deriving DecidableEq, Repr

def Response.job? : Response → Option Job
  | .scheduled key sectionId => some ⟨key, sectionId⟩
  | _ => none

/-- An extension when the writer is done. -/
inductive Draft where
  | noStory
  | unreadable (error : StoryError)
  | written (run : Run)

/-- Takes the snapshot and has the writer deliver. -/
def Job.begin (job : Job) (store : Store) (delivery : Delivery) (clock : List Reading) :
    Draft :=
  match store.load job.key with
  | .error e => .unreadable e
  | .ok none => .noStory
  | .ok (some s) => .written (extendStory s job.sectionId delivery clock)

namespace Draft

/-- What is announced before the writer is done. -/
def announced : Draft → List ExtensionEvent
  | .written run => run.events.filter fun e => !e.isTerminal
  | _ => []

def reachedWriter : Draft → Bool
  | .written run =>
    match run.result with
    | .error (.prompt _) => false
    | _ => true
  | _ => false

end Draft

/-- What came of a job: the store after it, what it announced at the end, and what broke it. -/
structure Ending where
  store : Store
  events : List ExtensionEvent
  fault : Option Fault

/-- The event that announces an error. -/
def Job.failed (job : Job) (message : String) : ExtensionEvent :=
  .failed job.sectionId ("AI extension failed: " ++ message)

/-- An extended story reviewed as an answer about the story as it is stored now. -/
def Job.reviewAgain (job : Job) (latest extended : Story) : Except WriteFault (Verdict Story) := do
  review latest (← extended.writeCompact) job.sectionId

/-- Stores an extended story, if it is an extension of the story as it is stored now. -/
def Job.merge (job : Job) (store : Store) (now : Int) (extended : Story) : Ending :=
  match store.load job.key with
  | .error e =>
    if e.isLimit then ⟨store, [], some (.story e)⟩ else ⟨store, [job.failed e.message], none⟩
  | .ok none => ⟨store, [], none⟩
  | .ok (some latest) =>
    match job.reviewAgain latest extended with
    | .error fault => ⟨store, [], some (.write fault)⟩
    | .ok (.error _) => ⟨store, [], none⟩
    | .ok (.ok merged) =>
      match merged.checkGraph with
      | .error e => ⟨store, [job.failed e.message], none⟩
      | .ok () =>
        match store.save now job.key merged with
        | .error fault => ⟨store, [], some (.write fault)⟩
        | .ok after => ⟨after, [], none⟩

/-- Announces the outcome and stores the story if it still is an extension. -/
def Draft.finish (draft : Draft) (job : Job) (store : Store) (now : Int) : Ending :=
  match draft with
  | .noStory => ⟨store, [.failed job.sectionId "Story not found"], none⟩
  | .unreadable e =>
    if e.isLimit then ⟨store, [], some (.story e)⟩ else ⟨store, [job.failed e.message], none⟩
  | .written run =>
    let last := run.events.filter ExtensionEvent.isTerminal
    match run.result with
    | .error (.prompt e) => ⟨store, last, some (.prompt e)⟩
    | .error (.clock e) => ⟨store, last, some (.number e)⟩
    | .error (.review e) => ⟨store, last, some (.write e)⟩
    | .error (.graph e) => ⟨store, last ++ [job.failed e.message], none⟩
    | .ok (.error _) => ⟨store, last, none⟩
    | .ok (.ok extended) =>
      let ending := job.merge store now extended
      { ending with events := last ++ ending.events }

end Gamebook.Service
