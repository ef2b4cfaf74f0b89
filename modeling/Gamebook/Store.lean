import Gamebook.Calendar
import Gamebook.Story.Document
import Gamebook.Story.Load

/-!
# Stored stories

Stories are kept as texts under keys, each with its title beside it and the time of its last change.
Times are those of the calendar.

* `Store.save`, `Store.load`, `Store.delete` : one key.
* `Store.removeInactive`                     : drops what was not changed for some hours.
* `Store.cleaned`                            : the same as a standing job, which keeps going.
* `Store.summaries`                          : what is stored, changed last first.
* `cleanupInterval?`                         : how often inactive stories are dropped.

Models `save_story`, `get_story`, `list_stories`, `delete_story` and `remove_inactive_stories`, with
`prune_inactive_stories_job` and `setup_scheduler`.
-/

set_option autoImplicit false

namespace Gamebook

/-- A stored story: its title, its text and the time of its last change. -/
structure Record where
  title : Option String
  text : String
  updated : Int
  deriving DecidableEq, Repr

/-- What a list of the stored stories shows. -/
structure Summary where
  key : String
  title : Option String
  updated : Int
  deriving DecidableEq, Repr

/-- Stored stories under their keys. -/
structure Store where
  records : Table Record
  deriving DecidableEq, Repr

/-- The record was last changed before a time. -/
def Record.isOlder (r : Record) (time : Int) : Bool := r.updated < time

namespace Store

def empty : Store := ⟨[]⟩

def record? (s : Store) (key : String) : Option Record := s.records.get? key

/-- Stores a story under a key, in place of what was there; a story that cannot be written is not
stored. -/
def save (s : Store) (now : Int) (key : String) (story : Story) : Except WriteFault Store :=
  story.writeCompact.map fun text => ⟨s.records.put key ⟨story.title?, text, now⟩⟩

/-- The story under a key, read from its text; none when the key is free. -/
def load (s : Store) (key : String) : Except StoryError (Option Story) :=
  match s.record? key with
  | none => .ok none
  | some record => (Story.ofText record.text).map some

/-- Frees a key; tells whether something was stored there. -/
def delete (s : Store) (key : String) : Store × Bool :=
  (⟨s.records.erase key⟩, s.records.has key)

/-- Drops every story that was not changed since a time; tells how many. -/
def removeOlder (s : Store) (time : Int) : Store × Nat :=
  (⟨s.records.filter fun e => !e.2.isOlder time⟩, s.records.countP fun e => e.2.isOlder time)

/-- Drops every story that was not changed for some hours; tells how many. -/
def removeInactive (s : Store) (now hours : Int) : Except CalendarFault (Store × Nat) :=
  (Calendar.before now hours).map s.removeOlder

/-- The store after a standing removal of inactive stories; hours that lead out of the calendar
remove nothing. -/
def cleaned (s : Store) (now hours : Int) : Store :=
  match s.removeInactive now hours with
  | .ok (after, _) => after
  | .error _ => s

/-- What is stored, changed last first. -/
def summaries (s : Store) : List Summary :=
  (s.records.map fun (key, r) => (⟨key, r.title, r.updated⟩ : Summary)).mergeSort
    fun a b => b.updated ≤ a.updated

/-- Replaces the text under a key, if there is one; the title stays. -/
def overwrite (s : Store) (now : Int) (key text : String) : Store :=
  ⟨s.records.modify key fun r => { r with text := text, updated := now }⟩

/-- Sets the time of the last change under a key, if there is one. -/
def touch (s : Store) (key : String) (time : Int) : Store :=
  ⟨s.records.modify key fun r => { r with updated := time }⟩

end Store

/-- The seconds between two removals of inactive stories, for the setting in hours; none when the
setting turns the removal off.  The first removal must have a time. -/
def cleanupInterval? (now hours : Int) : Except CalendarFault (Option Int) :=
  if hours ≤ 0 then .ok none
  else (Calendar.after now hours).map fun _ => some (hours * 3600)

end Gamebook
