import Gamebook.Story.Basic

/-!
# The graph of a story

* `Story.dangling`    : the choices that lead nowhere, with the sections they stand in.
* `GraphError`        : a story that was to have none has some.
* `Story.reachable`   : the sections within a number of choices, nearest first.
* `Story.extendable?` : the nearest of them that is open to extension.

Models `dangling_references`, `assert_graph_integrity`, `find_reachable_sections` and
`find_extendable_section`.
-/

set_option autoImplicit false

namespace Gamebook

namespace Story

/-- Each choice whose target does not exist, as section and target. -/
def dangling (s : Story) : List (String × String) :=
  s.sections.flatMap fun (id, section_) =>
    (section_.choices.filter fun c => !s.hasSection c.target).map fun c => (id, c.target)

end Story

/-- Choices lead to sections that do not exist. -/
structure GraphError where
  dangling : List (String × String)
  deriving DecidableEq, Repr

def GraphError.message (e : GraphError) : String :=
  "Story graph has dangling choice references: " ++
    ", ".intercalate (e.dangling.map fun (source, target) => source ++ " -> " ++ target)

/-- Refuses a story in which a choice leads nowhere. -/
def Story.checkGraph (s : Story) : Except GraphError Unit :=
  if s.dangling.isEmpty then .ok () else .error ⟨s.dangling⟩

/-! ## Breadth-first search -/

namespace Story

/-- The ids that a section's choices lead to. -/
def targets (s : Story) (id : String) : List String :=
  match s.section? id with
  | some section_ => section_.choices.map Choice.target
  | none => []

/-- Number of choices in the whole story. -/
def choiceCount (s : Story) : Nat := s.sections.foldr (fun e n => e.2.choices.length + n) 0

/-- One search over a queue of ids with their distances.  Each id is taken up once; every step
consumes an entry of the queue, and a section adds as many as it has choices. -/
def explore (s : Story) (depth : Int) :
    Nat → List (String × Int) → List String → List String → List String
  | 0, _, _, found => found.reverse
  | _, [], _, found => found.reverse
  | fuel + 1, (id, distance) :: queue, seen, found =>
    if seen.contains id || depth < distance then explore s depth fuel queue seen found
    else
      let seen := id :: seen
      match s.section? id with
      | none => explore s depth fuel queue seen found
      | some section_ =>
        let next := (section_.choices.map Choice.target).filter fun t => !seen.contains t
        explore s depth fuel (queue ++ next.map fun t => (t, distance + 1)) seen (id :: found)

/-- The ids of the sections within `depth` choices of the start, nearest first. -/
def reachable (s : Story) (start : String) (depth : Int) : List String :=
  s.explore depth (s.choiceCount + 1) [(start, 0)] [] []

/-- The setting for stories that set no look-ahead, unless another is configured. -/
def defaultLookAhead : Int := 2

/-- The look-ahead in force: the given one, else the story's own unless it is zero, else the
setting. -/
def effectiveLookAhead (s : Story) (given : Option Int) (setting : Int := defaultLookAhead) : Int :=
  match given with
  | some n => n
  | none =>
    match s.lookAhead? with
    | some n => if n = 0 then setting else n
    | none => setting

/-- The nearest section open to extension within the look-ahead, outside the excluded ids. -/
def extendable? (s : Story) (start : String) (lookAhead : Option Int) (excluded : List String)
    (setting : Int := defaultLookAhead) : Option String :=
  (s.reachable start (s.effectiveLookAhead lookAhead setting)).find? fun id =>
    (s.section? id).any (fun section_ => section_.extendable.get? == some true) &&
      !excluded.contains id

end Story

end Gamebook
