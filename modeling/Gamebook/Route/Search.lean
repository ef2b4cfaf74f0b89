import Gamebook.Number.Literal
import Gamebook.Story.Graph

/-!
# The first route through a story

* `idForms`      : the spellings under which a section to pass through may stand on a route.
* `Goal`         : what is asked of a route.
* `Cursor`       : a search underway: the route so far, and how many choices were tried from each of
  its sections.
* `Cursor.step`  : one step of a search: onwards by the next choice, or back when none is left.
* `Route.search` : of the routes that extend a given one to an end, pass through every section asked
  for and enter no section twice, the first in the order of the choices.

A search ends because every step lowers `Cursor.weight` (`weight_lt_of_step`): a section entered has
fewer sections left to enter behind it than the one before it, and a choice is tried once from each
section on the route.

Models `depth_first_search`, the cursor in place of the nested calls of `backtrack`, with `_id_forms`
and `_visits_all`.
-/

set_option autoImplicit false

namespace Gamebook

/-- The spellings of a section id: its text, and the number it denotes in its shortest form. -/
def idForms (id : String) : Except NumberFault (List String) := do
  let x ← numberOfText id
  return if x.isNaN then [id] else [id, textOfNumber x]

/-- The ids that all choices of a story lead to. -/
def Story.allTargets (s : Story) : List String :=
  s.sections.flatMap fun e => e.2.choices.map Choice.target

namespace Route

/-- A route passes through every section asked for; the first that it misses decides. -/
def visitsAll (route : List String) : List String → Except NumberFault Bool
  | [] => .ok true
  | id :: rest => do
    let forms ← idForms id
    if forms.any route.contains then visitsAll route rest else return false

/-- What is asked of a route. -/
structure Goal where
  finish : String
  through : List String
  maxLength : Option Int
  deriving DecidableEq, Repr

/-- A route of this length may be extended. -/
def Goal.mayExtend (goal : Goal) (length : Nat) : Bool :=
  match goal.maxLength with
  | none => true
  | some limit => (length : Int) < limit

/-! ## A search underway -/

/-- A section passed, and the position of the choice followed from it. -/
structure Passed where
  id : String
  position : Nat
  deriving DecidableEq, Repr

/-- A search underway. -/
structure Cursor where
  /-- The section entered last. -/
  tip : String
  /-- How many of its choices were tried; none until it is looked at. -/
  tried : Option Nat
  /-- The sections entered before it, last first. -/
  passed : List Passed
  /-- The sections of the given route before its last one, last first. -/
  before : List String
  deriving DecidableEq, Repr

/-- A search after a step. -/
inductive Progress where
  | underway (c : Cursor)
  | ended (outcome : Except NumberFault (Option (List String)))

/-- A search that has just begun from the end of a given route; an empty one has no extension. -/
def Progress.start (route : List String) : Progress :=
  match route.reverse with
  | [] => .ended (.ok none)
  | tip :: before => .underway ⟨tip, none, [], before⟩

namespace Cursor

/-- The route so far, from its last section back to its first. -/
def route (c : Cursor) : List String := c.tip :: (c.passed.map Passed.id ++ c.before)

/-- Goes back to the section before, or ends without a route. -/
def retreat (c : Cursor) : Progress :=
  match c.passed with
  | [] => .ended (.ok none)
  | p :: earlier => .underway ⟨p.id, some (p.position + 1), earlier, c.before⟩

/-- Ends with the route so far, unless it misses a section asked for. -/
def arrive (goal : Goal) (c : Cursor) : Progress :=
  match visitsAll c.route.reverse goal.through with
  | .ok true => .ended (.ok (some c.route.reverse))
  | .ok false => c.retreat
  | .error fault => .ended (.error fault)

/-- Tries the choice at a position: a section that is not on the route is entered, unless the route
is as long as it may be. -/
def follow (s : Story) (goal : Goal) (c : Cursor) (position : Nat) : Progress :=
  match (s.targets c.tip)[position]? with
  | none => c.retreat
  | some t =>
    if c.route.contains t || !goal.mayExtend c.route.length then
      .underway { c with tried := some (position + 1) }
    else .underway ⟨t, none, ⟨c.tip, position⟩ :: c.passed, c.before⟩

def step (s : Story) (goal : Goal) (c : Cursor) : Progress :=
  match c.tried with
  | none => if c.tip = goal.finish then c.arrive goal else .underway { c with tried := some 0 }
  | some position => c.follow s goal position

/-! ## Every step lowers a weight -/

/-- How many targets of the story are not on a route. -/
def room (s : Story) (route : List String) : Nat := s.allTargets.countP fun t => !route.contains t

/-- A bound on the steps that one choice takes, for the room behind it. -/
def choiceWeight (s : Story) : Nat → Nat
  | 0 => 1
  | room + 1 => s.allTargets.length * choiceWeight s room + 3

/-- A bound on the steps that the choices from a position on take, at the end of a route. -/
def restWeight (s : Story) (route : List String) (id : String) (position : Nat) : Nat :=
  1 + ((s.targets id).length - position) * choiceWeight s (room s route)

def passedWeight (s : Story) (before : List String) : List Passed → Nat
  | [] => 0
  | p :: earlier =>
    restWeight s (p.id :: (earlier.map Passed.id ++ before)) p.id (p.position + 1) +
      passedWeight s before earlier

/-- The weight of the section entered last. -/
def tipWeight (s : Story) (c : Cursor) : Nat :=
  match c.tried with
  | none => 2 + s.allTargets.length * choiceWeight s (room s c.route)
  | some position => restWeight s c.route c.tip position

/-- A bound on the steps of a search. -/
def weight (s : Story) (c : Cursor) : Nat := c.tipWeight s + passedWeight s c.before c.passed

end Cursor

end Route

/-- A section's targets stand among those of the story. -/
theorem Story.targets_sublist (s : Story) (id : String) :
    (s.targets id).Sublist s.allTargets := by
  unfold Story.targets
  cases h : s.section? id with
  | none => exact List.nil_sublist _
  | some entry =>
    obtain ⟨front, back, hs, -⟩ := List.lookup_eq_some_iff.1 h
    simp only [Story.allTargets, hs, List.flatMap_append, List.flatMap_cons]
    exact (List.sublist_append_left _ _).trans (List.sublist_append_right _ _)

/-- A test that holds less often, and not of one item, counts less. -/
theorem countP_lt_of_imp {α : Type} {p q : α → Bool} {l : List α} {a : α}
    (hpq : ∀ x, p x = true → q x = true) (ha : a ∈ l) (hp : p a = false) (hq : q a = true) :
    l.countP p < l.countP q := by
  obtain ⟨front, back, rfl⟩ := List.append_of_mem ha
  have hfront := List.countP_mono_left (l := front) fun x _ => hpq x
  have hback := List.countP_mono_left (l := back) fun x _ => hpq x
  simp only [List.countP_append, List.countP_cons, hp, hq, if_true]
  simp only [Bool.false_eq_true, if_false]
  omega

namespace Route

namespace Cursor

variable {s : Story} {goal : Goal} {c next : Cursor}

/-- A target entered leaves less room. -/
theorem room_cons_lt {route : List String} {t : String} (ht : t ∈ s.allTargets)
    (hr : t ∉ route) : room s (t :: route) < room s route := by
  refine countP_lt_of_imp (fun x hx => ?_) ht (by simp) (by simpa using hr)
  simp only [List.contains_cons, Bool.not_eq_true', Bool.or_eq_false_iff] at hx
  rw [hx.2]; rfl

theorem choiceWeight_mono {a b : Nat} (h : a ≤ b) : choiceWeight s a ≤ choiceWeight s b := by
  have hsucc : ∀ n, choiceWeight s n ≤ choiceWeight s (n + 1) := by
    intro n
    induction n with
    | zero => simp only [choiceWeight]; omega
    | succ n ih =>
      have := Nat.mul_le_mul_left s.allTargets.length ih
      simp only [choiceWeight] at this ⊢
      omega
  induction h with
  | refl => exact Nat.le_refl _
  | step _ ih => exact Nat.le_trans ih (hsucc _)

theorem tipWeight_pos : 0 < c.tipWeight s := by
  unfold tipWeight restWeight
  split <;> omega

theorem weight_lt_of_retreat (h : c.retreat = .underway next) : next.weight s < c.weight s := by
  have hpos := tipWeight_pos (s := s) (c := c)
  unfold retreat at h
  split at h
  · cases h
  · rename_i p earlier hp
    cases h
    rw [weight, weight, hp, passedWeight]
    simp only [tipWeight, route] at hpos ⊢
    omega

theorem weight_lt_of_follow {position : Nat} (hc : c.tried = some position)
    (h : c.follow s goal position = .underway next) : next.weight s < c.weight s := by
  unfold follow at h
  split at h
  · exact weight_lt_of_retreat h
  · rename_i t ht
    have hpos : position < (s.targets c.tip).length := (List.getElem?_eq_some_iff.1 ht).1
    have hrest : (s.targets c.tip).length - position =
        ((s.targets c.tip).length - (position + 1)) + 1 := by omega
    split at h
    · cases h
      have hcost : 0 < choiceWeight s (room s c.route) := by
        cases room s c.route <;> simp [choiceWeight]
      simp only [weight, tipWeight, hc, restWeight, route, hrest, Nat.succ_mul] at hcost ⊢
      omega
    · rename_i hn
      cases h
      simp only [Bool.or_eq_true, not_or, List.contains_iff_mem] at hn
      have hlt := room_cons_lt ((s.targets_sublist c.tip).subset (List.mem_of_getElem? ht)) hn.1
      obtain ⟨space, hspace⟩ : ∃ space, room s c.route = space + 1 := ⟨room s c.route - 1, by omega⟩
      have hle : room s (t :: c.route) ≤ space := by omega
      have hmul := Nat.mul_le_mul_left s.allTargets.length (choiceWeight_mono (s := s) hle)
      have hcost : choiceWeight s (room s c.route) =
          s.allTargets.length * choiceWeight s space + 3 := by rw [hspace]; rfl
      simp only [weight, tipWeight, hc, restWeight, passedWeight, route, List.map_cons,
        List.cons_append, hrest, Nat.succ_mul] at hmul hcost ⊢
      omega

/-- A step that does not end a search lowers its weight. -/
theorem weight_lt_of_step (h : c.step s goal = .underway next) : next.weight s < c.weight s := by
  unfold step at h
  split at h
  · rename_i hc
    split at h
    · unfold arrive at h
      split at h
      · cases h
      · exact weight_lt_of_retreat h
      · cases h
    · cases h
      have hmul : ((s.targets c.tip).length - 0) * choiceWeight s (room s c.route) ≤
          s.allTargets.length * choiceWeight s (room s c.route) :=
        Nat.mul_le_mul_right _ (by have := (s.targets_sublist c.tip).length_le; omega)
      simp only [weight, tipWeight, hc, restWeight, route] at hmul ⊢
      omega
  · rename_i position hc
    exact weight_lt_of_follow hc h

/-- Takes steps until the search ends. -/
def run (s : Story) (goal : Goal) (c : Cursor) : Except NumberFault (Option (List String)) :=
  match _h : c.step s goal with
  | .ended outcome => outcome
  | .underway next => run s goal next
termination_by c.weight s
decreasing_by exact weight_lt_of_step _h

theorem run_of_ended {outcome : Except NumberFault (Option (List String))}
    (h : c.step s goal = .ended outcome) : c.run s goal = outcome := by
  rw [run]
  split
  · rename_i h'
    rw [h] at h'
    cases h'
    rfl
  · rename_i h'
    rw [h] at h'
    cases h'

theorem run_of_underway (h : c.step s goal = .underway next) : c.run s goal = next.run s goal := by
  rw [run]
  split
  · rename_i h'
    rw [h] at h'
    cases h'
  · rename_i h'
    rw [h] at h'
    cases h'
    rfl

end Cursor

/-- The first route that extends the given one. -/
def search (s : Story) (start : List String) (goal : Goal) :
    Except NumberFault (Option (List String)) :=
  match Progress.start start with
  | .ended outcome => outcome
  | .underway c => c.run s goal

end Route

end Gamebook
