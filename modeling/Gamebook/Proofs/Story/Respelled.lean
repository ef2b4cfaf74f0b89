import Gamebook.Proofs.Json.Number
import Gamebook.Proofs.Story.Recast
import Gamebook.Route.Markdown
import Gamebook.Story.Document

/-!
# Targets that are numbers

A choice names the section it leads to by a text or by a whole number, and a number names the section
whose id is its decimal text.  The story with every number written as that text is asked in place of the
story itself: whatever looks at the graph finds the same.

* `Story.spelled`      : the story with every target written as a text.
* `Story.Respelled`    : two stories that differ at most in the spelling of targets.
* `Target.spelled_inj` : what that is for two targets.
* `dangling_spelled`, `reachable_spelled`, `extendable?_spelled` : the graph and its nearest sections.
* `search_spelled`, `linearize_spelled` : the first route, and the read-through.
* `isWritable_spelled` : whether the story may be written.
-/

set_option autoImplicit false

namespace Gamebook

/-! ## One spelling for all targets -/

/-- The target as a text: a number as its decimal text. -/
def Target.spelled (t : Target) : Target := .name t.id

/-- The choice with its target as a text. -/
def Choice.spelled (c : Choice) : Choice := { c with next := c.next.spelled }

/-- The section with the targets of its choices as texts. -/
def Section.spelled (x : Section) : Section :=
  { x with next := x.next.map fun cs => cs.map Choice.spelled }

/-- The story with all targets as texts. -/
def Story.spelled (s : Story) : Story := { s with sections := s.sections.mapValues Section.spelled }

/-- The stories differ at most in the spelling of targets: where one has a number, the other may have
its decimal text. -/
def Story.Respelled (s t : Story) : Prop := s.spelled = t.spelled

/-- No text of digits begins with a minus sign. -/
theorem Json.signed_ne (m n : Nat) :
    signChars true ++ (Nat.repr m).toList ≠ signChars false ++ (Nat.repr n).toList := by
  intro h
  have hdigits : '-' :: (Nat.repr m).toList = (Nat.repr n).toList := h
  have hmem : '-' ∈ (Nat.repr n).toList := hdigits ▸ List.mem_cons_self
  exact absurd (isDigit_of_mem_repr hmem) (by decide)

theorem Json.intText_injective : Function.Injective Json.intText := by
  intro m n h
  have htext := congrArg String.toList h
  rw [intText_toList, intText_toList] at htext
  have hdigits {a b : Nat} (hab : (Nat.repr a).toList = (Nat.repr b).toList) : a = b := by
    rw [← digitsValue_repr a, hab, digitsValue_repr]
  by_cases hm : m < 0 <;> by_cases hn : n < 0
  · rw [decide_eq_true hm, decide_eq_true hn] at htext
    have habs := hdigits (List.append_cancel_left htext)
    omega
  · rw [decide_eq_true hm, decide_eq_false hn] at htext
    exact absurd htext (signed_ne _ _)
  · rw [decide_eq_false hm, decide_eq_true hn] at htext
    exact absurd htext.symm (signed_ne _ _)
  · rw [decide_eq_false hm, decide_eq_false hn] at htext
    have habs := hdigits (List.append_cancel_left htext)
    omega

/-- Targets with one spelling are equal, or one of them is a number and the other its decimal text. -/
theorem Target.spelled_inj {a b : Target} : a.spelled = b.spelled ↔
    a = b ∨ ∃ n, a = .number n ∧ b = .name (Json.intText n) ∨
      b = .number n ∧ a = .name (Json.intText n) := by
  simp only [spelled, Target.name.injEq]
  constructor
  · intro h
    cases a with
    | name text =>
      cases b with
      | name other => exact .inl (congrArg Target.name h)
      | number n => exact .inr ⟨n, .inr ⟨rfl, congrArg Target.name h⟩⟩
    | number n =>
      cases b with
      | name other => exact .inr ⟨n, .inl ⟨rfl, congrArg Target.name h.symm⟩⟩
      | number m => exact .inl (congrArg Target.number (Json.intText_injective h))
  · rintro (rfl | ⟨n, ⟨rfl, rfl⟩ | ⟨rfl, rfl⟩⟩) <;> rfl

/-! ## Sections and their targets -/

theorem Section.recast_spelled : Section.Recast Section.spelled Choice.spelled where
  next _ _ := rfl
  label _ := rfl
  target _ := rfl
  added _ _ := rfl

namespace Story

theorem section?_spelled (s : Story) (id : String) :
    s.spelled.section? id = (s.section? id).map Section.spelled := section?_of_mapValues rfl id

theorem ids_spelled (s : Story) : s.spelled.ids = s.ids := ids_of_mapValues (f := Section.spelled) rfl

theorem hasSection_spelled (s : Story) (id : String) : s.spelled.hasSection id = s.hasSection id :=
  hasSection_of_mapValues (f := Section.spelled) rfl id

theorem targets_spelled (s : Story) : s.spelled.targets = s.targets := by
  funext id
  unfold targets
  rw [section?_spelled]
  cases s.section? id with
  | none => rfl
  | some x => exact Section.recast_spelled.targets x

/-! ## The graph -/

theorem dangling_spelled (s : Story) : s.spelled.dangling = s.dangling := by
  unfold dangling
  have hentry (e : String × Section) :
      ((e.2.spelled.choices.filter fun c => !s.spelled.hasSection c.target).map fun c =>
          (e.1, c.target)) =
        (e.2.choices.filter fun c => !s.hasSection c.target).map fun c => (e.1, c.target) := by
    simp only [hasSection_spelled]
    rw [Section.recast_spelled.choices, List.filter_map, List.map_map]
    rfl
  have hsections : s.spelled.sections = s.sections.map fun e => (e.1, e.2.spelled) := rfl
  rw [hsections, List.flatMap_map]
  exact congrArg (s.sections.flatMap ·) (funext hentry)

theorem choiceCount_spelled (s : Story) : s.spelled.choiceCount = s.choiceCount := by
  unfold choiceCount
  have hsections : s.spelled.sections = s.sections.map fun e => (e.1, e.2.spelled) := rfl
  rw [hsections, List.foldr_map]
  simp only [Section.recast_spelled.choices, List.length_map]

/-- Two searches over one queue go on alike, since a section found has the same targets. -/
theorem explore_spelled (s : Story) (depth : Int) (fuel : Nat) (queue : List (String × Int))
    (seen found : List String) :
    s.spelled.explore depth fuel queue seen found = s.explore depth fuel queue seen found := by
  induction fuel generalizing queue seen found with
  | zero => rfl
  | succ fuel ih =>
    cases queue with
    | nil => rfl
    | cons entry queue =>
      obtain ⟨id, distance⟩ := entry
      unfold explore
      simp only [section?_spelled, ih]
      split
      · rfl
      · cases s.section? id with
        | none => rfl
        | some x => simp only [Option.map_some, Section.recast_spelled.targets]

theorem reachable_spelled (s : Story) (start : String) (depth : Int) :
    s.spelled.reachable start depth = s.reachable start depth := by
  unfold reachable
  rw [choiceCount_spelled, explore_spelled]

theorem extendable?_spelled (s : Story) (start : String) (lookAhead : Option Int)
    (excluded : List String) (setting : Int) :
    s.spelled.extendable? start lookAhead excluded setting =
      s.extendable? start lookAhead excluded setting := by
  have hopen (id : String) :
      (s.spelled.section? id).any (fun x => x.extendable.get? == some true) =
        (s.section? id).any fun x => x.extendable.get? == some true := by
    rw [section?_spelled, Option.any_map]
    rfl
  have hahead : s.spelled.effectiveLookAhead lookAhead setting =
      s.effectiveLookAhead lookAhead setting := rfl
  unfold extendable?
  rw [hahead, reachable_spelled]
  simp only [hopen]

end Story

/-! ## Routes -/

namespace Route

/-- A step of a search asks a story for the targets of one section only. -/
theorem Cursor.step_of_targets {s t : Story} (h : s.targets = t.targets) (goal : Goal) (c : Cursor) :
    c.step s goal = c.step t goal := by
  unfold step follow
  rw [h]

/-- Stories with the same targets have the same search, by induction on what is left to try. -/
theorem Cursor.run_of_targets {s t : Story} (h : s.targets = t.targets) (goal : Goal) (c : Cursor) :
    c.run s goal = c.run t goal := by
  induction hweight : c.weight s using Nat.strong_induction_on generalizing c with
  | h weight ih =>
    cases hs : c.step s goal with
    | ended outcome =>
      have ht : c.step t goal = .ended outcome := c.step_of_targets h goal ▸ hs
      rw [run_of_ended hs, run_of_ended ht]
    | underway next =>
      have ht : c.step t goal = .underway next := c.step_of_targets h goal ▸ hs
      have hlt : next.weight s < weight := hweight ▸ weight_lt_of_step hs
      rw [run_of_underway hs, run_of_underway ht, ih _ hlt next rfl]

theorem search_spelled (s : Story) (start : List String) (goal : Goal) :
    search s.spelled start goal = search s start goal := by
  unfold search
  cases Progress.start start with
  | ended outcome => rfl
  | underway c => exact c.run_of_targets s.targets_spelled goal

end Route

namespace Story

theorem markdown_spelled (s : Story) (ids : List SectionRef) : s.spelled.markdown ids = s.markdown ids := by
  have hentry (ref : SectionRef) :
      (ref.bind s.spelled.section?).map (Section.markdown s.spelled.variableValues) =
        (ref.bind s.section?).map (Section.markdown s.variableValues) := by
    cases ref with
    | none => rfl
    | some id =>
      show (s.spelled.section? id).map _ = (s.section? id).map _
      rw [section?_spelled, Option.map_map]
      rfl
  unfold markdown
  rw [funext hentry]

theorem linearize_spelled (s : Story) (start finish : SectionRef) (through : List SectionRef)
    (maxLength : Option Int) :
    s.spelled.linearize start finish through maxLength = s.linearize start finish through maxLength := by
  unfold linearize
  rw [funext s.hasSection_spelled, Route.search_spelled, funext s.markdown_spelled]

/-! ## What may be written -/

theorem unknownValues_spelled (s : Story) : s.spelled.unknownValues = s.unknownValues := by
  have hsection (x : Section) : x.spelled.unknownValues = x.unknownValues := by
    unfold Section.unknownValues Section.spelled
    cases x.next with
    | absent => rfl
    | null => rfl
    | value cs => simp only [Field.collect, Field.map, Field.get?, Option.elim, List.flatMap_map]; rfl
  have hsections :
      s.spelled.sections.values.flatMap Section.unknownValues =
        s.sections.values.flatMap Section.unknownValues := by
    have hvalues : s.spelled.sections.values = s.sections.values.map Section.spelled := by
      simp only [spelled, Table.values, Table.mapValues, List.map_map]
      rfl
    rw [hvalues, List.flatMap_map, funext hsection]
  unfold unknownValues
  rw [hsections]
  rfl

theorem isWritable_spelled (s : Story) : s.spelled.isWritable = s.isWritable := by
  unfold isWritable
  rw [unknownValues_spelled]

end Story

end Gamebook
