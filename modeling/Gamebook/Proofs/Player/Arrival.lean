import Gamebook.Proofs.Player.Reachable
import Gamebook.Proofs.Script.Effect

/-!
# Where a step of play leads

A step is refused, finds nothing to do, or arrives: the section is current, and then its script runs,
which moves the player no further.

* `Place`, `Story.place`  : the current section, and those visited before.
* `Place.entered`         : the place behind a step to a section.
* `place_of_scripted`     : a script leaves the place and the sections as they are.
* `Player.Arrives`        : a step that came to a section and ran its script.
* `enter_arrives`, `back_arrives` : when a step arrives, and where it does not.
-/

set_option autoImplicit false

namespace Gamebook

/-- Where play is: the current section, and those visited before. -/
structure Place where
  current : Option String
  history : List String
  deriving DecidableEq, Repr

/-- The place behind a step to a section; the current one is remembered if asked. -/
def Place.entered (place : Place) (id : String) (remember : Bool) : Place :=
  ⟨some id, if remember then place.history ++ place.current.toList else place.history⟩

namespace Story

variable {s t : Story}

def place (s : Story) : Place := ⟨s.currentId?, s.history⟩

theorem place_entered (s : Story) (id : String) (remember : Bool) :
    (s.entered id remember).place = s.place.entered id remember := by
  cases remember <;> rfl

theorem place_popped (s : Story) : s.popped.place = ⟨s.currentId?, s.history.dropLast⟩ := by
  have hhistory : s.popped.history = s.history.dropLast := by
    show ((s.stateOrEmpty.history.map List.dropLast).get?).getD [] = _
    unfold history
    cases s.stateOrEmpty.history <;> rfl
  unfold place
  rw [hhistory]
  rfl

theorem ids_modifySection (s : Story) (id : String) (f : Section → Section) :
    (s.modifySection id f).ids = s.ids := Table.keys_modify ..

theorem hasSection_of_ids (h : t.ids = s.ids) (id : String) : t.hasSection id = s.hasSection id := by
  rw [Bool.eq_iff_iff]
  exact (Table.has_iff _ _).trans ((iff_of_eq (congrArg (id ∈ ·) h)).trans (Table.has_iff _ _).symm)

/-- No instruction moves the player, nor does it add or remove a section. -/
theorem place_of_effect {i : Instruction String} (h : i.Effect s t) :
    t.place = s.place ∧ t.ids = s.ids := by
  cases h with
  | kept => exact ⟨rfl, rfl⟩
  | set h value => exact ⟨rfl, rfl⟩
  | added hid h => exact ⟨rfl, ids_modifySection ..⟩
  | removed hid target => exact ⟨rfl, ids_modifySection ..⟩

theorem place_of_scripted {lines : List Line} (h : Scripted lines s t) :
    t.place = s.place ∧ t.ids = s.ids := by
  refine h.keeps (P := fun u => u.place = s.place ∧ u.ids = s.ids) ?_ ⟨rfl, rfl⟩
  intro _ _ _ _ _ _ heffect hu
  obtain ⟨hplace, hids⟩ := place_of_effect heffect
  exact ⟨hplace.trans hu.1, hids.trans hu.2⟩

theorem linesOf_eq_none_iff {id : String} : s.linesOf id = none ↔ s.hasSection id = false := by
  unfold linesOf hasSection Table.has
  rw [Option.map_eq_none_iff, section?, ← Option.isNone_iff_eq_none, ← Option.not_isSome,
    Bool.not_eq_true']

theorem exists_linesOf {id : String} (h : s.hasSection id = true) : ∃ lines, s.linesOf id = some lines := by
  cases hlines : s.linesOf id with
  | none =>
    rw [linesOf_eq_none_iff.1 hlines] at h
    cases h
  | some lines => exact ⟨lines, rfl⟩

end Story

namespace Player

variable {σ : Type} (prompter : Option (Prompter σ)) {p : Player σ} {s : Story}

/-- A step that came to a section, where the story was `s`, and ran its lines: it has its result unless
the script was interrupted. -/
structure Arrives {α : Type} (step : Step σ α) (result : α) (s : Story) (lines : List Line) : Prop where
  story : ∃ t, step.1.story = some t ∧ Scripted lines s t
  result : step.2 = .ok result ∨ ∃ cause, step.2 = .error (.interrupted cause)

/-- A step with another result arrives at the same place. -/
theorem Arrives.map {α β : Type} {step : Step σ α} {result : α} {lines : List Line}
    (h : Arrives step result s lines) (f : α → β) :
    Arrives (step.1, step.2.map f) (f result) s lines := by
  refine ⟨h.story, ?_⟩
  obtain hok | ⟨cause, hcause⟩ := h.result
  · rw [hok]
    exact .inl rfl
  · rw [hcause]
    exact .inr ⟨cause, rfl⟩

theorem Arrives.place {α : Type} {step : Step σ α} {result : α} {lines : List Line}
    (h : Arrives step result s lines) :
    ∃ t, step.1.story = some t ∧ t.place = s.place ∧ t.ids = s.ids := by
  obtain ⟨t, ht, hscripted⟩ := h.story
  exact ⟨t, ht, Story.place_of_scripted hscripted⟩

theorem enter_missing (hs : p.story = some s) {id : String} (h : s.hasSection id = false)
    (remember : Bool) : p.enter prompter id remember = (p, .error (.missingSection id)) := by
  rw [enter_eq prompter p s hs, Story.linesOf_eq_none_iff.2 h]

/-- A section that is there is entered. -/
theorem enter_arrives (hs : p.story = some s) {id : String} {lines : List Line}
    (h : s.linesOf id = some lines) (remember : Bool) :
    Arrives (p.enter prompter id remember) () (s.entered id remember) lines := by
  rw [enter_eq prompter p s hs, h]
  have hscripted := scripted_runLines prompter lines 0
    ⟨s.entered id remember, p.desk, p.asked, p.skipped⟩
  refine ⟨⟨_, rfl, hscripted⟩, ?_⟩
  dsimp only
  cases (runLines prompter 0 lines ⟨s.entered id remember, p.desk, p.asked, p.skipped⟩).2 with
  | none => exact .inl rfl
  | some cause => exact .inr ⟨cause, rfl⟩

theorem back_stays (hs : p.story = some s) (h : s.history = []) :
    p.back prompter = (p, .ok false) := by
  unfold back
  rw [hs]
  dsimp only
  rw [h]
  rfl

theorem back_missing (hs : p.story = some s) {past : List String} {previous : String}
    (hhistory : s.history = past ++ [previous]) (h : s.hasSection previous = false) :
    p.back prompter = (p, .error (.missingSection previous)) := by
  unfold back
  rw [hs]
  dsimp only
  rw [hhistory, List.getLast?_concat]
  dsimp only
  rw [h]
  rfl

/-- The section visited last, if it is there, is entered again, and leaves the history. -/
theorem back_arrives (hs : p.story = some s) {past : List String} {previous : String}
    (hhistory : s.history = past ++ [previous]) {lines : List Line}
    (h : s.linesOf previous = some lines) :
    Arrives (p.back prompter) true (s.popped.entered previous false) lines := by
  have hhas : s.hasSection previous = true := by
    rw [← Bool.not_eq_false, ← Story.linesOf_eq_none_iff, h]
    exact Option.some_ne_none lines
  have hback : p.back prompter =
      (({ p with story := some s.popped }.enter prompter previous false).1,
        ({ p with story := some s.popped }.enter prompter previous false).2.map fun _ => true) := by
    unfold back
    rw [hs]
    dsimp only
    rw [hhistory, List.getLast?_concat]
    dsimp only
    rw [if_pos hhas]
    rfl
  rw [hback]
  exact (enter_arrives prompter (p := { p with story := some s.popped }) rfl h false).map fun _ => true

end Player

end Gamebook
