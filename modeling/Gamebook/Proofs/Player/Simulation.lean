import Gamebook.Player.View
import Gamebook.Proofs.Script.Deed
import Mathlib.Data.Option.Basic

/-!
# Stories played side by side

A step of play asks a story for little: the values of its variables, the current section, the script of
a section, the targets of the current choices and the history.  Two stories that agree on these, and
go on doing so under the changes that play makes, give the same outcome at every step.

* `Story.Simulation`  : a relation of stories that agree, kept by every change that play makes.
* `runLines_related`, `move_related` : related stories after a script, and after a step.
* `Story.Invariant`   : a property kept by every change that play makes.
* `Invariant.runLines`, `Invariant.move` : it holds after a script, and after a step.
-/

set_option autoImplicit false

namespace Gamebook

/-! ## What play asks for, and what it changes -/

namespace Story

/-- The lines that are run when a section is entered. -/
def linesOf (s : Story) (id : String) : Option (List Line) :=
  (s.section? id).map fun x => (x.script.get?.getD []).map Line.ofAction

def currentTargets (s : Story) : List String := s.currentChoices.map Choice.target

/-- The story without the last section of its history. -/
def popped (s : Story) : Story :=
  s.withState fun st => { st with history := st.history.map List.dropLast }

/-- Related stories agree on what play asks for, and stay related when play changes both. -/
structure Simulation (R : Story → Story → Prop) : Prop where
  values : ∀ {s t}, R s t → s.variableValues = t.variableValues
  currentId : ∀ {s t}, R s t → s.currentId? = t.currentId?
  hasSection : ∀ {s t}, R s t → ∀ id, s.hasSection id = t.hasSection id
  lines : ∀ {s t}, R s t → ∀ id, s.linesOf id = t.linesOf id
  targets : ∀ {s t}, R s t → s.currentTargets = t.currentTargets
  history : ∀ {s t}, R s t → s.history = t.history
  setVariable : ∀ {s t}, R s t → ∀ name value, R (s.setVariable name value) (t.setVariable name value)
  addChoice : ∀ {s t}, R s t → ∀ id target label,
    R (s.modifySection id (.addChoice target label)) (t.modifySection id (.addChoice target label))
  removeChoice : ∀ {s t}, R s t → ∀ id target,
    R (s.modifySection id (.removeChoice target)) (t.modifySection id (.removeChoice target))
  entered : ∀ {s t}, R s t → ∀ id, s.hasSection id = true → ∀ remember,
    R (s.entered id remember) (t.entered id remember)
  popped : ∀ {s t}, R s t → R s.popped t.popped

end Story

/-! ## Scripts -/

section Scripts

variable {σ : Type} {R : Story → Story → Prop} {noted : Prop}

/-- Scenes of related stories, with the same state of the asking.  Where notes are compared, the same was
asked and skipped. -/
structure Scene.Related (R : Story → Story → Prop) (noted : Prop) (a b : Scene σ) : Prop where
  story : R a.story b.story
  desk : a.desk = b.desk
  asked : noted → a.asked = b.asked
  skipped : noted → a.skipped = b.skipped

/-- Related scenes, and the same end. -/
def Related (R : Story → Story → Prop) (noted : Prop) (x y : Outcome σ) : Prop :=
  x.1.Related R noted y.1 ∧ x.2 = y.2

namespace Scene.Related

variable {a b : Scene σ}

theorem update (h : a.Related R noted b) (f : Story → Story) (hf : R (f a.story) (f b.story)) :
    (a.update f).Related R noted (b.update f) := ⟨hf, h.desk, h.asked, h.skipped⟩

theorem skip (h : a.Related R noted b) (index : Nat) (tag : String) (reason : SkipReason) :
    (a.skip index tag reason).Related R noted (b.skip index tag reason) :=
  ⟨h.story, h.desk, h.asked, fun hnoted => congrArg (· ++ [_]) (h.skipped hnoted)⟩

/-- The same question, with the same answer, leaves the asking in the same state. -/
theorem ask (h : a.Related R noted b) (message : String) (desk : σ) :
    ({ a with desk := desk, asked := a.asked ++ [message] } : Scene σ).Related R noted
      { b with desk := desk, asked := b.asked ++ [message] } :=
  ⟨h.story, rfl, fun hnoted => congrArg (· ++ [message]) (h.asked hnoted), h.skipped⟩

end Scene.Related

variable (hR : Story.Simulation R)

include hR

theorem currentForChoices_related {s t : Story} (h : R s t) :
    s.currentForChoices = t.currentForChoices := by
  unfold Story.currentForChoices
  simp only [hR.currentId h, hR.hasSection h]

theorem changeChoices_related {a b : Scene σ} (h : a.Related R noted b) (index : Nat) (tag : String)
    {change : Section → Section}
    (hchange : ∀ id, R (a.story.modifySection id change) (b.story.modifySection id change)) :
    Related R noted (changeChoices index tag change a) (changeChoices index tag change b) := by
  unfold changeChoices
  rw [currentForChoices_related hR h.story]
  cases b.story.currentForChoices with
  | ok id => exact ⟨h.update (·.modifySection id change) (hchange id), rfl⟩
  | error reason => exact ⟨h.skip index tag reason, rfl⟩

theorem askFor_related (prompter : Option (Prompter σ)) (index : Nat) (tag name message : String)
    {a b : Scene σ} (h : a.Related R noted b) :
    Related R noted (askFor prompter index tag name message a)
      (askFor prompter index tag name message b) := by
  unfold askFor
  cases prompter with
  | none => exact ⟨h.skip index tag .noPrompt, rfl⟩
  | some p =>
    dsimp only
    rw [h.desk]
    cases (p.ask message b.desk).1 with
    | answer text =>
      exact ⟨(h.ask message _).update (·.setVariable name text) (hR.setVariable h.story name text), rfl⟩
    | cancelled => exact ⟨h.ask message _, rfl⟩
    | ended => exact ⟨h.ask message _, rfl⟩

theorem perform_related (prompter : Option (Prompter σ)) (index : Nat) (tag : String) (d : Deed)
    {a b : Scene σ} (h : a.Related R noted b) :
    Related R noted (d.perform prompter index tag a) (d.perform prompter index tag b) := by
  cases d with
  | nothing | interrupted => exact ⟨h, rfl⟩
  | skip reason => exact ⟨h.skip index tag reason, rfl⟩
  | write name value => exact ⟨h.update (·.setVariable name value) (hR.setVariable h.story name value), rfl⟩
  | ask name message => exact askFor_related hR prompter index tag name message h
  | addChoice target label =>
    exact changeChoices_related hR h index tag fun id => hR.addChoice h.story id target label
  | removeChoice target =>
    exact changeChoices_related hR h index tag fun id => hR.removeChoice h.story id target

/-- A line comes to the same in related stories, and leaves them related. -/
theorem line_related (prompter : Option (Prompter σ)) (index : Nat) (line : Line) {a b : Scene σ}
    (h : a.Related R noted b) :
    Related R noted (line.run prompter index a) (line.run prompter index b) := by
  rw [line.run_eq_perform, line.run_eq_perform, line.deed_congr (hR.values h.story)]
  exact perform_related hR prompter index line.tag.spoken _ h

/-- Related stories after a script. -/
theorem runLines_related (prompter : Option (Prompter σ)) (lines : List Line) (index : Nat)
    {a b : Scene σ} (h : a.Related R noted b) :
    Related R noted (runLines prompter index lines a) (runLines prompter index lines b) := by
  induction lines generalizing index a b with
  | nil => exact ⟨h, rfl⟩
  | cons line rest ih =>
    obtain ⟨hscene, hend⟩ := line_related hR prompter index line h
    unfold runLines
    revert hscene hend
    generalize line.run prompter index a = x
    generalize line.run prompter index b = y
    intro hscene hend
    obtain ⟨x, ended⟩ := x
    obtain ⟨y, _⟩ := y
    cases hend
    cases ended with
    | none => exact ih (index + 1) hscene
    | some interruption => exact ⟨hscene, rfl⟩

end Scripts

/-! ## Steps -/

namespace Player

variable {σ : Type} {R : Story → Story → Prop} {noted : Prop}

/-- Players of related stories, or of none, with the same state of the asking.  Where notes are compared,
the same was asked and skipped. -/
structure Related (R : Story → Story → Prop) (noted : Prop) (p q : Player σ) : Prop where
  story : Option.Rel R p.story q.story
  desk : p.desk = q.desk
  asked : noted → p.asked = q.asked
  skipped : noted → p.skipped = q.skipped

/-- Related players after a step, and the same result. -/
def RelatedStep {α : Type} (R : Story → Story → Prop) (noted : Prop) (x y : Step σ α) : Prop :=
  x.1.Related R noted y.1 ∧ x.2 = y.2

theorem forward_eq (prompter : Option (Prompter σ)) (p : Player σ) :
    p.forward prompter =
      match p.story.elim [] Story.currentTargets with
      | [target] =>
        ((p.enter prompter target true).1, (p.enter prompter target true).2.map fun _ => true)
      | _ => (p, .ok false) := by
  have htargets : p.story.elim [] Story.currentTargets = p.storedChoices.map Choice.target := by
    unfold storedChoices
    cases p.story <;> rfl
  rw [htargets]
  unfold forward
  rcases p.storedChoices with _ | ⟨c, _ | ⟨d, more⟩⟩ <;> rfl

theorem choose_eq (prompter : Option (Prompter σ)) (p : Player σ) (index : Int) :
    p.choose prompter index =
      match (if index < 0 then none else (p.story.elim [] Story.currentTargets)[index.toNat]?) with
      | some target => p.enter prompter target true
      | none =>
        (p, .error (.invalidChoice index (p.story.elim [] Story.currentTargets).length)) := by
  have htargets : p.story.elim [] Story.currentTargets = p.storedChoices.map Choice.target := by
    unfold storedChoices
    cases p.story <;> rfl
  rw [htargets, List.length_map, List.getElem?_map]
  unfold choose
  by_cases hneg : index < 0
  · simp only [if_pos hneg]
  · simp only [if_neg hneg]
    cases p.storedChoices[index.toNat]? <;> rfl

theorem enter_eq (prompter : Option (Prompter σ)) (p : Player σ) (s : Story) (hs : p.story = some s)
    (id : String) (remember : Bool) :
    p.enter prompter id remember =
      match s.linesOf id with
      | none => (p, .error (.missingSection id))
      | some lines =>
        let (scene, ended) :=
          runLines prompter 0 lines ⟨s.entered id remember, p.desk, p.asked, p.skipped⟩
        (⟨some scene.story, scene.desk, scene.asked, scene.skipped⟩,
          match ended with
          | none => .ok ()
          | some cause => .error (.interrupted cause)) := by
  unfold enter Story.linesOf
  rw [hs]
  dsimp only
  cases s.section? id <;> rfl

/-- The result of entering a section whose script is interrupted. -/
theorem enter_of_interrupted {prompter : Option (Prompter σ)} {p : Player σ} {s : Story} {id : String}
    {remember : Bool} {lines : List Line} {cause : Interruption} (hs : p.story = some s)
    (hlines : s.linesOf id = some lines)
    (hended : (runLines prompter 0 lines ⟨s.entered id remember, p.desk, p.asked, p.skipped⟩).2 =
      some cause) : (p.enter prompter id remember).2 = .error (.interrupted cause) := by
  rw [enter_eq prompter p s hs, hlines]
  dsimp only
  rw [hended]

/-- A player keeps having a story. -/
theorem enter_isSome (prompter : Option (Prompter σ)) {p : Player σ} (h : p.story.isSome = true)
    (id : String) (remember : Bool) : (p.enter prompter id remember).1.story.isSome = true := by
  obtain ⟨s, hs⟩ := Option.isSome_iff_exists.1 h
  rw [enter_eq prompter p s hs]
  cases s.linesOf id with
  | none => exact h
  | some lines => rfl

theorem move_isSome (prompter : Option (Prompter σ)) {p : Player σ} (h : p.story.isSome = true)
    (m : Move) : (p.move prompter m).1.story.isSome = true := by
  cases m with
  | enter id => exact enter_isSome prompter h id true
  | choose index =>
    unfold move
    dsimp only
    rw [choose_eq]
    split
    · exact enter_isSome prompter h _ true
    · exact h
  | forward =>
    unfold move
    dsimp only
    rw [forward_eq]
    split
    · exact enter_isSome prompter h _ true
    · exact h
  | back =>
    obtain ⟨s, hs⟩ := Option.isSome_iff_exists.1 h
    simp only [move, back, hs]
    split
    · exact h
    · split
      · exact enter_isSome prompter (by rfl) _ false
      · exact h

variable (hR : Story.Simulation R) (prompter : Option (Prompter σ)) {p q : Player σ}

include hR

theorem targets_related (h : p.Related R noted q) :
    p.story.elim [] Story.currentTargets = q.story.elim [] Story.currentTargets := by
  have hstory := h.story
  revert hstory
  generalize p.story = x
  generalize q.story = y
  rintro (hst | _)
  · exact hR.targets hst
  · rfl

theorem enter_related (h : p.Related R noted q) (id : String) (remember : Bool) :
    RelatedStep R noted (p.enter prompter id remember) (q.enter prompter id remember) := by
  obtain ⟨hstory, hdesk, hasked, hskipped⟩ := h
  cases hp : p.story with
  | none =>
    rw [hp] at hstory
    have hq : q.story = none := by
      cases hq : q.story with
      | none => rfl
      | some t =>
        rw [hq] at hstory
        cases hstory
    unfold enter
    rw [hp, hq]
    exact ⟨⟨by rw [hp, hq]; exact .none, hdesk, hasked, hskipped⟩, rfl⟩
  | some s =>
    rw [hp] at hstory
    obtain ⟨t, hq, hst⟩ : ∃ t, q.story = some t ∧ R s t := by
      cases hq : q.story with
      | none =>
        rw [hq] at hstory
        cases hstory
      | some t =>
        rw [hq] at hstory
        cases hstory with
        | some hst => exact ⟨t, rfl, hst⟩
    rw [enter_eq prompter p s hp, enter_eq prompter q t hq, hR.lines hst, hdesk]
    cases hlines : t.linesOf id with
    | none => exact ⟨⟨by rw [hp, hq]; exact .some hst, hdesk, hasked, hskipped⟩, rfl⟩
    | some lines =>
      have hhas : s.hasSection id = true := by
        have hsame := hR.lines hst id
        rw [hlines, Story.linesOf, Option.map_eq_some_iff] at hsame
        obtain ⟨x, hx, -⟩ := hsame
        exact Option.isSome_of_eq_some hx
      have hrun := runLines_related hR prompter lines 0
        (a := ⟨s.entered id remember, q.desk, p.asked, p.skipped⟩)
        (b := ⟨t.entered id remember, q.desk, q.asked, q.skipped⟩)
        ⟨hR.entered hst id hhas remember, rfl, hasked, hskipped⟩
      obtain ⟨hscene, hend⟩ := hrun
      dsimp only
      rw [hend]
      exact ⟨⟨.some hscene.story, hscene.desk, hscene.asked, hscene.skipped⟩, rfl⟩

theorem forward_related (h : p.Related R noted q) :
    RelatedStep R noted (p.forward prompter) (q.forward prompter) := by
  rw [forward_eq, forward_eq, targets_related hR h]
  split
  · obtain ⟨hplayer, hresult⟩ := enter_related hR prompter h _ true
    exact ⟨hplayer, by rw [hresult]⟩
  · exact ⟨h, rfl⟩

theorem choose_related (h : p.Related R noted q) (index : Int) :
    RelatedStep R noted (p.choose prompter index) (q.choose prompter index) := by
  rw [choose_eq, choose_eq, targets_related hR h]
  split
  · exact enter_related hR prompter h _ true
  · exact ⟨h, rfl⟩

theorem back_related (h : p.Related R noted q) :
    RelatedStep R noted (p.back prompter) (q.back prompter) := by
  obtain ⟨hstory, hdesk, hasked, hskipped⟩ := h
  unfold back
  revert hstory
  generalize hx : p.story = x
  generalize hy : q.story = y
  rintro (hst | _)
  · rename_i s t
    dsimp only
    rw [hR.history hst]
    cases t.history.getLast? with
    | none => exact ⟨⟨by rw [hx, hy]; exact .some hst, hdesk, hasked, hskipped⟩, rfl⟩
    | some previous =>
      dsimp only
      rw [hR.hasSection hst]
      split
      · have hrelated :
            Related R noted { p with story := some s.popped } { q with story := some t.popped } :=
          ⟨.some (hR.popped hst), hdesk, hasked, hskipped⟩
        obtain ⟨hplayer, hresult⟩ := enter_related hR prompter hrelated previous false
        exact ⟨hplayer, congrArg (Except.map fun _ => true) hresult⟩
      · exact ⟨⟨by rw [hx, hy]; exact .some hst, hdesk, hasked, hskipped⟩, rfl⟩
  · exact ⟨⟨by rw [hx, hy]; exact .none, hdesk, hasked, hskipped⟩, rfl⟩

/-- Related stories after a step of play, with the same result. -/
theorem move_related (h : p.Related R noted q) (m : Move) :
    RelatedStep R noted (p.move prompter m) (q.move prompter m) := by
  cases m with
  | enter id => exact enter_related hR prompter h id true
  | choose index => exact choose_related hR prompter h index
  | forward =>
    obtain ⟨hplayer, hresult⟩ := forward_related hR prompter h
    exact ⟨hplayer, congrArg (Except.map fun _ => ()) hresult⟩
  | back =>
    obtain ⟨hplayer, hresult⟩ := back_related hR prompter h
    exact ⟨hplayer, congrArg (Except.map fun _ => ()) hresult⟩

end Player

/-! ## Properties of one story -/

/-- A property kept by every change that play makes. -/
structure Story.Invariant (P : Story → Prop) : Prop where
  setVariable : ∀ {s}, P s → ∀ name value, P (s.setVariable name value)
  addChoice : ∀ {s}, P s → ∀ id target label, P (s.modifySection id (.addChoice target label))
  removeChoice : ∀ {s}, P s → ∀ id target, P (s.modifySection id (.removeChoice target))
  entered : ∀ {s}, P s → ∀ id, s.hasSection id = true → ∀ remember, P (s.entered id remember)
  popped : ∀ {s}, P s → P s.popped

namespace Story.Invariant

variable {σ : Type} {P : Story → Prop}

/-- A story beside itself. -/
theorem simulation (h : Invariant P) : Simulation fun s t => s = t ∧ P s where
  values := by rintro s t ⟨rfl, -⟩; rfl
  currentId := by rintro s t ⟨rfl, -⟩; rfl
  hasSection := by rintro s t ⟨rfl, -⟩ id; rfl
  lines := by rintro s t ⟨rfl, -⟩ id; rfl
  targets := by rintro s t ⟨rfl, -⟩; rfl
  history := by rintro s t ⟨rfl, -⟩; rfl
  setVariable := by rintro s t ⟨rfl, hs⟩ name value; exact ⟨rfl, h.setVariable hs name value⟩
  addChoice := by rintro s t ⟨rfl, hs⟩ id target label; exact ⟨rfl, h.addChoice hs id target label⟩
  removeChoice := by rintro s t ⟨rfl, hs⟩ id target; exact ⟨rfl, h.removeChoice hs id target⟩
  entered := by
    rintro s t ⟨rfl, hs⟩ id hid remember
    exact ⟨rfl, h.entered hs id hid remember⟩
  popped := by rintro s t ⟨rfl, hs⟩; exact ⟨rfl, h.popped hs⟩

/-- The property holds after a script. -/
theorem runLines (h : Invariant P) (prompter : Option (Prompter σ)) (lines : List Line) (index : Nat)
    {scene : Scene σ} (hscene : P scene.story) :
    P (Gamebook.runLines prompter index lines scene).1.story :=
  by
  have hself : scene.Related (fun s t => s = t ∧ P s) True scene :=
    ⟨⟨rfl, hscene⟩, rfl, fun _ => rfl, fun _ => rfl⟩
  exact (runLines_related h.simulation prompter lines index hself).1.story.2

theorem of_related {p q : Player σ} (h : p.Related (fun s t => s = t ∧ P s) True q) {s : Story}
    (hs : p.story = some s) : P s := by
  have hstory := h.story
  rw [hs] at hstory
  generalize q.story = y at hstory
  cases hstory with
  | some hst => exact hst.2

theorem related_self {p : Player σ} (hp : ∀ s, p.story = some s → P s) :
    p.Related (fun s t => s = t ∧ P s) True p := by
  refine ⟨?_, rfl, fun _ => rfl, fun _ => rfl⟩
  cases hstory : p.story with
  | none => exact .none
  | some s => exact .some ⟨rfl, hp s hstory⟩

/-- The property holds after a section was entered. -/
theorem enter (h : Invariant P) (prompter : Option (Prompter σ)) {p : Player σ}
    (hp : ∀ s, p.story = some s → P s) (id : String) (remember : Bool) :
    ∀ s, (p.enter prompter id remember).1.story = some s → P s := fun _ hs =>
  of_related (Player.enter_related h.simulation prompter (related_self hp) id remember).1 hs

/-- The property holds after a step of play. -/
theorem move (h : Invariant P) (prompter : Option (Prompter σ)) {p : Player σ}
    (hp : ∀ s, p.story = some s → P s) (m : Move) :
    ∀ s, (p.move prompter m).1.story = some s → P s := fun _ hs =>
  of_related (Player.move_related h.simulation prompter (related_self hp) m).1 hs

end Story.Invariant

end Gamebook
