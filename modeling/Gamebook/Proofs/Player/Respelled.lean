import Gamebook.Proofs.Extension.Respelled
import Gamebook.Proofs.Player.Reachable

/-!
# Play and the spelling of targets

Play follows a target as the id that it means, and a script that adds or removes a choice compares ids.
A player of the story with every target written as a text therefore goes where a player of the story
itself goes, and is told the same; what it is shown of a choice is the other spelling.

* `Story.spelled_simulation` : the two stories side by side.
* `Player.Reported`, `Player.reports` : what a player says to one operation after another.
* `operate_spelled`, `report_spelled` : one operation on the two stories.
* `run_spelled`, `reports_spelled`    : every run.
* `respelled_indistinguishable` : stories that differ in the spelling of targets, in every use.
-/

set_option autoImplicit false

namespace Gamebook

namespace Story

/-! ## Two stories side by side -/

theorem currentSection?_spelled (s : Story) :
    s.spelled.currentSection? = s.currentSection?.map Section.spelled :=
  currentSection?_of_mapValues rfl rfl

theorem currentChoices_spelled (s : Story) :
    s.spelled.currentChoices = s.currentChoices.map Choice.spelled :=
  currentChoices_of_mapValues rfl Section.recast_spelled rfl

theorem linesOf_spelled (s : Story) (id : String) : s.spelled.linesOf id = s.linesOf id := by
  unfold linesOf
  rw [section?_spelled, Option.map_map]
  rfl

theorem modifySection_spelled (s : Story) (id : String) {f : Section → Section}
    (hf : ∀ x, (f x).spelled = f x.spelled) :
    (s.modifySection id f).spelled = s.spelled.modifySection id f := by
  unfold modifySection spelled
  simp only [Story.mk.injEq, true_and, and_true]
  exact Table.mapValues_modify s.sections id hf

/-- The story with every target written as a text plays as the story. -/
theorem spelled_simulation : Simulation fun s t => t = s.spelled where
  values := by rintro s t rfl; rfl
  currentId := by rintro s t rfl; rfl
  hasSection := by rintro s t rfl id; exact (s.hasSection_spelled id).symm
  lines := by rintro s t rfl id; exact (s.linesOf_spelled id).symm
  targets := by
    rintro s t rfl
    unfold currentTargets
    rw [currentChoices_spelled, List.map_map]
    rfl
  history := by rintro s t rfl; rfl
  setVariable := by rintro s t rfl name value; rfl
  addChoice := by
    rintro s t rfl id target label
    exact (s.modifySection_spelled id (Section.recast_spelled.addChoice target label)).symm
  removeChoice := by
    rintro s t rfl id target
    exact (s.modifySection_spelled id (Section.recast_spelled.removeChoice target)).symm
  entered := by rintro s t rfl id _ remember; rfl
  popped := by rintro s t rfl; rfl

theorem started_spelled (s : Story) : s.spelled.started = s.started.spelled := by
  have hfirst : s.spelled.firstId? = s.firstId? := congrArg List.head? s.ids_spelled
  unfold started
  rw [funext s.hasSection_spelled, hfirst]
  rfl

/-! ## What is seen -/

theorem currentText_spelled (s : Story) : s.spelled.currentText = s.currentText := by
  unfold currentText
  rw [currentSection?_spelled]
  cases s.currentSection? <;> rfl

end Story

/-- The view with the targets of its choices as texts. -/
def View.spelled (v : View) : View := { v with choices := v.choices.map Choice.spelled }

namespace Story

theorem shownChoices_spelled (s : Story) :
    s.spelled.shownChoices = s.shownChoices.map Choice.spelled := by
  unfold shownChoices
  rw [currentChoices_spelled, List.map_map, List.map_map]
  rfl

theorem canForward_spelled (s : Story) : s.spelled.canForward = s.canForward := by
  unfold canForward
  rw [currentChoices_spelled, List.length_map]

theorem view_spelled (s : Story) : s.spelled.view = s.view.spelled := by
  have hmedia : (s.spelled.currentSection?.bind fun x => x.media.get?) =
      s.currentSection?.bind fun x => x.media.get? := by
    rw [currentSection?_spelled]
    cases s.currentSection? <;> rfl
  unfold view View.spelled
  rw [currentText_spelled, hmedia, shownChoices_spelled, canForward_spelled]
  rfl

end Story

/-! ## Operations -/

namespace Player

/-- What a player says to an operation. -/
inductive Reported where
  /-- A load, or a section entered or chosen. -/
  | done (result : Except PlayError Unit)
  /-- A step forward or back, and whether there was a way. -/
  | stepped (result : Except PlayError Bool)
  | seen (result : Except PlayError View)

/-- The same with the targets of what is seen as texts. -/
def Reported.spelled : Reported → Reported
  | .seen result => .seen (result.map View.spelled)
  | said => said

variable {σ : Type}

def report (prompter : Option (Prompter σ)) (p : Player σ) : Operation → Reported
  | .load story => .done (p.load story).2
  | .fresh => .done (p.load (some .fresh)).2
  | .enter id remember => .done (p.enter prompter id remember).2
  | .forward => .stepped (p.forward prompter).2
  | .back => .stepped (p.back prompter).2
  | .choose index => .done (p.choose prompter index).2
  | .view => .seen p.view

/-- What a player says to one operation after another. -/
def reports (prompter : Option (Prompter σ)) (p : Player σ) : List Operation → List Reported
  | [] => []
  | op :: rest => p.report prompter op :: (p.operate prompter op).reports prompter rest

/-- The player of the story with every target written as a text. -/
def spelled (p : Player σ) : Player σ := { p with story := p.story.map Story.spelled }

end Player

/-- The operation with all targets of the story it loads as texts. -/
def Operation.spelled : Operation → Operation
  | .load story => .load (story.map Story.spelled)
  | op => op

namespace Player

variable {σ : Type} (prompter : Option (Prompter σ)) (p : Player σ)

/-- Players side by side, with the same questions and the same notes. -/
abbrev Beside (p q : Player σ) : Prop := Related (fun s t => t = s.spelled) True p q

theorem beside_spelled : p.Beside p.spelled := by
  refine ⟨?_, rfl, fun _ => rfl, fun _ => rfl⟩
  unfold spelled
  cases p.story with
  | none => exact .none
  | some s => exact .some rfl

variable {p}

theorem eq_of_beside {q : Player σ} (h : p.Beside q) : q = p.spelled := by
  obtain ⟨story, desk, asked, skipped⟩ := p
  obtain ⟨story', desk', asked', skipped'⟩ := q
  obtain ⟨hstory, hdesk, hasked, hskipped⟩ := h
  cases hdesk
  cases hasked trivial
  cases hskipped trivial
  cases hstory with
  | none => rfl
  | some hst => rw [hst]; rfl

/-- A step of one player is a step of the other, with the same result. -/
theorem eq_of_relatedStep {α : Type} {x y : Step σ α}
    (h : RelatedStep (fun s t => t = s.spelled) True x y) : y = (x.1.spelled, x.2) :=
  Prod.ext (eq_of_beside h.1) h.2.symm

variable (p)

theorem enter_spelled (id : String) (remember : Bool) : p.spelled.enter prompter id remember =
    ((p.enter prompter id remember).1.spelled, (p.enter prompter id remember).2) :=
  eq_of_relatedStep (enter_related Story.spelled_simulation prompter p.beside_spelled id remember)

theorem forward_spelled : p.spelled.forward prompter =
    ((p.forward prompter).1.spelled, (p.forward prompter).2) :=
  eq_of_relatedStep (forward_related Story.spelled_simulation prompter p.beside_spelled)

theorem back_spelled : p.spelled.back prompter =
    ((p.back prompter).1.spelled, (p.back prompter).2) :=
  eq_of_relatedStep (back_related Story.spelled_simulation prompter p.beside_spelled)

theorem choose_spelled (index : Int) : p.spelled.choose prompter index =
    ((p.choose prompter index).1.spelled, (p.choose prompter index).2) :=
  eq_of_relatedStep (choose_related Story.spelled_simulation prompter p.beside_spelled index)

theorem load_spelled (story : Option Story) : p.spelled.load (story.map Story.spelled) =
    ((p.load story).1.spelled, (p.load story).2) := by
  cases story with
  | none => rfl
  | some s =>
    have hempty : s.spelled.sections.isEmpty = s.sections.isEmpty := List.isEmpty_map
    unfold load
    simp only [Option.map_some, hempty]
    split
    · rfl
    · rw [Story.started_spelled]
      rfl

theorem view_spelled : p.spelled.view = p.view.map View.spelled := by
  unfold view spelled
  cases p.story with
  | none => rfl
  | some s => exact congrArg Except.ok s.view_spelled

/-- The player after an operation. -/
theorem operate_spelled (op : Operation) :
    p.spelled.operate prompter op.spelled = (p.operate prompter op).spelled := by
  cases op with
  | load story => exact congrArg Prod.fst (p.load_spelled story)
  | fresh => exact congrArg Prod.fst (p.load_spelled (some .fresh))
  | enter id remember => exact congrArg Prod.fst (p.enter_spelled prompter id remember)
  | forward => exact congrArg Prod.fst (p.forward_spelled prompter)
  | back => exact congrArg Prod.fst (p.back_spelled prompter)
  | choose index => exact congrArg Prod.fst (p.choose_spelled prompter index)
  | view => rfl

/-- What the player says to it. -/
theorem report_spelled (op : Operation) :
    p.spelled.report prompter op.spelled = (p.report prompter op).spelled := by
  cases op with
  | load story => exact congrArg (fun x => Reported.done x.2) (p.load_spelled story)
  | fresh => exact congrArg (fun x => Reported.done x.2) (p.load_spelled (some .fresh))
  | enter id remember =>
    exact congrArg (fun x => Reported.done x.2) (p.enter_spelled prompter id remember)
  | forward => exact congrArg (fun x => Reported.stepped x.2) (p.forward_spelled prompter)
  | back => exact congrArg (fun x => Reported.stepped x.2) (p.back_spelled prompter)
  | choose index => exact congrArg (fun x => Reported.done x.2) (p.choose_spelled prompter index)
  | view => exact congrArg Reported.seen p.view_spelled

/-! ## Every run -/

theorem run_spelled (ops : List Operation) :
    p.spelled.run prompter (ops.map Operation.spelled) = (p.run prompter ops).spelled := by
  induction ops generalizing p with
  | nil => rfl
  | cons op rest ih =>
    show (p.spelled.operate prompter op.spelled).run prompter (rest.map Operation.spelled) = _
    rw [operate_spelled]
    exact ih (p.operate prompter op)

theorem reports_spelled (ops : List Operation) :
    p.spelled.reports prompter (ops.map Operation.spelled) =
      (p.reports prompter ops).map Reported.spelled := by
  induction ops generalizing p with
  | nil => rfl
  | cons op rest ih =>
    simp only [List.map_cons, reports, report_spelled, operate_spelled, ih]

/-! ## Stories that differ in the spelling of targets -/

/-- Players that nothing tells apart but the spelling of the targets in their stories, and so of the
choices they show. -/
structure Alike (p q : Player σ) : Prop where
  story : Option.Rel Story.Respelled p.story q.story
  mode : p.mode = q.mode
  desk : p.desk = q.desk
  asked : p.asked = q.asked
  skipped : p.skipped = q.skipped
  position : p.currentId? = q.currentId?
  history : p.history = q.history
  values : p.story.map Story.variableValues = q.story.map Story.variableValues
  text : p.text = q.text
  choices : p.choices.map Choice.spelled = q.choices.map Choice.spelled
  canForward : p.canForward = q.canForward
  canBack : p.canBack = q.canBack

theorem alike_of_spelled {p q : Player σ} (h : p.spelled = q.spelled) : p.Alike q := by
  obtain ⟨story, desk, asked, skipped⟩ := p
  obtain ⟨story', desk', asked', skipped'⟩ := q
  simp only [spelled, Player.mk.injEq] at h
  obtain ⟨hstory, rfl, rfl, rfl⟩ := h
  rcases story with _ | s <;> rcases story' with _ | t
  · exact ⟨.none, rfl, rfl, rfl, rfl, rfl, rfl, rfl, rfl, rfl, rfl, rfl⟩
  · cases hstory
  · cases hstory
  · have hst : s.Respelled t := Option.some.inj hstory
    have hsame {α : Type} (f : Story → α) (hf : ∀ s, f s.spelled = f s) : f s = f t :=
      (hf s).symm.trans ((congrArg f hst).trans (hf t))
    have hvalues : s.variableValues = t.variableValues := hsame _ fun _ => rfl
    have hchoices : s.shownChoices.map Choice.spelled = t.shownChoices.map Choice.spelled := by
      rw [← Story.shownChoices_spelled, hst, Story.shownChoices_spelled]
    exact {
      story := .some hst
      mode := rfl
      desk := rfl
      asked := rfl
      skipped := rfl
      position := hsame Story.currentId? fun _ => rfl
      history := hsame Story.history fun _ => rfl
      values := congrArg some hvalues
      text := hsame Story.currentText Story.currentText_spelled
      choices := hchoices
      canForward := hsame Story.canForward Story.canForward_spelled
      canBack := hsame Story.canBack fun _ => rfl }

end Player

namespace Story

/-- What is asked of a story beside play has the same answer for both. -/
structure SameAnswers (s t : Story) : Prop where
  dangling : s.dangling = t.dangling
  reachable : ∀ start depth, s.reachable start depth = t.reachable start depth
  extendable : ∀ start lookAhead excluded setting,
    s.extendable? start lookAhead excluded setting = t.extendable? start lookAhead excluded setting
  search : ∀ route goal, Route.search s route goal = Route.search t route goal
  linearize : ∀ start finish through maxLength,
    s.linearize start finish through maxLength = t.linearize start finish through maxLength
  review : ∀ response x, Extension.review s response x = Extension.review t response x

theorem Respelled.sameAnswers {s t : Story} (h : s.Respelled t) : s.SameAnswers t where
  dangling := by rw [← s.dangling_spelled, h, t.dangling_spelled]
  reachable start depth := by rw [← s.reachable_spelled, h, t.reachable_spelled]
  extendable start lookAhead excluded setting := by
    rw [← s.extendable?_spelled, h, t.extendable?_spelled]
  search route goal := by rw [← Route.search_spelled s, h, Route.search_spelled t]
  linearize start finish through maxLength := by rw [← s.linearize_spelled, h, t.linearize_spelled]
  review response x := by rw [← Extension.review_spelled s, h, Extension.review_spelled t]

variable {σ : Type}

open Player (idle)

/-- Stories that differ at most in the spelling of targets cannot be told apart.  Two players that load
them, and are asked the same afterwards, or are given stories that differ in this way only, say the same
up to the spelling of the targets they show and stay alike; every question about the graph has the same
answer, and so has the review of every answer of the writer. -/
theorem respelled_indistinguishable {s t : Story} (h : s.Respelled t) (prompter : Option (Prompter σ))
    (desk : σ) {ops others : List Operation}
    (hops : ops.map Operation.spelled = others.map Operation.spelled) :
    (((idle desk).reports prompter (.load s :: ops)).map Player.Reported.spelled =
      ((idle desk).reports prompter (.load t :: others)).map Player.Reported.spelled) ∧
    ((idle desk).run prompter (.load s :: ops)).Alike ((idle desk).run prompter (.load t :: others)) ∧
    s.SameAnswers t := by
  have hload : (Operation.load s :: ops).map Operation.spelled =
      (Operation.load t :: others).map Operation.spelled := by
    simp only [List.map_cons, hops, Operation.spelled, Option.map_some, List.cons.injEq, and_true,
      Operation.load.injEq, Option.some.injEq]
    exact h
  refine ⟨?_, Player.alike_of_spelled ?_, h.sameAnswers⟩
  · rw [← Player.reports_spelled, ← Player.reports_spelled, hload]
  · rw [← Player.run_spelled, ← Player.run_spelled, hload]

/-- A ford with a way over and back; whoever comes to a bank finds a choice added, or one taken away. -/
def ford (across : Target) : Story :=
  let bank (id : String) (choice : Choice) (script : Action) : Section :=
    { Section.ofLines id [""] with next := .value [choice], script := .value [script] }
  { Story.fresh with
    sections :=
      [("1", bank "1" ⟨some "Wade", across, []⟩ ⟨"ADD_CHOICE", some ["2", "Wade"], []⟩),
       ("2", bank "2" (.added "1" "Return") ⟨"REMOVE_CHOICE", some ["1"], []⟩)] }

/-- A choice that a script finds present, under a number and under its text. -/
theorem respelled_indistinguishable_ford :
    let ops : List Operation := [.choose 0, .back, .view]
    let p : Player Unit := (idle ()).run none (.load (ford (.number 2)) :: ops)
    let q : Player Unit := (idle ()).run none (.load (ford (.name "2")) :: ops)
    p.Alike q ∧ p.storedChoices.map Choice.next = [.number 2] ∧
      q.storedChoices.map Choice.next = [.name "2"] ∧
      (ford (.number 2)).SameAnswers (ford (.name "2")) := by
  intro ops p q
  have hford : (ford (.number 2)).Respelled (ford (.name "2")) := rfl
  have hops : ops.map Operation.spelled = ops.map Operation.spelled := rfl
  obtain ⟨-, halike, hanswers⟩ := respelled_indistinguishable hford none () hops
  exact ⟨halike, rfl, rfl, hanswers⟩

end Story

end Gamebook
