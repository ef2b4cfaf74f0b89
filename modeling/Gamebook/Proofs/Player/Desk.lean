import Gamebook.Proofs.Player.Simulation

/-!
# Players asked in different ways

What play does with a story depends on the replies to its questions only.  Two ways of asking that give
the same replies lead to the same stories, whatever else they keep.

* `Prompter.Agree` : two ways of asking give the same replies from related states.
* `line_agree`, `runLines_agree` : a line and a script, asked in either way.
* `Player.move_agree` : a step of play, asked in either way.
* `Player.move_keeps` : what every question keeps, a step of play keeps.
-/

set_option autoImplicit false

namespace Gamebook

variable {σ τ : Type} {D : σ → τ → Prop} {P : Prompter σ} {Q : Prompter τ}

/-- From related states the same question gets the same reply, and leaves related states. -/
def Prompter.Agree (D : σ → τ → Prop) (P : Prompter σ) (Q : Prompter τ) : Prop :=
  ∀ message d e, D d e →
    (P.ask message d).1 = (Q.ask message e).1 ∧ D (P.ask message d).2 (Q.ask message e).2

/-! ## Scripts -/

/-- Scenes that differ in the state of the asking at most. -/
structure Scene.Agree (D : σ → τ → Prop) (a : Scene σ) (b : Scene τ) : Prop where
  story : a.story = b.story
  desk : D a.desk b.desk
  asked : a.asked = b.asked
  skipped : a.skipped = b.skipped

/-- Scenes that agree, and the same end. -/
def Agree (D : σ → τ → Prop) (x : Outcome σ) (y : Outcome τ) : Prop :=
  x.1.Agree D y.1 ∧ x.2 = y.2

namespace Scene.Agree

variable {a : Scene σ} {b : Scene τ} (h : a.Agree D b)

include h

theorem update (f : Story → Story) : (a.update f).Agree D (b.update f) :=
  ⟨congrArg f h.story, h.desk, h.asked, h.skipped⟩

theorem skip (index : Nat) (tag : String) (reason : SkipReason) :
    (a.skip index tag reason).Agree D (b.skip index tag reason) :=
  ⟨h.story, h.desk, h.asked, congrArg (· ++ [_]) h.skipped⟩

theorem ask (message : String) {d : σ} {e : τ} (hdesk : D d e) :
    ({ a with desk := d, asked := a.asked ++ [message] } : Scene σ).Agree D
      { b with desk := e, asked := b.asked ++ [message] } :=
  ⟨h.story, hdesk, congrArg (· ++ [message]) h.asked, h.skipped⟩

end Scene.Agree

theorem changeChoices_agree {a : Scene σ} {b : Scene τ} (h : a.Agree D b) (index : Nat) (tag : String)
    (change : Section → Section) :
    Agree D (changeChoices index tag change a) (changeChoices index tag change b) := by
  unfold changeChoices
  rw [h.story]
  cases b.story.currentForChoices with
  | ok id => exact ⟨h.update (·.modifySection id change), rfl⟩
  | error reason => exact ⟨h.skip index tag reason, rfl⟩

section Scripts

variable (hPQ : P.Agree D Q)

include hPQ

theorem askFor_agree {a : Scene σ} {b : Scene τ} (h : a.Agree D b) (index : Nat)
    (tag name message : String) :
    Agree D (askFor (some P) index tag name message a) (askFor (some Q) index tag name message b) := by
  obtain ⟨hreply, hdesk⟩ := hPQ message a.desk b.desk h.desk
  unfold askFor
  dsimp only
  rw [hreply]
  have hasked := h.ask message hdesk
  cases (Q.ask message b.desk).1 with
  | answer text => exact ⟨hasked.update (·.setVariable name text), rfl⟩
  | cancelled => exact ⟨hasked, rfl⟩
  | ended => exact ⟨hasked, rfl⟩

theorem perform_agree (d : Deed) {a : Scene σ} {b : Scene τ} (h : a.Agree D b) (index : Nat)
    (tag : String) : Agree D (d.perform (some P) index tag a) (d.perform (some Q) index tag b) := by
  cases d with
  | nothing | interrupted => exact ⟨h, rfl⟩
  | skip reason => exact ⟨h.skip index tag reason, rfl⟩
  | write name value => exact ⟨h.update (·.setVariable name value), rfl⟩
  | ask name message => exact askFor_agree hPQ h index tag name message
  | addChoice | removeChoice => exact changeChoices_agree h index tag _

/-- One line, which comes to the same in the same story. -/
theorem line_agree (line : Line) {a : Scene σ} {b : Scene τ} (h : a.Agree D b) (index : Nat) :
    Agree D (line.run (some P) index a) (line.run (some Q) index b) := by
  rw [line.run_eq_perform, line.run_eq_perform, h.story]
  exact perform_agree hPQ _ h index line.tag.spoken

theorem runLines_agree (lines : List Line) {a : Scene σ} {b : Scene τ} (h : a.Agree D b)
    (index : Nat) : Agree D (runLines (some P) index lines a) (runLines (some Q) index lines b) := by
  induction lines generalizing index a b with
  | nil => exact ⟨h, rfl⟩
  | cons line rest ih =>
    obtain ⟨hscene, hend⟩ := line_agree hPQ line h index
    unfold runLines
    revert hscene hend
    generalize line.run (some P) index a = x
    generalize line.run (some Q) index b = y
    intro hscene hend
    obtain ⟨x, ended⟩ := x
    obtain ⟨y, _⟩ := y
    cases hend
    cases ended with
    | none => exact ih hscene (index + 1)
    | some interruption => exact ⟨hscene, rfl⟩

end Scripts

/-! ## Steps of play -/

namespace Player

/-- Players that differ in the state of the asking at most. -/
structure Agree (D : σ → τ → Prop) (p : Player σ) (q : Player τ) : Prop where
  story : p.story = q.story
  desk : D p.desk q.desk
  asked : p.asked = q.asked
  skipped : p.skipped = q.skipped

/-- Players that agree after a step, and the same result. -/
def AgreeStep {α : Type} (D : σ → τ → Prop) (x : Step σ α) (y : Step τ α) : Prop :=
  x.1.Agree D y.1 ∧ x.2 = y.2

theorem AgreeStep.map {α β : Type} {x : Step σ α} {y : Step τ α} (h : AgreeStep D x y) (f : α → β) :
    AgreeStep D (x.1, x.2.map f) (y.1, y.2.map f) := ⟨h.1, congrArg (·.map f) h.2⟩

variable {p : Player σ} {q : Player τ} (hPQ : P.Agree D Q) (h : p.Agree D q)

include hPQ h

theorem enter_agree (id : String) (remember : Bool) :
    AgreeStep D (p.enter (some P) id remember) (q.enter (some Q) id remember) := by
  cases hs : q.story with
  | none =>
    unfold enter
    rw [h.story, hs]
    exact ⟨h, rfl⟩
  | some s =>
    rw [enter_eq _ p s (h.story.trans hs), enter_eq _ q s hs]
    cases s.linesOf id with
    | none => exact ⟨h, rfl⟩
    | some lines =>
      dsimp only
      obtain ⟨hscene, hend⟩ := runLines_agree hPQ lines
        (a := ⟨s.entered id remember, p.desk, p.asked, p.skipped⟩)
        (b := ⟨s.entered id remember, q.desk, q.asked, q.skipped⟩)
        ⟨rfl, h.desk, h.asked, h.skipped⟩ 0
      exact ⟨⟨congrArg some hscene.story, hscene.desk, hscene.asked, hscene.skipped⟩, by rw [hend]⟩

theorem forward_agree : AgreeStep D (p.forward (some P)) (q.forward (some Q)) := by
  rw [forward_eq, forward_eq, h.story]
  split
  · exact (enter_agree hPQ h _ true).map _
  · exact ⟨h, rfl⟩

theorem choose_agree (index : Int) : AgreeStep D (p.choose (some P) index) (q.choose (some Q) index) := by
  rw [choose_eq, choose_eq, h.story]
  split
  · exact enter_agree hPQ h _ true
  · exact ⟨h, rfl⟩

theorem back_agree : AgreeStep D (p.back (some P)) (q.back (some Q)) := by
  unfold back
  rw [h.story]
  cases q.story with
  | none => exact ⟨h, rfl⟩
  | some s =>
    dsimp only
    have hpopped : ({ p with story := some s.popped } : Player σ).Agree D
        { q with story := some s.popped } := ⟨rfl, h.desk, h.asked, h.skipped⟩
    cases s.history.getLast? with
    | none => exact ⟨h, rfl⟩
    | some previous =>
      dsimp only
      split
      · exact (enter_agree hPQ hpopped previous false).map _
      · exact ⟨h, rfl⟩

/-- A step of play does the same, asked in either way. -/
theorem move_agree (m : Move) : AgreeStep D (p.move (some P) m) (q.move (some Q) m) := by
  cases m with
  | enter id => exact enter_agree hPQ h id true
  | choose index => exact choose_agree hPQ h index
  | forward => exact (forward_agree hPQ h).map _
  | back => exact (back_agree hPQ h).map _

end Player

/-- What every question keeps, a step of play keeps. -/
theorem Player.move_keeps {K : σ → Prop} (hask : ∀ message d, K d → K (P.ask message d).2)
    {p : Player σ} (h : K p.desk) (m : Move) : K (p.move (some P) m).1.desk := by
  have hPP : P.Agree (fun d e => d = e ∧ K d) P := by
    rintro message d _ ⟨rfl, hd⟩
    exact ⟨rfl, rfl, hask message d hd⟩
  exact (move_agree hPP (p := p) (q := p) ⟨rfl, ⟨rfl, h⟩, rfl, rfl⟩ m).1.desk.2

end Gamebook
