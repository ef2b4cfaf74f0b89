import Gamebook.Script.Run
import Mathlib.Logic.Relation

/-!
# What a script does to a story

An instruction leaves the story alone, sets one variable, or changes the choices of the current
section; that is all, also when it is guarded, skipped or interrupted.  What a script keeps is read
off these few effects.

* `Instruction.assigned`, `Instruction.additions` : the variables that an instruction may set, and the
  choices that it may add, at any depth.
* `Instruction.Effect` : what running an instruction may make of a story.
* `Line.instruction?`  : the instruction that a line is read as.
* `Scripted`           : a story that came from another by effects of the lines of a script.
* `run_effect`, `scripted_runLines` : one instruction, and a script.
-/

set_option autoImplicit false

namespace Gamebook

namespace Section

theorem choices_of_added (target label : String) (x : Section) :
    (x.addChoice target label).choices =
      if x.choices.any fun c => c.target == target && c.label == label then x.choices
      else x.choices ++ [.added target label] := rfl

theorem choices_of_removed (target : String) (x : Section) :
    (x.removeChoice target).choices = x.choices.eraseP fun c => c.target == target := by
  unfold removeChoice choices
  cases x.next <;> rfl

end Section

namespace Instruction

/-- The variables that an instruction may set, itself or by the one that it guards. -/
def assigned : Instruction String → List String
  | .input name _ | .set name _ | .addToVariable name _ => [name]
  | .compareDo _ _ _ guarded | .ifSetDo _ guarded | .ifNotSetDo _ guarded => assigned guarded
  | .none | .addChoice .. | .removeChoice _ | .ifSetAddChoice .. | .ifSetRemoveChoice .. => []

/-- The target and the label of each choice that an instruction may add, itself or by the one that it
guards. -/
def additions : Instruction String → List (String × String)
  | .addChoice target label | .ifSetAddChoice _ target label => [(target, label)]
  | .compareDo _ _ _ guarded | .ifSetDo _ guarded | .ifNotSetDo _ guarded => additions guarded
  | .none | .input .. | .set .. | .addToVariable .. | .removeChoice _ | .ifSetRemoveChoice .. => []

/-- What running an instruction may make of a story. -/
inductive Effect (i : Instruction String) (s : Story) : Story → Prop
  | kept : Effect i s s
  | set {name : String} (h : name ∈ i.assigned) (value : String) : Effect i s (s.setVariable name value)
  | added {id target label : String} (hid : s.currentForChoices = .ok id)
      (h : (target, label) ∈ i.additions) :
      Effect i s (s.modifySection id (.addChoice target label))
  | removed {id : String} (hid : s.currentForChoices = .ok id) (target : String) :
      Effect i s (s.modifySection id (.removeChoice target))

namespace Effect

variable {i j : Instruction String} {s t : Story}

/-- A guard passes on the effects of what it guards. -/
theorem of_guarded (h : j.Effect s t) (hassigned : i.assigned = j.assigned)
    (hadditions : i.additions = j.additions) : i.Effect s t := by
  cases h with
  | kept => exact .kept
  | set h value => exact .set (hassigned ▸ h) value
  | added hid h => exact .added hid (hadditions ▸ h)
  | removed hid target => exact .removed hid target

end Effect

end Instruction

section Running

variable {σ : Type} (prompter : Option (Prompter σ)) (index : Nat) (tag : String)

/-- The story after a change of the current choices: changed, or as it was when the line is skipped. -/
theorem story_changeChoices (change : Section → Section) (scene : Scene σ) :
    (changeChoices index tag change scene).1.story = scene.story ∨
      ∃ id, scene.story.currentForChoices = .ok id ∧
        (changeChoices index tag change scene).1.story = scene.story.modifySection id change := by
  unfold changeChoices
  cases h : scene.story.currentForChoices with
  | ok id => exact .inr ⟨id, rfl, rfl⟩
  | error reason => exact .inl rfl

theorem story_askFor (name message : String) (scene : Scene σ) :
    (askFor prompter index tag name message scene).1.story = scene.story ∨
      ∃ value, (askFor prompter index tag name message scene).1.story =
        scene.story.setVariable name value := by
  unfold askFor
  cases prompter with
  | none => exact .inl rfl
  | some p =>
    dsimp only
    cases (p.ask message scene.desk).1 with
    | answer text => exact .inr ⟨text, rfl⟩
    | cancelled => exact .inl rfl
    | ended => exact .inl rfl

variable (scene : Scene σ)

theorem changeChoices_effect {i : Instruction String} {change : Section → Section}
    (h : ∀ id, scene.story.currentForChoices = .ok id →
      i.Effect scene.story (scene.story.modifySection id change)) :
    i.Effect scene.story (changeChoices index tag change scene).1.story := by
  obtain hsame | ⟨id, hid, hstory⟩ := story_changeChoices index tag change scene
  · rw [hsame]
    exact .kept
  · rw [hstory]
    exact h id hid

theorem run_effect (i : Instruction String) :
    i.Effect scene.story (i.run prompter index tag scene).1.story := by
  induction i with
  | none => exact .kept
  | input name message =>
    obtain hsame | ⟨value, hvalue⟩ := story_askFor prompter index tag name message scene
    · unfold Instruction.run
      rw [hsame]
      exact .kept
    · unfold Instruction.run
      rw [hvalue]
      exact .set (List.mem_singleton.2 rfl) value
  | set name value => exact .set (List.mem_singleton.2 rfl) value
  | addToVariable name amount =>
    unfold Instruction.run
    cases sumText scene.story name amount with
    | ok text => exact .set (List.mem_singleton.2 rfl) text
    | error fault => exact .kept
  | compareDo name operator target guarded ih =>
    unfold Instruction.run
    cases scene.story.setValue? name with
    | none => exact .kept
    | some value =>
      dsimp only
      cases operator.holds (.str value) (.str target) with
      | ok holds =>
        cases holds with
        | true => exact ih.of_guarded rfl rfl
        | false => exact .kept
      | error fault => exact .kept
  | ifSetDo name guarded ih =>
    unfold Instruction.run
    split
    · exact ih.of_guarded rfl rfl
    · exact .kept
  | ifNotSetDo name guarded ih =>
    unfold Instruction.run
    split
    · exact .kept
    · exact ih.of_guarded rfl rfl
  | addChoice target label =>
    exact changeChoices_effect index tag scene fun _ hid => .added hid (List.mem_singleton.2 rfl)
  | removeChoice target =>
    exact changeChoices_effect index tag scene fun _ hid => .removed hid target
  | ifSetAddChoice name target label =>
    unfold Instruction.run
    split
    · exact changeChoices_effect index tag scene fun _ hid => .added hid (List.mem_singleton.2 rfl)
    · exact .kept
  | ifSetRemoveChoice name target =>
    unfold Instruction.run
    split
    · exact changeChoices_effect index tag scene fun _ hid => .removed hid target
    · exact .kept

end Running

/-! ## Scripts -/

/-- The instruction that a line is read as; a line that cannot be read is none. -/
def Line.instruction? (line : Line) : Option (Instruction String) :=
  line.parameters.toOption.bind fun parameters => (line.parse parameters).toOption

/-- A story that came from another by effects of the lines of a script. -/
def Scripted (lines : List Line) : Story → Story → Prop :=
  Relation.ReflTransGen fun s t =>
    ∃ line ∈ lines, ∃ i, line.instruction? = some i ∧ i.Effect s t

namespace Scripted

variable {lines : List Line} {s t : Story}

/-- What every effect of the lines keeps, the script keeps. -/
theorem keeps {P : Story → Prop} (h : Scripted lines s t)
    (hP : ∀ line ∈ lines, ∀ i, line.instruction? = some i → ∀ {s t}, i.Effect s t → P s → P t)
    (hs : P s) : P t := by
  induction h with
  | refl => exact hs
  | tail _ hstep ih =>
    obtain ⟨line, hline, i, hi, heffect⟩ := hstep
    exact hP line hline i hi heffect ih

end Scripted

section Running

variable {σ : Type} (prompter : Option (Prompter σ))

/-- A line that is read as no instruction leaves the story alone. -/
theorem line_effect (index : Nat) (line : Line) (scene : Scene σ) :
    (line.run prompter index scene).1.story = scene.story ∨
      ∃ i, line.instruction? = some i ∧
        i.Effect scene.story (line.run prompter index scene).1.story := by
  unfold Line.run Line.instruction?
  cases line.parameters with
  | error interruption => exact .inl rfl
  | ok parameters =>
    dsimp only [Except.toOption, Option.bind_some]
    cases line.parse parameters with
    | error e => exact .inl rfl
    | ok i => exact .inr ⟨i, rfl, run_effect prompter index line.tag.spoken scene i⟩

/-- A script, completed or interrupted, has effects of its lines on the story and no others. -/
theorem scripted_runLines (lines : List Line) (index : Nat) (scene : Scene σ) :
    Scripted lines scene.story (runLines prompter index lines scene).1.story := by
  suffices h : ∀ all, lines ⊆ all → ∀ index scene,
      Scripted all scene.story (runLines prompter index lines scene).1.story from
    h lines (List.Subset.refl _) index scene
  intro all
  induction lines with
  | nil => exact fun _ _ _ => .refl
  | cons line rest ih =>
    intro hall index scene
    rw [List.cons_subset] at hall
    have hfirst : Scripted all scene.story (line.run prompter index scene).1.story := by
      obtain hsame | ⟨i, hi, heffect⟩ := line_effect prompter index line scene
      · rw [hsame]
        exact .refl
      · exact .single ⟨line, hall.1, i, hi, heffect⟩
    unfold runLines
    revert hfirst
    generalize line.run prompter index scene = x
    obtain ⟨after, ended⟩ := x
    intro hfirst
    cases ended with
    | none => exact hfirst.trans (ih hall.2 (index + 1) after)
    | some interruption => exact hfirst

end Running

end Gamebook
