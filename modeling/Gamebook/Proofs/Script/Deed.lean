import Gamebook.Script.Run

/-!
# What a line comes to

The guards of an instruction, and the numbers that it reads, depend on the values of the variables only.
Once they are judged, and the line is read, little is left to do, and what that is in a scene need be said
once.

* `Deed`, `Instruction.deed`, `Line.deed` : what is left of an instruction, and of a line, in a story.
* `Instruction.deed_congr`, `Line.deed_congr` : it depends on the values of the variables only.
* `Deed.perform`          : doing it.
* `Line.run_eq_perform`   : running a line is doing what is left of it.
-/

set_option autoImplicit false

namespace Gamebook

/-- What a line comes to in a story. -/
inductive Deed where
  | nothing
  /-- The script ends here. -/
  | interrupted (cause : Interruption)
  | skip (reason : SkipReason)
  | write (name value : String)
  | ask (name message : String)
  | addChoice (target label : String)
  | removeChoice (target : String)

namespace Instruction

/-- What is left of an instruction once its guards are judged in a story. -/
def deed (s : Story) : Instruction String → Deed
  | .none => .nothing
  | .input name message => .ask name message
  | .set name value => .write name value
  | .addToVariable name amount =>
    match sumText s name amount with
    | .ok text => .write name text
    | .error fault => .interrupted (.number fault)
  | .compareDo name operator target guarded =>
    match s.setValue? name with
    | Option.none => .nothing
    | some value =>
      match operator.holds (.str value) (.str target) with
      | .ok true => guarded.deed s
      | .ok false => .nothing
      | .error fault => .interrupted (.number fault)
  | .ifSetDo name guarded => if s.isSet name then guarded.deed s else .nothing
  | .ifNotSetDo name guarded => if s.isSet name then .nothing else guarded.deed s
  | .addChoice target label => .addChoice target label
  | .removeChoice target => .removeChoice target
  | .ifSetAddChoice name target label => if s.isSet name then .addChoice target label else .nothing
  | .ifSetRemoveChoice name target => if s.isSet name then .removeChoice target else .nothing

/-- Stories with the same values take an instruction for the same. -/
theorem deed_congr {s t : Story} (h : s.variableValues = t.variableValues) (i : Instruction String) :
    i.deed s = i.deed t := by
  have hset (name : String) : s.isSet name = t.isSet name := by
    unfold Story.isSet
    rw [h]
  have hvalue (name : String) : s.setValue? name = t.setValue? name := by
    unfold Story.setValue?
    rw [h]
  induction i with
  | none | input | set | addChoice | removeChoice => rfl
  | addToVariable name amount =>
    unfold deed sumText
    rw [hvalue]
  | compareDo name operator target guarded ih =>
    unfold deed
    rw [hvalue, ih]
  | ifSetDo name guarded ih | ifNotSetDo name guarded ih =>
    unfold deed
    rw [hset, ih]
  | ifSetAddChoice name | ifSetRemoveChoice name =>
    unfold deed
    rw [hset]

end Instruction

namespace Line

/-- What is left of a line in a story. -/
def deed (s : Story) (line : Line) : Deed :=
  match line.parameters with
  | .error interruption => .interrupted interruption
  | .ok parameters =>
    match line.parse parameters with
    | .error e => .skip (.unparsed e)
    | .ok instruction => instruction.deed s

theorem deed_congr {s t : Story} (h : s.variableValues = t.variableValues) (line : Line) :
    line.deed s = line.deed t := by
  unfold deed
  simp only [Instruction.deed_congr h]

end Line

variable {σ : Type}

/-- Does what a line came to. -/
def Deed.perform (prompter : Option (Prompter σ)) (index : Nat) (tag : String) (scene : Scene σ) :
    Deed → Outcome σ
  | .nothing => (scene, none)
  | .interrupted cause => (scene, some cause)
  | .skip reason => (scene.skip index tag reason, none)
  | .write name value => (scene.update fun s => s.setVariable name value, none)
  | .ask name message => askFor prompter index tag name message scene
  | .addChoice target label => changeChoices index tag (Section.addChoice target label) scene
  | .removeChoice target => changeChoices index tag (Section.removeChoice target) scene

theorem Instruction.run_eq_perform (prompter : Option (Prompter σ)) (index : Nat) (tag : String)
    (i : Instruction String) (scene : Scene σ) :
    i.run prompter index tag scene = (i.deed scene.story).perform prompter index tag scene := by
  induction i with
  | none | input | set | addChoice | removeChoice => rfl
  | addToVariable name amount =>
    unfold run deed
    cases sumText scene.story name amount <;> rfl
  | compareDo name operator target guarded ih =>
    unfold run deed
    cases scene.story.setValue? name with
    | none => rfl
    | some value =>
      dsimp only
      cases operator.holds (.str value) (.str target) with
      | ok holds =>
        cases holds with
        | true => exact ih
        | false => rfl
      | error fault => rfl
  | ifSetDo name guarded ih =>
    unfold run deed
    split
    · exact ih
    · rfl
  | ifNotSetDo name guarded ih =>
    unfold run deed
    split
    · rfl
    · exact ih
  | ifSetAddChoice | ifSetRemoveChoice =>
    unfold run deed
    split <;> rfl

theorem Line.run_eq_perform (prompter : Option (Prompter σ)) (index : Nat) (line : Line)
    (scene : Scene σ) :
    line.run prompter index scene =
      (line.deed scene.story).perform prompter index line.tag.spoken scene := by
  unfold run deed
  cases line.parameters with
  | error interruption => rfl
  | ok parameters =>
    dsimp only
    cases line.parse parameters with
    | error e => rfl
    | ok instruction => exact instruction.run_eq_perform prompter index line.tag.spoken scene

end Gamebook
