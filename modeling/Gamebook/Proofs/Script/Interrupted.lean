import Gamebook.Proofs.Number.Overflow
import Gamebook.Script.Run
import Gamebook.Story.Document

/-!
# When a script ends before its last line

* `Prompter.Answers`        : a prompt that is always answered or cancelled.
* `Instruction.numerals`    : the texts that an instruction reads as numbers in a story.
* `Instruction.run_snd`     : an instruction is interrupted exactly by one of these that overflows.
* `runLines_completes_iff`  : lines run to their end when none of them is interrupted.
* `runScript_completes_iff` : the scripts that run to their end, and how the others end.
* `runScript_huge`          : a literal that ends a script.
-/

set_option autoImplicit false

namespace Gamebook

/-- Every question is answered or cancelled. -/
def Prompter.Answers {σ : Type} (p : Prompter σ) : Prop :=
  ∀ message desk, (p.ask message desk).1 ≠ .ended

/-- An operator that reads the texts of both sides as numbers. -/
def Comparison.isOrdering : Comparison → Bool
  | .equal => false
  | .notEqual => false
  | _ => true

/-- The texts that an instruction reads as numbers when it is run in a story.  A guarded instruction
reads some only where its guard holds. -/
def Instruction.numerals (s : Story) : Instruction String → List String
  | .addToVariable name amount => [(s.setValue? name).getD "0", amount]
  | .compareDo name operator target guarded =>
    match s.setValue? name with
    | Option.none => []
    | some value =>
      (if operator.isOrdering then [value, target] else []) ++
        (if operator.holds (.str value) (.str target) = .ok true then numerals s guarded else [])
  | .ifSetDo name guarded => if s.isSet name then numerals s guarded else []
  | .ifNotSetDo name guarded => if s.isSet name then [] else numerals s guarded
  | _ => []

/-- The texts that a line reads as numbers; one that cannot be parsed reads none. -/
def Action.numerals (s : Story) (a : Action) : List String :=
  match Instruction.parse a.tag a.arguments with
  | .ok instruction => instruction.numerals s
  | .error _ => []

/-! ## Reading numbers -/

/-- What reading numbers leads to in a script. -/
def interruptionOf {α : Type} : Except NumberFault α → Option Interruption
  | .ok _ => none
  | .error fault => some (.number fault)

/-- What texts lead to when they are read as numbers. -/
def interruptionBy (numerals : List String) : Option Interruption :=
  if numerals.any overflows then some (.number .tooLarge) else none

theorem interruptionBy_eq_none_iff (numerals : List String) :
    interruptionBy numerals = none ↔ ∀ text ∈ numerals, overflows text = false := by
  simp [interruptionBy]

/-- Numbers are refused for one reason only. -/
theorem eq_of_interruptionBy {numerals : List String} {cause : Interruption}
    (h : interruptionBy numerals = some cause) : cause = .number .tooLarge := by
  unfold interruptionBy at h
  split at h
  · exact (Option.some.inj h).symm
  · cases h

theorem interruptionBy_append (first second : List String) :
    interruptionBy (first ++ second) = (interruptionBy first).or (interruptionBy second) := by
  unfold interruptionBy
  rw [List.any_append]
  cases first.any overflows <;> simp

theorem interruptionOf_numberOfText (text : String) :
    interruptionOf (numberOfText text) = interruptionBy [text] := by
  unfold interruptionBy
  cases hnumber : numberOfText text with
  | ok x =>
    have hfits : ¬ overflows text = true := by
      rw [← numberOfText_eq_error_iff text .tooLarge, hnumber]
      exact fun h => by cases h
    simp [interruptionOf, hfits]
  | error fault =>
    have hover := (numberOfText_eq_error_iff text fault).1 hnumber
    cases fault
    simp [interruptionOf, hover]

/-- Two texts are read one after the other. -/
theorem interruptionOf_both {α : Type} (first second : String) (f : Binary64 → Binary64 → α) :
    interruptionOf (do
      let x ← numberOfText first
      let y ← numberOfText second
      return f x y) = interruptionBy [first, second] := by
  rw [← List.singleton_append, interruptionBy_append, ← interruptionOf_numberOfText,
    ← interruptionOf_numberOfText]
  cases numberOfText first with
  | error fault => rfl
  | ok x => cases numberOfText second <;> rfl

theorem interruptionOf_sumText (s : Story) (name amount : String) :
    interruptionOf (sumText s name amount) =
      interruptionBy [(s.setValue? name).getD "0", amount] :=
  interruptionOf_both _ _ fun x y => textOfNumber (x.add y)

/-- Only an ordering reads the two texts as numbers. -/
theorem interruptionOf_holds (operator : Comparison) (value target : String) :
    interruptionOf (operator.holds (.str value) (.str target)) =
      interruptionBy (if operator.isOrdering then [value, target] else []) := by
  cases operator with
  | equal => rfl
  | notEqual => rfl
  | greater => exact interruptionOf_both value target fun x y => y.lt x
  | greaterEqual => exact interruptionOf_both value target fun x y => y.le x
  | lessEqual => exact interruptionOf_both value target Binary64.le
  | less => exact interruptionOf_both value target Binary64.lt

/-! ## Instructions and lines -/

section Running

variable {σ : Type} {prompter : Option (Prompter σ)}

theorem changeChoices_snd (index : Nat) (tag : String) (change : Section → Section)
    (scene : Scene σ) : (changeChoices index tag change scene).2 = none := by
  unfold changeChoices
  cases scene.story.currentForChoices <;> rfl

theorem askFor_snd (hprompter : ∀ p ∈ prompter, p.Answers) (index : Nat)
    (tag name message : String) (scene : Scene σ) :
    (askFor prompter index tag name message scene).2 = none := by
  unfold askFor
  cases prompter with
  | none => rfl
  | some p =>
    have hreply := hprompter p rfl message scene.desk
    dsimp only
    cases hask : (p.ask message scene.desk).1 with
    | answer text => rfl
    | cancelled => rfl
    | ended => exact absurd hask hreply

/-- An instruction is interrupted exactly when one of the texts that it reads as numbers overflows. -/
theorem Instruction.run_snd (hprompter : ∀ p ∈ prompter, p.Answers) (index : Nat) (tag : String)
    (i : Instruction String) (scene : Scene σ) :
    (i.run prompter index tag scene).2 = interruptionBy (i.numerals scene.story) := by
  induction i with
  | none => rfl
  | input name message => exact askFor_snd hprompter index tag name message scene
  | set name value => rfl
  | addToVariable name amount =>
    have hsum := interruptionOf_sumText scene.story name amount
    unfold run numerals
    rw [← hsum]
    cases sumText scene.story name amount <;> rfl
  | compareDo name operator target guarded ih =>
    unfold run numerals
    cases scene.story.setValue? name with
    | none => rfl
    | some value =>
      have hholds := interruptionOf_holds operator value target
      dsimp only
      rw [interruptionBy_append, ← hholds]
      cases operator.holds (.str value) (.str target) with
      | error fault => rfl
      | ok holds =>
        cases holds with
        | true => exact ih
        | false => rfl
  | ifSetDo name guarded ih =>
    unfold run numerals
    cases scene.story.isSet name with
    | true => exact ih
    | false => rfl
  | ifNotSetDo name guarded ih =>
    unfold run numerals
    cases scene.story.isSet name with
    | true => rfl
    | false => exact ih
  | addChoice target label => exact changeChoices_snd index tag _ scene
  | removeChoice target => exact changeChoices_snd index tag _ scene
  | ifSetAddChoice name target label =>
    unfold run
    cases scene.story.isSet name with
    | true => exact changeChoices_snd index tag _ scene
    | false => rfl
  | ifSetRemoveChoice name target =>
    unfold run
    cases scene.story.isSet name with
    | true => exact changeChoices_snd index tag _ scene
    | false => rfl

theorem Action.run_snd (hprompter : ∀ p ∈ prompter, p.Answers) (index : Nat) (a : Action)
    (scene : Scene σ) :
    ((Line.ofAction a).run prompter index scene).2 = interruptionBy (a.numerals scene.story) := by
  unfold Line.run Line.ofAction Line.parse Action.numerals
  dsimp only
  cases Instruction.parse a.tag a.arguments with
  | error e => rfl
  | ok instruction => exact Instruction.run_snd hprompter index _ instruction scene

/-! ## Scripts -/

theorem runLines_of_completed {index : Nat} {line : Line} {scene next : Scene σ}
    (h : line.run prompter index scene = (next, none)) (rest : List Line) :
    runLines prompter index (line :: rest) scene = runLines prompter (index + 1) rest next := by
  rw [runLines, h]

theorem runLines_of_interrupted {index : Nat} {line : Line} {scene next : Scene σ}
    {cause : Interruption} (h : line.run prompter index scene = (next, some cause))
    (rest : List Line) : runLines prompter index (line :: rest) scene = (next, some cause) := by
  rw [runLines, h]

/-- Lines run to their end exactly when each of them, run after those before it, reads no text that
overflows. -/
theorem runLines_completes_iff (hprompter : ∀ p ∈ prompter, p.Answers) (script : List Action)
    (index : Nat) (scene : Scene σ) :
    (runLines prompter index (script.map Line.ofAction) scene).2 = none ↔
      ∀ before a after, script = before ++ a :: after →
        ∀ text ∈ a.numerals (runLines prompter index (before.map Line.ofAction) scene).1.story,
          overflows text = false := by
  induction script generalizing index scene with
  | nil =>
    refine iff_of_true rfl ?_
    intro before a after h
    simp at h
  | cons first rest ih =>
    have hfirst := Action.run_snd hprompter index first scene
    have hhead := interruptionBy_eq_none_iff (first.numerals scene.story)
    rw [← hfirst] at hhead
    cases hrun : (Line.ofAction first).run prompter index scene with
    | mk next ended =>
      rw [hrun] at hhead
      cases ended with
      | some cause =>
        -- the first line itself reads a text that overflows
        rw [List.map_cons, runLines_of_interrupted hrun]
        refine iff_of_false (fun h => by cases h) ?_
        intro h
        exact absurd (hhead.2 (h [] first rest rfl)) (fun h' => by cases h')
      | none =>
        rw [List.map_cons, runLines_of_completed hrun, ih (index + 1) next]
        constructor
        · intro h before a after hsplit
          cases before with
          | nil =>
            cases hsplit
            exact hhead.1 rfl
          | cons _ before =>
            cases hsplit
            rw [List.map_cons, runLines_of_completed hrun]
            exact h before a after rfl
        · intro h before a after hsplit
          have hlater := h (first :: before) a after (by rw [hsplit, List.cons_append])
          rw [List.map_cons, runLines_of_completed hrun] at hlater
          exact hlater

/-- Lines are interrupted for one reason only. -/
theorem runLines_interrupted (hprompter : ∀ p ∈ prompter, p.Answers) (script : List Action)
    (index : Nat) (scene : Scene σ) {cause : Interruption}
    (h : (runLines prompter index (script.map Line.ofAction) scene).2 = some cause) :
    cause = .number .tooLarge := by
  induction script generalizing index scene with
  | nil => cases h
  | cons first rest ih =>
    have hfirst := Action.run_snd hprompter index first scene
    cases hrun : (Line.ofAction first).run prompter index scene with
    | mk next ended =>
      cases ended with
      | none =>
        rw [List.map_cons, runLines_of_completed hrun] at h
        exact ih (index + 1) next h
      | some other =>
        rw [List.map_cons, runLines_of_interrupted hrun] at h
        cases h
        rw [hrun] at hfirst
        exact eq_of_interruptionBy hfirst.symm

/-- A script whose questions are answered runs to its end exactly when each line, run after those
before it, reads no text that overflows; any other script ends at such a text. -/
theorem runScript_completes_iff (hprompter : ∀ p ∈ prompter, p.Answers) (script : List Action)
    (scene : Scene σ) :
    ((runScript prompter script scene).2 = none ↔
      ∀ before a after, script = before ++ a :: after →
        ∀ text ∈ a.numerals (runScript prompter before scene).1.story, overflows text = false) ∧
      ∀ cause, (runScript prompter script scene).2 = some cause → cause = .number .tooLarge :=
  ⟨runLines_completes_iff hprompter script 0 scene,
    fun _ h => runLines_interrupted hprompter script 0 scene h⟩

end Running

/-! ## A literal of 1025 bits -/

/-- The number `2^1024` with a base mark. -/
def hugeLiteral : String := String.ofList ('0' :: 'x' :: '1' :: List.replicate 256 '0')

theorem overflows_hugeLiteral : overflows hugeLiteral = true := by
  unfold overflows hugeLiteral
  rw [String.toList_ofList]
  decide +kernel

theorem answers_ofAnswers : Prompter.ofAnswers.Answers := by
  intro message desk
  unfold Prompter.ofAnswers
  rcases desk with _ | ⟨_ | text, rest⟩ <;> exact fun h => by cases h

/-- An answer of the player ends a script none of whose own texts overflows. -/
theorem runScript_interrupted_by_answer :
    (∀ p ∈ some Prompter.ofAnswers, p.Answers) ∧
      ¬ (runScript (some Prompter.ofAnswers)
        [⟨"INPUT", some ["x", "How many?"], []⟩, ⟨"ADD_TO_VARIABLE", some ["x", "1"], []⟩]
        ⟨.fresh, [some hugeLiteral], [], []⟩).2 = none := by
  have hprompter : ∀ p ∈ some Prompter.ofAnswers, p.Answers := by
    rintro _ ⟨⟩
    exact answers_ofAnswers
  refine ⟨hprompter, ?_⟩
  intro hend
  have hread : Action.numerals (runScript (some Prompter.ofAnswers)
      [⟨"INPUT", some ["x", "How many?"], []⟩] ⟨.fresh, [some hugeLiteral], [], []⟩).1.story
      ⟨"ADD_TO_VARIABLE", some ["x", "1"], []⟩ = [hugeLiteral, "1"] := by decide +kernel
  have hfits := (runScript_completes_iff hprompter _ _).1.1 hend
    [⟨"INPUT", some ["x", "How many?"], []⟩] ⟨"ADD_TO_VARIABLE", some ["x", "1"], []⟩ [] rfl
    hugeLiteral (by rw [hread]; exact List.mem_cons_self)
  rw [overflows_hugeLiteral] at hfits
  cases hfits

/-- A literal in a script ends it. -/
theorem runScript_huge :
    (runScript (none : Option (Prompter Unit))
      [⟨"ADD_TO_VARIABLE", some ["x", hugeLiteral], []⟩] ⟨.fresh, (), [], []⟩).2 ≠ none := by
  have hread : Action.numerals .fresh ⟨"ADD_TO_VARIABLE", some ["x", hugeLiteral], []⟩ =
      ["0", hugeLiteral] := by decide +kernel
  have hend : ((Line.ofAction ⟨"ADD_TO_VARIABLE", some ["x", hugeLiteral], []⟩).run
      (none : Option (Prompter Unit)) 0 ⟨.fresh, (), [], []⟩).2 = some (.number .tooLarge) := by
    rw [Action.run_snd (fun _ h => by cases h), hread]
    simp [interruptionBy, overflows_hugeLiteral]
  intro h
  unfold runScript at h
  rw [List.map_cons, runLines_of_interrupted (Prod.ext rfl hend)] at h
  cases h

end Gamebook
