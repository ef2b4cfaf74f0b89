import Gamebook.Proofs.Script.Deed
import Gamebook.Proofs.Script.Grammar

/-!
# Combined gates spelled out

Two tags combine a gate with the change of choices behind it.  Spelled out, such a line is the gate, with
the tag of the change behind the name of the variable; whether a parameter is missing or empty comes to the
same in both spellings, and so does everything that is judged when the line is run.

* `Tag.change?`          : the change behind a combined gate.
* `SpelledOut`           : lines, given flat, of which the second spells out a gate of the first.
* `parse_spelledOut`     : both are refused, or come to the same in every story.
* `Scene.SameButWording` : scenes that differ in the tags and the reasons of their notes at most.
* `runLines_spelledOut`  : scripts with combined gates, and with gates that are spelled out.
-/

set_option autoImplicit false

namespace Gamebook

/-- The change of choices that a combined gate has behind it. -/
def Tag.change? : Tag → Option Tag
  | .ifSetAddChoice => some .addChoice
  | .ifSetRemoveChoice => some .removeChoice
  | _ => .none

/-- The parameters of a combined gate with the tag of the change behind the name of the variable. -/
def withChange (change : Tag) (ps : List String) : List String := ps.take 1 ++ change.word :: ps.drop 1

/-- A line, given by its tag and its parameters, and a line in which the combined gate that stands at the end
of a chain of conditions, however long, may be spelled out. -/
inductive SpelledOut : String → List String → String → List String → Prop
  | refl (tag : String) (ps : List String) : SpelledOut tag ps tag ps
  | gate {gate change : Tag} (h : gate.change? = some change) (ps : List String) :
      SpelledOut gate.word ps Tag.ifSetDo.word (withChange change ps)
  | compareDo (name operator target : String) {tag tag' : String} {ps ps' : List String}
      (h : SpelledOut tag ps tag' ps') :
      SpelledOut Tag.compareDo.word (name :: operator :: target :: tag :: ps)
        Tag.compareDo.word (name :: operator :: target :: tag' :: ps')
  | ifSetDo (name : String) {tag tag' : String} {ps ps' : List String} (h : SpelledOut tag ps tag' ps') :
      SpelledOut Tag.ifSetDo.word (name :: tag :: ps) Tag.ifSetDo.word (name :: tag' :: ps')
  | ifNotSetDo (name : String) {tag tag' : String} {ps ps' : List String}
      (h : SpelledOut tag ps tag' ps') :
      SpelledOut Tag.ifNotSetDo.word (name :: tag :: ps) Tag.ifNotSetDo.word (name :: tag' :: ps')

/-- Lines of a script, of which the second may spell out a combined gate of the first. -/
inductive Line.SpelledOut : Line → Line → Prop
  | refl (line : Line) : Line.SpelledOut line line
  | respelled {tag tag' : String} {ps ps' : List String} (h : Gamebook.SpelledOut tag ps tag' ps') :
      Line.SpelledOut ⟨.str tag, .ok ps⟩ ⟨.str tag', .ok ps'⟩

/-! ## Reading both spellings -/

/-- Readings of two lines that are both refused, or come to the same in every story. -/
inductive ReadAlike : Except InvalidAction (Instruction String) →
    Except InvalidAction (Instruction String) → Prop
  | refused (e e' : InvalidAction) : ReadAlike (.error e) (.error e')
  | read {i j : Instruction String} (h : ∀ s, i.deed s = j.deed s) : ReadAlike (.ok i) (.ok j)

namespace ReadAlike

variable {x y : Except InvalidAction (Instruction String)}

theorem refl : ∀ x, ReadAlike x x
  | .error e => .refused e e
  | .ok _ => .read fun _ => rfl

/-- The same guard in front of both. -/
theorem map {wrap : Instruction String → Instruction String}
    (hwrap : ∀ i j s, i.deed s = j.deed s → (wrap i).deed s = (wrap j).deed s) (h : ReadAlike x y) :
    ReadAlike (x.map wrap) (y.map wrap) := by
  cases h with
  | refused e e' => exact .refused e e'
  | read h => exact .read fun s => hwrap _ _ s (h s)

/-- Both are refused for want of parameters, or neither. -/
theorem ite {b b' : Bool} (hb : b = b') {tag tag' : Tag} {ps ps' : List String} (h : ReadAlike x y) :
    ReadAlike (if b then x else Instruction.tooFew tag ps)
      (if b' then y else Instruction.tooFew tag' ps') := by
  subst hb
  cases b with
  | true => exact h
  | false => exact .refused _ _

end ReadAlike

section Reading

open Instruction

theorem ofWord?_text?_word (tag : Tag) : (Parameter.text? tag.word).bind Tag.ofWord? = some tag :=
  Tag.ofWord?_word tag

theorem parse_ifSetDo (name t : String) (rest : List String) :
    parse Tag.ifSetDo.word (name :: t :: rest) =
      if filled [name, t] then (parse t rest).map (.ifSetDo name)
      else tooFew .ifSetDo (name :: t :: rest) := by
  rw [parse, ofWord?_text?_word]

theorem parse_ifNotSetDo (name t : String) (rest : List String) :
    parse Tag.ifNotSetDo.word (name :: t :: rest) =
      if filled [name, t] then (parse t rest).map (.ifNotSetDo name)
      else tooFew .ifNotSetDo (name :: t :: rest) := by
  rw [parse, ofWord?_text?_word]

theorem parse_compareDo (name operator target t : String) (rest : List String) :
    parse Tag.compareDo.word (name :: operator :: target :: t :: rest) =
      if filled [name, operator] then
        match Comparison.ofWord? operator with
        | Option.none => .error (.badOperator (Text.quoted operator) .compareDo)
        | some c =>
          if filled [target, t] then (parse t rest).map (.compareDo name c target)
          else tooFew .compareDo (name :: operator :: target :: t :: rest)
      else tooFew .compareDo (name :: operator :: target :: t :: rest) := by
  rw [parse, ofWord?_text?_word]
  rfl

theorem parse_ifSetAddChoice (name target label : String) (rest : List String) :
    parse Tag.ifSetAddChoice.word (name :: target :: label :: rest) =
      if filled [name, target, label] then .ok (.ifSetAddChoice name target label)
      else tooFew .ifSetAddChoice (name :: target :: label :: rest) := by
  rw [parse.eq_def, ofWord?_text?_word]

theorem parse_ifSetRemoveChoice (name target : String) (rest : List String) :
    parse Tag.ifSetRemoveChoice.word (name :: target :: rest) =
      if filled [name, target] then .ok (.ifSetRemoveChoice name target)
      else tooFew .ifSetRemoveChoice (name :: target :: rest) := by
  rw [parse.eq_def, ofWord?_text?_word]

theorem parse_addChoice (target label : String) (rest : List String) :
    parse Tag.addChoice.word (target :: label :: rest) =
      if filled [target, label] then .ok (.addChoice target label)
      else tooFew .addChoice (target :: label :: rest) := by
  rw [parse.eq_def, ofWord?_text?_word]

theorem parse_removeChoice (target : String) (rest : List String) :
    parse Tag.removeChoice.word (target :: rest) =
      if filled [target] then .ok (.removeChoice target)
      else tooFew .removeChoice (target :: rest) := by
  rw [parse.eq_def, ofWord?_text?_word]

/-- The tag of a change is no missing parameter. -/
theorem filled_word (name : String) (change : Tag) : filled [name, change.word] = filled [name] := by
  have hword : change.word.isEmpty = false := by cases change <;> decide
  simp [filled, Parameter.isEmpty, hword]

/-- A combined gate with too few parameters is refused in both spellings. -/
theorem readAlike_short {gate change : Tag} {name : String} {ps : List String} {e : InvalidAction}
    (hgate : parse gate.word (name :: ps) = .error e) {e' : InvalidAction}
    (hchange : parse change.word ps = .error e') :
    ReadAlike (parse gate.word (name :: ps)) (parse Tag.ifSetDo.word (withChange change (name :: ps))) := by
  change ReadAlike _ (parse Tag.ifSetDo.word (name :: change.word :: ps))
  rw [hgate, parse_ifSetDo, hchange]
  split <;> exact .refused _ _

/-- With all its parameters, and none of them empty, a combined gate comes to what the gate and the change
come to, and otherwise it is refused in both spellings. -/
theorem readAlike_long {gate change : Tag} {name : String} {own ps : List String}
    {i j : Instruction String}
    (hgate : parse gate.word (name :: ps) =
      if filled (name :: own) then .ok i else tooFew gate (name :: ps))
    (hchange : parse change.word ps = if filled own then .ok j else tooFew change ps)
    (h : ∀ s, i.deed s = (Instruction.ifSetDo name j).deed s) :
    ReadAlike (parse gate.word (name :: ps)) (parse Tag.ifSetDo.word (withChange change (name :: ps))) := by
  change ReadAlike _ (parse Tag.ifSetDo.word (name :: change.word :: ps))
  have hown : filled (name :: own) = (filled [name] && filled own) := by simp [filled]
  rw [hgate, parse_ifSetDo, filled_word, hchange, hown]
  cases filled [name] with
  | false => exact .refused _ _
  | true =>
    cases filled own with
    | false => exact .refused _ _
    | true => exact .read h

/-- Whatever its parameters are, a combined gate is refused in both spellings or comes to the same. -/
theorem readAlike_gate {gate change : Tag} (h : gate.change? = some change) (ps : List String) :
    ReadAlike (parse gate.word ps) (parse Tag.ifSetDo.word (withChange change ps)) := by
  cases gate with
  | ifSetAddChoice =>
    cases h
    rcases ps with _ | ⟨v, _ | ⟨s, _ | ⟨l, rest⟩⟩⟩
    · exact .refused _ _
    · exact readAlike_short rfl rfl
    · exact readAlike_short rfl rfl
    · exact readAlike_long (parse_ifSetAddChoice v s l rest) (parse_addChoice s l rest) fun _ => rfl
  | ifSetRemoveChoice =>
    cases h
    rcases ps with _ | ⟨v, _ | ⟨s, rest⟩⟩
    · exact .refused _ _
    · exact readAlike_short rfl rfl
    · exact readAlike_long (parse_ifSetRemoveChoice v s rest) (parse_removeChoice s rest) fun _ => rfl
  | _ => cases h

variable {tag tag' : String} {ps ps' : List String}

/-- A tag is missing in both spellings or in neither. -/
theorem filled_tag (h : SpelledOut tag ps tag' ps') (name : String) :
    filled [name, tag] = filled [name, tag'] := by
  cases h with
  | gate => rw [filled_word, filled_word]
  | _ => rfl

/-- Both spellings are refused, or come to the same in every story. -/
theorem parse_spelledOut (h : SpelledOut tag ps tag' ps') : ReadAlike (parse tag ps) (parse tag' ps') := by
  induction h with
  | refl tag ps => exact .refl _
  | gate h ps => exact readAlike_gate h ps
  | compareDo name operator target h ih =>
    rw [parse_compareDo, parse_compareDo]
    refine .ite rfl ?_
    cases Comparison.ofWord? operator with
    | none => exact .refused _ _
    | some c =>
      refine .ite (filled_tag h target) (ih.map fun i j s hij => ?_)
      unfold deed
      rw [hij]
  | ifSetDo name h ih =>
    rw [parse_ifSetDo, parse_ifSetDo]
    refine .ite (filled_tag h name) (ih.map fun i j s hij => ?_)
    unfold deed
    rw [hij]
  | ifNotSetDo name h ih =>
    rw [parse_ifNotSetDo, parse_ifNotSetDo]
    refine .ite (filled_tag h name) (ih.map fun i j s hij => ?_)
    unfold deed
    rw [hij]

end Reading

/-! ## Running both spellings -/

/-- Two lines come to the same deed, or both are refused. -/
inductive Deed.Alike : Deed → Deed → Prop
  | same (d : Deed) : Deed.Alike d d
  | refused (e e' : InvalidAction) : Deed.Alike (.skip (.unparsed e)) (.skip (.unparsed e'))

theorem deed_readAlike (s : Story) {x y : Except InvalidAction (Instruction String)} : ReadAlike x y →
    Deed.Alike (match x with | .error e => .skip (.unparsed e) | .ok i => i.deed s)
      (match y with | .error e => .skip (.unparsed e) | .ok j => j.deed s)
  | .refused e e' => .refused e e'
  | .read h => by
    dsimp only
    rw [h s]
    exact .same _

theorem deed_spelledOut {line line' : Line} (h : line.SpelledOut line') (s : Story) :
    (line.deed s).Alike (line'.deed s) := by
  cases h with
  | refl => exact .same _
  | respelled h => exact deed_readAlike s (parse_spelledOut h)

variable {σ : Type}

/-- Scenes that differ in their notes at most, and in these neither in number nor in the indices. -/
structure Scene.SameButWording (x y : Scene σ) : Prop where
  rest : y = { x with skipped := y.skipped }
  indices : y.skipped.map Skip.index = x.skipped.map Skip.index

/-- Outcomes that end alike, in such scenes. -/
structure Outcome.SameButWording (x y : Outcome σ) : Prop where
  scene : x.1.SameButWording y.1
  ended : y.2 = x.2

namespace Scene.SameButWording

theorem refl (x : Scene σ) : x.SameButWording x := ⟨rfl, rfl⟩

variable {x y : Scene σ}

theorem story (h : x.SameButWording y) : y.story = x.story := by rw [h.rest]

/-- A note of the same line, however it is worded. -/
theorem skip (h : x.SameButWording y) (index : Nat) (tag tag' : String) (reason reason' : SkipReason) :
    (x.skip index tag reason).SameButWording (y.skip index tag' reason') := by
  refine ⟨?_, ?_⟩
  · rw [h.rest]
    rfl
  · unfold Scene.skip
    rw [List.map_append, List.map_append, h.indices]
    rfl

theorem update (h : x.SameButWording y) (f : Story → Story) :
    (x.update f).SameButWording (y.update f) := by
  refine ⟨?_, h.indices⟩
  rw [h.rest]
  rfl

end Scene.SameButWording

section Running

variable (prompter : Option (Prompter σ)) (index : Nat)

theorem changeChoices_sameButWording (tag tag' : String) (change : Section → Section) {x y : Scene σ}
    (h : x.SameButWording y) :
    Outcome.SameButWording (changeChoices index tag change x) (changeChoices index tag' change y) := by
  unfold changeChoices
  rw [h.story]
  cases x.story.currentForChoices with
  | ok id => exact ⟨h.update fun s => s.modifySection id change, rfl⟩
  | error reason => exact ⟨h.skip index tag tag' reason reason, rfl⟩

theorem askFor_sameButWording (tag tag' name message : String) {x y : Scene σ} (h : x.SameButWording y) :
    Outcome.SameButWording (askFor prompter index tag name message x)
      (askFor prompter index tag' name message y) := by
  unfold askFor
  cases prompter with
  | none => exact ⟨h.skip _ _ _ _ _, rfl⟩
  | some p =>
    have hdesk : y.desk = x.desk := by rw [h.rest]
    have hasked : y.asked = x.asked := by rw [h.rest]
    dsimp only
    rw [hdesk, hasked]
    have hscene : Scene.SameButWording
        { x with desk := (p.ask message x.desk).2, asked := x.asked ++ [message] }
        { y with desk := (p.ask message x.desk).2, asked := x.asked ++ [message] } := by
      refine ⟨?_, h.indices⟩
      rw [h.rest]
    cases (p.ask message x.desk).1 with
    | answer text => exact ⟨hscene.update fun s => s.setVariable name text, rfl⟩
    | cancelled => exact ⟨hscene, rfl⟩
    | ended => exact ⟨hscene, rfl⟩

/-- What a line comes to is done alike under either tag. -/
theorem perform_sameButWording (tag tag' : String) {d d' : Deed} (hd : d.Alike d') {x y : Scene σ}
    (h : x.SameButWording y) :
    Outcome.SameButWording (d.perform prompter index tag x) (d'.perform prompter index tag' y) := by
  cases hd with
  | refused e e' => exact ⟨h.skip _ _ _ _ _, rfl⟩
  | same d =>
    cases d with
    | nothing => exact ⟨h, rfl⟩
    | interrupted cause => exact ⟨h, rfl⟩
    | skip reason => exact ⟨h.skip _ _ _ _ _, rfl⟩
    | write name value => exact ⟨h.update fun s => s.setVariable name value, rfl⟩
    | ask name message => exact askFor_sameButWording prompter index tag tag' name message h
    | addChoice target label => exact changeChoices_sameButWording index tag tag' _ h
    | removeChoice target => exact changeChoices_sameButWording index tag tag' _ h

theorem line_sameButWording {line line' : Line} (hline : line.SpelledOut line') {x y : Scene σ}
    (h : x.SameButWording y) :
    Outcome.SameButWording (line.run prompter index x) (line'.run prompter index y) := by
  rw [line.run_eq_perform, line'.run_eq_perform, h.story]
  exact perform_sameButWording prompter index _ _ (deed_spelledOut hline x.story) h

theorem runLines_sameButWording {lines lines' : List Line} (hlines : List.Forall₂ Line.SpelledOut lines lines')
    {x y : Scene σ} (h : x.SameButWording y) :
    Outcome.SameButWording (runLines prompter index lines x) (runLines prompter index lines' y) := by
  induction hlines generalizing index x y with
  | nil => exact ⟨h, rfl⟩
  | @cons line line' _ _ hline _ ih =>
    have hrun := line_sameButWording prompter index hline h
    unfold runLines
    revert hrun
    generalize line.run prompter index x = r
    generalize line'.run prompter index y = r'
    obtain ⟨after, ended⟩ := r
    obtain ⟨after', ended'⟩ := r'
    rintro ⟨hscene, hended⟩
    dsimp only at hscene hended
    subst hended
    cases ended' with
    | none => exact ih (index + 1) hscene
    | some interruption => exact ⟨hscene, rfl⟩

/-- A script in which combined gates are spelled out, at the top or at the end of chains of conditions, does
to the story what the script does as it is; it asks the same questions and is given the same answers, notes
lines of the same indices, and ends alike. -/
theorem runLines_spelledOut {lines lines' : List Line} (h : List.Forall₂ Line.SpelledOut lines lines')
    (scene : Scene σ) :
    (runLines prompter index lines' scene).1.story = (runLines prompter index lines scene).1.story ∧
      (runLines prompter index lines' scene).1.asked = (runLines prompter index lines scene).1.asked ∧
      (runLines prompter index lines' scene).1.desk = (runLines prompter index lines scene).1.desk ∧
      (runLines prompter index lines' scene).1.skipped.map Skip.index =
        (runLines prompter index lines scene).1.skipped.map Skip.index ∧
      (runLines prompter index lines' scene).2 = (runLines prompter index lines scene).2 := by
  obtain ⟨hscene, hended⟩ := runLines_sameButWording prompter index h (.refl scene)
  exact ⟨hscene.story, by rw [hscene.rest], by rw [hscene.rest], hscene.indices, hended⟩

end Running

/-- A script with a combined gate at the top, one at the end of a chain of conditions, and one without a
label. -/
def gatedScript : List Line :=
  [.ofAction ⟨"SET", some ["key", "1"], []⟩,
    .ofAction ⟨"IF_SET_ADD_CHOICE", some ["key", "2", "Unlock"], []⟩,
    .ofAction ⟨"IF_NOT_SET_DO",
      some ["lamp", "COMPARE_DO", "key", ">", "0", "IF_SET_REMOVE_CHOICE", "key", "2"], []⟩,
    .ofAction ⟨"IF_SET_ADD_CHOICE", some ["key", "3"], []⟩]

def spelledScript : List Line :=
  [.ofAction ⟨"SET", some ["key", "1"], []⟩,
    .ofAction ⟨"IF_SET_DO", some ["key", "ADD_CHOICE", "2", "Unlock"], []⟩,
    .ofAction ⟨"IF_NOT_SET_DO",
      some ["lamp", "COMPARE_DO", "key", ">", "0", "IF_SET_DO", "key", "REMOVE_CHOICE", "2"], []⟩,
    .ofAction ⟨"IF_SET_DO", some ["key", "ADD_CHOICE", "3"], []⟩]

/-- In both spellings a choice is added and removed again, and the line without a label is skipped. -/
theorem runLines_spelledOut_gated :
    List.Forall₂ Line.SpelledOut gatedScript spelledScript ∧
      (runLines (none : Option (Prompter Unit)) 0 spelledScript
        ⟨Story.fresh.withState fun st => { st with currentSection := .value "1" }, (), [], []⟩).1.skipped.map
          Skip.index = [3] := by
  have hadd (ps : List String) :
      SpelledOut "IF_SET_ADD_CHOICE" ps "IF_SET_DO" (withChange .addChoice ps) :=
    @SpelledOut.gate .ifSetAddChoice .addChoice rfl ps
  have hremove : SpelledOut "IF_SET_REMOVE_CHOICE" ["key", "2"] "IF_SET_DO" ["key", "REMOVE_CHOICE", "2"] :=
    @SpelledOut.gate .ifSetRemoveChoice .removeChoice rfl ["key", "2"]
  have h : List.Forall₂ Line.SpelledOut gatedScript spelledScript :=
    .cons (.refl _) (.cons (.respelled (hadd _))
      (.cons (.respelled (.ifNotSetDo _ (.compareDo _ _ _ hremove)))
        (.cons (.respelled (hadd _)) .nil)))
  obtain ⟨-, -, -, hskipped, -⟩ := runLines_spelledOut (none : Option (Prompter Unit)) 0 h
    ⟨Story.fresh.withState fun st => { st with currentSection := .value "1" }, (), [], []⟩
  exact ⟨h, hskipped.trans (by decide +kernel)⟩

end Gamebook
