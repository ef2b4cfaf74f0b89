import Gamebook.Proofs.Number.Counting
import Gamebook.Proofs.Script.Combined
import Gamebook.Proofs.Script.Comparison
import Gamebook.Proofs.Service.Session
import Mathlib.Data.List.Infix

/-!
# Counters

A variable that is unset, empty or holds the digits of a whole number counts exactly: whole numbers are added
to it one after the other, in one script, on the entry of several sections, and with the story written and
loaded in between.

* `additionLine`        : the line that adds a whole number to a variable.
* `Stage`, `Stage.pass?` : a stretch of play with such additions, and taking it.
* `run_addition`        : one addition is exact while the sum is within the limit.
* `Story.Tallied`       : what holds of the story along the way.
* `Tallied.runLines`, `Tallied.pass` : a script of additions, and a stage.
* `counter_exact`       : the whole way.
-/

set_option autoImplicit false

namespace Gamebook

open Json (intText)

/-! ## Adding to a variable -/

/-- The line that adds a whole number to a variable. -/
def additionLine (name : String) (amount : Int) : Line :=
  ⟨.str Tag.addToVariable.word, .ok [name, intText amount]⟩

/-- A variable that is unset or empty counts from zero, and one that holds the digits of a whole number
counts from there. -/
def Story.CountsFrom (s : Story) (name : String) (start : Int) : Prop :=
  (s.variableValues.get? name = none ∨ s.variableValues.get? name = some "") ∧ start = 0 ∨
    s.variableValues.get? name = some (intText start)

/-- A stretch of play. -/
inductive Stage where
  /-- A script that adds whole numbers to the variable. -/
  | script (amounts : List Int)
  /-- The entry of a section with such a script. -/
  | entry (id : String) (remember : Bool) (amounts : List Int)
  /-- The story is written, and loaded again. -/
  | reload (indented : Bool)

def Stage.amounts : Stage → List Int
  | .script amounts => amounts
  | .entry _ _ amounts => amounts
  | .reload _ => []

/-- A stage can be taken in a story: the section that is entered has the script, and a story that is
written has sections and no unknown field that is nested too deeply. -/
def Stage.Fits (name : String) (s : Story) : Stage → Prop
  | .script _ => True
  | .entry id _ amounts => s.linesOf id = some (amounts.map (additionLine name))
  | .reload _ => s.isWritable = true ∧ s.sections ≠ []

section Passing

variable {σ : Type}

/-- The player after a step that is not refused. -/
def Player.Step.player? {α : Type} : Player.Step σ α → Option (Player σ)
  | (p, .ok _) => some p
  | (_, .error _) => none

/-- The player after a script that runs to its end. -/
def Player.scripted? (prompter : Option (Prompter σ)) (lines : List Line) (p : Player σ) :
    Option (Player σ) := do
  let s ← p.story
  match runLines prompter 0 lines ⟨s, p.desk, p.asked, p.skipped⟩ with
  | (scene, none) => some ⟨some scene.story, scene.desk, scene.asked, scene.skipped⟩
  | (_, some _) => none

/-- The player after the story is written and loaded again. -/
def Player.reloaded? (indented : Bool) (p : Player σ) : Option (Player σ) := do
  let s ← p.story
  let text ← (if indented then s.writePretty else s.writeCompact).toOption
  let t ← (Story.ofText text).toOption
  (p.load (some t)).player?

/-- The player after a stage, unless something in it is refused or interrupted. -/
def Stage.pass? (prompter : Option (Prompter σ)) (name : String) (p : Player σ) :
    Stage → Option (Player σ)
  | .script amounts => p.scripted? prompter (amounts.map (additionLine name))
  | .entry id remember _ => (p.enter prompter id remember).player?
  | .reload indented => p.reloaded? indented

end Passing

section Adding

variable {name : String} {start amount : Int} {s : Story}

theorem intText_ne_empty (n : Int) : intText n ≠ "" := by
  intro h
  have hchars := congrArg String.toList h
  rw [Json.intText_toList] at hchars
  have hne := repr_ne_nil n.natAbs
  simp only [String.toList_empty, List.append_eq_nil_iff] at hchars
  exact hne hchars.2

/-- What a variable that counts is taken for. -/
theorem Story.CountsFrom.value (h : s.CountsFrom name start) :
    (s.setValue? name).getD "0" = intText start := by
  unfold Story.setValue?
  rcases h with ⟨hnone | hempty, rfl⟩ | hvalue
  · rw [hnone]
    rfl
  · rw [hempty]
    rfl
  · rw [hvalue, Option.filter_some, if_pos]
    · rfl
    · simpa using intText_ne_empty start

theorem instruction?_additionLine (hname : name ≠ "") (amount : Int) :
    (additionLine name amount).instruction? = some (.addToVariable name (intText amount)) := by
  have hfilled : Instruction.filled [name, intText amount] = true := by
    simp [Instruction.filled, Parameter.isEmpty, hname, intText_ne_empty]
  have hparse : Instruction.parse Tag.addToVariable.word [name, intText amount] =
      .ok (.addToVariable name (intText amount)) := by
    rw [Instruction.parse.eq_def, ofWord?_text?_word]
    dsimp only
    rw [if_pos hfilled]
  unfold Line.instruction? additionLine
  show (Instruction.parse Tag.addToVariable.word [name, intText amount]).toOption = _
  rw [hparse]
  rfl

theorem sumText_of_countsFrom (h : s.CountsFrom name start) (hstart : start.natAbs ≤ 2 ^ 53)
    (hamount : amount.natAbs ≤ 2 ^ 53) (hsum : (start + amount).natAbs ≤ 2 ^ 53) :
    sumText s name (intText amount) = .ok (intText (start + amount)) := by
  unfold sumText
  rw [h.value, numberOfText_intText hstart, numberOfText_intText hamount]
  show Except.ok (textOfNumber ((wholeNumber start hstart).add (wholeNumber amount hamount))) = _
  rw [wholeNumber_add hamount hstart hsum, textOfNumber_whole]

/-- One addition is exact while the sum is within the limit. -/
theorem run_addition {σ : Type} (prompter : Option (Prompter σ)) (index : Nat) (hname : name ≠ "")
    {scene : Scene σ} (h : scene.story.CountsFrom name start) (hstart : start.natAbs ≤ 2 ^ 53)
    (hamount : amount.natAbs ≤ 2 ^ 53) (hsum : (start + amount).natAbs ≤ 2 ^ 53) :
    (additionLine name amount).run prompter index scene =
      (scene.update fun s => s.setVariable name (intText (start + amount)), none) := by
  rw [run_of_instruction? (instruction?_additionLine hname amount), Instruction.run,
    sumText_of_countsFrom h hstart hamount hsum]

end Adding

/-! ## Along the way -/

/-- What holds of the story once some amounts are added: its sections run the scripts of the first story, it
can be written when that one can, and the variable holds the digits of the sum. -/
structure Story.Tallied (s : Story) (name : String) (start : Int) (done : List Int) (t : Story) :
    Prop where
  proper : t.Proper
  lines : ∀ id, t.linesOf id = s.linesOf id
  sections : s.sections ≠ [] → t.sections ≠ []
  writable : s.isWritable = true → t.isWritable = true
  value : t.variableValues.get? name =
    if done = [] then s.variableValues.get? name else some (intText (start + done.sum))

namespace Story.Tallied

variable {s t : Story} {name : String} {start : Int} {done : List Int}

theorem refl (h : s.Proper) (name : String) (start : Int) : s.Tallied name start [] s :=
  ⟨h, fun _ => rfl, id, id, rfl⟩

theorem countsFrom (h : s.Tallied name start done t) (hs : s.CountsFrom name start) :
    t.CountsFrom name (start + done.sum) := by
  have hvalue := h.value
  split at hvalue
  · rename_i hnone
    unfold CountsFrom
    rw [hvalue, hnone, List.sum_nil, Int.add_zero]
    exact hs
  · exact .inr hvalue

/-- Play of this kind changes the state only. -/
theorem kept (h : s.Tallied name start done t) {u : Story} (hproper : u.Proper)
    (hsections : u.sections = t.sections)
    (hunknown : ∀ {p : Json → Prop}, (∀ v ∈ t.unknownValues, p v) → ∀ v ∈ u.unknownValues, p v)
    {after : List Int} (hvalue : u.variableValues.get? name =
      if after = [] then s.variableValues.get? name else some (intText (start + after.sum))) :
    s.Tallied name start after u where
  proper := hproper
  lines id := by
    rw [← h.lines]
    unfold linesOf section?
    rw [hsections]
  sections hs := hsections ▸ h.sections hs
  writable hs := (isWritable_iff u).2 (hunknown ((isWritable_iff t).1 (h.writable hs)))
  value := hvalue

theorem setVariable (h : s.Tallied name start done t) (amount : Int) :
    s.Tallied name start (done ++ [amount])
      (t.setVariable name (intText (start + done.sum + amount))) := by
  refine h.kept (invariant_proper.setVariable h.proper _ _) rfl
    (fun hv => (invariant_unknown _).setVariable hv _ _) ?_
  rw [if_neg (by simp), List.sum_append, List.sum_singleton, ← Int.add_assoc]
  exact (Table.get?_put _ _ _ _).trans (if_pos rfl)

theorem entered (h : s.Tallied name start done t) (id : String) (remember : Bool) :
    s.Tallied name start done (t.entered id remember) :=
  h.kept (proper_entered h.proper id remember) rfl (fun hv => unknown_withState hv fun _ => rfl) h.value

theorem started (h : s.Tallied name start done t) : s.Tallied name start done t.started :=
  h.kept (proper_started h.proper) rfl unknown_started h.value

theorem settled (h : s.Tallied name start done t) : s.Tallied name start done t.settled where
  proper := storyCodec_lawful.proper_settled t h.proper
  lines id := (linesOf_settled t id).trans (h.lines id)
  sections hs := by
    have ht := h.sections hs
    unfold Story.settled
    simpa [Table.mapValues] using ht
  writable hs := (Service.isWritable_settled t).trans (h.writable hs)
  value := by
    rw [← h.value]
    unfold variableValues
    rw [stateOrEmpty_settled]
    rfl

variable {σ : Type} (prompter : Option (Prompter σ)) (hname : name ≠ "") (hs : s.CountsFrom name start)
  {amounts all : List Int} (hall : done ++ amounts <+: all) (hamounts : ∀ a ∈ all, a.natAbs ≤ 2 ^ 53)
  (hsums : ∀ part, part <+: all → (start + part.sum).natAbs ≤ 2 ^ 53)

include hname hs hall hamounts hsums

/-- A script of additions runs to its end and adds all of them. -/
theorem runLines (index : Nat) {scene : Scene σ} (h : s.Tallied name start done scene.story) :
    ∃ u, Gamebook.runLines prompter index (amounts.map (additionLine name)) scene =
        ({ scene with story := u }, none) ∧ s.Tallied name start (done ++ amounts) u := by
  induction amounts generalizing done scene index with
  | nil => exact ⟨scene.story, rfl, by rw [List.append_nil]; exact h⟩
  | cons amount rest ih =>
    have hstart : (start + done.sum).natAbs ≤ 2 ^ 53 :=
      hsums done ((List.prefix_append _ _).trans hall)
    have hnext : done ++ [amount] ++ rest <+: all := by
      rwa [List.append_assoc, List.singleton_append]
    have hsum : (start + done.sum + amount).natAbs ≤ 2 ^ 53 := by
      have hpart := hsums (done ++ [amount]) ((List.prefix_append _ _).trans hnext)
      rwa [List.sum_append, List.sum_singleton, ← Int.add_assoc] at hpart
    have hamount : amount.natAbs ≤ 2 ^ 53 := hamounts amount (hall.subset (by simp))
    let next := scene.update fun s => s.setVariable name (intText (start + done.sum + amount))
    have hadded : s.Tallied name start (done ++ [amount]) next.story := h.setVariable amount
    obtain ⟨u, hrun, hu⟩ := ih hnext (index + 1) hadded
    refine ⟨u, ?_, by rwa [List.append_assoc, List.singleton_append] at hu⟩
    rw [List.map_cons, runLines_cons, run_addition prompter index hname (h.countsFrom hs) hstart hamount hsum,
      Outcome.done_andThen, hrun]
    rfl

theorem scripted? {p : Player σ} (hp : p.story = some t) (h : s.Tallied name start done t) :
    ∃ q u, p.scripted? prompter (amounts.map (additionLine name)) = some q ∧ q.story = some u ∧
      s.Tallied name start (done ++ amounts) u := by
  have hscene : s.Tallied name start done (Scene.mk t p.desk p.asked p.skipped).story := h
  obtain ⟨u, hrun, hu⟩ := runLines prompter hname hs hall hamounts hsums 0 hscene
  refine ⟨⟨some u, p.desk, p.asked, p.skipped⟩, u, ?_, rfl, hu⟩
  unfold Player.scripted?
  rw [hp]
  show (match Gamebook.runLines prompter 0 (amounts.map (additionLine name))
    ⟨t, p.desk, p.asked, p.skipped⟩ with
      | (scene, none) => some (Player.mk (some scene.story) scene.desk scene.asked scene.skipped)
      | (_, some _) => none) = _
  rw [hrun]

/-- The player after the entry of a section with such a script. -/
theorem enter {p : Player σ} (hp : p.story = some t) (h : s.Tallied name start done t) {id : String}
    (hlines : s.linesOf id = some (amounts.map (additionLine name))) (remember : Bool) :
    ∃ q u, (p.enter prompter id remember).player? = some q ∧ q.story = some u ∧
      s.Tallied name start (done ++ amounts) u := by
  have hscene : s.Tallied name start done
      (Scene.mk (t.entered id remember) p.desk p.asked p.skipped).story := h.entered id remember
  obtain ⟨u, hrun, hu⟩ := runLines prompter hname hs hall hamounts hsums 0 hscene
  refine ⟨⟨some u, p.desk, p.asked, p.skipped⟩, u, ?_, rfl, hu⟩
  rw [Player.enter_eq prompter p t hp, (h.lines id).trans hlines]
  dsimp only
  rw [hrun]
  rfl

omit hname hs hall hamounts hsums in
/-- The player after the story is written and loaded again. -/
theorem reloaded? {p : Player σ} (hp : p.story = some t) (h : s.Tallied name start done t)
    (hwritable : s.isWritable = true) (hsections : s.sections ≠ []) (indented : Bool) :
    ∃ q u, p.reloaded? indented = some q ∧ q.story = some u ∧ s.Tallied name start done u := by
  have hloaded := h.settled.started
  have hsome : t.settled.sections.isEmpty = false :=
    List.isEmpty_eq_false_iff.2 (h.settled.sections hsections)
  have houtcome : (if indented then t.writePretty else t.writeCompact) ∈
      [t.writeCompact, t.writePretty] := by
    cases indented <;> simp
  obtain ⟨layout, hlayout⟩ := written_eq houtcome
  refine ⟨{ p with story := some t.settled.started }, _, ?_, rfl, hloaded⟩
  have hreload := reload h.proper (h.writable hwritable) layout
  unfold Player.reloaded?
  rw [hp]
  show ((if indented then t.writePretty else t.writeCompact).toOption.bind fun text =>
    (Story.ofText text).toOption.bind fun t => (p.load (some t)).player?) = _
  rw [hlayout, if_pos (h.writable hwritable)]
  show ((Story.ofText (t.toJson.write layout)).toOption.bind fun t => (p.load (some t)).player?) = _
  rw [hreload]
  show (p.load (some t.settled)).player? = _
  unfold Player.load
  dsimp only
  rw [hsome]
  rfl

omit hall in
theorem pass? {p : Player σ} (hp : p.story = some t) {stage : Stage} (hfits : stage.Fits name s)
    (h : s.Tallied name start done t) (hstage : done ++ stage.amounts <+: all) :
    ∃ q u, stage.pass? prompter name p = some q ∧ q.story = some u ∧
      s.Tallied name start (done ++ stage.amounts) u := by
  cases stage with
  | script amounts => exact scripted? prompter hname hs hstage hamounts hsums hp h
  | entry id remember amounts =>
    exact enter prompter hname hs hstage hamounts hsums hp h hfits remember
  | reload indented =>
    rw [Stage.amounts, List.append_nil]
    exact reloaded? hp h hfits.1 hfits.2 indented

omit hall in
theorem foldlM {course : List Stage} {p : Player σ} (hp : p.story = some t)
    (hfits : ∀ stage ∈ course, stage.Fits name s) (h : s.Tallied name start done t)
    (hcourse : done ++ course.flatMap Stage.amounts <+: all) :
    ∃ q u, course.foldlM (fun p stage => Stage.pass? prompter name p stage) p = some q ∧
      q.story = some u ∧ s.Tallied name start (done ++ course.flatMap Stage.amounts) u := by
  induction course generalizing done p t with
  | nil =>
    rw [List.flatMap_nil, List.append_nil]
    exact ⟨p, t, rfl, hp, h⟩
  | cons stage rest ih =>
    rw [List.forall_mem_cons] at hfits
    rw [List.flatMap_cons, ← List.append_assoc] at hcourse ⊢
    obtain ⟨q, u, hpass, hq, hu⟩ := pass? prompter hname hs hamounts hsums hp hfits.1 h
      ((List.prefix_append _ _).trans hcourse)
    obtain ⟨last, v, hrest, hlast, hv⟩ := ih hq hfits.2 hu hcourse
    refine ⟨last, v, ?_, hlast, hv⟩
    rw [List.foldlM_cons, hpass]
    exact hrest

end Story.Tallied

/-- Whole numbers added to a counter, in any number of scripts and section entries and with the story written
and loaded again in between, leave the digits of their exact sum, while the numbers, the start and all sums
on the way are within `2^53`.  Nothing on the way is refused or interrupted, and where no number is added the
variable stays as it is. -/
theorem counter_exact {σ : Type} (prompter : Option (Prompter σ)) {name : String} (hname : name ≠ "")
    {s : Story} (hreached : s.Reached) {start : Int} (hstart : s.CountsFrom name start)
    {course : List Stage} (hfits : ∀ stage ∈ course, stage.Fits name s)
    (hamounts : ∀ amount ∈ course.flatMap Stage.amounts, amount.natAbs ≤ 2 ^ 53)
    (hsums : ∀ part, part <+: course.flatMap Stage.amounts → (start + part.sum).natAbs ≤ 2 ^ 53)
    {p : Player σ} (hp : p.story = some s) :
    ∃ q t, course.foldlM (fun p stage => Stage.pass? prompter name p stage) p = some q ∧
      q.story = some t ∧ t.variableValues.get? name =
        if course.flatMap Stage.amounts = [] then s.variableValues.get? name
        else some (intText (start + (course.flatMap Stage.amounts).sum)) := by
  obtain ⟨q, t, hpass, hq, ht⟩ := Story.Tallied.foldlM prompter hname hstart hamounts hsums hp hfits
    (Story.Tallied.refl hreached.proper name start) (List.prefix_refl _)
  exact ⟨q, t, hpass, hq, ht.value⟩

/-- A section whose script adds to the gold, up to the limit. -/
def tollSection : Section :=
  ⟨"1", .absent, .value "A toll gate.", .absent, .absent,
    .value [⟨"ADD_TO_VARIABLE", some ["gold", "9007199254740990"], []⟩,
      ⟨"ADD_TO_VARIABLE", some ["gold", "2"], []⟩], .absent, .absent, []⟩

def tollStory : Story := ⟨.absent, .absent, [("1", tollSection)], .absent, []⟩

/-- The section is entered twice; in between the story is written and loaded, and a script takes the gold
away again, and more. -/
def tollCourse : List Stage :=
  [.entry "1" false [9007199254740990, 2], .reload true, .script [-9007199254740992, -5],
    .entry "1" true [9007199254740990, 2]]

theorem reached_toll : tollStory.Reached := by
  have hsection : tollSection.Proper := by
    constructor
    case media => exact fun _ h => nomatch h
    case next => exact fun _ h => nomatch h
    case script =>
      intro lines hlines
      cases hlines
      exact List.forall_mem_cons.2 ⟨ProperExtra.nil _, List.forall_mem_singleton.2 (ProperExtra.nil _)⟩
    case picture => exact fun _ h => nomatch h
    case extra => exact ProperExtra.nil _
  have hproper : tollStory.Proper := by
    constructor
    case metadata => exact fun _ h => nomatch h
    case state => exact fun _ h => nomatch h
    case sections => exact ⟨by decide, List.forall_mem_singleton.2 hsection⟩
    case definitions => exact fun _ h => nomatch h
    case extra => exact ProperExtra.nil _
  exact .loaded (Story.reload hproper rfl ⟨none, false⟩)

theorem counter_exact_toll : tollStory.Reached ∧ tollStory.CountsFrom "gold" 0 ∧
    (∀ stage ∈ tollCourse, stage.Fits "gold" tollStory) ∧
      ∃ q t, tollCourse.foldlM (fun p stage => Stage.pass? (none : Option (Prompter Unit)) "gold" p stage)
          ⟨some tollStory, (), [], []⟩ = some q ∧ q.story = some t ∧
        t.variableValues.get? "gold" = some "9007199254740987" := by
  have hstart : tollStory.CountsFrom "gold" 0 := .inl ⟨.inl rfl, rfl⟩
  have hscript : tollStory.linesOf "1" =
      some ([9007199254740990, 2].map (additionLine "gold")) := by rfl
  have hfits : ∀ stage ∈ tollCourse, stage.Fits "gold" tollStory := by
    unfold tollCourse
    simp only [List.forall_mem_cons]
    exact ⟨hscript, ⟨rfl, by decide⟩, trivial, hscript, List.forall_mem_nil _⟩
  have hsums : ∀ part ∈ (tollCourse.flatMap Stage.amounts).inits, (0 + part.sum).natAbs ≤ 2 ^ 53 := by
    decide +kernel
  obtain ⟨q, t, hpass, hq, hvalue⟩ := counter_exact (none : Option (Prompter Unit)) (by decide)
    reached_toll hstart hfits (by decide +kernel)
    (fun part hpart => hsums part ((List.mem_inits _ _).2 hpart))
    (p := ⟨some tollStory, (), [], []⟩) rfl
  rw [if_neg (by decide)] at hvalue
  exact ⟨reached_toll, hstart, hfits, q, t, hpass, hq, hvalue⟩

end Gamebook
