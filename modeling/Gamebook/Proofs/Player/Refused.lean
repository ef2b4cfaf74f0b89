import Gamebook.Proofs.Player.Arrival

/-!
# Steps that are refused

A step looks for the section that it would enter, and enters it if it is there.  All that can go wrong
before shows in where the step would lead, and leaves the player as it was.

* `Stride`, `Player.stride` : a step to a section, or along a choice, onward or back, and taking it.
* `Player.goal?`            : the section that a step would enter.
* `Player.Fate`             : all that a step can come to; `stride_fate`.
* `stride_refusals`         : when a step is refused, and what it leaves alone then.
-/

set_option autoImplicit false

namespace Gamebook

/-- A step of play, with what it is told. -/
inductive Stride where
  /-- To a section, named by a text or a number; the former one is remembered if asked. -/
  | enter (section_ : Target) (remember : Bool)
  | choose (index : Int)
  | forward
  | back
  deriving DecidableEq, Repr

/-- The step itself is refused; it is not the script of the section entered that ended. -/
def PlayError.IsRefusal : PlayError → Prop
  | .interrupted _ => False
  | _ => True

namespace Player

variable {σ : Type}

/-- Takes a step; it is false when there was nothing to do. -/
def stride (prompter : Option (Prompter σ)) (p : Player σ) : Stride → Step σ Bool
  | .enter section_ remember =>
    let (p, result) := p.enter prompter section_.id remember
    (p, result.map fun _ => true)
  | .choose index =>
    let (p, result) := p.choose prompter index
    (p, result.map fun _ => true)
  | .forward => p.forward prompter
  | .back => p.back prompter

/-- The section that a step would enter: the one it is told, that of the choice of an index, that of the
only choice, or the last one of the history. -/
def goal? (p : Player σ) : Stride → Option String
  | .enter section_ _ => some section_.id
  | .choose index => if index < 0 then none else p.storedChoices[index.toNat]?.map Choice.target
  | .forward =>
    match p.storedChoices with
    | [c] => some c.target
    | _ => none
  | .back => p.history.getLast?

/-- What a step can come to. -/
inductive Fate (p : Player σ) (st : Stride) : Step σ Bool → Prop
  /-- The section is there, and its script is run, to its end or not. -/
  | arrives {step : Step σ Bool} {s : Story} {id : String} (hs : p.story = some s)
      (hgoal : p.goal? st = some id) (hid : s.hasSection id = true)
      (hresult : step.2 = .ok true ∨ ∃ cause, step.2 = .error (.interrupted cause)) : Fate p st step
  | missing {s : Story} {id : String} (hs : p.story = some s) (hgoal : p.goal? st = some id)
      (hid : s.hasSection id = false) : Fate p st (p, .error (.missingSection id))
  | idle (hst : ∀ index, st ≠ .choose index) (hgoal : p.goal? st = none) : Fate p st (p, .ok false)
  | stray {index : Int} (hst : st = .choose index) (hgoal : p.goal? st = none) :
      Fate p st (p, .error (.invalidChoice index p.storedChoices.length))
  | unloaded (hst : ∀ index, st ≠ .choose index) (hs : p.story = none) :
      Fate p st (p, .error .notLoaded)

/-- An index of the current choices leads somewhere, any other does not; without a story there are none. -/
theorem goal?_choose_eq_none_iff (p : Player σ) (index : Int) :
    p.goal? (.choose index) = none ↔ ¬ (0 ≤ index ∧ index < p.storedChoices.length) := by
  rw [goal?]
  split_ifs with hneg
  · exact iff_of_true rfl fun h => by omega
  · rw [Option.map_eq_none_iff, List.getElem?_eq_none_iff]
    omega

section Steps

variable (prompter : Option (Prompter σ)) (p : Player σ)

/-- What comes of entering the section that a step would enter. -/
theorem fate_of_enter {st : Stride} {id : String} (hgoal : p.goal? st = some id) (remember : Bool) :
    Fate p st ((p.enter prompter id remember).1, (p.enter prompter id remember).2.map fun _ => true) := by
  cases hs : p.story with
  | none =>
    have hst : ∀ index, st ≠ .choose index := by
      rintro index rfl
      have hnone : p.goal? (.choose index) = none := by
        rw [goal?_choose_eq_none_iff, storedChoices, hs]
        rintro ⟨hle, hlt⟩
        exact absurd hlt (Int.not_lt.2 hle)
      rw [hnone] at hgoal
      cases hgoal
    unfold enter
    rw [hs]
    exact .unloaded hst hs
  | some s =>
    cases hid : s.hasSection id with
    | false =>
      rw [enter_missing prompter hs hid]
      exact .missing hs hgoal hid
    | true =>
      obtain ⟨lines, hlines⟩ := Story.exists_linesOf hid
      exact .arrives hs hgoal hid ((enter_arrives prompter hs hlines remember).map fun _ => true).result

theorem choose_fate (index : Int) : Fate p (.choose index) (p.stride prompter (.choose index)) := by
  have hgoal : p.goal? (.choose index) =
      (if index < 0 then none else p.storedChoices[index.toNat]?).map Choice.target := by
    rw [goal?]
    split_ifs <;> rfl
  unfold stride choose
  dsimp only
  cases hchoice : (if index < 0 then none else p.storedChoices[index.toNat]?) with
  | none =>
    rw [hchoice] at hgoal
    exact .stray rfl hgoal
  | some c =>
    rw [hchoice] at hgoal
    exact fate_of_enter prompter p hgoal true

theorem forward_fate : Fate p .forward (p.stride prompter .forward) := by
  show Fate p .forward (p.forward prompter)
  unfold forward
  rcases hchoices : p.storedChoices with _ | ⟨c, _ | ⟨d, more⟩⟩
  · exact .idle (fun _ h => by cases h) (by rw [goal?, hchoices])
  · exact fate_of_enter prompter p (by rw [goal?, hchoices]) true
  · exact .idle (fun _ h => by cases h) (by rw [goal?, hchoices])

theorem back_fate : Fate p .back (p.stride prompter .back) := by
  show Fate p .back (p.back prompter)
  cases hs : p.story with
  | none =>
    unfold back
    rw [hs]
    exact .unloaded (fun _ h => by cases h) hs
  | some s =>
    have hgoal : p.goal? .back = s.history.getLast? := by
      rw [goal?, Player.history, hs]
      rfl
    rcases List.eq_nil_or_concat s.history with hnil | ⟨past, previous, hpast⟩
    · rw [back_stays prompter hs hnil]
      rw [hnil] at hgoal
      exact .idle (fun _ h => by cases h) hgoal
    · rw [List.concat_eq_append] at hpast
      rw [hpast, List.getLast?_concat] at hgoal
      cases hid : s.hasSection previous with
      | false =>
        rw [back_missing prompter hs hpast hid]
        exact .missing hs hgoal hid
      | true =>
        obtain ⟨lines, hlines⟩ := Story.exists_linesOf hid
        exact .arrives hs hgoal hid (back_arrives prompter hs hpast hlines).result

theorem stride_fate (st : Stride) : Fate p st (p.stride prompter st) := by
  cases st with
  | enter section_ remember => exact fate_of_enter prompter p rfl remember
  | choose index => exact choose_fate prompter p index
  | forward => exact forward_fate prompter p
  | back => exact back_fate prompter p

end Steps

section Fates

variable {p : Player σ} {st : Stride} {step : Step σ Bool} (h : Fate p st step)

include h

theorem Fate.missing_iff (id : String) :
    step.2 = .error (.missingSection id) ↔
      p.goal? st = some id ∧ ∃ s, p.story = some s ∧ id ∉ s.ids := by
  have hmem (s : Story) : id ∈ s.ids ↔ s.hasSection id = true := (Table.has_iff _ _).symm
  simp only [hmem, Bool.not_eq_true]
  cases h with
  | arrives hs hgoal hid hresult =>
    rw [hs, hgoal]
    refine iff_of_false (fun h => ?_) ?_
    · rcases hresult with hresult | ⟨_, hresult⟩ <;> cases h.symm.trans hresult
    · rintro ⟨heq, s, hs, hnone⟩
      cases heq
      cases hs
      cases hid.symm.trans hnone
  | missing hs hgoal hid =>
    rw [hs, hgoal]
    constructor
    · intro h
      cases h
      exact ⟨rfl, _, rfl, hid⟩
    · rintro ⟨heq, -⟩
      cases heq
      rfl
  | idle hst hgoal | stray hst hgoal =>
    rw [hgoal]
    exact iff_of_false (fun h => by cases h) fun h => by cases h.1
  | unloaded hst hs =>
    rw [hs]
    exact iff_of_false (fun h => by cases h) fun ⟨_, _, hs, _⟩ => by cases hs

theorem Fate.invalid_iff (index : Int) (available : Nat) :
    step.2 = .error (.invalidChoice index available) ↔
      st = .choose index ∧ available = p.storedChoices.length ∧
        ¬ (0 ≤ index ∧ index < p.storedChoices.length) := by
  cases h with
  | arrives hs hgoal hid hresult =>
    refine iff_of_false (fun h => ?_) ?_
    · rcases hresult with hresult | ⟨_, hresult⟩ <;> cases h.symm.trans hresult
    · rintro ⟨rfl, -, hindex⟩
      cases hgoal.symm.trans ((goal?_choose_eq_none_iff p index).2 hindex)
  | missing hs hgoal hid =>
    refine iff_of_false (fun h => by cases h) ?_
    rintro ⟨rfl, -, hindex⟩
    cases hgoal.symm.trans ((goal?_choose_eq_none_iff p index).2 hindex)
  | idle hst hgoal | unloaded hst hgoal =>
    exact iff_of_false (fun h => by cases h) fun h => hst _ h.1
  | stray hst hgoal =>
    subst hst
    constructor
    · intro h
      cases h
      exact ⟨rfl, rfl, (goal?_choose_eq_none_iff p index).1 hgoal⟩
    · rintro ⟨heq, rfl, -⟩
      cases heq
      rfl

/-- Only a step that arrives changes the player. -/
theorem Fate.kept (hresult : step.2 = .ok false ∨ ∃ e : PlayError, e.IsRefusal ∧ step.2 = .error e) :
    step.1 = p := by
  cases h with
  | arrives hs hgoal hid harrived =>
    rcases hresult with h | ⟨e, he, h⟩ <;> rcases harrived with h' | ⟨_, h'⟩ <;> cases h.symm.trans h'
    exact he.elim
  | missing | idle | stray | unloaded => rfl

end Fates

/-- A step misses a section exactly when the section that it would enter is not there, and a choice
exactly when the index is none of the current choices.  When it is refused, or has nothing to do, the
player is left as it was: its mode, its story, what was asked and what was skipped. -/
theorem stride_refusals (prompter : Option (Prompter σ)) (p : Player σ) (st : Stride) :
    (∀ id, (p.stride prompter st).2 = .error (.missingSection id) ↔
      p.goal? st = some id ∧ ∃ s, p.story = some s ∧ id ∉ s.ids) ∧
    (∀ index available, (p.stride prompter st).2 = .error (.invalidChoice index available) ↔
      st = .choose index ∧ available = p.storedChoices.length ∧
        ¬ (0 ≤ index ∧ index < p.storedChoices.length)) ∧
    ((p.stride prompter st).2 = .ok false ∨
        (∃ e : PlayError, e.IsRefusal ∧ (p.stride prompter st).2 = .error e) →
      (p.stride prompter st).1 = p) := by
  have hfate := stride_fate prompter p st
  exact ⟨hfate.missing_iff, hfate.invalid_iff, hfate.kept⟩

end Player

end Gamebook
