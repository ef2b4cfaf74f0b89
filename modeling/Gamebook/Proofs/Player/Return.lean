import Gamebook.Proofs.Player.Arrival

/-!
# The way back

Each step onward puts the section that it leaves at the end of the history, and each step back takes one
from there.  Scripts run on both ways, and change variables and choices, but neither the history nor the
sections, so that the way back is the way there.

* `Player.Enters`       : a step onward that came to a section.
* `Player.Onward`       : steps onward, one after another, with the sections that they left.
* `Player.backs`, `Player.returned` : steps back, and the player after them.
* `enters_place`, `back_place` : one step onward, and one step back.
* `backs_undo_onward`   : as many steps back as onward.
-/

set_option autoImplicit false

namespace Gamebook.Player

variable {σ : Type} (prompter : Option (Prompter σ))

/-- A step that entered a section, the former one remembered, and was completed. -/
def Enters (p : Player σ) (m : Move) (q : Player σ) : Prop :=
  match m with
  | .enter id => p.enter prompter id true = (q, .ok ())
  | .choose index => p.choose prompter index = (q, .ok ())
  | .forward => p.forward prompter = (q, .ok true)
  | .back => False

/-- Steps onward, one after another, with the sections that they left. -/
inductive Onward (p : Player σ) : List (Option String) → Player σ → Prop
  | here : Onward p [] p
  | on {left : List (Option String)} {q r : Player σ} {m : Move} (h : Onward p left q)
      (hm : Enters prompter q m r) : Onward p (left ++ [q.currentId?]) r

/-- Steps back, one after another. -/
def backs : Nat → Player σ → List (Step σ Bool)
  | 0, _ => []
  | n + 1, p => p.back prompter :: backs n (p.back prompter).1

/-- The player after some steps back. -/
def returned : Nat → Player σ → Player σ
  | 0, p => p
  | n + 1, p => returned n (p.back prompter).1

/-! ## One step -/

/-- The player has a story, which is at a section that is there. -/
def IsAt (p : Player σ) (place : Place) (ids : List String) : Prop :=
  ∃ s, p.story = some s ∧ s.place = place ∧ s.ids = ids

variable {prompter} {p q : Player σ} {place : Place} {ids : List String}

theorem IsAt.currentId? (h : p.IsAt place ids) : p.currentId? = place.current := by
  obtain ⟨s, hs, rfl, -⟩ := h
  rw [Player.currentId?, hs]
  rfl

theorem IsAt.history (h : p.IsAt place ids) : p.history = place.history := by
  obtain ⟨s, hs, rfl, -⟩ := h
  rw [Player.history, hs]
  rfl

theorem IsAt.unique (h : p.IsAt place ids) {other : Place} (h' : p.IsAt other ids) : other = place := by
  obtain ⟨s, hs, rfl, -⟩ := h
  obtain ⟨t, ht, rfl, -⟩ := h'
  rw [hs] at ht
  cases ht
  rfl

/-- A section that was entered is there. -/
theorem enter_place (h : p.IsAt place ids) {id : String}
    (henter : p.enter prompter id true = (q, .ok ())) : id ∈ ids ∧ q.IsAt (place.entered id true) ids := by
  obtain ⟨s, hs, rfl, rfl⟩ := h
  by_cases hid : s.hasSection id = true
  · obtain ⟨lines, hlines⟩ := Story.exists_linesOf hid
    obtain ⟨t, ht, hplace, hids⟩ := (enter_arrives prompter hs hlines true).place
    rw [henter] at ht
    exact ⟨(Table.has_iff _ _).1 hid, t, ht, hplace.trans (s.place_entered id true), hids⟩
  · rw [enter_missing prompter hs (Bool.not_eq_true _ ▸ hid) true] at henter
    cases henter

theorem forward_place (h : p.IsAt place ids) (hforward : p.forward prompter = (q, .ok true)) :
    ∃ id ∈ ids, q.IsAt (place.entered id true) ids := by
  rw [forward_eq] at hforward
  split at hforward
  · rename_i target _
    obtain ⟨hq, hresult⟩ := Prod.mk.injEq .. ▸ hforward
    have henter : p.enter prompter target true = (q, .ok ()) := by
      refine Prod.ext hq ?_
      cases hend : (p.enter prompter target true).2 with
      | ok u => rfl
      | error e =>
        rw [hend] at hresult
        cases hresult
    exact ⟨target, enter_place h henter⟩
  · cases hforward

theorem choose_place (h : p.IsAt place ids) {index : Int}
    (hchoose : p.choose prompter index = (q, .ok ())) :
    ∃ id ∈ ids, q.IsAt (place.entered id true) ids := by
  rw [choose_eq] at hchoose
  split at hchoose
  · rename_i target _
    exact ⟨target, enter_place h hchoose⟩
  · cases hchoose

/-- A step onward leads to a section that is there, and puts the one that it leaves into the history. -/
theorem enters_place (h : p.IsAt place ids) {m : Move} (hm : Enters prompter p m q) :
    ∃ id ∈ ids, q.IsAt (place.entered id true) ids := by
  cases m with
  | enter id => exact ⟨id, enter_place h hm⟩
  | choose index => exact choose_place h hm
  | forward => exact forward_place h hm
  | back => exact hm.elim

/-- A step back to a section that is there leads to the place before the section was left.  Only the
script of that section can keep it from its result. -/
theorem back_place (prompter : Option (Prompter σ)) {id : String}
    (hcurrent : place.current = some id) (hid : id ∈ ids) {other : String}
    (h : p.IsAt (place.entered other true) ids) :
    ((p.back prompter).2 = .ok true ∨ ∃ cause, (p.back prompter).2 = .error (.interrupted cause)) ∧
      (p.back prompter).1.IsAt place ids := by
  obtain ⟨s, hs, hplace, rfl⟩ := h
  have hhistory : s.history = place.history ++ [id] := by
    have hhistory := congrArg Place.history hplace
    rw [Place.entered, hcurrent] at hhistory
    exact hhistory
  obtain ⟨lines, hlines⟩ := Story.exists_linesOf ((Table.has_iff _ _).2 hid)
  have harrives := back_arrives prompter hs hhistory hlines
  obtain ⟨t, ht, hthere, hids⟩ := harrives.place
  refine ⟨harrives.result, t, ht, ?_, hids⟩
  rw [hthere, Story.place_entered, Story.place_popped, hhistory, List.dropLast_concat, Place.entered,
    ← hcurrent]
  rfl

/-! ## The whole way -/

/-- Steps onward lead from a section that is there to another one. -/
theorem onward_place {left : List (Option String)} (h : Onward prompter p left q)
    (hp : p.IsAt place ids) (hcurrent : ∃ id ∈ ids, place.current = some id) :
    ∃ there, q.IsAt there ids ∧ ∃ id ∈ ids, there.current = some id := by
  induction h with
  | here => exact ⟨place, hp, hcurrent⟩
  | on _ hm ih =>
    obtain ⟨there, hq, -⟩ := ih
    obtain ⟨id, hid, hr⟩ := enters_place hq hm
    exact ⟨_, hr, id, hid, rfl⟩

/-- From wherever the steps onward led, with whatever scripts have made of the rest of the story, as many
steps back lead to where they began. -/
theorem backs_of_onward {left : List (Option String)} (h : Onward prompter p left q)
    (hp : p.IsAt place ids) (hcurrent : ∃ id ∈ ids, place.current = some id) {there : Place}
    (hq : q.IsAt there ids) {r : Player σ} (hr : r.IsAt there ids) :
    (∀ step ∈ r.backs prompter left.length,
      step.2 = .ok true ∨ ∃ cause, step.2 = .error (.interrupted cause)) ∧
    (r.backs prompter left.length).map (fun step => step.1.currentId?) = left.reverse ∧
    (r.returned prompter left.length).IsAt place ids := by
  induction h generalizing there r with
  | here =>
    cases hp.unique hq
    exact ⟨fun _ hstep => (nomatch hstep), rfl, hr⟩
  | @on left q after m h hm ih =>
    obtain ⟨before, hbefore, id, hid, hid'⟩ := onward_place h hp hcurrent
    obtain ⟨other, -, hafter⟩ := enters_place hbefore hm
    cases hafter.unique hq
    obtain ⟨hresult, hback⟩ := back_place prompter hid' hid hr
    obtain ⟨hresults, hplaces, hend⟩ := ih hbefore hback
    rw [List.length_append, List.length_singleton]
    refine ⟨?_, ?_, hend⟩
    · intro step hstep
      rcases List.mem_cons.1 hstep with rfl | hstep
      · exact hresult
      · exact hresults step hstep
    · rw [backs, List.map_cons, hplaces, hback.currentId?, hbefore.currentId?, List.reverse_append]
      rfl

/-- A player with a story, whatever was asked of it before, is at a section that is there. -/
theorem isAt_of_playing (desk : σ) (ops : List Operation)
    (hplaying : ((idle desk).run prompter ops).mode = .playing) :
    ∃ place ids, ((idle desk).run prompter ops).IsAt place ids ∧
      ∃ id ∈ ids, place.current = some id := by
  have hinPlay := run_inPlay prompter ops (p := idle desk) .none
  revert hplaying hinPlay
  generalize (idle desk).run prompter ops = p
  intro hplaying hinPlay
  unfold mode at hplaying
  cases hs : p.story with
  | none =>
    rw [hs] at hplaying
    cases hplaying
  | some s =>
    rw [hs] at hinPlay
    generalize List.foldl _ _ _ = given at hinPlay
    cases hinPlay with
    | some h =>
      obtain ⟨st, id, past, hst, hid, hmem, -⟩ := h.state
      refine ⟨s.place, s.ids, ⟨s, hs, rfl, rfl⟩, id, hmem, ?_⟩
      show s.currentId? = some id
      rw [Story.currentId?, Story.stateOrEmpty, hst]
      show st.currentSection.get? = some id
      rw [hid]
      rfl

/-- From wherever a player is, as many steps back as onward lead to where the steps onward began, by the
sections that they left, the last one first.  Nothing but a script that is interrupted keeps a step back
from its result, and not even that from its place. -/
theorem backs_undo_onward (desk : σ) (ops : List Operation)
    (hplaying : ((idle desk).run prompter ops).mode = .playing) {left : List (Option String)}
    {q : Player σ} (h : Onward prompter ((idle desk).run prompter ops) left q) :
    (∀ step ∈ q.backs prompter left.length,
      step.2 = .ok true ∨ ∃ cause, step.2 = .error (.interrupted cause)) ∧
    (q.backs prompter left.length).map (fun step => step.1.currentId?) = left.reverse ∧
    (q.returned prompter left.length).currentId? = ((idle desk).run prompter ops).currentId? ∧
    (q.returned prompter left.length).history = ((idle desk).run prompter ops).history := by
  obtain ⟨place, ids, hp, hcurrent⟩ := isAt_of_playing desk ops hplaying
  obtain ⟨there, hq, -⟩ := onward_place h hp hcurrent
  obtain ⟨hresults, hplaces, hend⟩ := backs_of_onward h hp hcurrent hq hq
  exact ⟨hresults, hplaces, hend.currentId?.trans hp.currentId?.symm,
    hend.history.trans hp.history.symm⟩

/-- Three sections whose scripts change variables and choices whenever they are entered. -/
def crossing : Story :=
  let room (id : String) (choices : List Choice) (script : List Action) : Section :=
    { Section.ofLines id [""] with next := .value choices, script := .value script }
  { Story.fresh with
    sections :=
      [("1", room "1" [.added "2" "On"]
        [⟨"SET", some ["mood", "calm"], []⟩, ⟨"ADD_CHOICE", some ["3", "Leap"], []⟩]),
       ("2", room "2" [.added "3" "On"]
        [⟨"SET", some ["mood", "brave"], []⟩, ⟨"ADD_CHOICE", some ["1", "Return"], []⟩,
          ⟨"REMOVE_CHOICE", some ["3"], []⟩]),
       ("3", room "3" [.added "1" "On"]
        [⟨"COMPARE_DO", some ["mood", "=", "brave", "SET", "torch", "lit"], []⟩])] }

/-- Four steps onward and back again. -/
theorem backs_undo_onward_crossing :
    let p : Player Unit := (idle ()).run none [.load (some crossing)]
    ∃ q, Onward none p [some "1", some "3", some "1", some "2"] q ∧
      (q.backs none 4).map (fun step => step.1.currentId?) =
        [some "2", some "1", some "3", some "1"] ∧
      (q.returned none 4).history = p.history := by
  intro p
  let a := (p.enter none "3" true).1
  let b := (a.forward none).1
  let c := (b.choose none 0).1
  let d := (c.forward none).1
  have ha : Enters none p (.enter "3") a := rfl
  have hb : Enters none a .forward b := rfl
  have hc : Enters none b (.choose 0) c := rfl
  have hd : Enters none c .forward d := rfl
  have hway : Onward none p [some "1", some "3", some "1", some "2"] d :=
    (((Onward.here.on ha).on hb).on hc).on hd
  have hback := backs_undo_onward () [.load (some crossing)] rfl hway
  exact ⟨_, hway, hback.2.1, hback.2.2.2⟩

end Gamebook.Player
