import Gamebook.Proofs.Player.Kept

/-!
# What a player can come to

A player is given stories and told to move, in any order, and much of it is refused.  Whatever was
asked of it, the story in play is the one it was given last, with the same sections, at a section
that is there and with a history that play has made.

* `Operation`, `Player.operate`, `Player.run` : what is asked of a player, and the player after it.
* `Operation.given`, `Operation.mode`         : the story given last, and the mode that was set last.
* `Story.Stems`      : a history made from a former one by visits and returns.
* `Story.InPlay`     : a story in play, compared with the story as it was given.
* `Story.Carried`    : a relation between the two that holds at the start and that play keeps.
* `operate_carried`, `run_carried` : one operation, refused or not, keeps it, and so does every run.
* `reachable_inPlay` : every run from a player without a story.
-/

set_option autoImplicit false

namespace Gamebook

/-! ## Runs -/

/-- What is asked of a player. -/
inductive Operation where
  | load (story : Option Story)
  /-- Starts the fresh story. -/
  | fresh
  /-- Makes a section current; the former one is remembered if asked. -/
  | enter (id : String) (remember : Bool)
  | forward
  | back
  | choose (index : Int)
  | view

namespace Operation

/-- A story that play can start at. -/
def playable (story : Option Story) : Option Story := story.filter fun s => !s.sections.isEmpty

/-- The story in play as it was given, from the one given before. -/
def given (former : Option Story) : Operation → Option Story
  | load story => playable story
  | fresh => some .fresh
  | enter _ _ | forward | back | choose _ | view => former

/-- The mode, from the mode before: only a load sets it. -/
def mode (former : PlayMode) : Operation → PlayMode
  | load story => if (playable story).isSome then .playing else .menu
  | fresh => .playing
  | enter _ _ | forward | back | choose _ | view => former

end Operation

namespace Player

variable {σ : Type}

/-- The player after an operation, also after a refused one. -/
def operate (prompter : Option (Prompter σ)) (p : Player σ) : Operation → Player σ
  | .load story => (p.load story).1
  | .fresh => (p.load (some .fresh)).1
  | .enter id remember => (p.enter prompter id remember).1
  | .forward => (p.forward prompter).1
  | .back => (p.back prompter).1
  | .choose index => (p.choose prompter index).1
  | .view => p

/-- The player after one operation after another. -/
def run (prompter : Option (Prompter σ)) (p : Player σ) (ops : List Operation) : Player σ :=
  ops.foldl (operate prompter) p

end Player

/-! ## Stories in play -/

namespace Story

/-- A history that begins as the one that the story was given with and goes on with sections of the
story.  A return may take away what the story was given with, too. -/
def Stems (o : Story) (past : List String) : Prop :=
  ∃ kept visited, past = kept ++ visited ∧ kept <+: o.history ∧ ∀ id ∈ visited, id ∈ o.ids

/-- A story in play: the sections are those it was given with, in their order, there is one, and the
state has a current section, which is there, and a history. -/
structure InPlay (o s : Story) : Prop where
  ids : s.ids = o.ids
  sections : s.sections ≠ []
  state : ∃ st id past, s.state = .value st ∧ st.currentSection = .value id ∧ id ∈ s.ids ∧
    st.history = .value past ∧ Stems o past

variable {o s : Story} {past : List String}

theorem Stems.visit (h : Stems o past) {id : String} (hid : id ∈ o.ids) : Stems o (past ++ [id]) := by
  obtain ⟨kept, visited, rfl, hkept, hvisited⟩ := h
  refine ⟨kept, visited ++ [id], List.append_assoc .., hkept, ?_⟩
  intro other hother
  rcases List.mem_append.1 hother with hother | hother
  · exact hvisited other hother
  · rw [List.mem_singleton.1 hother]
    exact hid

theorem Stems.return (h : Stems o past) : Stems o past.dropLast := by
  obtain ⟨kept, visited, rfl, hkept, hvisited⟩ := h
  rcases List.eq_nil_or_concat visited with rfl | ⟨before, last, rfl⟩
  · rw [List.append_nil]
    exact ⟨kept.dropLast, [], (List.append_nil _).symm, (List.dropLast_prefix kept).trans hkept, hvisited⟩
  · refine ⟨kept, before, ?_, hkept, fun id hid => hvisited id ?_⟩
    · rw [List.concat_eq_append, ← List.append_assoc, List.dropLast_concat]
    · rw [List.concat_eq_append]
      exact List.mem_append_left _ hid

/-- A change of the state that keeps the current section, and keeps a history that stems. -/
theorem inPlay_withState (h : InPlay o s) {f : PlayState → PlayState}
    (hcurrent : ∀ st, (f st).currentSection = st.currentSection)
    (hhistory : ∀ st past, st.history = .value past → Stems o past →
      ∃ past, (f st).history = .value past ∧ Stems o past) : InPlay o (s.withState f) := by
  obtain ⟨hids, hsections, st, id, past, hst, hid, hmem, hpast, hstems⟩ := h
  obtain ⟨after, hafter, hstems⟩ := hhistory st past hpast hstems
  have hvalue : s.stateOrEmpty = st := by rw [stateOrEmpty, hst]; rfl
  refine ⟨hids, hsections, f st, id, after, ?_, by rw [hcurrent, hid], hmem, hafter, hstems⟩
  rw [withState, hvalue]

theorem inPlay_modifySection (h : InPlay o s) (id : String) (f : Section → Section) :
    InPlay o (s.modifySection id f) := by
  have hids : (s.modifySection id f).ids = s.ids := Table.keys_modify ..
  obtain ⟨hsame, hsections, hstate⟩ := h
  refine ⟨hids.trans hsame, ?_, ?_⟩
  · intro hnone
    apply hsections
    unfold ids at hids
    rw [hnone] at hids
    exact List.map_eq_nil_iff.1 hids.symm
  · rw [hids]
    exact hstate

/-- A section is entered from one that is there, so what is remembered is a section. -/
theorem inPlay_entered (h : InPlay o s) {id : String} (hid : s.hasSection id = true)
    (remember : Bool) : InPlay o (s.entered id remember) := by
  obtain ⟨hids, hsections, st, current, past, hst, hcurrent, hmem, hpast, hstems⟩ := h
  have hvalue : s.stateOrEmpty = st := by rw [stateOrEmpty, hst]; rfl
  refine ⟨hids, hsections, _, id, _, rfl, rfl, (Table.has_iff _ _).1 hid, rfl, ?_⟩
  rw [hvalue, hcurrent, hpast]
  cases remember with
  | true => exact hstems.visit (hids ▸ hmem)
  | false => exact hstems

/-- Every change that play makes keeps a story in play. -/
theorem invariant_inPlay (o : Story) : Invariant (InPlay o) where
  setVariable h _ _ := inPlay_withState h (fun _ => rfl) fun _ past hpast hstems => ⟨past, hpast, hstems⟩
  addChoice h id _ _ := inPlay_modifySection h id _
  removeChoice h id _ := inPlay_modifySection h id _
  entered h _ hid remember := inPlay_entered h hid remember
  popped h := by
    refine inPlay_withState h (fun _ => rfl) ?_
    intro st past hpast hstems
    exact ⟨past.dropLast, by rw [hpast]; rfl, hstems.return⟩

/-- A story with sections is in play once it is started. -/
theorem inPlay_started (hsections : s.sections ≠ []) : InPlay s s.started := by
  obtain ⟨id, hid, hhas⟩ := current_started hsections
  refine ⟨rfl, hsections, _, id, _, rfl, hid, (Table.has_iff _ _).1 hhas, rfl, ?_⟩
  exact ⟨s.history, [], (List.append_nil _).symm, List.prefix_refl _, fun _ h => (nomatch h)⟩

/-- A relation between a story as it was given and the same story in play: it holds when play starts,
and every change that play makes keeps it. -/
structure Carried (R : Story → Story → Prop) : Prop where
  started : ∀ {s : Story}, s.sections ≠ [] → R s s.started
  invariant : ∀ o, Invariant (R o)

theorem carried_inPlay : Carried InPlay := ⟨inPlay_started, invariant_inPlay⟩

end Story

/-! ## Operations -/

namespace Player

variable {σ : Type}

/-- A load gives the player the story as it starts, or takes the former one away. -/
theorem load_story (p : Player σ) (story : Option Story) :
    (p.load story).1.story = (Operation.playable story).map Story.started := by
  cases story with
  | none => rfl
  | some s =>
    unfold load Operation.playable
    by_cases h : s.sections.isEmpty = true
    · simp only [h, if_true, Option.filter_some, Bool.not_true, Bool.false_eq_true, if_false,
        Option.map_none]
    · simp only [h, Bool.false_eq_true, if_false, Option.filter_some, Bool.not_false, if_true,
        Option.map_some]

/-- Nothing can be entered without a story. -/
theorem enter_none (prompter : Option (Prompter σ)) {p : Player σ} (h : p.story = none) (id : String)
    (remember : Bool) : (p.enter prompter id remember).1 = p := by
  unfold enter
  rw [h]

theorem move_none (prompter : Option (Prompter σ)) {p : Player σ} (h : p.story = none) (m : Move) :
    (p.move prompter m).1 = p := by
  have hchoices : p.storedChoices = [] := by rw [storedChoices, h]; rfl
  cases m with
  | enter id => exact enter_none prompter h id true
  | choose index =>
    simp only [move, choose, hchoices, List.getElem?_nil, ite_self]
  | forward => simp only [move, forward, hchoices]
  | back => simp only [move, back, h]

section Carried

variable {R : Story → Story → Prop} {p : Player σ} {given : Option Story}

/-- The story in play after an operation that loads none. -/
theorem rel_of_kept {q : Player σ} (h : Option.Rel R given p.story) (hnone : p.story = none → q = p)
    (hsome : p.story.isSome = true → q.story.isSome = true)
    (hkept : ∀ o, (∀ s, p.story = some s → R o s) → ∀ s, q.story = some s → R o s) :
    Option.Rel R given q.story := by
  generalize hp : p.story = x at h
  cases h with
  | none =>
    rw [hnone hp, hp]
    exact .none
  | some h =>
    rename_i o s
    obtain ⟨t, ht⟩ := Option.isSome_iff_exists.1 (hsome (by rw [hp]; rfl))
    rw [ht]
    refine .some (hkept o ?_ t ht)
    rintro _ hs
    rw [hp] at hs
    cases hs
    exact h

variable (hR : Story.Carried R)
include hR

theorem load_carried (p : Player σ) (story : Option Story) :
    Option.Rel R (Operation.playable story) (p.load story).1.story := by
  rw [load_story]
  cases h : Operation.playable story with
  | none => exact .none
  | some s =>
    refine .some (hR.started ?_)
    have hplayable := (Option.filter_eq_some_iff.1 h).2
    intro hnone
    rw [hnone] at hplayable
    cases hplayable

variable (prompter : Option (Prompter σ))

theorem enter_carried (h : Option.Rel R given p.story) (id : String) (remember : Bool) :
    Option.Rel R given (p.enter prompter id remember).1.story :=
  rel_of_kept h (fun hnone => enter_none prompter hnone id remember)
    (fun hsome => enter_isSome prompter hsome id remember)
    fun o hp => (hR.invariant o).enter prompter hp id remember

theorem move_carried (h : Option.Rel R given p.story) (m : Move) :
    Option.Rel R given (p.move prompter m).1.story :=
  rel_of_kept h (fun hnone => move_none prompter hnone m)
    (fun hsome => move_isSome prompter hsome m)
    fun o hp => (hR.invariant o).move prompter hp m

/-- After an operation, refused or not, the story in play is still related to the one given last. -/
theorem operate_carried (h : Option.Rel R given p.story) (op : Operation) :
    Option.Rel R (op.given given) (p.operate prompter op).story := by
  cases op with
  | load story => exact load_carried hR p story
  | fresh => exact load_carried hR p (some .fresh)
  | enter id remember => exact enter_carried hR prompter h id remember
  | forward => exact move_carried hR prompter h .forward
  | back => exact move_carried hR prompter h .back
  | choose index => exact move_carried hR prompter h (.choose index)
  | view => exact h

theorem run_carried (ops : List Operation) (h : Option.Rel R given p.story) :
    Option.Rel R (ops.foldl Operation.given given) (p.run prompter ops).story := by
  induction ops generalizing p given with
  | nil => exact h
  | cons op rest ih => exact ih (operate_carried hR prompter h op)

end Carried

/-- The mode is the one that was set last: an operation that loads no story keeps it. -/
theorem mode_of_kept {p q : Player σ} (hnone : p.story = none → q = p)
    (hsome : p.story.isSome = true → q.story.isSome = true) : q.mode = p.mode := by
  cases h : p.story with
  | none => rw [hnone h]
  | some s =>
    have hp : p.story.isSome = true := by rw [h]; rfl
    unfold mode
    rw [hsome hp, hp]

theorem mode_load (p : Player σ) (story : Option Story) :
    (p.load story).1.mode = if (Operation.playable story).isSome then .playing else .menu := by
  unfold mode
  rw [load_story, Option.isSome_map]

theorem mode_move (prompter : Option (Prompter σ)) (p : Player σ) (m : Move) :
    (p.move prompter m).1.mode = p.mode :=
  mode_of_kept (fun hnone => move_none prompter hnone m) fun hsome => move_isSome prompter hsome m

theorem mode_operate (prompter : Option (Prompter σ)) (p : Player σ) (op : Operation) :
    (p.operate prompter op).mode = op.mode p.mode := by
  cases op with
  | load story => exact mode_load p story
  | fresh => exact mode_load p (some .fresh)
  | enter id remember =>
    exact mode_of_kept (fun hnone => enter_none prompter hnone id remember) fun hsome =>
      enter_isSome prompter hsome id remember
  | forward => exact mode_move prompter p .forward
  | back => exact mode_move prompter p .back
  | choose index => exact mode_move prompter p (.choose index)
  | view => rfl

/-! ## Every run -/

theorem run_mode (prompter : Option (Prompter σ)) (p : Player σ) (ops : List Operation) :
    (p.run prompter ops).mode = ops.foldl Operation.mode p.mode := by
  induction ops generalizing p with
  | nil => rfl
  | cons op rest ih =>
    rw [List.foldl_cons, ← mode_operate prompter]
    exact ih (p.operate prompter op)

/-- The story in play is the one given last, in play. -/
theorem run_inPlay (prompter : Option (Prompter σ)) (ops : List Operation) {p : Player σ}
    {given : Option Story} (h : Option.Rel Story.InPlay given p.story) :
    Option.Rel Story.InPlay (ops.foldl Operation.given given) (p.run prompter ops).story :=
  run_carried Story.carried_inPlay prompter ops h

/-- Whatever is asked of a player that starts without a story: its mode is the one that was set last,
and it is the playing one exactly when there is a story, which is the one given last, in play. -/
theorem reachable_inPlay (prompter : Option (Prompter σ)) (desk : σ) (ops : List Operation) :
    let p := (idle desk).run prompter ops
    p.mode = ops.foldl Operation.mode .menu ∧ (p.mode = .playing ↔ p.story ≠ none) ∧
      Option.Rel Story.InPlay (ops.foldl Operation.given none) p.story := by
  intro p
  have hplaying : p.mode = .playing ↔ p.story ≠ none := by
    unfold mode
    cases p.story <;> simp
  exact ⟨run_mode prompter (idle desk) ops, hplaying, run_inPlay prompter ops .none⟩

end Player

end Gamebook
