import Gamebook.Proofs.Player.Return
import Gamebook.Story.Graph

/-!
# Play on a closed graph

In a closed story every choice leads to a section, also every choice that a script may add.  Play changes
the choices of such a story all the time, and it stays closed; so no step that follows a choice or the
history misses its section.

* `Section.additions`, `Story.IsClosed` : the choices that a script may add, and closed stories.
* `IsClosed.effect`, `IsClosed.scripted` : one instruction, and a script.
* `Operation.isStep`                    : what is asked of a player, loads apart.
* `closed_operate`                      : one operation.
* `play_keeps_closed`                   : every run, and what it may ask for next.
-/

set_option autoImplicit false

namespace Gamebook

/-- The instruction that a line of a loaded script is read as. -/
def Action.instruction? (a : Action) : Option (Instruction String) :=
  (Instruction.parse a.tag a.arguments).toOption

/-- The target and the label of each choice that the section's script may add, by instructions at any
depth. -/
def Section.additions (x : Section) : List (String × String) :=
  (x.script.get?.getD []).flatMap fun a => a.instruction?.elim [] Instruction.additions

namespace Section

theorem choices_addChoice {target label : String} {x : Section} {c : Choice}
    (h : c ∈ (x.addChoice target label).choices) : c ∈ x.choices ∨ c = .added target label := by
  rw [choices_of_added] at h
  split at h
  · exact .inl h
  · rcases List.mem_append.1 h with h | h
    · exact .inl h
    · exact .inr (List.mem_singleton.1 h)

theorem choices_removeChoice {target : String} {x : Section} {c : Choice}
    (h : c ∈ (x.removeChoice target).choices) : c ∈ x.choices := by
  rw [choices_of_removed] at h
  exact List.mem_of_mem_eraseP h

end Section

namespace Story

variable {s t : Story}

/-- Every choice leads to a section, and so does every choice that a script may add. -/
structure IsClosed (s : Story) : Prop where
  dangling : s.dangling = []
  additions : ∀ e ∈ s.sections, ∀ choice ∈ e.2.additions, s.hasSection choice.1 = true

theorem dangling_eq_nil_iff :
    s.dangling = [] ↔ ∀ e ∈ s.sections, ∀ c ∈ e.2.choices, s.hasSection c.target = true := by
  simp only [dangling, List.flatMap_eq_nil_iff, List.map_eq_nil_iff, List.filter_eq_nil_iff,
    Bool.not_eq_true', Bool.not_eq_false]

namespace IsClosed

/-- Other sections in their places, with the same scripts and, at most, new choices that lead to
sections. -/
theorem of_sections (h : s.IsClosed) (hids : t.ids = s.ids)
    (hsections : ∀ e ∈ t.sections, ∃ f ∈ s.sections, e.2.script = f.2.script ∧
      ∀ c ∈ e.2.choices, c ∈ f.2.choices ∨ s.hasSection c.target = true) : t.IsClosed where
  dangling := by
    rw [dangling_eq_nil_iff]
    intro e he c hc
    obtain ⟨f, hf, -, hchoices⟩ := hsections e he
    rw [hasSection_of_ids hids]
    rcases hchoices c hc with hc | hhas
    · exact dangling_eq_nil_iff.1 h.dangling f hf c hc
    · exact hhas
  additions := by
    intro e he choice hchoice
    obtain ⟨f, hf, hscript, -⟩ := hsections e he
    rw [hasSection_of_ids hids]
    refine h.additions f hf choice ?_
    unfold Section.additions at hchoice ⊢
    rwa [← hscript]

theorem withState (h : s.IsClosed) (f : PlayState → PlayState) : (s.withState f).IsClosed :=
  ⟨h.dangling, h.additions⟩

theorem modifySection (h : s.IsClosed) (id : String) {f : Section → Section}
    (hscript : ∀ x, (f x).script = x.script)
    (hchoices : ∀ x, ∀ c ∈ (f x).choices, c ∈ x.choices ∨ s.hasSection c.target = true) :
    (s.modifySection id f).IsClosed := by
  refine h.of_sections (ids_modifySection ..) ?_
  intro e he
  rcases Table.mem_modify he with he | ⟨x, hx, rfl⟩
  · exact ⟨e, he, rfl, fun c hc => .inl hc⟩
  · exact ⟨_, hx, hscript x, hchoices x⟩

/-- An instruction that adds choices to sections only keeps a story closed. -/
theorem effect (h : s.IsClosed) {i : Instruction String}
    (hi : ∀ choice ∈ i.additions, s.hasSection choice.1 = true) (heffect : i.Effect s t) : t.IsClosed := by
  cases heffect with
  | kept => exact h
  | set _ value => exact h.withState _
  | @added id target label _ hadded =>
    refine h.modifySection id (fun _ => rfl) ?_
    intro x c hc
    rcases Section.choices_addChoice hc with hc | rfl
    · exact .inl hc
    · exact .inr (hi _ hadded)
  | removed _ target =>
    exact h.modifySection _ (fun _ => rfl) fun x c hc => .inl (Section.choices_removeChoice hc)

/-- The script of a section of a closed story keeps it closed. -/
theorem scripted (h : s.IsClosed) {id : String} {lines : List Line} (hlines : s.linesOf id = some lines)
    (hscripted : Scripted lines s t) : t.IsClosed := by
  obtain ⟨x, hx, rfl⟩ := Option.map_eq_some_iff.1 hlines
  have hadditions := h.additions _ (Table.mem_of_get? hx)
  refine (hscripted.keeps (P := fun u => u.IsClosed ∧ u.ids = s.ids) ?_ ⟨h, rfl⟩).1
  intro line hline i hi u v heffect hu
  obtain ⟨a, ha, rfl⟩ := List.mem_map.1 hline
  refine ⟨hu.1.effect ?_ heffect, (place_of_effect heffect).2.trans hu.2⟩
  intro choice hchoice
  rw [hasSection_of_ids hu.2]
  refine hadditions choice (List.mem_flatMap.2 ⟨a, ha, ?_⟩)
  have hread : a.instruction? = some i := hi
  rw [hread]
  exact hchoice

theorem currentTargets (h : s.IsClosed) {target : String} (ht : target ∈ s.currentTargets) :
    s.hasSection target = true := by
  obtain ⟨c, hc, rfl⟩ := List.mem_map.1 ht
  unfold currentChoices at hc
  cases hcurrent : s.currentSection? with
  | none =>
    rw [hcurrent] at hc
    cases hc
  | some x =>
    rw [hcurrent] at hc
    obtain ⟨id, -, hx⟩ := Option.bind_eq_some_iff.1 hcurrent
    exact dangling_eq_nil_iff.1 h.dangling _ (Table.mem_of_get? hx) c hc

theorem started (h : s.IsClosed) : s.started.IsClosed := h.withState _

end IsClosed

/-- The history of a story in play that was given without one has sections only. -/
theorem InPlay.hasSection_of_history {o : Story} (h : InPlay o s) (ho : o.history = []) {id : String}
    (hid : id ∈ s.history) : s.hasSection id = true := by
  obtain ⟨st, current, past, hst, -, -, hpast, kept, visited, rfl, hkept, hvisited⟩ := h.state
  rw [ho, List.prefix_nil] at hkept
  subst hkept
  have hhistory : s.history = visited := by
    rw [history, stateOrEmpty, hst]
    show st.history.get?.getD [] = visited
    rw [hpast]
    rfl
  rw [hhistory] at hid
  have hmem : id ∈ s.ids := by
    rw [h.ids]
    exact hvisited id hid
  exact (Table.has_iff _ _).2 hmem

end Story

/-! ## Steps -/

/-- What is asked of a player, loads apart. -/
def Operation.isStep : Operation → Bool
  | .load _ | .fresh => false
  | .enter .. | .forward | .back | .choose _ | .view => true

namespace Player

variable {σ : Type} (prompter : Option (Prompter σ)) {p : Player σ} {s : Story}

def IsClosed (p : Player σ) : Prop := ∃ s, p.story = some s ∧ s.IsClosed

theorem closed_enter (h : p.IsClosed) (id : String) (remember : Bool) :
    (p.enter prompter id remember).1.IsClosed := by
  obtain ⟨s, hs, hclosed⟩ := h
  by_cases hid : s.hasSection id = true
  · obtain ⟨lines, hlines⟩ := Story.exists_linesOf hid
    obtain ⟨t, ht, hscripted⟩ := (enter_arrives prompter hs hlines remember).story
    exact ⟨t, ht, (hclosed.withState _).scripted hlines hscripted⟩
  · rw [enter_missing prompter hs (Bool.not_eq_true _ ▸ hid) remember]
    exact ⟨s, hs, hclosed⟩

theorem closed_forward (h : p.IsClosed) : (p.forward prompter).1.IsClosed := by
  rw [forward_eq]
  split
  · exact closed_enter prompter h _ true
  · exact h

theorem closed_choose (h : p.IsClosed) (index : Int) : (p.choose prompter index).1.IsClosed := by
  rw [choose_eq]
  split
  · exact closed_enter prompter h _ true
  · exact h

theorem closed_back (h : p.IsClosed) : (p.back prompter).1.IsClosed := by
  obtain ⟨s, hs, hclosed⟩ := h
  rcases List.eq_nil_or_concat s.history with hhistory | ⟨past, previous, hhistory⟩
  · rw [back_stays prompter hs hhistory]
    exact ⟨s, hs, hclosed⟩
  · rw [List.concat_eq_append] at hhistory
    by_cases hid : s.hasSection previous = true
    · obtain ⟨lines, hlines⟩ := Story.exists_linesOf hid
      obtain ⟨t, ht, hscripted⟩ := (back_arrives prompter hs hhistory hlines).story
      exact ⟨t, ht, ((hclosed.withState _).withState _).scripted hlines hscripted⟩
    · rw [back_missing prompter hs hhistory (Bool.not_eq_true _ ▸ hid)]
      exact ⟨s, hs, hclosed⟩

/-- An operation that loads no story, refused or not, keeps a closed story closed. -/
theorem closed_operate (h : p.IsClosed) {op : Operation} (hop : op.isStep = true) :
    (p.operate prompter op).IsClosed := by
  cases op with
  | load story => cases hop
  | fresh => cases hop
  | enter id remember => exact closed_enter prompter h id remember
  | forward => exact closed_forward prompter h
  | back => exact closed_back prompter h
  | choose index => exact closed_choose prompter h index
  | view => exact h

/-! ## What a step asks for is there -/

theorem enter_there (hs : p.story = some s) {id : String} (h : s.hasSection id = true)
    (remember : Bool) (other : String) :
    (p.enter prompter id remember).2 ≠ .error (.missingSection other) := by
  obtain ⟨lines, hlines⟩ := Story.exists_linesOf h
  obtain hok | ⟨cause, hcause⟩ := (enter_arrives prompter hs hlines remember).result
  · rw [hok]
    exact fun h => (nomatch h)
  · rw [hcause]
    exact fun h => (nomatch h)

theorem forward_there (hs : p.story = some s) (hclosed : s.IsClosed) (id : String) :
    (p.forward prompter).2 ≠ .error (.missingSection id) := by
  rw [forward_eq, hs]
  dsimp only [Option.elim_some]
  split
  · rename_i target htargets
    have hhas : s.hasSection target = true := hclosed.currentTargets (htargets ▸ List.mem_singleton.2 rfl)
    have hthere := enter_there prompter hs hhas true id
    revert hthere
    cases (p.enter prompter target true).2 with
    | ok u => exact fun _ h => (nomatch h)
    | error e =>
      intro hne h
      cases h
      exact hne rfl
  · exact fun h => (nomatch h)

theorem choose_there (hs : p.story = some s) (hclosed : s.IsClosed) (index : Int) (id : String) :
    (p.choose prompter index).2 ≠ .error (.missingSection id) := by
  rw [choose_eq, hs]
  dsimp only [Option.elim_some]
  split
  · rename_i target htarget
    refine enter_there prompter hs (hclosed.currentTargets ?_) true id
    split at htarget
    · cases htarget
    · exact List.mem_of_getElem? htarget
  · exact fun h => (nomatch h)

/-- A step back through sections that are there is not refused. -/
theorem back_there (hs : p.story = some s) (hhistory : ∀ id ∈ s.history, s.hasSection id = true)
    {e : PlayError} (he : (p.back prompter).2 = .error e) : ∃ cause, e = .interrupted cause := by
  rcases List.eq_nil_or_concat s.history with hnil | ⟨past, previous, hpast⟩
  · rw [back_stays prompter hs hnil] at he
    cases he
  · rw [List.concat_eq_append] at hpast
    have hhas : s.hasSection previous = true := by
      refine hhistory previous ?_
      rw [hpast]
      exact List.mem_append_right _ (List.mem_singleton.2 rfl)
    obtain ⟨lines, hlines⟩ := Story.exists_linesOf hhas
    obtain hok | ⟨cause, hcause⟩ := (back_arrives prompter hs hpast hlines).result
    · rw [hok] at he
      cases he
    · rw [hcause] at he
      cases he
      exact ⟨cause, rfl⟩

/-! ## Every run -/

theorem closed_run {ops : List Operation} (hops : ∀ op ∈ ops, op.isStep = true) (h : p.IsClosed) :
    (p.run prompter ops).IsClosed := by
  induction ops generalizing p with
  | nil => exact h
  | cons op rest ih =>
    rw [List.forall_mem_cons] at hops
    exact ih hops.2 (closed_operate prompter h hops.1)

/-- The story given last stays the same through operations that load none. -/
theorem given_of_steps {ops : List Operation} (hops : ∀ op ∈ ops, op.isStep = true)
    (given : Option Story) : ops.foldl Operation.given given = given := by
  induction ops with
  | nil => rfl
  | cons op rest ih =>
    rw [List.forall_mem_cons] at hops
    rw [List.foldl_cons]
    have hop : op.given given = given := by
      cases op with
      | load story => cases hops.1
      | fresh => cases hops.1
      | _ => rfl
    rw [hop, ih hops.2]

/-- A closed story that is given without a history stays closed however it is played, and no step that
follows a choice or the history ever misses its section. -/
theorem play_keeps_closed (hclosed : s.IsClosed) (hsections : s.sections ≠ []) (hhistory : s.history = [])
    (p : Player σ) (ops : List Operation) (hops : ∀ op ∈ ops, op.isStep = true) :
    (p.load (some s)).2 = .ok () ∧
    let q := (p.load (some s)).1.run prompter ops
    (∃ t, q.story = some t ∧ t.dangling = []) ∧
    (∀ index id, (q.choose prompter index).2 ≠ .error (.missingSection id)) ∧
    (∀ id, (q.forward prompter).2 ≠ .error (.missingSection id)) ∧
    ∀ e, (q.back prompter).2 = .error e → ∃ cause, e = .interrupted cause := by
  have hload : p.load (some s) = ({ p with story := some s.started }, .ok ()) := by
    unfold load
    dsimp only
    rw [if_neg (by rwa [List.isEmpty_iff])]
  rw [hload]
  refine ⟨rfl, ?_⟩
  intro q
  obtain ⟨t, ht, htclosed⟩ : q.IsClosed :=
    closed_run prompter hops ⟨s.started, rfl, hclosed.started⟩
  have hinPlay : Story.InPlay s t := by
    have hstart : Option.Rel Story.InPlay (some s) (some s.started) :=
      .some (Story.inPlay_started hsections)
    have hrun := run_inPlay prompter ops (p := { p with story := some s.started }) hstart
    rw [given_of_steps hops] at hrun
    change Option.Rel _ _ q.story at hrun
    rw [ht] at hrun
    cases hrun with
    | some h => exact h
  refine ⟨⟨t, ht, htclosed.dangling⟩, ?_, ?_, ?_⟩
  · exact fun index id => choose_there prompter ht htclosed index id
  · exact fun id => forward_there prompter ht htclosed id
  · exact fun e he => back_there prompter ht (fun id hid => hinPlay.hasSection_of_history hhistory hid) he

theorem closed_crossing : crossing.IsClosed := ⟨by decide, by decide⟩

/-- A run in which scripts add choices and remove them. -/
theorem play_keeps_closed_crossing :
    let q := ((idle ()).load (some crossing)).1.run none [.enter "2" true, .forward, .choose 1, .back]
    q.history = ["1", "2"] ∧ q.storedChoices.length = 2 ∧ (∃ t, q.story = some t ∧ t.dangling = []) ∧
      ∀ e, (q.back none).2 = .error e → ∃ cause, e = .interrupted cause := by
  have hclosed := play_keeps_closed none closed_crossing (List.cons_ne_nil _ _) rfl (idle ())
    [.enter "2" true, .forward, .choose 1, .back] (by decide)
  exact ⟨rfl, rfl, hclosed.2.1, hclosed.2.2.2.2⟩

end Player

end Gamebook
