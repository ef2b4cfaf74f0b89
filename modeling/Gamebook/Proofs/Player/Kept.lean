import Gamebook.Proofs.Player.Simulation
import Gamebook.Proofs.Story.Codec
import Gamebook.Proofs.Story.Recast

/-!
# What play keeps

* `invariant_proper`, `proper_started`   : a story that is played stays one that is written and loaded.
* `invariant_unknown`, `unknown_started` : play adds no unknown fields.
* `Story.Playing`, `invariant_playing`   : the current section is there, and so is a history.
* `settled_simulation`                   : a story that was written and loaded plays as before.
-/

set_option autoImplicit false

namespace Gamebook.Story

variable {s : Story}

/-! ## Proper stories -/

theorem proper_stateOrEmpty (h : s.Proper) : stateCodec.Proper s.stateOrEmpty := by
  have hstate := h.state
  unfold stateOrEmpty
  cases hs : s.state with
  | value st => exact hstate st hs
  | absent => exact ⟨fun _ h => (nomatch h), ProperExtra.nil _⟩
  | null => exact ⟨fun _ h => (nomatch h), ProperExtra.nil _⟩

theorem proper_withState (h : s.Proper) {f : PlayState → PlayState}
    (hf : ∀ st, stateCodec.Proper st → stateCodec.Proper (f st)) : (s.withState f).Proper := by
  refine { h with state := ?_ }
  intro st hst
  cases hst
  exact hf _ (proper_stateOrEmpty h)

theorem proper_modifySection (h : s.Proper) (id : String) {f : Section → Section}
    (hf : ∀ x, x.Proper → (f x).Proper) : (s.modifySection id f).Proper := by
  refine { h with sections := ⟨?_, ?_⟩ }
  · rw [modifySection, Table.keys_modify]
    exact h.sections.1
  · intro e he
    rcases Table.mem_modify he with he | ⟨x, hx, rfl⟩
    · exact h.sections.2 e he
    · exact hf x (h.sections.2 _ hx)

theorem proper_choices {x : Section} (h : x.Proper) : ∀ c ∈ x.choices, choiceCodec.Proper c := by
  intro c hc
  have hnext := h.next
  unfold Section.choices at hc
  cases hx : x.next with
  | value cs =>
    rw [hx] at hc
    exact hnext cs hx c hc
  | absent =>
    rw [hx] at hc
    cases hc
  | null =>
    rw [hx] at hc
    cases hc

theorem proper_addChoice {x : Section} (h : x.Proper) (target label : String) :
    (x.addChoice target label).Proper := by
  refine { h with next := ?_ }
  intro cs hcs
  cases hcs
  intro c hc
  split at hc
  · exact proper_choices h c hc
  · rcases List.mem_append.1 hc with hc | hc
    · exact proper_choices h c hc
    · rw [List.mem_singleton.1 hc]
      exact ⟨trivial, ProperExtra.nil _⟩

theorem proper_removeChoice {x : Section} (h : x.Proper) (target : String) :
    (x.removeChoice target).Proper := by
  refine { h with next := ?_ }
  intro cs hcs
  have hnext := h.next
  unfold Section.removeChoice at hcs
  cases hx : x.next with
  | value former =>
    rw [hx] at hcs
    cases hcs
    exact fun c hc => hnext former hx c (List.mem_of_mem_eraseP hc)
  | absent =>
    rw [hx] at hcs
    cases hcs
  | null =>
    rw [hx] at hcs
    cases hcs

theorem proper_entered (h : s.Proper) (id : String) (remember : Bool) :
    (s.entered id remember).Proper := proper_withState h fun _ hst => hst

theorem invariant_proper : Invariant Proper where
  setVariable h name value := by
    apply proper_withState h
    intro st hst
    refine ⟨?_, hst.2⟩
    intro t ht
    cases ht
    apply Table.nodup_put
    cases hvalues : st.values with
    | value t => exact hst.1 t hvalues
    | absent => exact List.nodup_nil
    | null => exact List.nodup_nil
  addChoice h id target label := proper_modifySection h id fun _ hx => proper_addChoice hx target label
  removeChoice h id target := proper_modifySection h id fun _ hx => proper_removeChoice hx target
  entered h id _ remember := proper_entered h id remember
  popped h := proper_withState h fun _ hst => hst

/-- A story stays proper when its play starts. -/
theorem proper_started (h : s.Proper) : s.started.Proper := proper_withState h fun _ hst => hst

/-! ## Unknown fields -/

theorem unknown_withState {p : Json → Prop} (h : ∀ v ∈ s.unknownValues, p v)
    {f : PlayState → PlayState} (hf : ∀ st, (f st).extra = st.extra) :
    ∀ v ∈ (s.withState f).unknownValues, p v := by
  rw [forall_unknownValues] at h ⊢
  obtain ⟨hextra, hmetadata, hstate, hrest⟩ := h
  refine ⟨hextra, hmetadata, ?_, hrest⟩
  intro v hv
  apply hstate v
  have hv : v ∈ (f s.stateOrEmpty).extra.values := hv
  rw [hf, stateOrEmpty] at hv
  cases hs : s.state with
  | value st =>
    rw [hs] at hv
    exact hv
  | absent =>
    rw [hs] at hv
    cases hv
  | null =>
    rw [hs] at hv
    cases hv

theorem unknown_modifySection {p : Json → Prop} (h : ∀ v ∈ s.unknownValues, p v) (id : String)
    {f : Section → Section}
    (hf : ∀ x, ∀ v ∈ (f x).unknownValues, v ∈ x.unknownValues) :
    ∀ v ∈ (s.modifySection id f).unknownValues, p v := by
  rw [forall_unknownValues] at h ⊢
  obtain ⟨hextra, hmetadata, hstate, hsections, hdefinitions⟩ := h
  refine ⟨hextra, hmetadata, hstate, ?_, hdefinitions⟩
  intro v hv
  apply hsections v
  simp only [Codec.table, Table.values, List.flatMap_map, List.mem_flatMap] at hv ⊢
  obtain ⟨e, he, hv⟩ := hv
  rcases Table.mem_modify he with he | ⟨x, hx, rfl⟩
  · exact ⟨e, he, hv⟩
  · exact ⟨_, hx, hf x v hv⟩

theorem unknown_withNext (x : Section) {next : Field (List Choice)}
    (hnext : ∀ v ∈ next.collect choiceCodec.list.unknown,
      v ∈ x.next.collect choiceCodec.list.unknown) :
    ∀ v ∈ ({ x with next := next } : Section).unknownValues, v ∈ x.unknownValues := by
  intro v hv
  simp only [Section.unknownValues, List.mem_append] at hv ⊢
  rcases hv with (((hv | hv) | hv) | hv) | hv
  · exact .inl (.inl (.inl (.inl hv)))
  · exact .inl (.inl (.inl (.inr hv)))
  · exact .inl (.inl (.inr (hnext v hv)))
  · exact .inl (.inr hv)
  · exact .inr hv

theorem unknown_addChoice (target label : String) (x : Section) :
    ∀ v ∈ (x.addChoice target label).unknownValues, v ∈ x.unknownValues := by
  apply unknown_withNext x
  have hchoices : x.next.collect choiceCodec.list.unknown = choiceCodec.list.unknown x.choices := by
    unfold Section.choices
    cases x.next <;> rfl
  intro v hv
  rw [hchoices]
  simp only [Field.collect, Field.get?, Option.elim] at hv
  split at hv
  · exact hv
  · simpa [Codec.list, choiceCodec, Choice.added, Table.values] using hv

theorem unknown_removeChoice (target : String) (x : Section) :
    ∀ v ∈ (x.removeChoice target).unknownValues, v ∈ x.unknownValues := by
  apply unknown_withNext x
  intro v hv
  cases hx : x.next with
  | value cs =>
    rw [hx] at hv
    obtain ⟨c, hc, hv⟩ := List.mem_flatMap.1 hv
    exact List.mem_flatMap.2 ⟨c, List.mem_of_mem_eraseP hc, hv⟩
  | absent =>
    rw [hx] at hv
    cases hv
  | null =>
    rw [hx] at hv
    cases hv

/-- What holds of every unknown field goes on to hold. -/
theorem invariant_unknown (p : Json → Prop) : Invariant fun s => ∀ v ∈ s.unknownValues, p v where
  setVariable h _ _ := unknown_withState h fun _ => rfl
  addChoice h id target label := unknown_modifySection h id (unknown_addChoice target label)
  removeChoice h id target := unknown_modifySection h id (unknown_removeChoice target)
  entered h _ _ _ := unknown_withState h fun _ => rfl
  popped h := unknown_withState h fun _ => rfl

theorem unknown_started {p : Json → Prop} (h : ∀ v ∈ s.unknownValues, p v) :
    ∀ v ∈ s.started.unknownValues, p v := unknown_withState h fun _ => rfl

/-! ## Stories in play -/

/-- The current section is there, and there is a history; no section has the empty id. -/
structure Playing (s : Story) : Prop where
  named : s.hasSection "" = false
  state : ∃ st id past, s.state = .value st ∧ st.currentSection = .value id ∧
    s.hasSection id = true ∧ st.history = .value past

theorem hasSection_modifySection (id : String) (f : Section → Section) (other : String) :
    (s.modifySection id f).hasSection other = s.hasSection other := by
  have hkeys : other ∈ Table.keys (s.modifySection id f).sections ↔ other ∈ Table.keys s.sections := by
    rw [modifySection, Table.keys_modify]
  rw [← Table.has_iff, ← Table.has_iff] at hkeys
  exact Bool.eq_iff_iff.2 hkeys

/-- A change of the state that keeps the current section and the history. -/
theorem playing_withState (h : s.Playing) {f : PlayState → PlayState}
    (hcurrent : ∀ st, (f st).currentSection = st.currentSection)
    (hhistory : ∀ st past, st.history = .value past → ∃ past, (f st).history = .value past) :
    (s.withState f).Playing := by
  obtain ⟨hnamed, st, id, past, hst, hid, hhas, hpast⟩ := h
  have hvalue : s.stateOrEmpty = st := by rw [stateOrEmpty, hst]; rfl
  obtain ⟨after, hafter⟩ := hhistory st past hpast
  refine ⟨hnamed, f st, id, after, ?_, by rw [hcurrent, hid], hhas, hafter⟩
  rw [withState, hvalue]

theorem playing_modifySection (h : s.Playing) (id : String) (f : Section → Section) :
    (s.modifySection id f).Playing := by
  obtain ⟨hnamed, st, current, past, hst, hid, hhas, hpast⟩ := h
  refine ⟨?_, st, current, past, hst, hid, ?_, hpast⟩
  · rw [hasSection_modifySection]
    exact hnamed
  · rw [hasSection_modifySection]
    exact hhas

theorem invariant_playing : Invariant Playing where
  setVariable h _ _ := playing_withState h (fun _ => rfl) fun _ past hpast => ⟨past, hpast⟩
  addChoice h id _ _ := playing_modifySection h id _
  removeChoice h id _ := playing_modifySection h id _
  entered h id hid _ := ⟨h.named, _, id, _, rfl, rfl, hid, rfl⟩
  popped h := by
    refine playing_withState h (fun _ => rfl) ?_
    intro st past hpast
    exact ⟨past.dropLast, by rw [hpast]; rfl⟩

/-- The start of its play leaves a story in play as it is. -/
theorem Playing.started_eq (h : s.Playing) : s.started = s := by
  obtain ⟨hnamed, st, id, past, hst, hid, hhas, hpast⟩ := h
  have hne : id.isEmpty = false := by
    rw [Bool.eq_false_iff, ne_eq, String.isEmpty_iff]
    rintro rfl
    rw [hnamed] at hhas
    cases hhas
  obtain ⟨metadata, state, sections, definitions, extra⟩ := s
  obtain ⟨current, values, history, stExtra⟩ := st
  dsimp only at hst hid hpast
  subst hst hid hpast
  simp only [started, withState, stateOrEmpty, Field.get?, Option.getD_some, Option.filter_some, hne,
    hhas, Bool.not_false, Bool.and_self, if_true]

/-- A story with sections starts its play at one of them. -/
theorem current_started (hsections : s.sections ≠ []) :
    ∃ id, s.started.stateOrEmpty.currentSection = .value id ∧ s.hasSection id = true := by
  have hfirst : ∃ id, s.firstId? = some id ∧ s.hasSection id = true := by
    unfold firstId? ids
    cases hs : s.sections with
    | nil => exact absurd hs hsections
    | cons e t =>
      refine ⟨e.1, rfl, ?_⟩
      rw [hasSection, hs, Table.has_iff]
      exact List.mem_cons_self
  obtain ⟨first, hfirst, hhas⟩ := hfirst
  simp only [started, withState, stateOrEmpty, Field.get?, Option.getD_some, hfirst]
  split
  · rename_i saved hsaved
    obtain ⟨hget, htest⟩ := Option.filter_eq_some_iff.1 hsaved
    rw [Bool.and_eq_true] at htest
    refine ⟨saved, ?_, htest.2⟩
    revert hget
    generalize PlayState.currentSection _ = current
    intro hget
    cases current with
    | value id =>
      cases hget
      rfl
    | absent => cases hget
    | null => cases hget
  · exact ⟨first, rfl, hhas⟩

theorem playing_started (hsections : s.sections ≠ []) (hnamed : s.hasSection "" = false) :
    s.started.Playing := by
  obtain ⟨id, hid, hhas⟩ := current_started hsections
  exact ⟨hnamed, _, id, _, rfl, hid, hhas, rfl⟩

/-! ## Settled stories -/

theorem stateOrEmpty_settled (s : Story) : s.settled.stateOrEmpty = s.stateOrEmpty.settled := by
  unfold stateOrEmpty settled
  cases s.state <;> rfl

theorem currentId?_settled (s : Story) : s.settled.currentId? = s.currentId? := by
  unfold currentId?
  rw [stateOrEmpty_settled]
  rfl

theorem recast_settled : Section.Recast Section.settled Choice.settled where
  next _ _ := rfl
  label _ := rfl
  target _ := rfl
  added _ _ := rfl

theorem section?_settled (s : Story) (id : String) :
    s.settled.section? id = (s.section? id).map Section.settled := section?_of_mapValues rfl id

theorem hasSection_settled (s : Story) (id : String) : s.settled.hasSection id = s.hasSection id :=
  hasSection_of_mapValues (f := Section.settled) rfl id

theorem currentSection?_settled (s : Story) :
    s.settled.currentSection? = s.currentSection?.map Section.settled :=
  currentSection?_of_mapValues rfl s.currentId?_settled

theorem currentChoices_settled (s : Story) :
    s.settled.currentChoices = s.currentChoices.map Choice.settled :=
  currentChoices_of_mapValues rfl recast_settled s.currentId?_settled

theorem linesOf_settled (s : Story) (id : String) : s.settled.linesOf id = s.linesOf id := by
  unfold linesOf
  rw [section?_settled, Option.map_map]
  congr 1
  funext x
  have hscript : x.settled.script.get?.getD [] = (x.script.get?.getD []).map Action.settled := by
    unfold Section.settled
    cases x.script <;> rfl
  rw [Function.comp_apply, hscript, List.map_map]
  rfl

theorem withState_settled (s : Story) {f g : PlayState → PlayState}
    (hfg : ∀ st, (f st).settled = g st.settled) :
    (s.withState f).settled = s.settled.withState g := by
  unfold withState
  rw [stateOrEmpty_settled, ← hfg]
  rfl

theorem modifySection_settled (s : Story) (id : String) {f : Section → Section}
    (hf : ∀ x, (f x).settled = f x.settled) :
    (s.modifySection id f).settled = s.settled.modifySection id f := by
  unfold modifySection settled
  simp only [Story.mk.injEq, true_and, and_true]
  exact Table.mapValues_modify s.sections id hf

/-- A story that was written and loaded plays as the story that was written. -/
theorem settled_simulation : Simulation fun s t => t = s.settled where
  values := by
    rintro s t rfl
    unfold variableValues
    rw [stateOrEmpty_settled]
    rfl
  currentId := by
    rintro s t rfl
    exact s.currentId?_settled.symm
  hasSection := by
    rintro s t rfl id
    exact (hasSection_settled s id).symm
  lines := by
    rintro s t rfl id
    exact (linesOf_settled s id).symm
  targets := by
    rintro s t rfl
    unfold currentTargets
    rw [currentChoices_settled, List.map_map]
    rfl
  history := by
    rintro s t rfl
    unfold history
    rw [stateOrEmpty_settled]
    rfl
  setVariable := by
    rintro s t rfl name value
    refine (withState_settled s fun st => ?_).symm
    rfl
  addChoice := by
    rintro s t rfl id target label
    exact (modifySection_settled s id (recast_settled.addChoice target label)).symm
  removeChoice := by
    rintro s t rfl id target
    exact (modifySection_settled s id (recast_settled.removeChoice target)).symm
  entered := by
    rintro s t rfl id _ remember
    refine (withState_settled s fun st => ?_).symm
    rfl
  popped := by
    rintro s t rfl
    refine (withState_settled s fun st => ?_).symm
    rfl

/-- Writing and loading a story, then starting it, is the same the other way round. -/
theorem started_settled (s : Story) : s.settled.started = s.started.settled := by
  have hids : s.settled.firstId? = s.firstId? :=
    congrArg List.head? (ids_of_mapValues (f := Section.settled) rfl)
  unfold started
  refine (withState_settled s fun st => ?_).symm
  rw [hids]
  simp only [hasSection_settled]
  rfl

end Gamebook.Story
