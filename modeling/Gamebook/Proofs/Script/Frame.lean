import Gamebook.Proofs.Script.Effect
import Gamebook.Proofs.Table

/-!
# What a script leaves alone

Whatever its lines are, and wherever it ends, a script touches two places of a story only: the values of
the variables that its lines set, and the choices of the current section.

* `Line.assigned`, `Line.additions` : the variables that a line may set, and the choices it may add.
* `Section.Regrown`                 : a section with other choices, and else as it was.
* `Story.Framed`                    : a story that differs from another in these two places only.
* `Framed.of_effect`, `Framed.trans` : one instruction, and one line after another.
* `runLines_framed`                 : a script, completed or interrupted.
-/

set_option autoImplicit false

namespace Gamebook

namespace Line

/-- The variables that a line may set, by instructions at any depth; one that cannot be read sets none. -/
def assigned (line : Line) : List String := line.instruction?.elim [] Instruction.assigned

/-- The target and the label of each choice that a line may add; one that cannot be read adds none. -/
def additions (line : Line) : List (String × String) := line.instruction?.elim [] Instruction.additions

end Line

/-! ## Choices -/

/-- Choices made from former ones: what is kept of these stands in front, unaltered and in its order, and
behind it stand choices of the given targets and labels, in their order. -/
def Regrown (additions : List (String × String)) (former choices : List Choice) : Prop :=
  ∃ (kept : List Choice) (grown : List (String × String)),
    choices = kept ++ grown.map (fun a => .added a.1 a.2) ∧ kept.Sublist former ∧
      grown.Sublist additions

namespace Regrown

variable {additions more : List (String × String)} {former choices later : List Choice}

theorem refl (additions : List (String × String)) (choices : List Choice) :
    Regrown additions choices choices :=
  ⟨choices, [], (List.append_nil _).symm, List.Sublist.refl _, List.nil_sublist _⟩

/-- A choice that is removed is one that was kept, or one that had grown. -/
theorem eraseP (h : Regrown additions former choices) (p : Choice → Bool) :
    Regrown additions former (choices.eraseP p) := by
  obtain ⟨kept, grown, rfl, hkept, hgrown⟩ := h
  by_cases hp : ∃ c ∈ kept, p c = true
  · obtain ⟨c, hc, hpc⟩ := hp
    exact ⟨kept.eraseP p, grown, List.eraseP_append_left hpc _ hc,
      (List.eraseP_sublist).trans hkept, hgrown⟩
  · have hnone : ∀ c ∈ kept, ¬ p c = true := fun c hc hpc => hp ⟨c, hc, hpc⟩
    refine ⟨kept, grown.eraseP fun a => p (.added a.1 a.2), ?_, hkept,
      List.eraseP_sublist.trans hgrown⟩
    rw [List.eraseP_append_right _ hnone, List.eraseP_map]
    rfl

/-- One more choice grows at the end. -/
theorem concat (h : Regrown additions former choices) (target label : String) :
    Regrown (additions ++ [(target, label)]) former (choices ++ [.added target label]) := by
  obtain ⟨kept, grown, rfl, hkept, hgrown⟩ := h
  refine ⟨kept, grown ++ [(target, label)], ?_, hkept, hgrown.append (List.Sublist.refl _)⟩
  rw [List.map_append, List.append_assoc]
  rfl

theorem mono (h : Regrown additions former choices) (hsub : additions.Sublist more) :
    Regrown more former choices := by
  obtain ⟨kept, grown, hchoices, hkept, hgrown⟩ := h
  exact ⟨kept, grown, hchoices, hkept, hgrown.trans hsub⟩

/-- What grows later stands behind what grew before. -/
theorem trans (h : Regrown additions former choices) (h' : Regrown more choices later) :
    Regrown (additions ++ more) former later := by
  obtain ⟨kept, grown, rfl, hkept, hgrown⟩ := h
  obtain ⟨rest, new, rfl, hrest, hnew⟩ := h'
  obtain ⟨front, back, rfl, hfront, hback⟩ := List.sublist_append_iff.1 hrest
  obtain ⟨still, hstill, rfl⟩ := List.sublist_map_iff.1 hback
  refine ⟨front, still ++ new, ?_, hfront.trans hkept, (hstill.trans hgrown).append hnew⟩
  rw [List.map_append, List.append_assoc]

end Regrown

/-- A section with other choices, made from its own and from those of the given targets and labels, and
else as it was. -/
structure Section.Regrown (additions : List (String × String)) (x y : Section) : Prop where
  rest : y = { x with next := y.next }
  choices : Gamebook.Regrown additions x.choices y.choices

namespace Section.Regrown

variable {additions more : List (String × String)} {x y z : Section}

theorem refl (additions : List (String × String)) (x : Section) : x.Regrown additions x :=
  ⟨rfl, .refl _ _⟩

theorem trans (h : x.Regrown additions y) (h' : y.Regrown more z) : x.Regrown (additions ++ more) z := by
  refine ⟨?_, h.choices.trans h'.choices⟩
  rw [h'.rest, h.rest]

theorem addChoice (x : Section) (target label : String) :
    x.Regrown [(target, label)] (x.addChoice target label) := by
  refine ⟨rfl, ?_⟩
  rw [choices_of_added]
  split
  · exact .refl _ _
  · exact (Gamebook.Regrown.refl [] x.choices).concat target label

theorem removeChoice (x : Section) (target : String) : x.Regrown [] (x.removeChoice target) := by
  refine ⟨rfl, ?_⟩
  rw [choices_of_removed]
  exact (Gamebook.Regrown.refl [] x.choices).eraseP _

end Section.Regrown

/-! ## Stories -/

/-- A story that differs from another in the values of some variables and in the choices of the current
section, and in nothing else. -/
structure Story.Framed (assigned : List String) (additions : List (String × String)) (s t : Story) :
    Prop where
  metadata : t.metadata = s.metadata
  definitions : t.definitions = s.definitions
  extra : t.extra = s.extra
  /-- The state has other values at most: the current section, the history and all else stay. -/
  state : t.state = s.state ∨
    ∃ values, t.state = .value { s.stateOrEmpty with values := .value values }
  values : ∀ name, name ∉ assigned → t.variableValues.get? name = s.variableValues.get? name
  ids : t.ids = s.ids
  others : ∀ id, s.currentId? ≠ some id → t.section? id = s.section? id
  current : ∀ id x, s.currentId? = some id → s.section? id = some x →
    ∃ y, t.section? id = some y ∧ x.Regrown additions y

namespace Story.Framed

variable {assigned names : List String} {additions more : List (String × String)} {s t u : Story}

theorem refl (assigned : List String) (additions : List (String × String)) (s : Story) :
    s.Framed assigned additions s where
  metadata := rfl
  definitions := rfl
  extra := rfl
  state := .inl rfl
  values _ _ := rfl
  ids := rfl
  others _ _ := rfl
  current _ x _ hx := ⟨x, hx, .refl _ x⟩

/-- The state is the former one, whether or not it was written down before, with other values. -/
theorem stateOrEmpty (h : s.Framed assigned additions t) :
    ∃ values, t.stateOrEmpty = { s.stateOrEmpty with values := values } := by
  obtain hsame | ⟨values, hvalues⟩ := h.state
  · refine ⟨s.stateOrEmpty.values, ?_⟩
    unfold Story.stateOrEmpty
    rw [hsame]
  · refine ⟨.value values, ?_⟩
    conv_lhs => unfold Story.stateOrEmpty
    rw [hvalues]
    rfl

theorem currentId? (h : s.Framed assigned additions t) : t.currentId? = s.currentId? := by
  obtain ⟨values, hstate⟩ := h.stateOrEmpty
  unfold Story.currentId?
  rw [hstate]

theorem trans (h : s.Framed assigned additions t) (h' : t.Framed names more u) :
    s.Framed (assigned ++ names) (additions ++ more) u where
  metadata := h'.metadata.trans h.metadata
  definitions := h'.definitions.trans h.definitions
  extra := h'.extra.trans h.extra
  state := by
    obtain hsame | ⟨values, hvalues⟩ := h'.state
    · rw [hsame]
      exact h.state
    · obtain ⟨former, hformer⟩ := h.stateOrEmpty
      rw [hformer] at hvalues
      exact .inr ⟨values, hvalues⟩
  values name hname := by
    rw [List.mem_append, not_or] at hname
    rw [h'.values name hname.2, h.values name hname.1]
  ids := h'.ids.trans h.ids
  others id hid := by
    rw [h'.others id (by rwa [h.currentId?]), h.others id hid]
  current id x hid hx := by
    obtain ⟨y, hy, hxy⟩ := h.current id x hid hx
    obtain ⟨z, hz, hyz⟩ := h'.current id y (by rwa [h.currentId?]) hy
    exact ⟨z, hz, hxy.trans hyz⟩

theorem setVariable (s : Story) {name : String} (hname : name ∈ assigned) (value : String)
    (additions : List (String × String)) : s.Framed assigned additions (s.setVariable name value) where
  metadata := rfl
  definitions := rfl
  extra := rfl
  state := .inr ⟨_, rfl⟩
  values other hother := by
    have hne : other ≠ name := fun heq => hother (heq ▸ hname)
    change Table.get? (Table.put s.variableValues name value) other = _
    rw [Table.get?_put, if_neg hne]
  ids := rfl
  others _ _ := rfl
  current _ x _ hx := ⟨x, hx, .refl _ x⟩

/-- A change of the current section that leaves it with other choices at most. -/
theorem modifySection {id : String} (hid : s.currentForChoices = .ok id) {f : Section → Section}
    (hf : ∀ x : Section, x.Regrown additions (f x)) (assigned : List String) :
    s.Framed assigned additions (s.modifySection id f) where
  metadata := rfl
  definitions := rfl
  extra := rfl
  state := .inl rfl
  values _ _ := rfl
  ids := Table.keys_modify ..
  others other hother := by
    have hne : other ≠ id := by
      rintro rfl
      apply hother
      unfold currentForChoices at hid
      cases hcurrent : s.currentId? with
      | none =>
        rw [hcurrent] at hid
        cases hid
      | some current =>
        rw [hcurrent] at hid
        dsimp only at hid
        split at hid
        · cases hid
        · split at hid
          · exact congrArg some (Except.ok.inj hid)
          · cases hid
    change Table.get? (Table.modify s.sections id f) other = _
    rw [Table.get?_modify, if_neg hne]
    rfl
  current other x _ hx := by
    change ∃ y, Table.get? (Table.modify s.sections id f) other = some y ∧ _
    rw [Table.get?_modify]
    have hx : Table.get? s.sections other = some x := hx
    rw [hx]
    split
    · exact ⟨f x, rfl, hf x⟩
    · exact ⟨x, rfl, .refl _ x⟩

/-- An instruction adds one choice at most. -/
theorem additions_eq {i : Instruction String} {choice : String × String} (h : choice ∈ i.additions) :
    i.additions = [choice] := by
  induction i with
  | addChoice target label => exact (List.mem_singleton.1 h) ▸ rfl
  | ifSetAddChoice name target label => exact (List.mem_singleton.1 h) ▸ rfl
  | compareDo name operator target guarded ih => exact ih h
  | ifSetDo name guarded ih => exact ih h
  | ifNotSetDo name guarded ih => exact ih h
  | _ => cases h

/-- An instruction changes what it names only. -/
theorem of_effect {i : Instruction String} (h : i.Effect s t) : s.Framed i.assigned i.additions t := by
  cases h with
  | kept => exact .refl _ _ s
  | set hname value => exact .setVariable s hname value _
  | @added id target label hid hadded =>
    rw [additions_eq hadded]
    exact .modifySection hid (fun x => .addChoice x target label) _
  | removed hid target =>
    refine .modifySection hid (fun x => ⟨rfl, ?_⟩) _
    exact (Section.Regrown.removeChoice x target).choices.mono (List.nil_sublist _)

end Story.Framed

/-! ## Scripts -/

section Running

variable {σ : Type} (prompter : Option (Prompter σ))

theorem line_framed (index : Nat) (line : Line) (scene : Scene σ) :
    scene.story.Framed line.assigned line.additions (line.run prompter index scene).1.story := by
  obtain hsame | ⟨i, hi, heffect⟩ := line_effect prompter index line scene
  · rw [hsame]
    exact .refl _ _ _
  · have hframed := Story.Framed.of_effect heffect
    unfold Line.assigned Line.additions
    rw [hi]
    exact hframed

/-- A script, completed or interrupted, leaves everything alone but the variables that its lines set and
the choices of the current section; of these some are left, in their order, and behind them stand choices
that its lines add, in the order of the lines. -/
theorem runLines_framed (lines : List Line) (index : Nat) (scene : Scene σ) :
    scene.story.Framed (lines.flatMap Line.assigned) (lines.flatMap Line.additions)
      (runLines prompter index lines scene).1.story := by
  induction lines generalizing index scene with
  | nil => exact .refl _ _ _
  | cons line rest ih =>
    have hline := line_framed prompter index line scene
    unfold runLines
    revert hline
    generalize line.run prompter index scene = x
    obtain ⟨after, ended⟩ := x
    intro hline
    cases ended with
    | none => exact hline.trans (ih (index + 1) after)
    | some interruption =>
      -- the lines behind the interruption are not run, and frame the story as it is
      exact hline.trans (.refl _ _ after.story)

end Running

end Gamebook
