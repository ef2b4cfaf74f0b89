import Gamebook.Proofs.Script.Deed

/-!
# Skipped lines

A line that is skipped is noted once, under its index, and does nothing else; what was noted before is
never read.  So a skipped line may as well be taken out of its script.

* `line_skips_or_keeps`     : a line is noted and does nothing else, or leaves the notes alone.
* `Scene.behind`            : a scene with more noted before it, its own notes further down.
* `runLines_behind`         : what lines do depends neither on their first index nor on former notes.
* `runLines_append`         : lines run one part after the other.
* `closeUp`                 : the notes of a script from which a line is taken out.
* `runLines_skipped`        : what a script notes, and the script without a skipped line.
-/

set_option autoImplicit false

namespace Gamebook

variable {σ : Type}

/-! ## One line -/

section Lines

variable (prompter : Option (Prompter σ)) (index : Nat)

/-- A deed is skipped and does nothing else, or leaves the notes alone. -/
theorem perform_skips_or_keeps (tag : String) (d : Deed) (scene : Scene σ) :
    (∃ reason, d.perform prompter index tag scene = (scene.skip index tag reason, none)) ∨
      (d.perform prompter index tag scene).1.skipped = scene.skipped := by
  cases d with
  | nothing | interrupted | write => exact .inr rfl
  | skip reason => exact .inl ⟨reason, rfl⟩
  | ask name message =>
    unfold Deed.perform askFor
    cases prompter with
    | none => exact .inl ⟨.noPrompt, rfl⟩
    | some p =>
      dsimp only
      cases (p.ask message scene.desk).1 <;> exact .inr rfl
  | addChoice | removeChoice =>
    unfold Deed.perform changeChoices
    cases scene.story.currentForChoices with
    | ok id => exact .inr rfl
    | error reason => exact .inl ⟨reason, rfl⟩

/-- A line is skipped and does nothing else, or leaves the notes alone. -/
theorem line_skips_or_keeps (line : Line) (scene : Scene σ) :
    (∃ reason, line.run prompter index scene = (scene.skip index line.tag.spoken reason, none)) ∨
      (line.run prompter index scene).1.skipped = scene.skipped := by
  rw [line.run_eq_perform]
  exact perform_skips_or_keeps prompter index line.tag.spoken _ scene

theorem line_run_of_unparsed {line : Line} {parameters : List String} {e : InvalidAction}
    (hparameters : line.parameters = .ok parameters) (he : line.parse parameters = .error e)
    (scene : Scene σ) :
    line.run prompter index scene = (scene.skip index line.tag.spoken (.unparsed e), none) := by
  unfold Line.run
  rw [hparameters]
  dsimp only
  rw [he]

/-! ## Former notes -/

/-- The note of a line that stands further down. -/
def Skip.shift (n : Nat) (e : Skip) : Skip := { e with index := n + e.index }

/-- A scene with more noted before it, and its own notes further down. -/
def Scene.behind (former : List Skip) (n : Nat) (scene : Scene σ) : Scene σ :=
  { scene with skipped := former ++ scene.skipped.map (Skip.shift n) }

/-- A scene in which nothing is noted. -/
def Scene.unnoted (scene : Scene σ) : Scene σ := { scene with skipped := [] }

theorem behind_unnoted (n : Nat) (scene : Scene σ) : scene.unnoted.behind scene.skipped n = scene := by
  unfold Scene.behind Scene.unnoted
  dsimp only
  rw [List.map_nil, List.append_nil]

variable (former : List Skip) (n : Nat)

/-- An outcome with more noted before it. -/
def Outcome.behind (x : Outcome σ) : Outcome σ := (x.1.behind former n, x.2)

theorem skip_behind (tag : String) (reason : SkipReason) (scene : Scene σ) :
    (scene.behind former n).skip (n + index) tag reason =
      (scene.skip index tag reason).behind former n := by
  unfold Scene.behind Scene.skip
  simp only [List.map_append, List.append_assoc]
  rfl

theorem perform_behind (tag : String) (d : Deed) (scene : Scene σ) :
    d.perform prompter (n + index) tag (scene.behind former n) =
      Outcome.behind former n (d.perform prompter index tag scene) := by
  cases d with
  | nothing | interrupted | write => rfl
  | skip reason => exact Prod.ext (skip_behind index former n tag reason scene) rfl
  | ask name message =>
    unfold Deed.perform askFor
    cases prompter with
    | none => exact Prod.ext (skip_behind index former n tag _ scene) rfl
    | some p =>
      have hdesk : (scene.behind former n).desk = scene.desk := rfl
      dsimp only
      rw [hdesk]
      cases (p.ask message scene.desk).1 <;> rfl
  | addChoice | removeChoice =>
    unfold Deed.perform changeChoices
    have hstory : (scene.behind former n).story = scene.story := rfl
    rw [hstory]
    cases scene.story.currentForChoices with
    | ok id => rfl
    | error reason => exact Prod.ext (skip_behind index former n tag reason scene) rfl

theorem line_behind (line : Line) (scene : Scene σ) :
    line.run prompter (n + index) (scene.behind former n) =
      Outcome.behind former n (line.run prompter index scene) := by
  rw [line.run_eq_perform, line.run_eq_perform]
  exact perform_behind prompter index former n line.tag.spoken _ scene

/-- What lines do depends neither on their first index nor on what was noted before. -/
theorem runLines_behind (lines : List Line) (scene : Scene σ) :
    runLines prompter (n + index) lines (scene.behind former n) =
      Outcome.behind former n (runLines prompter index lines scene) := by
  induction lines generalizing index scene with
  | nil => rfl
  | cons line rest ih =>
    unfold runLines
    rw [line_behind]
    rcases line.run prompter index scene with ⟨after, _ | interruption⟩
    · exact ih (index + 1) after
    · rfl

/-! ## Lines one after another -/

/-- Lines run to their end are run one part after the other. -/
theorem runLines_append (first second : List Line) (scene : Scene σ) :
    runLines prompter index (first ++ second) scene =
      match runLines prompter index first scene with
      | (next, none) => runLines prompter (index + first.length) second next
      | (next, some interruption) => (next, some interruption) := by
  induction first generalizing index scene with
  | nil => rfl
  | cons line rest ih =>
    rw [List.cons_append, runLines, runLines]
    rcases line.run prompter index scene with ⟨next, _ | interruption⟩
    · dsimp only
      rw [ih, List.length_cons, Nat.add_right_comm, Nat.add_assoc]
    · rfl

/-! ## Notes -/

/-- Notes of lines, the first of them with the given index: at most one for each line, in their order,
with the index and the tag of the line. -/
structure Notes (index : Nat) (lines : List Line) (noted : List Skip) : Prop where
  increasing : noted.Pairwise fun e f => e.index < f.index
  lines : ∀ e ∈ noted, ∃ k line, lines[k]? = some line ∧ e.index = index + k ∧ e.tag = line.tag.spoken

namespace Notes

variable {index} {lines rest : List Line} {noted : List Skip}

theorem nil (index : Nat) (lines : List Line) : Notes index lines [] := ⟨.nil, List.forall_mem_nil _⟩

theorem le_index (h : Notes index lines noted) {e : Skip} (he : e ∈ noted) : index ≤ e.index := by
  obtain ⟨k, _, -, hk, -⟩ := h.lines e he
  omega

theorem index_lt (h : Notes index lines noted) {e : Skip} (he : e ∈ noted) :
    e.index < index + lines.length := by
  obtain ⟨k, line, hline, hk, -⟩ := h.lines e he
  have hlt := (List.getElem?_eq_some_iff.1 hline).1
  omega

theorem cons_line (h : Notes (index + 1) rest noted) (line : Line) : Notes index (line :: rest) noted := by
  refine ⟨h.increasing, fun e he => ?_⟩
  obtain ⟨k, other, hother, hk, htag⟩ := h.lines e he
  exact ⟨k + 1, other, hother, by omega, htag⟩

theorem cons_note (h : Notes (index + 1) rest noted) (line : Line) (reason : SkipReason) :
    Notes index (line :: rest) (⟨index, line.tag.spoken, reason⟩ :: noted) := by
  refine ⟨List.pairwise_cons.2 ⟨fun e he => h.le_index he, h.increasing⟩, ?_⟩
  rw [List.forall_mem_cons]
  exact ⟨⟨0, line, rfl, rfl, rfl⟩, (h.cons_line line).lines⟩

end Notes

/-- What lines note stands behind what was noted before. -/
theorem runLines_notes (lines : List Line) (scene : Scene σ) :
    ∃ noted, (runLines prompter index lines scene).1.skipped = scene.skipped ++ noted ∧
      Notes index lines noted := by
  induction lines generalizing index scene with
  | nil => exact ⟨[], (List.append_nil _).symm, .nil _ _⟩
  | cons line rest ih =>
    unfold runLines
    obtain ⟨reason, hskip⟩ | hkeep := line_skips_or_keeps prompter index line scene
    · rw [hskip]
      obtain ⟨noted, hnoted, hnotes⟩ := ih (index + 1) (scene.skip index line.tag.spoken reason)
      refine ⟨_, ?_, hnotes.cons_note line reason⟩
      rw [hnoted, Scene.skip, List.append_assoc]
      rfl
    · revert hkeep
      rcases line.run prompter index scene with ⟨after, _ | interruption⟩
      · intro hkeep
        obtain ⟨noted, hnoted, hnotes⟩ := ih (index + 1) after
        exact ⟨noted, by rw [hnoted, hkeep], hnotes.cons_line line⟩
      · intro hkeep
        exact ⟨[], by rw [List.append_nil]; exact hkeep, .nil _ _⟩

end Lines

/-! ## A line taken out -/

/-- The notes of a script from which the line of an index is taken out. -/
def closeUp (index : Nat) (noted : List Skip) : List Skip :=
  (noted.filter fun e => e.index ≠ index).map fun e =>
    if index < e.index then { e with index := e.index - 1 } else e

/-- In front of a line that was noted the notes stay, behind it they move up. -/
theorem closeUp_middle {index : Nat} {before after : List Skip} (hbefore : ∀ e ∈ before, e.index < index)
    {note : Skip} (hnote : note.index = index) :
    closeUp index (before ++ note :: after.map (Skip.shift (index + 1))) =
      before ++ after.map (Skip.shift index) := by
  have hfront : closeUp index before = before := by
    unfold closeUp
    rw [List.filter_eq_self.2 fun e he => decide_eq_true (Nat.ne_of_lt (hbefore e he))]
    refine (List.map_congr_left fun e he => ?_).trans (List.map_id _)
    exact if_neg (Nat.not_lt_of_gt (hbefore e he))
  have hback : closeUp index (after.map (Skip.shift (index + 1))) = after.map (Skip.shift index) := by
    unfold closeUp
    rw [List.filter_eq_self.2, List.map_map]
    · refine List.map_congr_left fun e _ => ?_
      have hlt : index < index + 1 + e.index := by omega
      have hsub : index + 1 + e.index - 1 = index + e.index := by omega
      simp only [Function.comp_apply, Skip.shift, if_pos hlt, hsub]
    · rw [List.forall_mem_map]
      exact fun e _ => decide_eq_true (show index + 1 + e.index ≠ index by omega)
  have hnone : closeUp index [note] = [] := by simp [closeUp, hnote]
  have happend (x y : List Skip) : closeUp index (x ++ y) = closeUp index x ++ closeUp index y := by
    simp only [closeUp, List.filter_append, List.map_append]
  rw [List.append_cons, happend, happend, hfront, hnone, hback, List.append_nil]

section Scripts

variable (prompter : Option (Prompter σ))

/-- Lines run to their end run to each of them, through it, and on. -/
theorem runLines_at {pre post : List Line} {a : Line} {scene : Scene σ}
    (h : (runLines prompter 0 (pre ++ a :: post) scene).2 = none) :
    ∃ before, runLines prompter 0 pre scene = (before, none) ∧
      ∃ next, a.run prompter pre.length before = (next, none) ∧
        runLines prompter 0 (pre ++ a :: post) scene = runLines prompter (pre.length + 1) post next := by
  rw [runLines_append, Nat.zero_add] at h ⊢
  revert h
  rcases runLines prompter 0 pre scene with ⟨before, _ | interruption⟩
  · dsimp only
    rw [runLines]
    cases hrun : a.run prompter pre.length before with
    | mk next ended =>
      cases ended with
      | none => exact fun _ => ⟨before, rfl, next, hrun, rfl⟩
      | some interruption =>
        intro h
        cases h
  · intro h
    cases h

/-- Lines behind one that was skipped do what they do without it, and their notes stand one further
down. -/
theorem runLines_of_skip (index : Nat) (tag : String) (reason : SkipReason) (post : List Line)
    (before : Scene σ) :
    ∃ base : Outcome σ,
      runLines prompter index post before = Outcome.behind before.skipped index base ∧
        runLines prompter (index + 1) post (before.skip index tag reason) =
          Outcome.behind (before.skipped ++ [⟨index, tag, reason⟩]) (index + 1) base := by
  refine ⟨runLines prompter 0 post before.unnoted, ?_, ?_⟩
  · rw [← runLines_behind, behind_unnoted]
    rfl
  · rw [← runLines_behind]
    unfold Scene.behind Scene.unnoted Scene.skip
    rw [List.map_nil, List.append_nil]

section Middle

variable {prompter} {pre post : List Line} {a : Line} {scene before next : Scene σ} {noted : List Skip}
  (hpre : runLines prompter 0 pre scene = (before, none))
  (hlines : runLines prompter 0 (pre ++ a :: post) scene = runLines prompter (pre.length + 1) post next)
  (hnoted : (runLines prompter 0 (pre ++ a :: post) scene).1.skipped = scene.skipped ++ noted)

include hpre hlines hnoted

/-- A line that is skipped is noted, and may be taken out. -/
theorem runLines_without {tag : String} {reason : SkipReason}
    (hnext : next = before.skip pre.length tag reason) :
    ⟨pre.length, tag, reason⟩ ∈ noted ∧
      runLines prompter 0 (pre ++ post) scene =
        ({ (runLines prompter 0 (pre ++ a :: post) scene).1 with
            skipped := scene.skipped ++ closeUp pre.length noted },
          (runLines prompter 0 (pre ++ a :: post) scene).2) := by
  obtain ⟨front, hfront, hnotes⟩ := runLines_notes prompter 0 pre scene
  obtain ⟨base, hwithout, hbase⟩ := runLines_of_skip prompter pre.length tag reason post before
  rw [hpre] at hfront
  rw [hnext, hbase] at hlines
  dsimp only at hfront
  have hsplit : noted = front ++ ⟨pre.length, tag, reason⟩ ::
      base.1.skipped.map (Skip.shift (pre.length + 1)) := by
    rw [hlines] at hnoted
    dsimp only [Outcome.behind, Scene.behind] at hnoted
    rw [hfront, List.append_assoc, List.append_assoc, List.append_cancel_left_eq] at hnoted
    exact hnoted.symm
  have hlt : ∀ e ∈ front, e.index < pre.length := fun e he => by
    have := hnotes.index_lt he
    omega
  refine ⟨hsplit ▸ List.mem_append_right _ List.mem_cons_self, ?_⟩
  rw [runLines_append, hpre]
  dsimp only
  rw [Nat.zero_add, hwithout, hlines, hsplit, closeUp_middle hlt rfl, hfront]
  unfold Outcome.behind Scene.behind
  rw [List.append_assoc]

/-- A line that leaves the notes alone is not noted. -/
theorem index_ne_of_keeps (hnext : next.skipped = before.skipped) :
    ∀ e ∈ noted, e.index ≠ pre.length := by
  obtain ⟨front, hfront, hfrontNotes⟩ := runLines_notes prompter 0 pre scene
  obtain ⟨back, hback, hbackNotes⟩ := runLines_notes prompter (pre.length + 1) post next
  rw [hpre] at hfront
  dsimp only at hfront
  rw [hlines, hback, hnext, hfront, List.append_assoc, List.append_cancel_left_eq] at hnoted
  subst hnoted
  intro e he
  rcases List.mem_append.1 he with he | he
  · have := hfrontNotes.index_lt he
    omega
  · have := hbackNotes.le_index he
    omega

end Middle

/-- What a script notes stands behind what was noted before: at most one note for each line, in the order
of the lines.  When the script runs to its end, each line that cannot be parsed is noted, and the script
without a line that is noted does and asks the same, and notes the same but for that line. -/
theorem runLines_skipped (lines : List Line) (scene : Scene σ) :
    ∃ noted, (runLines prompter 0 lines scene).1.skipped = scene.skipped ++ noted ∧
      Notes 0 lines noted ∧
      ((runLines prompter 0 lines scene).2 = none → ∀ pre a post, lines = pre ++ a :: post →
        (∀ parameters e, a.parameters = .ok parameters → a.parse parameters = .error e →
          ⟨pre.length, a.tag.spoken, .unparsed e⟩ ∈ noted) ∧
        ((∃ e ∈ noted, e.index = pre.length) →
          runLines prompter 0 (pre ++ post) scene =
            ({ (runLines prompter 0 lines scene).1 with
                skipped := scene.skipped ++ closeUp pre.length noted }, none))) := by
  obtain ⟨noted, hnoted, hnotes⟩ := runLines_notes prompter 0 lines scene
  refine ⟨noted, hnoted, hnotes, ?_⟩
  rintro hended pre a post rfl
  obtain ⟨before, hpre, next, ha, hlines⟩ := runLines_at prompter hended
  constructor
  · intro parameters e hparameters he
    have hskip := line_run_of_unparsed prompter pre.length hparameters he before
    rw [ha] at hskip
    exact (runLines_without hpre hlines hnoted (congrArg Prod.fst hskip)).1
  · rintro ⟨e, he, hindex⟩
    obtain ⟨reason, hskip⟩ | hkeep := line_skips_or_keeps prompter pre.length a before
    · rw [ha] at hskip
      have hwithout := (runLines_without hpre hlines hnoted (congrArg Prod.fst hskip)).2
      rw [hended] at hwithout
      exact hwithout
    · rw [ha] at hkeep
      exact absurd hindex (index_ne_of_keeps hpre hlines hnoted hkeep e he)

end Scripts

/-- A script with a question that nobody is there to answer. -/
def unansweredScript : List Line :=
  [.ofAction ⟨"SET", some ["x", "1"], []⟩, .ofAction ⟨"INPUT", some ["y", "Who?"], []⟩,
    .ofAction ⟨"ADD_CHOICE", some ["2", "On"], []⟩]

/-- The question is skipped, and so is the choice behind it, which has no current section to go to. -/
theorem runLines_skipped_unanswered :
    runLines (none : Option (Prompter Unit)) 0
        [.ofAction ⟨"SET", some ["x", "1"], []⟩, .ofAction ⟨"ADD_CHOICE", some ["2", "On"], []⟩]
        ⟨.fresh, (), [], []⟩ =
      ({ (runLines (none : Option (Prompter Unit)) 0 unansweredScript ⟨.fresh, (), [], []⟩).1 with
          skipped := [⟨1, "ADD_CHOICE", .noCurrentSection⟩] }, none) := by
  obtain ⟨noted, hnoted, -, hwithout⟩ :=
    runLines_skipped (none : Option (Prompter Unit)) unansweredScript ⟨.fresh, (), [], []⟩
  have hskips : noted = [⟨1, "INPUT", .noPrompt⟩, ⟨2, "ADD_CHOICE", .noCurrentSection⟩] :=
    hnoted.symm.trans (by decide +kernel)
  subst hskips
  exact (hwithout (by decide +kernel) [_] _ [_] rfl).2 ⟨_, List.mem_cons_self, rfl⟩

end Gamebook
