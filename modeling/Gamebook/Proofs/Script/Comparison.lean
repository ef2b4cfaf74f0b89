import Gamebook.Proofs.Number.Order
import Gamebook.Proofs.Script.Frame
import Gamebook.Proofs.Script.Skipped
import Mathlib.Logic.Basic

/-!
# How comparisons hang together

Equality and inequality compare the characters of two texts, the other operators the numbers that the texts
denote.  Authors rely on laws that cross the two: what is not less is greater or equal, and equal texts
are neither less nor greater.

* `IsRead`, `IsNumeric`   : a text that is not refused as a number, and one that denotes a number.
* `Comparison.Holds`, `Comparison.opposite` : an operator between two texts, and the one for its failing.
* `Comparison.Ordered`    : the laws of the order between texts that denote numbers.
* `Comparison.Coherent`   : the laws between all texts.
* `Outcome.andThen`       : one part of a script after another.
* `run_guard`             : a guarded line by what its comparison says.
* `comparison_coherent`   : the laws hold, and of two lines that guard the same instruction by opposite
  operators exactly one runs it.
-/

set_option autoImplicit false

namespace Gamebook

/-- A text that is not refused as a number. -/
def IsRead (text : String) : Prop := ∃ x, numberOfText text = .ok x

/-- A text that denotes a number, infinities included. -/
def IsNumeric (text : String) : Prop := ∃ x, numberOfText text = .ok x ∧ x ≠ .nan

instance (text : String) : Decidable (IsRead text) :=
  match h : numberOfText text with
  | .ok x => .isTrue ⟨x, h⟩
  | .error _ => .isFalse fun ⟨_, hx⟩ => nomatch h.symm.trans hx

instance (text : String) : Decidable (IsNumeric text) :=
  match h : numberOfText text with
  | .ok x =>
    if hx : x = .nan then .isFalse fun ⟨_, hy, hne⟩ => hne (Except.ok.inj (hy.symm.trans h) ▸ hx)
    else .isTrue ⟨x, h, hx⟩
  | .error _ => .isFalse fun ⟨_, hx, _⟩ => nomatch h.symm.trans hx

namespace Comparison

/-- The operator holds between two texts. -/
def Holds (c : Comparison) (a b : String) : Prop := c.holds (.str a) (.str b) = .ok true

/-- The operator that authors write for the branch where another does not hold. -/
def opposite : Comparison → Comparison
  | .equal => .notEqual
  | .notEqual => .equal
  | .less => .greaterEqual
  | .greaterEqual => .less
  | .greater => .lessEqual
  | .lessEqual => .greater

/-- The laws of the order between two texts, and of less or equal along three. -/
structure Ordered (a b c : String) : Prop where
  lessEqual_iff : lessEqual.Holds a b ↔ ¬ greater.Holds a b
  greaterEqual_iff : greaterEqual.Holds a b ↔ ¬ less.Holds a b
  less_iff : less.Holds a b ↔ greater.Holds b a
  total : lessEqual.Holds a b ∨ lessEqual.Holds b a
  trans : lessEqual.Holds a b → lessEqual.Holds b c → lessEqual.Holds a c
  of_equal : equal.Holds a b → lessEqual.Holds a b ∧ greaterEqual.Holds a b

/-- The laws of all operators between two texts, and of less or equal along three. -/
structure Coherent (a b c : String) : Prop where
  answered : ∀ op : Comparison, ∃ answer, op.holds (.str a) (.str b) = .ok answer
  equal_xor : Xor (equal.Holds a b) (notEqual.Holds a b)
  ordered : IsNumeric a → IsNumeric b → Ordered a b c
  unordered : ¬ (IsNumeric a ∧ IsNumeric b) →
    ∀ op ∈ [less, greater, lessEqual, greaterEqual], ¬ op.Holds a b

section Reading

variable {a b c : String} {x y z : Binary64}

theorem holds_equal_iff (a b : String) : equal.Holds a b ↔ a = b := by
  unfold Holds holds
  rw [Except.ok.injEq, beq_iff_eq]

theorem holds_notEqual_iff (a b : String) : notEqual.Holds a b ↔ a ≠ b := by
  unfold Holds holds
  rw [Except.ok.injEq, bne_iff_ne]
  rfl

/-- What an operator says of two texts, by the numbers that they denote. -/
theorem holds_of_read (ha : numberOfText a = .ok x) (hb : numberOfText b = .ok y) (op : Comparison) :
    op.holds (.str a) (.str b) = .ok (match op with
      | .equal => a == b
      | .notEqual => a != b
      | .less => x.lt y
      | .greater => y.lt x
      | .greaterEqual => y.le x
      | .lessEqual => x.le y) := by
  have hna : numberOf (.str a) = .ok x := ha
  have hnb : numberOf (.str b) = .ok y := hb
  cases op with
  | equal | notEqual => rfl
  | less | greater | greaterEqual | lessEqual =>
    unfold holds numerically
    rw [hna, hnb]
    rfl

theorem isNumeric_iff (ha : numberOfText a = .ok x) : IsNumeric a ↔ x ≠ .nan := by
  constructor
  · rintro ⟨found, hfound, hne⟩
    rw [ha] at hfound
    cases hfound
    exact hne
  · exact fun hne => ⟨x, ha, hne⟩

theorem ordered_of_read (ha : numberOfText a = .ok x) (hb : numberOfText b = .ok y)
    (hc : numberOfText c = .ok z) (hx : x ≠ .nan) (hy : y ≠ .nan) : Ordered a b c := by
  have hab := holds_of_read ha hb
  have hba := holds_of_read hb ha
  refine ⟨?_, ?_, ?_, ?_, ?_, ?_⟩
  · unfold Holds
    rw [hab, hab, Binary64.le_eq_not_lt hx hy]
    cases y.lt x <;> simp
  · unfold Holds
    rw [hab, hab, Binary64.le_eq_not_lt hy hx]
    cases x.lt y <;> simp
  · unfold Holds
    rw [hab, hba]
  · unfold Holds
    rw [hab, hba, Except.ok.injEq, Except.ok.injEq]
    exact Binary64.le_total hx hy
  · unfold Holds
    rw [hab, holds_of_read hb hc, holds_of_read ha hc]
    simp only [Except.ok.injEq]
    exact Binary64.le_trans
  · rw [holds_equal_iff]
    rintro rfl
    rw [ha] at hb
    cases hb
    unfold Holds
    rw [hab, hab]
    exact ⟨congrArg _ (Binary64.le_refl hx), congrArg _ (Binary64.le_refl hx)⟩

theorem unordered_of_read (ha : numberOfText a = .ok x) (hb : numberOfText b = .ok y)
    (h : x = .nan ∨ y = .nan) {op : Comparison} (hop : op ∈ [less, greater, lessEqual, greaterEqual]) :
    ¬ op.Holds a b := by
  have hxy (rel : Int → Int → Bool) := Binary64.related_nan rel h
  have hyx (rel : Int → Int → Bool) := Binary64.related_nan rel h.symm
  unfold Holds
  rw [holds_of_read ha hb]
  simp only [List.mem_cons, List.not_mem_nil, or_false] at hop
  rcases hop with rfl | rfl | rfl | rfl
  all_goals simp [Binary64.lt, Binary64.le, hxy, hyx]

theorem coherent_of_read (ha : numberOfText a = .ok x) (hb : numberOfText b = .ok y)
    (hc : numberOfText c = .ok z) : Coherent a b c where
  answered op := ⟨_, holds_of_read ha hb op⟩
  equal_xor := by
    rw [holds_equal_iff, holds_notEqual_iff]
    by_cases h : a = b
    · exact .inl ⟨h, fun hne => hne h⟩
    · exact .inr ⟨h, h⟩
  ordered hna hnb :=
    ordered_of_read ha hb hc ((isNumeric_iff ha).1 hna) ((isNumeric_iff hb).1 hnb)
  unordered hnot op hop := by
    rw [isNumeric_iff ha, isNumeric_iff hb, not_and_or, not_not, not_not] at hnot
    exact unordered_of_read ha hb hnot hop

/-- Between texts that denote numbers, an operator holds exactly where its opposite does not. -/
theorem holds_opposite (ha : numberOfText a = .ok x) (hb : numberOfText b = .ok y) (hx : x ≠ .nan)
    (hy : y ≠ .nan) {op : Comparison} {answer : Bool}
    (h : op.holds (.str a) (.str b) = .ok answer) :
    op.opposite.holds (.str a) (.str b) = .ok !answer := by
  rw [holds_of_read ha hb] at h ⊢
  rw [← Except.ok.inj h]
  cases op with
  | equal => rfl
  | notEqual =>
    unfold opposite
    simp [bne]
  | less => exact congrArg _ (Binary64.le_eq_not_lt hy hx)
  | greater => exact congrArg _ (Binary64.le_eq_not_lt hx hy)
  | greaterEqual =>
    unfold opposite
    simp [Binary64.le_eq_not_lt hy hx]
  | lessEqual =>
    unfold opposite
    simp [Binary64.le_eq_not_lt hx hy]

end Reading

end Comparison

/-! ## Guarded lines -/

section Running

variable {σ : Type}

/-- One part of a script after another: nothing is run behind an interruption. -/
def Outcome.andThen (first : Outcome σ) (second : Scene σ → Outcome σ) : Outcome σ :=
  match first with
  | (scene, none) => second scene
  | (scene, some interruption) => (scene, some interruption)

theorem Outcome.done_andThen (scene : Scene σ) (second : Scene σ → Outcome σ) :
    Outcome.andThen (scene, none) second = second scene := rfl

theorem Outcome.andThen_done (first : Outcome σ) : first.andThen (fun scene => (scene, none)) = first := by
  obtain ⟨scene, _ | interruption⟩ := first <;> rfl

/-- What comes second matters only from where the first part can lead. -/
theorem Outcome.andThen_congr {first : Outcome σ} {second third : Scene σ → Outcome σ}
    {p : Scene σ → Prop} (hfirst : p first.1) (h : ∀ scene, p scene → second scene = third scene) :
    first.andThen second = first.andThen third := by
  obtain ⟨scene, _ | interruption⟩ := first
  · exact h scene hfirst
  · rfl

variable (prompter : Option (Prompter σ)) (index : Nat)

theorem runLines_cons (line : Line) (rest : List Line) (scene : Scene σ) :
    runLines prompter index (line :: rest) scene =
      (line.run prompter index scene).andThen (runLines prompter (index + 1) rest) := by
  rw [runLines]
  rcases line.run prompter index scene with ⟨next, _ | interruption⟩ <;> rfl

theorem runLines_snoc (lines : List Line) (last : Line) (scene : Scene σ) :
    runLines prompter index (lines ++ [last]) scene =
      (runLines prompter index lines scene).andThen (last.run prompter (index + lines.length)) := by
  rw [runLines_append]
  rcases runLines prompter index lines scene with ⟨next, _ | interruption⟩
  · exact (runLines_cons prompter (index + lines.length) last [] next).trans (Outcome.andThen_done _)
  · rfl

variable {prompter index}

theorem run_of_instruction? {line : Line} {i : Instruction String} (h : line.instruction? = some i)
    (scene : Scene σ) :
    line.run prompter index scene = i.run prompter index line.tag.spoken scene := by
  unfold Line.instruction? at h
  unfold Line.run
  cases hparameters : line.parameters with
  | error interruption =>
    rw [hparameters] at h
    cases h
  | ok parameters =>
    rw [hparameters] at h
    cases hparse : line.parse parameters with
    | error e =>
      simp only [Except.toOption, Option.bind_some, hparse] at h
      cases h
    | ok found =>
      simp only [Except.toOption, Option.bind_some, hparse] at h
      cases h
      dsimp only
      rw [hparse]

variable {name a b : String} {op : Comparison} {guarded : Instruction String} {line : Line}

/-- A guarded line runs the instruction when its comparison holds, and does nothing when it does not. -/
theorem run_guard (hline : line.instruction? = some (.compareDo name op b guarded)) {answer : Bool}
    (hanswer : op.holds (.str a) (.str b) = .ok answer) {scene : Scene σ}
    (hvalue : scene.story.setValue? name = some a) :
    line.run prompter index scene =
      if answer then guarded.run prompter index line.tag.spoken scene else (scene, none) := by
  rw [run_of_instruction? hline, Instruction.run, hvalue]
  dsimp only
  rw [hanswer]
  cases answer <;> rfl

/-- A variable that no line assigns stays as it is. -/
theorem setValue?_of_framed {names : List String} {additions : List (String × String)} {s t : Story}
    (h : s.Framed names additions t) (hname : name ∉ names) : t.setValue? name = s.setValue? name := by
  unfold Story.setValue?
  rw [h.values name hname]

variable (prompter index)

theorem setValue?_runLines {lines : List Line} (h : ∀ line ∈ lines, name ∉ line.assigned)
    (scene : Scene σ) : (runLines prompter index lines scene).1.story.setValue? name =
      scene.story.setValue? name := by
  apply setValue?_of_framed (runLines_framed prompter lines index scene)
  rw [List.mem_flatMap]
  rintro ⟨line, hline, hname⟩
  exact h line hline hname

theorem setValue?_run (hname : name ∉ guarded.assigned) (tag : String) (scene : Scene σ) :
    (guarded.run prompter index tag scene).1.story.setValue? name = scene.story.setValue? name :=
  setValue?_of_framed (.of_effect (run_effect prompter index tag scene guarded)) hname

end Running

/-- The operators are coherent between all texts that are not refused as numbers.  So where a variable and
a target denote numbers, and the guarded instruction does not write the variable, of two lines that guard it
by opposite operators exactly one runs it: the lines, and others between them that do not write the
variable either, come to the guarded instruction run once, before the others or behind them. -/
theorem comparison_coherent {a b c : String} (ha : IsRead a) (hb : IsRead b) (hc : IsRead c) :
    Comparison.Coherent a b c ∧
      (IsNumeric a → IsNumeric b →
        ∀ {name : String} {op : Comparison} {guarded : Instruction String} {first second : Line}
          {between : List Line}, first.instruction? = some (.compareDo name op b guarded) →
          second.instruction? = some (.compareDo name op.opposite b guarded) →
          name ∉ guarded.assigned → (∀ line ∈ between, name ∉ line.assigned) →
          ∀ {σ : Type} (prompter : Option (Prompter σ)) (index : Nat) (scene : Scene σ),
            scene.story.setValue? name = some a →
            let script := runLines prompter index (first :: (between ++ [second])) scene
            op.Holds a b ∧ ¬ op.opposite.Holds a b ∧
                script = (guarded.run prompter index first.tag.spoken scene).andThen
                  (runLines prompter (index + 1) between) ∨
              ¬ op.Holds a b ∧ op.opposite.Holds a b ∧
                script = (runLines prompter (index + 1) between scene).andThen
                  (guarded.run prompter (index + 1 + between.length) second.tag.spoken)) := by
  obtain ⟨x, hx⟩ := ha
  obtain ⟨y, hy⟩ := hb
  obtain ⟨z, hz⟩ := hc
  refine ⟨Comparison.coherent_of_read hx hy hz, ?_⟩
  intro hna hnb name op guarded first second between hfirst hsecond hguarded hbetween σ prompter index
    scene hvalue
  obtain ⟨answer, hanswer⟩ := (Comparison.coherent_of_read hx hy hz).answered op
  have hopposite := Comparison.holds_opposite hx hy ((Comparison.isNumeric_iff hx).1 hna)
    ((Comparison.isNumeric_iff hy).1 hnb) hanswer
  -- the second line finds the value that the first one found
  have hlast (start : Scene σ) (hstart : start.story.setValue? name = some a) :
      (runLines prompter (index + 1) (between ++ [second]) start) =
        (runLines prompter (index + 1) between start).andThen fun later =>
          if answer then (later, none)
          else guarded.run prompter (index + 1 + between.length) second.tag.spoken later := by
    have hkept := (setValue?_runLines prompter (index + 1) hbetween start).trans hstart
    rw [runLines_snoc]
    refine Outcome.andThen_congr (p := fun later => later.story.setValue? name = some a) hkept ?_
    intro later hlater
    rw [run_guard hsecond hopposite hlater]
    cases answer <;> rfl
  dsimp only
  unfold Comparison.Holds
  rw [runLines_cons, run_guard hfirst hanswer hvalue, hanswer, hopposite]
  cases answer with
  | true =>
    refine .inl ⟨rfl, by simp, ?_⟩
    have hkept := (setValue?_run prompter index hguarded first.tag.spoken scene).trans hvalue
    rw [if_pos rfl]
    refine Outcome.andThen_congr (p := fun next => next.story.setValue? name = some a) hkept ?_
    exact fun next hnext => (hlast next hnext).trans (Outcome.andThen_done _)
  | false =>
    refine .inr ⟨by simp, rfl, ?_⟩
    rw [if_neg (by decide), Outcome.done_andThen, hlast scene hvalue]
    rfl

/-- A story whose player has so much gold. -/
def hoardStory (gold : String) : Story := Story.fresh.setVariable "gold" gold

/-- A line that sets who is rich, guarded by a comparison of the gold. -/
def hoardLine (operator : String) : Line :=
  ⟨.str "COMPARE_DO", .ok ["gold", operator, "16.0", "SET", "rich", "yes"]⟩

/-- Sixteen in two spellings, which are different texts and the same number. -/
theorem comparison_coherent_hoard :
    IsRead "0x10" ∧ IsRead "16.0" ∧ IsRead " 1e3 " ∧ IsNumeric "0x10" ∧ IsNumeric "16.0" ∧
      (hoardLine "<").instruction? = some (.compareDo "gold" .less "16.0" (.set "rich" "yes")) ∧
      (hoardLine ">=").instruction? =
        some (.compareDo "gold" Comparison.less.opposite "16.0" (.set "rich" "yes")) ∧
      "gold" ∉ (Instruction.set "rich" "yes").assigned ∧
      (hoardStory "0x10").setValue? "gold" = some "0x10" ∧
      Comparison.Coherent "0x10" "16.0" " 1e3 " ∧
      ((runLines (none : Option (Prompter Unit)) 0 [hoardLine "<", hoardLine ">="]
        ⟨hoardStory "0x10", (), [], []⟩).1.story.variableValues.get? "rich") = some "yes" := by
  have hread : IsRead "0x10" ∧ IsRead "16.0" ∧ IsRead " 1e3 " := by decide +kernel
  have hnumeric : IsNumeric "0x10" ∧ IsNumeric "16.0" := by decide +kernel
  have hfirst : (hoardLine "<").instruction? =
      some (.compareDo "gold" .less "16.0" (.set "rich" "yes")) := by decide +kernel
  have hsecond : (hoardLine ">=").instruction? =
      some (.compareDo "gold" Comparison.less.opposite "16.0" (.set "rich" "yes")) := by
    decide +kernel
  have hguarded : "gold" ∉ (Instruction.set "rich" "yes").assigned := by decide
  have hvalue : (hoardStory "0x10").setValue? "gold" = some "0x10" := by decide +kernel
  obtain ⟨hcoherent, hone⟩ := comparison_coherent hread.1 hread.2.1 hread.2.2
  have hscript := hone hnumeric.1 hnumeric.2 hfirst hsecond hguarded (List.forall_mem_nil _)
    (none : Option (Prompter Unit)) 0 ⟨hoardStory "0x10", (), [], []⟩ hvalue
  refine ⟨hread.1, hread.2.1, hread.2.2, hnumeric.1, hnumeric.2, hfirst, hsecond, hguarded, hvalue,
    hcoherent, ?_⟩
  rcases hscript with ⟨-, -, hrun⟩ | ⟨-, -, hrun⟩
  all_goals
    rw [List.nil_append] at hrun
    rw [hrun]
    decide +kernel

end Gamebook
