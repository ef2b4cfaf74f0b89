import Gamebook.Proofs.Player.Reachable
import Gamebook.Proofs.Script.Effect

/-!
# How often a choice stands in a section

Each visit to a section runs its script, which may add choices to it and remove some.  A choice is added
only where there is none of its target and label, so that however often a section is visited, no choice
piles up.

* `Section.multiplicity`      : how many choices of a target and a label a section has.
* `Section.IsTidy`            : no choice stands in a section more often than once or than at first.
* `tidy_addChoice`, `tidy_removeChoice` : the two changes that a script may make.
* `Story.Tidy`                : the same for every section of a story.
* `run_tidy`                  : every run.
-/

set_option autoImplicit false

namespace Gamebook

namespace Section

/-- How many choices of a target and a label there are. -/
def multiplicity (x : Section) (target label : String) : Nat :=
  x.choices.countP fun c => c.target == target && c.label == label

/-- Compared with the section as it was given: every choice stands there once at most, or no more often
than it was given. -/
def IsTidy (given x : Section) : Prop :=
  ∀ target label, x.multiplicity target label ≤ max 1 (given.multiplicity target label)

variable {given x : Section}

theorem IsTidy.refl (x : Section) : IsTidy x x := fun _ _ => Nat.le_max_right _ _

/-- A choice that is added was not there before, and so it is there once. -/
theorem tidy_addChoice (h : IsTidy given x) (target label : String) :
    IsTidy given (x.addChoice target label) := by
  intro otherTarget otherLabel
  have hsame := h otherTarget otherLabel
  unfold multiplicity at hsame ⊢
  rw [choices_of_added]
  split
  · exact hsame
  · rename_i habsent
    rw [List.countP_append, List.countP_singleton]
    split
    · -- the pair that is counted is the one that was missing
      rename_i hpair
      obtain ⟨rfl, rfl⟩ : target = otherTarget ∧ label = otherLabel := by
        simpa [Choice.target, Choice.added, Choice.label, Target.id] using hpair
      have hnone : List.countP (fun c => c.target == target && c.label == label) x.choices = 0 := by
        rw [List.countP_eq_zero]
        intro c hc hp
        exact habsent (List.any_eq_true.2 ⟨c, hc, hp⟩)
      rw [hnone]
      exact Nat.le_max_left _ _
    · exact hsame

theorem tidy_removeChoice (h : IsTidy given x) (target : String) :
    IsTidy given (x.removeChoice target) := by
  intro otherTarget otherLabel
  refine le_trans ?_ (h otherTarget otherLabel)
  unfold multiplicity
  rw [choices_of_removed]
  exact List.eraseP_sublist.countP_le

end Section

namespace Story

variable {o s : Story}

/-- Compared with the story as it was given: each section stood there, and none of its choices piled
up. -/
def Tidy (o s : Story) : Prop :=
  ∀ id x, s.section? id = some x → ∃ given, o.section? id = some given ∧ given.IsTidy x

theorem tidy_modifySection (h : Tidy o s) (id : String) {f : Section → Section}
    (hf : ∀ {given x : Section}, given.IsTidy x → given.IsTidy (f x)) : Tidy o (s.modifySection id f) := by
  intro other y hy
  have hy : Table.get? (Table.modify s.sections id f) other = some y := hy
  rw [Table.get?_modify] at hy
  split at hy
  · obtain ⟨x, hx, rfl⟩ := Option.map_eq_some_iff.1 hy
    obtain ⟨given, hgiven, hx⟩ := h other x hx
    exact ⟨given, hgiven, hf hx⟩
  · exact h other y hy

theorem carried_tidy : Carried Tidy where
  started _ := fun _ x hx => ⟨x, hx, .refl x⟩
  invariant _ := {
    setVariable := fun h _ _ => h
    addChoice := fun h id target label =>
      tidy_modifySection h id fun hx => Section.tidy_addChoice hx target label
    removeChoice := fun h id target =>
      tidy_modifySection h id fun hx => Section.tidy_removeChoice hx target
    entered := fun h _ _ _ => h
    popped := fun h => h }

end Story

namespace Player

variable {σ : Type}

/-- Whatever is asked of a player, and however often: in the story in play, no choice stands in a section
more often than once, or than it stood there when the story was given. -/
theorem run_tidy (prompter : Option (Prompter σ)) (desk : σ) (ops : List Operation) :
    Option.Rel Story.Tidy (ops.foldl Operation.given none) ((idle desk).run prompter ops).story :=
  run_carried Story.carried_tidy prompter ops .none

end Player

end Gamebook
