import Gamebook.Player.Basic
import Gamebook.Proofs.Table

/-!
# Stories recast section by section

A story may be shown in another form, each section on its own: as it is once written and loaded, or with
other spellings of its targets.  Such a form has the same sections under the same ids, and as long as it
keeps what choices say and where they lead, scripts change its choices in the same way.

* `Section.Recast`           : sections recast choice by choice.
* `Recast.addChoice`, `Recast.removeChoice` : the changes that scripts make, before or after.
* `section?_of_mapValues`, `currentChoices_of_mapValues` : the sections of a story recast.
-/

set_option autoImplicit false

namespace Gamebook

namespace Section

/-- Sections are recast choice by choice: the labels, the targets and the choices that scripts add stay
as they are. -/
structure Recast (f : Section → Section) (g : Choice → Choice) : Prop where
  next : ∀ x next, f { x with next := next } = { f x with next := next.map (List.map g) }
  label : ∀ c, (g c).label = c.label
  target : ∀ c, (g c).target = c.target
  added : ∀ target label, g (.added target label) = .added target label

namespace Recast

variable {f : Section → Section} {g : Choice → Choice} (h : Recast f g)

include h

theorem field_next (x : Section) : (f x).next = x.next.map (List.map g) :=
  congrArg Section.next (h.next x x.next)

theorem choices (x : Section) : (f x).choices = x.choices.map g := by
  unfold Section.choices
  rw [h.field_next]
  cases x.next <;> rfl

theorem targets (x : Section) : (f x).choices.map Choice.target = x.choices.map Choice.target := by
  rw [h.choices, List.map_map]
  exact List.map_congr_left fun c _ => h.target c

/-- A choice is present in both forms or in none, and is added to both. -/
theorem addChoice (target label : String) (x : Section) :
    f (x.addChoice target label) = (f x).addChoice target label := by
  have hany : ((f x).choices.any fun c => c.target == target && c.label == label) =
      x.choices.any fun c => c.target == target && c.label == label := by
    rw [h.choices, List.any_map]
    simp only [Function.comp_def, h.target, h.label]
  unfold Section.addChoice
  rw [h.next]
  dsimp only
  rw [hany, h.choices, Field.map]
  split
  · rfl
  · rw [List.map_append, List.map_singleton, h.added]

/-- The first choice of a target is the same one in both forms. -/
theorem removeChoice (target : String) (x : Section) :
    f (x.removeChoice target) = (f x).removeChoice target := by
  unfold Section.removeChoice
  rw [h.next, h.field_next]
  cases x.next with
  | absent => rfl
  | null => rfl
  | value cs =>
    simp only [Field.map, List.eraseP_map, Function.comp_def, h.target]

end Recast

end Section

namespace Story

variable {s t : Story} {f : Section → Section} (h : t.sections = s.sections.mapValues f)

include h

theorem section?_of_mapValues (id : String) : t.section? id = (s.section? id).map f := by
  unfold section?
  rw [h, Table.get?_mapValues]

theorem ids_of_mapValues : t.ids = s.ids := by
  unfold ids
  rw [h, Table.keys_mapValues]

theorem hasSection_of_mapValues (id : String) : t.hasSection id = s.hasSection id := by
  have hget : t.sections.get? id = (s.sections.get? id).map f := section?_of_mapValues h id
  unfold hasSection Table.has
  rw [hget, Option.isSome_map]

theorem currentSection?_of_mapValues (hid : t.currentId? = s.currentId?) :
    t.currentSection? = s.currentSection?.map f := by
  unfold currentSection?
  rw [hid]
  cases s.currentId? with
  | none => rfl
  | some id => exact section?_of_mapValues h id

theorem currentChoices_of_mapValues {g : Choice → Choice} (hf : Section.Recast f g)
    (hid : t.currentId? = s.currentId?) : t.currentChoices = s.currentChoices.map g := by
  unfold currentChoices
  rw [currentSection?_of_mapValues h hid]
  cases s.currentSection? with
  | none => rfl
  | some x => exact hf.choices x

end Story

end Gamebook
