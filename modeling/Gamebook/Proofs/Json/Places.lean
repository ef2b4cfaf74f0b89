import Gamebook.Proofs.Json.Same

/-!
# Values place by place

A value is told by what stands at each of its places.  Two values are identical when at every place either
nothing stands in both, or values of one kind that are equal as far as they stand there: what a list or an
object holds stands further in.  The comparison that the review uses is another relation of that form.

* `Step`, `child?`, `at?`  : places, and what stands there.
* `AlikeAt`                : two values are related wherever something stands in them.
* `alikeAt_iff`            : they are when they are so at the outermost place, and in each part.
* `Identical`              : equal values of one kind at every place.
* `Similar`, `same_iff_alikeAt` : what `same` compares at each place.
* `same_and_kinds_iff`, `same_iff_identical_iff` : how the two relations differ.
* `same_self_iff`          : what is the same as itself.
-/

set_option autoImplicit false

namespace Gamebook

/-- A number is the same as itself, unless it is none. -/
theorem Binary64.same_refl_iff {x : Binary64} : x.same x = true ↔ x ≠ .nan := by
  cases x <;> simp [same, related, rank]

namespace Json

/-! ## Places -/

/-- A step into a value: to an item of a list, or to a field of an object. -/
inductive Step where
  | item (index : Nat)
  | field (key : String)

/-- The part of a value that a step leads to. -/
def child? : Json → Step → Option Json
  | .arr items, .item index => items[index]?
  | .obj fields, .field key => Table.get? fields key
  | _, _ => none

/-- What stands at a place, which is given by the steps that lead there. -/
def at? (v : Json) : List Step → Option Json
  | [] => some v
  | step :: rest => (v.child? step).bind fun part => part.at? rest

@[simp] theorem at?_nil (v : Json) : v.at? [] = some v := rfl

@[simp] theorem at?_cons (v : Json) (step : Step) (rest : List Step) :
    v.at? (step :: rest) = (v.child? step).bind fun part => part.at? rest := rfl

/-- At every place either nothing stands in both values, or values of this relation. -/
def AlikeAt (R : Json → Json → Prop) (v w : Json) : Prop :=
  ∀ place, Option.Rel R (v.at? place) (w.at? place)

variable {v w part : Json} {step : Step} {R : Json → Json → Prop}

theorem sizeOf_child (h : v.child? step = some part) : sizeOf part < sizeOf v := by
  unfold child? at h
  split at h
  · rename_i items index
    have hmem := List.sizeOf_lt_of_mem (List.mem_of_getElem? h)
    simp only [Json.arr.sizeOf_spec]
    omega
  · rename_i fields key
    have hmem := List.sizeOf_lt_of_mem (Table.mem_of_get? h)
    simp only [Json.obj.sizeOf_spec, Prod.mk.sizeOf_spec] at hmem ⊢
    omega
  · cases h

/-- What holds of a value as soon as it holds of its parts holds of every value. -/
theorem part_induction {P : Json → Prop}
    (h : ∀ v, (∀ step part, v.child? step = some part → P part) → P v) (v : Json) : P v := by
  induction hsize : sizeOf v using Nat.strongRecOn generalizing v with
  | ind size ih =>
    exact h v fun step part hpart => ih (sizeOf part) (hsize ▸ sizeOf_child hpart) part rfl

theorem proper_child (hv : v.Proper) (h : v.child? step = some part) : part.Proper := by
  unfold child? at h
  split at h
  · exact (properItems_iff _).1 hv part (List.mem_of_getElem? h)
  · exact (properFields_iff _).1 hv.2 _ (Table.mem_of_get? h)
  · cases h

/-- Two values are alike when they are so at the outermost place, and in each part. -/
theorem alikeAt_iff : AlikeAt R v w ↔
    R v w ∧ ∀ step, Option.Rel (AlikeAt R) (v.child? step) (w.child? step) := by
  constructor
  · intro h
    refine ⟨?_, fun step => ?_⟩
    · cases h [] with
      | some hhere => exact hhere
    · have hparts (rest : List Step) := h (step :: rest)
      simp only [at?_cons] at hparts
      generalize v.child? step = part at hparts ⊢
      generalize w.child? step = other at hparts ⊢
      cases part <;> cases other
      case none.none => exact .none
      case some.some => exact .some hparts
      all_goals cases hparts []
  · rintro ⟨hhere, hparts⟩ place
    cases place with
    | nil => exact .some hhere
    | cons step rest =>
      have hpart := hparts step
      simp only [at?_cons]
      generalize v.child? step = part at hpart ⊢
      generalize w.child? step = other at hpart ⊢
      cases hpart with
      | none => exact .none
      | some hpart => exact hpart rest

/-! ## Identical values -/

/-- Kinds of values; whole and binary64 numbers are two of them. -/
inductive Kind where
  | null | bool | int | float | str | arr | obj
  deriving DecidableEq

def kind : Json → Kind
  | .null => .null
  | .bool _ => .bool
  | .int _ => .int
  | .float _ => .float
  | .str _ => .str
  | .arr _ => .arr
  | .obj _ => .obj

/-- Values of one kind that are equal where they stand; a not-a-number is equal to itself, and so are the two
zeros to each other. -/
inductive EqualHere : Json → Json → Prop where
  | null : EqualHere .null .null
  | bool (b : Bool) : EqualHere (.bool b) (.bool b)
  | int (n : Int) : EqualHere (.int n) (.int n)
  | float {x y : Binary64} (h : x = y ∨ x.same y = true) : EqualHere (.float x) (.float y)
  | str (s : String) : EqualHere (.str s) (.str s)
  | arr (items others : List Json) : EqualHere (.arr items) (.arr others)
  | obj (fields others : List (String × Json)) : EqualHere (.obj fields) (.obj others)

/-- The same value: the same places, and at each of them equal values of one kind. -/
def Identical : Json → Json → Prop := AlikeAt EqualHere

/-- The values have the same kind at every place. -/
def SameKinds (v w : Json) : Prop := ∀ place, (v.at? place).map kind = (w.at? place).map kind

/-- No place of a value holds a not-a-number. -/
def NanFree (v : Json) : Prop := ∀ place, v.at? place ≠ some (.float .nan)

theorem Identical.refl (v : Json) : v.Identical v := by
  intro place
  cases v.at? place with
  | none => exact .none
  | some part =>
    refine .some ?_
    cases part with
    | float x => exact .float (.inl rfl)
    | _ => constructor

/-! ## What is compared -/

/-- Values that are equal where they stand, numbers by their size. -/
inductive Similar : Json → Json → Prop where
  | null : Similar .null .null
  | bool (b : Bool) : Similar (.bool b) (.bool b)
  | int (n : Int) : Similar (.int n) (.int n)
  | float {x y : Binary64} (h : x.same y = true) : Similar (.float x) (.float y)
  | wholeLeft {n : Int} {x : Binary64} (h : x.toInt? = some n) : Similar (.int n) (.float x)
  | wholeRight {n : Int} {x : Binary64} (h : x.toInt? = some n) : Similar (.float x) (.int n)
  | str (s : String) : Similar (.str s) (.str s)
  | arr (items others : List Json) : Similar (.arr items) (.arr others)
  | obj (fields others : List (String × Json)) : Similar (.obj fields) (.obj others)

/-- Lists are related item by item when they are so index by index. -/
theorem forall₂_iff_getElem? {α : Type} {r : α → α → Prop} {xs ys : List α} :
    List.Forall₂ r xs ys ↔ ∀ i : Nat, Option.Rel r xs[i]? ys[i]? := by
  induction xs generalizing ys with
  | nil =>
    cases ys with
    | nil => exact iff_of_true .nil fun _ => .none
    | cons y ys => exact iff_of_false (fun h => nomatch h) fun h => nomatch h 0
  | cons x xs ih =>
    cases ys with
    | nil => exact iff_of_false (fun h => nomatch h) fun h => nomatch h 0
    | cons y ys =>
      rw [List.forall₂_cons, ih]
      constructor
      · rintro ⟨hfirst, hrest⟩ i
        cases i with
        | zero => exact .some hfirst
        | succ i => exact hrest i
      · intro h
        refine ⟨?_, fun i => h (i + 1)⟩
        cases h 0 with
        | some hfirst => exact hfirst

theorem similar_of_same (h : same v w = true) : Similar v w := by
  cases v <;> cases w <;> simp only [same, beq_iff_eq, Bool.false_eq_true] at h
  case null.null => exact .null
  case bool.bool a b => exact h ▸ .bool a
  case int.int a b => exact h ▸ .int a
  case int.float => exact .wholeLeft h
  case float.int => exact .wholeRight h
  case float.float => exact .float h
  case str.str a b => exact h ▸ .str a
  case arr.arr => exact .arr _ _
  case obj.obj => exact .obj _ _

/-- Proper values are the same when they are similar where they stand, and the same in each part. -/
theorem same_iff_parts (hv : v.Proper) (hw : w.Proper) : same v w = true ↔
    Similar v w ∧ ∀ step, SameOption (v.child? step) (w.child? step) := by
  constructor
  · intro h
    refine ⟨similar_of_same h, fun step => ?_⟩
    cases similar_of_same h with
    | arr xs ys =>
      have hitems : List.Forall₂ (fun x y => same x y = true) xs ys := by
        obtain ⟨_, heq, hitems⟩ := (same_arr_iff xs _).1 h
        exact Json.arr.inj heq ▸ hitems
      cases step with
      | item index => exact forall₂_iff_getElem?.1 hitems index
      | field key => exact .none
    | obj xs ys =>
      cases step with
      | item index => exact .none
      | field key => exact (same_obj_iff hv.1 hw.1).1 h key
    | _ => exact .none
  · rintro ⟨hhere, hparts⟩
    cases hhere with
    | arr xs ys =>
      exact (same_arr_iff xs _).2 ⟨ys, rfl, forall₂_iff_getElem?.2 fun index => hparts (.item index)⟩
    | obj xs ys => exact (same_obj_iff hv.1 hw.1).2 fun key => hparts (.field key)
    | float h => exact h
    | wholeLeft h | wholeRight h => simp [same, h]
    | _ => simp [same]

/-- Proper values are the same when they are similar at every place. -/
theorem same_iff_alikeAt (hv : v.Proper) (hw : w.Proper) : same v w = true ↔ AlikeAt Similar v w := by
  induction v using part_induction generalizing w with
  | h v ih =>
    rw [same_iff_parts hv hw, alikeAt_iff]
    refine and_congr_right fun _ => forall_congr' fun step => ?_
    cases hpart : v.child? step <;> cases hother : w.child? step
    case some.some part other =>
      have hsame := ih step part hpart (proper_child hv hpart) (proper_child hw hother)
      rw [SameOption, Option.rel_some_some, Option.rel_some_some, hsame]
    case none.none => exact iff_of_true .none .none
    all_goals exact iff_of_false (fun h => nomatch h) fun h => nomatch h

/-! ## Where the two differ -/

/-- Similar values of one kind are equal ones that are no not-a-number. -/
theorem similar_and_kind_iff : Similar v w ∧ v.kind = w.kind ↔ EqualHere v w ∧ v ≠ .float .nan := by
  constructor
  · rintro ⟨h, hkind⟩
    cases h with
    | float h =>
      obtain ⟨a, hx, -⟩ := Binary64.same_iff.1 h
      refine ⟨.float (.inr h), fun hnan => ?_⟩
      cases hnan
      cases hx
    | wholeLeft _ | wholeRight _ => cases hkind
    | _ => exact ⟨by constructor, fun h => nomatch h⟩
  · rintro ⟨h, hnan⟩
    cases h with
    | float h =>
      refine ⟨.float ?_, rfl⟩
      obtain rfl | h := h
      · exact Binary64.same_refl_iff.2 fun hx => hnan (congrArg _ hx)
      · exact h
    | _ => exact ⟨by constructor, rfl⟩

/-- Values that are the same and of the same kinds are the identical ones without a not-a-number. -/
theorem same_and_kinds_iff (hv : v.Proper) (hw : w.Proper) :
    same v w = true ∧ v.SameKinds w ↔ v.Identical w ∧ v.NanFree := by
  rw [same_iff_alikeAt hv hw]
  unfold AlikeAt SameKinds Identical AlikeAt NanFree
  rw [← forall_and, ← forall_and]
  refine forall_congr' fun place => ?_
  cases v.at? place <;> cases w.at? place
  case some.some part other =>
    simp [similar_and_kind_iff]
  case none.none => simp
  all_goals simp

theorem Identical.sameKinds (h : v.Identical w) : v.SameKinds w := by
  intro place
  have hplace := h place
  generalize v.at? place = part at hplace ⊢
  generalize w.at? place = other at hplace ⊢
  cases hplace with
  | none => rfl
  | some h => cases h <;> rfl

theorem nanFree_of_same (hv : v.Proper) (hw : w.Proper) (h : same v w = true) : v.NanFree := by
  intro place hnan
  have hplace := (same_iff_alikeAt hv hw).1 h place
  rw [hnan] at hplace
  generalize w.at? place = other at hplace
  cases hplace with
  | some h =>
    cases h with
    | float h => cases h
    | wholeRight h => cases h

/-- A value is the same as itself, unless there is a not-a-number in it. -/
theorem same_self_iff (hv : v.Proper) : same v v = true ↔ v.NanFree := by
  have hkinds : v.SameKinds v := fun _ => rfl
  have hself := same_and_kinds_iff hv hv
  rwa [and_iff_left hkinds, and_iff_right (Identical.refl v)] at hself

/-- Sameness is identity for just those values that are not the same with a whole number in place of a binary64
one, nor identical with a not-a-number in both. -/
theorem same_iff_identical_iff (hv : v.Proper) (hw : w.Proper) : (same v w = true ↔ v.Identical w) ↔
    (same v w = true → v.SameKinds w) ∧ (v.Identical w → v.NanFree) := by
  have hboth := same_and_kinds_iff hv hw
  constructor
  · intro h
    exact ⟨fun hsame => (h.1 hsame).sameKinds, fun hidentical => nanFree_of_same hv hw (h.2 hidentical)⟩
  · rintro ⟨hkinds, hnan⟩
    exact ⟨fun hsame => (hboth.1 ⟨hsame, hkinds hsame⟩).1,
      fun hidentical => (hboth.2 ⟨hidentical, hnan hidentical⟩).1⟩

end Json

end Gamebook
