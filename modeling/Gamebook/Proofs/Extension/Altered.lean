import Gamebook.Proofs.Extension.Content
import Gamebook.Proofs.Json.Places

/-!
# When a section counts as altered

The review compares the frozen fields of a section by `Json.same`.  That is identity of values but for the
numbers: a whole number is the same as a binary64 number of its size, and a not-a-number is not the same as
itself.  What is written of a story has no such number, so that a section given back as it was written does
not count as altered.

* `changedField?_self_iff` : when a document counts as altered although it is given back.
* `comparison_exact`       : what is compared, and when that is identity.
* `comparison_exact_turned`, `whole_passes_for_binary` : values that are the same, and are not identical.
-/

set_option autoImplicit false

namespace Gamebook.Extension

/-- Which of the frozen fields differ from themselves: none, unless there is a not-a-number in one. -/
theorem changedField?_self_iff {v : Json} (hv : v.Proper) :
    changedField? v v = none ↔ ∀ key ∈ frozenFields, (v.field key).NanFree := by
  unfold changedField?
  rw [List.find?_eq_none]
  refine forall₂_congr fun key _ => ?_
  rw [← Json.same_self_iff (Json.proper_field hv key)]
  simp

/-- A section that is given back as it was written does not count as altered. -/
theorem changedField?_written {a : Section} (ha : a.Proper) : changedField? a.toJson a.toJson = none := by
  have hsame : a.SameContent a := Section.SameContent.withNext ha a.next ha
  unfold changedField?
  rw [List.find?_eq_none]
  intro key hkey
  simp [hsame key hkey]

/-- Values are the same when at every place they are equal where they stand, numbers by their size.  That is to
be identical in all cases but two: values that are the same may differ in the kinds of their numbers, and
identical ones with a not-a-number are not the same.  So a document that is given back counts as altered just
when a not-a-number is in a frozen field, which never is the case for a section that was written. -/
theorem comparison_exact {v w : Json} (hv : v.Proper) (hw : w.Proper) :
    (v.same w = true ↔ Json.AlikeAt Json.Similar v w) ∧
    ((v.same w = true ↔ v.Identical w) ↔
      (v.same w = true → v.SameKinds w) ∧ (v.Identical w → v.NanFree)) ∧
    (v.same v = true ↔ v.NanFree) ∧
    (changedField? v v = none ↔ ∀ key ∈ frozenFields, (v.field key).NanFree) ∧
    ∀ a : Section, a.Proper → changedField? a.toJson a.toJson = none :=
  ⟨Json.same_iff_alikeAt hv hw, Json.same_iff_identical_iff hv hw, Json.same_self_iff hv,
    changedField?_self_iff hv, fun _ => changedField?_written⟩

/-- The whole number one, as a binary64 number. -/
def binaryOne : Binary64 := .ofRatio false 1 1

def widePicture (width : Json) : Json := .obj [("type", .str "image"), ("src", .str "fork.png"), ("width", width)]

/-- The same picture with its fields turned round, and the width in the other form. -/
def turnedPicture : Json :=
  .obj [("width", .float binaryOne), ("src", .str "fork.png"), ("type", .str "image")]

theorem comparison_exact_turned : (widePicture (.int 1)).Proper ∧ turnedPicture.Proper ∧
    Json.AlikeAt Json.Similar (widePicture (.int 1)) turnedPicture := by
  have hone : (Json.int 1).Proper := by
    unfold Json.Proper
    decide
  have hwide : (widePicture (.int 1)).Proper := ⟨by decide, trivial, trivial, hone, trivial⟩
  have hturned : turnedPicture.Proper := ⟨by decide, trivial, trivial, trivial, trivial⟩
  have hsame : (widePicture (.int 1)).same turnedPicture = true := by decide +kernel
  exact ⟨hwide, hturned, (comparison_exact hwide hturned).1.1 hsame⟩

/-- One is the same as one in the other form, which it is not identical with, so that a section given back with
the other form does not count as altered; and a not-a-number is not the same as itself. -/
theorem whole_passes_for_binary :
    (Json.int 1).same (.float binaryOne) = true ∧ ¬ (Json.int 1).Identical (.float binaryOne) ∧
    changedField? (.obj [("id", .str "1"), ("media", widePicture (.int 1))])
      (.obj [("id", .str "1"), ("media", widePicture (.float binaryOne))]) = none ∧
    (Json.float .nan).same (.float .nan) = false ∧ (Json.float .nan).Identical (.float .nan) := by
  refine ⟨by decide +kernel, fun h => ?_, by decide +kernel, rfl, .refl _⟩
  cases h [] with
  | some h => cases h

end Gamebook.Extension
