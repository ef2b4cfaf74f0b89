import Gamebook.Proofs.Extension.Repeated
import Gamebook.Proofs.Service.Announced

/-!
# Extended stories that are reviewed twice

A background extension is reviewed when the writer is done, and once more before it is stored.  While
nobody changes the story meanwhile, the second review says the same as the first; but it is given a
text, and not every accepted story can be written.

* `Repeats`            : the outcome of a review passes it again, as itself.
* `finish_of_accepted` : the end of a job whose answer was accepted.
* `merge_unchanged`    : what a job makes of an accepted story when the stored one has not changed.
* `repeats_iff`        : both go well for the stories that can be written, and for no others.
* `unwritable_dropped` : an accepted story that is not stored.
-/

set_option autoImplicit false

namespace Gamebook.Service

open Extension (review review_again)

/-- An extended story can be written, and as an answer about the former one it passes the review again,
with the same document. -/
def Repeats (original : Story) (x : String) (s : Story) : Prop :=
  ∃ text again, s.writeCompact = .ok text ∧ review original text x = .ok (.ok again) ∧
    again.toJson = s.toJson

theorem writeCompact_eq (s : Story) :
    s.writeCompact = if s.isWritable then .ok s.compactText else .error .tooDeep := by
  unfold Story.writeCompact Story.write
  cases s.isWritable <;> rfl

/-- The outcome of a review passes it again when it can be written, and only then. -/
theorem repeats_of_review {original s : Story} {response x : String} (horiginal : original.Proper)
    (h : review original response x = .ok (.ok s)) :
    Repeats original x s ↔ s.isWritable = true := by
  unfold Repeats
  rw [writeCompact_eq]
  constructor
  · rintro ⟨text, again, htext, -, -⟩
    by_contra hwritable
    rw [if_neg hwritable] at htext
    cases htext
  · intro hwritable
    rw [if_pos hwritable]
    exact ⟨_, _, rfl, review_again horiginal h hwritable, s.toJson_settled⟩

variable {job : Job} {store later : Store} {original extended : Story}

/-- Behind an accepted answer a job ends as the merging does. -/
theorem finish_of_accepted {draft : Draft} (h : draft.accepted? = some extended) (job : Job)
    (later : Store) (now : Int) :
    (draft.finish job later now).store = (job.merge later now extended).store ∧
      (draft.finish job later now).fault = (job.merge later now extended).fault := by
  unfold Draft.accepted? at h
  split at h
  · rename_i run
    split at h
    · rename_i hresult
      cases h
      unfold Draft.finish
      simp only [hresult, and_self]
    · cases h
  · cases h

/-- When the stored story has not changed, the accepted one is stored if it can be written. -/
theorem merge_unchanged {response : String} (hload : later.load job.key = .ok (some original))
    (hreview : review original response job.sectionId = .ok (.ok extended)) (now : Int) :
    job.merge later now extended =
      if extended.isWritable then ⟨later.kept now job.key extended, [], none⟩
      else ⟨later, [], some (.write .tooDeep)⟩ := by
  have horiginal := Store.proper_of_load hload
  unfold Job.merge
  by_cases hwritable : extended.isWritable = true
  · have hagain : job.reviewAgain original extended = .ok (.ok extended.settled) := by
      rw [reviewAgain_eq, if_pos hwritable, review_again horiginal hreview hwritable]
    have hsettled : extended.settled.isWritable = true := (isWritable_settled extended).trans hwritable
    simp only [hload, hagain, graph_of_reviewAgain hload hagain, Store.save_eq, if_pos hsettled,
      if_pos hwritable, Store.kept_settled]
  · have hagain : job.reviewAgain original extended = .error .tooDeep := by
      rw [reviewAgain_eq, if_neg hwritable]
    simp only [hload, hagain, if_neg hwritable]

/-- The outcome of a review passes it again, as itself, exactly when it can be written.  A job that finds
the stored story unchanged stores the accepted one in this case; otherwise it breaks off and stores
nothing. -/
theorem repeats_iff {original : Story} (h : original.Reached) :
    (∀ response x s, review original response x = .ok (.ok s) →
      (Repeats original x s ↔ s.isWritable = true)) ∧
    ∀ (job : Job) (store later : Store) (delivery : Extension.Delivery)
      (clock : List Extension.Reading) (now : Int) (s : Story),
      store.load job.key = .ok (some original) →
      (job.begin store delivery clock).accepted? = some s →
      later.load job.key = .ok (some original) →
      let ending := (job.begin store delivery clock).finish job later now
      ending.store = (if s.isWritable then later.kept now job.key s else later) ∧
        ending.fault = if s.isWritable then none else some (.write .tooDeep) := by
  refine ⟨fun response x s hreview => repeats_of_review h.proper hreview, ?_⟩
  intro job store later delivery clock now s hload haccepted hlater
  obtain ⟨former, response, hformer, hreview⟩ := of_accepted haccepted
  rw [hload] at hformer
  cases hformer
  obtain ⟨hstore, hfault⟩ := finish_of_accepted haccepted job later now
  rw [merge_unchanged hlater hreview now] at hstore hfault
  dsimp only
  rw [hstore, hfault]
  cases s.isWritable <;> exact ⟨rfl, rfl⟩

/-! ## A story that is accepted and not stored -/

/-- Lists in lists, one more than a number. -/
def nested : Nat → Json
  | 0 => .arr []
  | n + 1 => .arr [nested n]

theorem isWithin_nested (n levels : Nat) : (nested n).isWithin levels = decide (n < levels) := by
  induction n generalizing levels with
  | zero => simp [nested, Json.isWithin, Json.areItemsWithin]
  | succ n ih =>
    simp only [nested, Json.isWithin, Json.areItemsWithin, ih, Bool.and_true]
    rw [Bool.eq_iff_iff, Bool.and_eq_true, decide_eq_true_iff, decide_eq_true_iff,
      decide_eq_true_iff]
    omega

theorem proper_nested (n : Nat) : (nested n).Proper := by
  induction n with
  | zero => trivial
  | succ n ih => exact ⟨ih, trivial⟩

/-- An answer about the fresh story: a choice and a section more, and a field that nobody declared. -/
def markedAnswer (mark : Json) : Table Json :=
  [("sections", .obj [
      ("1", .obj [("id", .str "1"), ("text_lines", .arr [.str ""]),
        ("next", .arr [.obj [("text", .str "Climb"), ("next", .str "2")]])]),
      ("2", .obj [("id", .str "2"), ("text", .str "A treetop.")])]),
    ("mark", mark)]

/-- It is accepted with the field, whatever is in it. -/
theorem review_marked (mark : Json) (hproper : mark.Proper)
    (hdepth : mark.isWithin (nestingLimit - 1) = true) :
    ∃ s, review .fresh (Json.obj (markedAnswer mark)).compact "1" = .ok (.ok s) ∧
      s.unknownValues = [mark] := by
  have hobj : (Json.obj (markedAnswer mark)).Proper := by
    simp [markedAnswer, Json.Proper, Json.ProperFields, Json.ProperItems, hproper]
  have hwithin : (Json.obj (markedAnswer mark)).isWithin nestingLimit = true := by
    rw [Json.isWithin, Bool.and_eq_true, Json.areFieldsWithin_iff]
    simp only [markedAnswer, List.forall_mem_cons]
    exact ⟨rfl, rfl, hdepth, List.forall_mem_nil _⟩
  have hread : Extension.readResponse (Json.obj (markedAnswer mark)).compact =
      .ok (.obj (markedAnswer mark)) := Extension.readResponse_write hobj hwithin ⟨none, false⟩
  exact ⟨_, Extension.review_of_read hread .fresh "1", rfl⟩

/-- The answer, in one piece. -/
def markedDelivery (mark : Json) : Extension.Delivery :=
  ⟨none, [some (Json.obj (markedAnswer mark)).compact], none⟩

theorem accepted_marked (mark : Json) (hproper : mark.Proper)
    (hdepth : mark.isWithin (nestingLimit - 1) = true) :
    ∃ s, review .fresh (Json.obj (markedAnswer mark)).compact "1" = .ok (.ok s) ∧
      ((⟨"k", "1"⟩ : Job).begin freshStore (markedDelivery mark) []).accepted? = some s ∧
      s.isWritable = mark.isWithin unknownDepth := by
  obtain ⟨s, hreview, hvalues⟩ := review_marked mark hproper hdepth
  refine ⟨s, hreview, accepted_of_review stored_fresh.load_eq ⟨_, rfl, rfl⟩ ?_ hreview, ?_⟩
  · exact Extension.not_blank_obj _ _
  · unfold Story.isWritable
    rw [hvalues, List.all_cons, List.all_nil, Bool.and_true]

/-- A field that is nested too deeply to be written: the story with it is accepted, but it does not pass
the review again, and it is not stored. -/
theorem unwritable_dropped :
    let job : Job := ⟨"k", "1"⟩
    let draft := job.begin freshStore (markedDelivery (nested 255)) []
    ∃ s, review .fresh (Json.obj (markedAnswer (nested 255))).compact "1" = .ok (.ok s) ∧
      ¬ Repeats .fresh "1" s ∧ draft.accepted? = some s ∧
      (draft.finish job freshStore 0).store = freshStore := by
  intro job draft
  have hdepth : (nested 255).isWithin (nestingLimit - 1) = true := by
    rw [isWithin_nested]
    decide
  obtain ⟨s, hreview, haccepted, hwritable⟩ := accepted_marked _ (proper_nested 255) hdepth
  have hdeep : ¬ s.isWritable = true := by
    rw [hwritable, isWithin_nested]
    decide
  have hload : freshStore.load job.key = .ok (some .fresh) := stored_fresh.load_eq
  refine ⟨s, hreview, ?_, haccepted, ?_⟩
  · rwa [repeats_of_review Story.proper_fresh hreview]
  · rw [(finish_of_accepted haccepted job freshStore 0).1,
      merge_unchanged hload hreview 0, if_neg hdeep]

/-- A field that is not, and all goes well. -/
theorem repeats_marked :
    let job : Job := ⟨"k", "1"⟩
    let draft := job.begin freshStore (markedDelivery .null) []
    ∃ s, Story.fresh.Reached ∧
      review .fresh (Json.obj (markedAnswer .null)).compact "1" = .ok (.ok s) ∧
      Repeats .fresh "1" s ∧ freshStore.load "k" = .ok (some .fresh) ∧
      draft.accepted? = some s ∧ (draft.finish job freshStore 0).store = freshStore.kept 0 "k" s := by
  intro job draft
  obtain ⟨s, hreview, haccepted, hwritable⟩ := accepted_marked .null trivial rfl
  have hload := stored_fresh.load_eq
  obtain ⟨hrepeats, hsaved⟩ := repeats_iff .fresh
  have hstore := (hsaved job freshStore freshStore (markedDelivery .null) [] 0 s hload haccepted hload).1
  rw [hwritable] at hstore
  exact ⟨s, .fresh, hreview, (hrepeats _ _ s hreview).2 hwritable, hload, haccepted, hstore⟩

end Gamebook.Service
