import Gamebook.Proofs.Service.Stored
import Gamebook.Service.Job

/-!
# What a background extension stores

* `Draft.accepted?`     : the extended story of a draft, if its answer was accepted.
* `Job.mergedWith?`, `Draft.merged?` : the story that a job stores in the end, if it stores one.
* `of_accepted`, `of_mergedWith`, `of_merged` : both come from a review.
* `finish_store`, `stored_of_merged` : the store after a job.
-/

set_option autoImplicit false

namespace Gamebook.Service

open Extension (review extendStory judge judgeText)

def Draft.accepted? : Draft → Option Story
  | .written run =>
    match run.result with
    | .ok (.ok extended) => some extended
    | _ => none
  | _ => none

/-- What is stored of an extended story: the outcome of its review against the story that is stored by
then, when it is accepted and may be written. -/
def Job.mergedWith? (job : Job) (store : Store) (extended : Story) : Option Story :=
  match store.load job.key with
  | .ok (some latest) =>
    match job.reviewAgain latest extended with
    | .ok (.ok merged) => if merged.isWritable then some merged else none
    | _ => none
  | _ => none

/-- The story that a draft ends up as in the store, if it does. -/
def Draft.merged? (draft : Draft) (job : Job) (store : Store) : Option Story :=
  draft.accepted?.bind (job.mergedWith? store)

variable {job : Job} {store : Store} {extended merged : Story}

/-- An accepted answer has been reviewed. -/
theorem of_judge {s : Story} {start : String} {placeholders : Extension.Placeholders}
    {reply : Extension.WriterReply}
    (h : judge s start placeholders reply = .ok (.ok extended)) :
    ∃ response, review s response start = .ok (.ok extended) := by
  unfold judge at h
  split at h
  · cases h
  · cases h
  · rename_i text _ _
    refine ⟨Extension.restore text placeholders, ?_⟩
    unfold judgeText at h
    split at h
    · cases h
    · cases h
    · rename_i t hreview
      split at h
      · cases h
      · cases h
        exact hreview

theorem of_extendStory {s : Story} {start : String} {delivery : Extension.Delivery}
    {clock : List Extension.Reading}
    (h : (extendStory s start delivery clock).result = .ok (.ok extended)) :
    ∃ response, review s response start = .ok (.ok extended) := by
  unfold extendStory at h
  dsimp only at h
  split at h
  · cases h
  · split at h
    · cases h
    · cases h
    · rename_i hjudge
      cases h
      exact of_judge hjudge

/-- An accepted story is the outcome of a review against the story that was stored. -/
theorem of_accepted {delivery : Extension.Delivery} {clock : List Extension.Reading}
    (h : (job.begin store delivery clock).accepted? = some extended) :
    ∃ former response, store.load job.key = .ok (some former) ∧
      review former response job.sectionId = .ok (.ok extended) := by
  unfold Job.begin at h
  split at h
  · cases h
  · cases h
  · rename_i former hload
    unfold Draft.accepted? at h
    dsimp only at h
    split at h
    · rename_i hresult
      cases h
      obtain ⟨response, hreview⟩ := of_extendStory hresult
      exact ⟨former, response, hload, hreview⟩
    · cases h

/-- An answer in one piece, about a story without embedded media, is accepted when its review accepts
it. -/
theorem accepted_of_review {former : Story} {answer : String}
    (hload : store.load job.key = .ok (some former))
    (hrequest : ∃ request, Extension.Request.build former job.sectionId none = .ok request ∧
      request.placeholders = [])
    (hblank : answer.toList.all Text.isBlank = false)
    (hreview : review former answer job.sectionId = .ok (.ok extended)) :
    (job.begin store ⟨none, [some answer], none⟩ []).accepted? = some extended := by
  obtain ⟨request, hbuild, hmedia⟩ := hrequest
  have hjoin : String.join ([some answer].map (·.getD "")) = answer := by
    simp [String.join]
  have houtcome : Extension.Delivery.outcome ⟨none, [some answer], none⟩ = .ok answer := by
    unfold Extension.Delivery.outcome
    simp only [hjoin, hblank]
    rfl
  have hreply : Extension.Delivery.reply ⟨none, [some answer], none⟩ [] =
      ⟨.ok answer, ⟨[], none⟩⟩ := by
    unfold Extension.Delivery.reply
    rw [houtcome]
    rfl
  have hjudge : judge former job.sectionId request.placeholders ⟨.ok answer, ⟨[], none⟩⟩ =
      .ok (.ok extended) := by
    have hrestore : Extension.restore answer [] = answer := by simp [Extension.restore]
    have hgraph := Extension.graph_of_review (Store.proper_of_load hload) hreview
    unfold judge judgeText
    simp only [hmedia, hrestore, hreview, hgraph]
  unfold Job.begin
  simp only [hload]
  unfold Draft.accepted? extendStory
  simp only [hbuild, hreply, hjudge]

/-! ## The second review -/

theorem reviewAgain_eq (job : Job) (latest extended : Story) :
    job.reviewAgain latest extended =
      if extended.isWritable then review latest extended.compactText job.sectionId
      else .error .tooDeep := by
  unfold Job.reviewAgain Story.writeCompact Story.write
  cases extended.isWritable with
  | true => simp only [if_true, Except.map, bind, Except.bind, Story.compactText]
  | false => simp only [Bool.false_eq_true, if_false, Except.map, bind, Except.bind]

/-- A merged story is the outcome of a review against the story that is stored by then, with the extended
story as the answer. -/
theorem of_mergedWith (h : job.mergedWith? store extended = some merged) :
    ∃ latest, store.load job.key = .ok (some latest) ∧ extended.isWritable = true ∧
      review latest extended.compactText job.sectionId = .ok (.ok merged) ∧
        merged.isWritable = true := by
  unfold Job.mergedWith? at h
  split at h
  · rename_i latest hload
    rw [reviewAgain_eq] at h
    by_cases hextended : extended.isWritable = true
    · rw [if_pos hextended] at h
      split at h
      · rename_i hreview
        split at h
        · rename_i hwritable
          cases h
          exact ⟨latest, hload, hextended, hreview, hwritable⟩
        · cases h
      · cases h
    · rw [if_neg hextended] at h
      cases h
  · cases h

theorem of_merged {draft : Draft} (h : draft.merged? job store = some merged) :
    ∃ latest response, store.load job.key = .ok (some latest) ∧
      review latest response job.sectionId = .ok (.ok merged) ∧ merged.isWritable = true := by
  obtain ⟨extended, -, hwith⟩ := Option.bind_eq_some_iff.1 h
  obtain ⟨latest, hload, -, hreview, hwritable⟩ := of_mergedWith hwith
  exact ⟨latest, extended.compactText, hload, hreview, hwritable⟩

/-- An accepted story is merged when the second review accepts it and the outcome may be written. -/
theorem merged_of_review {draft : Draft} {latest : Story} (haccepted : draft.accepted? = some extended)
    (hload : store.load job.key = .ok (some latest)) (hextended : extended.isWritable = true)
    (hreview : review latest extended.compactText job.sectionId = .ok (.ok merged))
    (hwritable : merged.isWritable = true) : draft.merged? job store = some merged := by
  have hagain : job.reviewAgain latest extended = .ok (.ok merged) := by
    rw [reviewAgain_eq, if_pos hextended, hreview]
  unfold Draft.merged? Job.mergedWith?
  simp only [haccepted, Option.bind_some, hload, hagain, if_pos hwritable]

theorem graph_of_reviewAgain {latest : Story} (hload : store.load job.key = .ok (some latest))
    (h : job.reviewAgain latest extended = .ok (.ok merged)) : merged.checkGraph = .ok () := by
  rw [reviewAgain_eq] at h
  split at h
  · exact Extension.graph_of_review (Store.proper_of_load hload) h
  · cases h

/-! ## The store after a job -/

theorem merge_store (job : Job) (store : Store) (now : Int) (extended : Story) :
    (job.merge store now extended).store =
      (job.mergedWith? store extended).elim store (store.kept now job.key) := by
  unfold Job.merge Job.mergedWith?
  cases hload : store.load job.key with
  | error e =>
    dsimp only
    split <;> rfl
  | ok found =>
    cases found with
    | none => rfl
    | some latest =>
      dsimp only
      cases hreview : job.reviewAgain latest extended with
      | error fault => rfl
      | ok verdict =>
        cases verdict with
        | error reason => rfl
        | ok merged =>
          simp only [graph_of_reviewAgain hload hreview, Store.save_eq]
          cases merged.isWritable <;> rfl

theorem finish_store (draft : Draft) (job : Job) (store : Store) (now : Int) :
    (draft.finish job store now).store =
      (draft.merged? job store).elim store (store.kept now job.key) := by
  unfold Draft.finish Draft.merged? Draft.accepted?
  cases draft with
  | noStory => rfl
  | unreadable e =>
    dsimp only
    split <;> rfl
  | written run =>
    dsimp only
    rcases run.result with cause | failure | extended
    · cases cause <;> rfl
    · rfl
    · exact merge_store job store now extended

theorem stored_of_merged {draft : Draft} (h : draft.merged? job store = some merged) (now : Int) :
    Stored job.key merged.settled (draft.finish job store now).store := by
  obtain ⟨latest, response, hload, hreview, hwritable⟩ := of_merged h
  have hproper := Extension.proper_of_review (Store.proper_of_load hload) hreview
  rw [finish_store, h]
  exact stored_kept hproper hwritable store now job.key

end Gamebook.Service
