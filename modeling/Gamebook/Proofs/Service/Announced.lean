import Gamebook.Proofs.Service.Draft

/-!
# What is announced of a background extension

* `Truthful`                  : the announcements tell whether the extended story was saved.
* `events_extendStory`        : what is announced while the writer is at work.
* `isTerminal_announced`      : nothing is announced as ended before the writer is done.
* `Ends`, `finish_ends`       : what is announced at the end of a job.
* `truthful_iff`              : the jobs whose announcements are truthful.
* `deleted_not_truthful`      : a story that is deleted meanwhile, and announced as extended.
-/

set_option autoImplicit false

namespace Gamebook.Service

open Extension (extendStory)

/-- Completion is announced only of a story that was saved, and a job that saved none announces a failure
as the last event. -/
structure Truthful (events : List ExtensionEvent) (saved : Prop) : Prop where
  complete : ∀ id newSections, .complete id newSections ∈ events → saved
  failed : ¬ saved → ∃ id message, events.getLast? = some (.failed id message)

/-- The events of a job, from its beginning to its end. -/
def Draft.events (draft : Draft) (job : Job) (store : Store) (now : Int) : List ExtensionEvent :=
  draft.announced ++ (draft.finish job store now).events

variable {job : Job} {store later : Store} {delivery : Extension.Delivery}
  {clock : List Extension.Reading} {now : Int}

/-! ## The events of the writing -/

/-- The event that ends the writing, if one does. -/
def lastWord (s : Story) (start : String) :
    Except Extension.Break Extension.Result → List ExtensionEvent
  | .ok (.ok extended) => [.complete start (Extension.newSections s extended)]
  | .ok (.error failure) => [.failed start failure.announcement]
  | .error _ => []

/-- What is announced of the writing: only that it started when there is no request, or else the lengths
that were reported, too, and how it ended. -/
theorem events_extendStory (s : Story) (start : String) (delivery : Extension.Delivery)
    (clock : List Extension.Reading) :
    let run := extendStory s start delivery clock
    (∃ e, run.result = .error (.prompt e) ∧ run.events = [.started start]) ∨
      run.events = .started start :: (delivery.progress clock).lengths.map (.progress start) ++
        lastWord s start run.result := by
  unfold extendStory
  dsimp only
  split
  · exact .inl ⟨_, rfl, rfl⟩
  · refine .inr ?_
    split
    · exact (List.append_nil _).symm
    · rfl
    · rfl

theorem isTerminal_lastWord (s : Story) (start : String)
    (result : Except Extension.Break Extension.Result) :
    ∀ e ∈ lastWord s start result, e.isTerminal = true := by
  rcases result with cause | failure | extended
  · exact List.forall_mem_nil _
  · exact List.forall_mem_singleton.2 rfl
  · exact List.forall_mem_singleton.2 rfl

theorem terminal_extendStory (s : Story) (start : String) (delivery : Extension.Delivery)
    (clock : List Extension.Reading) :
    (extendStory s start delivery clock).events.filter ExtensionEvent.isTerminal =
      lastWord s start (extendStory s start delivery clock).result := by
  rcases events_extendStory s start delivery clock with ⟨e, hresult, hevents⟩ | hevents
  · rw [hevents, hresult]
    rfl
  · have hbefore : (ExtensionEvent.started start ::
        (delivery.progress clock).lengths.map (.progress start)).filter
          ExtensionEvent.isTerminal = [] := by
      rw [List.filter_eq_nil_iff, List.forall_mem_cons, List.forall_mem_map]
      exact ⟨Bool.false_ne_true, fun _ _ => Bool.false_ne_true⟩
    rw [hevents, List.filter_append, hbefore, List.nil_append]
    exact List.filter_eq_self.2 (isTerminal_lastWord s start _)

/-- Before the writer is done neither completion nor failure is announced. -/
theorem isTerminal_announced (draft : Draft) :
    ∀ e ∈ draft.announced, e.isTerminal = false := by
  intro e he
  unfold Draft.announced at he
  split at he
  · simpa using (List.mem_filter.1 he).2
  · cases he

/-! ## The end of a job -/

/-- What a job announces at its end, by the answer that was accepted: a failure, nothing when it breaks
off, or completion before all else. -/
inductive Ends (sectionId : String) : Option Story → Ending → Prop
  | failed (store : Store) (message : String) :
      Ends sectionId none ⟨store, [.failed sectionId message], none⟩
  | broken (store : Store) (fault : Fault) : Ends sectionId none ⟨store, [], some fault⟩
  | completed (extended : Story) (newSections : List String) (ending : Ending) :
      Ends sectionId (some extended)
        { ending with events := .complete sectionId newSections :: ending.events }

/-- Every job ends in one of these ways. -/
theorem finish_ends (job : Job) (store later : Store) (delivery : Extension.Delivery)
    (clock : List Extension.Reading) (now : Int) :
    Ends job.sectionId (job.begin store delivery clock).accepted?
      ((job.begin store delivery clock).finish job later now) := by
  unfold Job.begin
  split
  · rename_i e _
    unfold Draft.finish
    dsimp only
    split
    · exact .broken later _
    · exact .failed later _
  · exact .failed later _
  · rename_i former _
    have hlast := terminal_extendStory former job.sectionId delivery clock
    generalize extendStory former job.sectionId delivery clock = run at hlast ⊢
    unfold Draft.accepted? Draft.finish
    dsimp only
    rw [hlast]
    rcases run.result with cause | failure | extended
    · cases cause with
      | prompt e => exact .broken later _
      | clock e => exact .broken later _
      | review e => exact .broken later _
      | graph e => exact .failed later _
    · exact .failed later _
    · exact .completed extended _ (job.merge later now extended)

/-- An accepted answer is announced as completion. -/
theorem complete_mem_of_accepted {extended : Story}
    (h : (job.begin store delivery clock).accepted? = some extended) (later : Store) (now : Int) :
    ∃ newSections, .complete job.sectionId newSections ∈
      (job.begin store delivery clock).events job later now := by
  have hends := finish_ends job store later delivery clock now
  rw [h] at hends
  unfold Draft.events
  generalize (job.begin store delivery clock).finish job later now = ending at hends ⊢
  cases hends with
  | completed _ newSections rest =>
    exact ⟨newSections, List.mem_append_right _ List.mem_cons_self⟩

theorem fault_of_mergedWith {extended merged : Story}
    (h : job.mergedWith? later extended = some merged) :
    (job.merge later now extended).fault = none := by
  obtain ⟨latest, hload, hextended, hreview, hwritable⟩ := of_mergedWith h
  have hagain : job.reviewAgain latest extended = .ok (.ok merged) := by
    rw [reviewAgain_eq, if_pos hextended, hreview]
  unfold Job.merge
  simp only [hload, hagain, graph_of_reviewAgain hload hagain, Store.save_eq, if_pos hwritable]

/-- A job that stores a story does not break off. -/
theorem fault_of_merged {draft : Draft} {merged : Story} (h : draft.merged? job later = some merged) :
    (draft.finish job later now).fault = none := by
  obtain ⟨extended, haccepted, hmerged⟩ := Option.bind_eq_some_iff.1 h
  unfold Draft.accepted? at haccepted
  split at haccepted
  · rename_i run
    split at haccepted
    · rename_i hresult
      cases haccepted
      unfold Draft.finish
      simp only [hresult]
      exact fault_of_mergedWith hmerged
    · cases haccepted
  · cases haccepted

/-! ## Truthful announcements -/

/-- The announcements of a job are truthful exactly when it does not break off and every accepted story is
stored in the end. -/
theorem truthful_iff (job : Job) (store later : Store) (delivery : Extension.Delivery)
    (clock : List Extension.Reading) (now : Int) :
    let draft := job.begin store delivery clock
    let ending := draft.finish job later now
    ending.store = (draft.merged? job later).elim later (later.kept now job.key) ∧
      (Truthful (draft.events job later now) ((draft.merged? job later).isSome = true) ↔
        ending.fault = none ∧
          (draft.accepted?.isSome = true → (draft.merged? job later).isSome = true)) := by
  intro draft ending
  refine ⟨finish_store draft job later now, ?_⟩
  show Truthful (draft.announced ++ ending.events) _ ↔ _
  have hannounced : ∀ e ∈ draft.announced, e.isTerminal = false := isTerminal_announced draft
  have hfault (hsaved : (draft.merged? job later).isSome = true) : ending.fault = none := by
    obtain ⟨merged, hmerged⟩ := Option.isSome_iff_exists.1 hsaved
    exact fault_of_merged hmerged
  have hends : Ends job.sectionId draft.accepted? ending :=
    finish_ends job store later delivery clock now
  have hunsaved (hnone : draft.accepted? = none) : ¬ (draft.merged? job later).isSome = true := by
    simp [Draft.merged?, hnone]
  generalize draft.accepted? = accepted at hends hunsaved ⊢
  generalize ending = last at hends hfault ⊢
  cases hends with
  | failed after message =>
    refine iff_of_true ⟨?_, ?_⟩ ⟨rfl, fun h => by cases h⟩
    · intro id newSections hmem
      rcases List.mem_append.1 hmem with hmem | hmem
      · cases hannounced _ hmem
      · cases List.mem_singleton.1 hmem
    · intro _
      exact ⟨_, _, List.getLast?_concat⟩
  | broken after fault =>
    refine iff_of_false ?_ (fun h => by cases h.1)
    intro h
    obtain ⟨id, message, hlast⟩ := h.failed (hunsaved rfl)
    rw [List.append_nil] at hlast
    cases hannounced _ (List.mem_of_getLast? hlast)
  | completed extended newSections rest =>
    -- completion is announced, so that all depends on whether the story is saved
    constructor
    · intro h
      have hsaved := h.complete job.sectionId newSections (List.mem_append_right _ List.mem_cons_self)
      exact ⟨hfault hsaved, fun _ => hsaved⟩
    · rintro ⟨-, hsaved⟩
      exact ⟨fun _ _ _ => hsaved rfl, fun h => absurd (hsaved rfl) h⟩

def freshStore : Store := ⟨[("k", ⟨none, Story.fresh.compactText, 0⟩)]⟩

theorem stored_fresh : Stored "k" .fresh freshStore := ⟨rfl, Story.proper_fresh, rfl, rfl⟩

theorem accepted_grown : ∃ extended,
    ((⟨"k", "1"⟩ : Job).begin freshStore ⟨none, [some Extension.grownAnswer], none⟩ []).accepted? =
      some extended := by
  obtain ⟨extended, hreview, -⟩ := Extension.review_grown
  have hblank : Extension.grownAnswer.toList.all Text.isBlank = false := by
    rw [Extension.grownAnswer_toList]
    rfl
  exact ⟨extended, accepted_of_review stored_fresh.load_eq ⟨_, rfl, rfl⟩ hblank hreview⟩

/-- A story that is deleted while it is extended is announced as extended all the same. -/
theorem deleted_not_truthful :
    let job : Job := ⟨"k", "1"⟩
    let draft := job.begin freshStore ⟨none, [some Extension.grownAnswer], none⟩ []
    ¬ Truthful (draft.events job .empty 0) ((draft.merged? job .empty).isSome = true) := by
  intro job draft h
  obtain ⟨extended, haccepted⟩ := accepted_grown
  obtain ⟨newSections, hmem⟩ := complete_mem_of_accepted haccepted .empty 0
  have hsaved := h.complete job.sectionId newSections hmem
  have hunsaved : draft.merged? job .empty = none := by
    unfold Draft.merged?
    rw [haccepted]
    rfl
  rw [hunsaved] at hsaved
  cases hsaved

end Gamebook.Service
