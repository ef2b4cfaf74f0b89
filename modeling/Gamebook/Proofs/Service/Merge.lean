import Gamebook.Proofs.Extension.Answer
import Gamebook.Proofs.Service.Draft

/-!
# What a background extension makes of the play meanwhile

The extended story was written against a snapshot.  It is stored as an answer about the story that is
there by then: the state of play is that of the latter, the choices are those of the former.

* `drop_of_prefix`        : what a list holds from a place on, by a list that it begins with.
* `OnlyAppended`          : the choices beyond the played ones are those that the writer appended.
* `merged_keeps_play`     : what is stored when the story was played meanwhile.
* `removed_choice_restored` : a choice that was removed meanwhile, and is there again.
-/

set_option autoImplicit false

namespace Gamebook

/-! ## Choices -/

/-- The labels and targets of the choices of a section. -/
def Section.pairs (a : Section) : List (String × String) := a.choices.map Extension.pairOf

theorem Section.pairs_settled (a : Section) : a.settled.pairs = a.pairs := by
  unfold pairs
  rw [Story.recast_settled.choices, List.map_map]
  rfl

theorem Section.length_pairs (a : Section) : a.pairs.length = a.choices.length := List.length_map _

/-- What a list holds from a place on: what is left of a list that it begins with, and what comes behind
both. -/
theorem drop_of_prefix {α : Type} {front whole : List α} (h : front <+: whole) (place : Nat) :
    whole.drop place = front.drop place ++ whole.drop (max front.length place) := by
  obtain ⟨rest, rfl⟩ := h
  have hfront : front.drop (max front.length place) = [] :=
    List.drop_eq_nil_of_le (Nat.le_max_left _ _)
  have hplace : max front.length place - front.length = place - front.length := by omega
  rw [List.drop_append, List.drop_append, hfront, hplace, List.nil_append]

namespace Service

/-- The choices of a merged section beyond those of the section as it was played are choices that the
writer appended: choices of the extended section beyond those of the former one. -/
def OnlyAppended (former extended played merged : Section) : Prop :=
  ∀ p ∈ merged.pairs.drop played.choices.length, p ∈ extended.pairs.drop former.choices.length

/-- A merged section has the choices of the extended one, so that what was removed at the end of the
former list is there again. -/
theorem onlyAppended_iff {former extended played merged : Section}
    (hfront : former.pairs <+: extended.pairs) (hmerged : merged.pairs = extended.pairs) :
    merged.pairs.drop played.choices.length = former.pairs.drop played.choices.length ++
        extended.pairs.drop (max former.choices.length played.choices.length) ∧
      (OnlyAppended former extended played merged ↔
        ∀ p ∈ former.pairs.drop played.choices.length,
          p ∈ extended.pairs.drop former.choices.length) := by
  have hdrop := drop_of_prefix hfront played.choices.length
  rw [former.length_pairs] at hdrop
  rw [hmerged]
  refine ⟨hdrop, ?_⟩
  unfold OnlyAppended
  rw [hmerged, hdrop]
  constructor
  · intro h p hp
    exact h p (List.mem_append_left _ hp)
  · intro h p hp
    rcases List.mem_append.1 hp with hp | hp
    · exact h p hp
    · exact (List.drop_sublist_drop_left _ (Nat.le_max_left _ _)).subset hp

section Merged

variable {job : Job} {before after : Server} {former extended : Story}
  {delivery : Extension.Delivery} {clock : List Extension.Reading}

/-- A section that was played while it was extended: where it comes from, and what becomes of it. -/
theorem sections_of_mergedWith {played merged : Story} (hstored : Stored job.key played after.store)
    (hproper : extended.Proper) (hmerged : job.mergedWith? after.store extended = some merged) :
    merged.settled.state = played.state ∧
      ∀ id, merged.settled.section? id = (extended.section? id).map fun e => e.settled.settled := by
  obtain ⟨latest, hload, hwritable, hreview, -⟩ := of_mergedWith hmerged
  rw [hstored.load_eq] at hload
  cases hload
  constructor
  · have hstate := Extension.state_of_review hstored.proper hreview
    rw [hstored.settled] at hstate
    show merged.state.map PlayState.settled = played.state
    rw [hstate]
    exact congrArg Story.state hstored.settled
  · intro id
    have hsections := Extension.sections_of_rewritten hstored.proper hproper hwritable hreview
    have hid : merged.section? id = extended.settled.section? id := by
      unfold Story.section?
      rw [hsections]
    rw [Story.section?_settled, hid, Story.section?_settled, Option.map_map]
    rfl

/-- When a story was played while it was extended, and the extension is stored, the state of play is that
of the played story.  The choices of a section beyond the played ones are those that the writer appended,
behind those that play removed at the end of the former list; only appended ones they are exactly when
the writer appended each of these again. -/
theorem merged_keeps_play (hstored : Stored job.key former before.store)
    (haccepted : (job.begin before.store delivery clock).accepted? = some extended)
    (hplayed : Relation.ReflTransGen (Played job.key) before after)
    (hmerged : ((job.begin before.store delivery clock).merged? job after.store).isSome = true) :
    ∃ played merged, Stored job.key played after.store ∧
      Stored job.key merged
        ((job.begin before.store delivery clock).finish job after.store after.now).store ∧
      merged.state = played.state ∧
      ∀ id a, played.section? id = some a → ∃ f e m, former.section? id = some f ∧
        extended.section? id = some e ∧ merged.section? id = some m ∧
        m.pairs.drop a.choices.length = f.pairs.drop a.choices.length ++
          e.pairs.drop (max f.choices.length a.choices.length) ∧
        (OnlyAppended f e a m ↔
          ∀ p ∈ f.pairs.drop a.choices.length, p ∈ e.pairs.drop f.choices.length) := by
  obtain ⟨played, hafter, hreplayed⟩ := replayed_of_played hstored hplayed
  obtain ⟨merged, hmerged⟩ := Option.isSome_iff_exists.1 hmerged
  obtain ⟨_, response, hload, hreview⟩ := of_accepted haccepted
  rw [hstored.load_eq] at hload
  cases hload
  have hproper := Extension.proper_of_review hstored.proper hreview
  have hwith : job.mergedWith? after.store extended = some merged := by
    rw [← hmerged, Draft.merged?, haccepted]
    rfl
  obtain ⟨hstate, hsections⟩ := sections_of_mergedWith hafter hproper hwith
  refine ⟨played, merged.settled, hafter, stored_of_merged hmerged after.now, hstate, ?_⟩
  intro id a ha
  obtain ⟨next, hnext⟩ := hreplayed id
  rw [ha, eq_comm, Option.map_eq_some_iff] at hnext
  obtain ⟨f, hf, -⟩ := hnext
  obtain ⟨e, he, -⟩ := Extension.keptIn_of_review hstored.proper hreview id f hf
  have hm := hsections id
  rw [he, Option.map_some] at hm
  have hpairs : e.settled.settled.pairs = e.pairs := by
    rw [Section.pairs_settled, Section.pairs_settled]
  exact ⟨f, e, _, hf, he, hm, onlyAppended_iff
    (Extension.choices_of_review hstored.proper hreview hf he) hpairs⟩

end Merged

/-! ## A choice that comes back -/

/-- A section that takes one of its two choices back when it is entered. -/
def forkSection : Section :=
  (({ Section.ofLines "1" ["A fork."] with
    script := .value [⟨"REMOVE_CHOICE", some ["1"], []⟩] } : Section).addChoice "2" "Go").addChoice
      "1" "Stay"

/-- A story without anything but sections. -/
def bareStory (sections : Table Section) : Story := ⟨.absent, .absent, sections, .absent, []⟩

/-- A story of this section and an end. -/
def forkStory : Story := bareStory [("1", forkSection), ("2", .ofLines "2" ["The end."])]

/-- What a writer makes of it: a choice and a section more. -/
def climbStory : Story :=
  bareStory [("1", forkSection.addChoice "3" "Climb"), ("2", .ofLines "2" ["The end."]),
    ("3", .ofLines "3" ["A treetop."])]

theorem proper_ofLines (id : String) (lines : List String) : (Section.ofLines id lines).Proper :=
  ⟨fun _ h => (nomatch h), fun _ h => (nomatch h), fun _ h => (nomatch h), fun _ h => (nomatch h),
    ProperExtra.nil _⟩

theorem proper_forkSection : forkSection.Proper := by
  apply Story.proper_addChoice
  apply Story.proper_addChoice
  refine { proper_ofLines "1" ["A fork."] with script := ?_ }
  intro lines hlines line hline
  cases hlines
  rw [List.mem_singleton.1 hline]
  exact ProperExtra.nil _

theorem proper_bareStory {sections : Table Section} (hkeys : (Table.keys sections).Nodup)
    (h : ∀ e ∈ sections, e.2.Proper) : (bareStory sections).Proper :=
  ⟨fun _ h => (nomatch h), fun _ h => (nomatch h), ⟨hkeys, h⟩, fun _ h => (nomatch h),
    ProperExtra.nil _⟩

theorem proper_forkStory : forkStory.Proper := by
  apply proper_bareStory (by decide)
  simp only [List.forall_mem_cons]
  exact ⟨proper_forkSection, proper_ofLines _ _, List.forall_mem_nil _⟩

theorem proper_climbStory : climbStory.Proper := by
  apply proper_bareStory (by decide)
  simp only [List.forall_mem_cons]
  exact ⟨Story.proper_addChoice proper_forkSection _ _, proper_ofLines _ _, proper_ofLines _ _,
    List.forall_mem_nil _⟩

def forkServer : Server :=
  { Server.start 0 with store := ⟨[("k", ⟨none, forkStory.compactText, 0⟩)]⟩ }

/-- The extension of the first section, written meanwhile. -/
def forkDraft : Draft :=
  (⟨"k", "1"⟩ : Job).begin forkServer.store ⟨none, [some climbStory.compactText], none⟩ []

theorem stored_fork : Stored "k" forkStory forkServer.store := ⟨rfl, proper_forkStory, rfl, rfl⟩

/-- All that happens: the extension is accepted, the section is entered, and the extension is merged. -/
theorem fork_merged : ∃ after extended played merged, Played "k" forkServer after ∧
    forkDraft.accepted? = some extended ∧ Stored "k" played after.store ∧
    forkDraft.merged? ⟨"k", "1"⟩ after.store = some merged ∧
    (played.section? "1").map Section.pairs = some [("Go", "2")] ∧
    (extended.section? "1").map Section.pairs = some [("Go", "2"), ("Stay", "1"), ("Climb", "3")] ∧
    (merged.settled.section? "1").map Section.pairs =
      some [("Go", "2"), ("Stay", "1"), ("Climb", "3")] := by
  -- what the two reviews and the step of play compute
  obtain ⟨extended, hreview, u, hmoved, hwritable, merged, hextended, hagain, hmergeable, hplayed,
      hpairs⟩ :
      ∃ extended, Extension.reviewDocument forkStory climbStory.toJson "1" = .ok (.ok extended) ∧
      ∃ u, moved forkStory [] (.enter "1") = .ok u ∧ u.isWritable = true ∧
      ∃ merged, extended.isWritable = true ∧
      Extension.reviewDocument u.settled extended.toJson "1" = .ok (.ok merged) ∧
      merged.isWritable = true ∧
      (u.settled.section? "1").map Section.pairs = some [("Go", "2")] ∧
      (extended.section? "1").map Section.pairs =
        some [("Go", "2"), ("Stay", "1"), ("Climb", "3")] ∧
      (merged.settled.section? "1").map Section.pairs =
        some [("Go", "2"), ("Stay", "1"), ("Climb", "3")] :=
    ⟨_, rfl, _, rfl, rfl, _, rfl, rfl, rfl, rfl, rfl, rfl⟩
  rw [← Extension.review_written proper_climbStory rfl] at hreview
  have hproper : extended.Proper := Extension.proper_of_review proper_forkStory hreview
  have haccepted : forkDraft.accepted? = some extended :=
    accepted_of_review stored_fork.load_eq ⟨_, rfl, rfl⟩
      (Extension.not_blank_compactText climbStory) hreview
  obtain ⟨after, hstep, hstored⟩ :
      ∃ after, Played "k" forkServer after ∧ Stored "k" u.settled after.store :=
    ⟨_, .navigated forkServer [] (.enter "1"), stored_navigate stored_fork.load_eq hmoved hwritable⟩
  rw [← Extension.review_written hproper hextended] at hagain
  have hmerged : forkDraft.merged? ⟨"k", "1"⟩ after.store = some merged :=
    merged_of_review haccepted hstored.load_eq hextended hagain hmergeable
  exact ⟨after, extended, u.settled, merged, hstep, haccepted, hstored, hmerged, hplayed, hpairs⟩

/-- The choice that the section took back when it was entered is there again, though the writer appended
another one only. -/
theorem removed_choice_restored : ∃ after extended played merged f a e m,
    Played "k" forkServer after ∧ forkDraft.accepted? = some extended ∧
    Stored "k" played after.store ∧ forkDraft.merged? ⟨"k", "1"⟩ after.store = some merged ∧
    forkStory.section? "1" = some f ∧ played.section? "1" = some a ∧
    extended.section? "1" = some e ∧ merged.settled.section? "1" = some m ∧
    ¬ OnlyAppended f e a m := by
  obtain ⟨after, extended, played, merged, hstep, haccepted, hstored, hmerged, ha, he, hm⟩ := fork_merged
  obtain ⟨a, hasection, hapairs⟩ := Option.map_eq_some_iff.1 ha
  obtain ⟨e, hesection, hepairs⟩ := Option.map_eq_some_iff.1 he
  obtain ⟨m, hmsection, hmpairs⟩ := Option.map_eq_some_iff.1 hm
  refine ⟨after, extended, played, merged, forkSection, a, e, m, hstep, haccepted, hstored, hmerged,
    rfl, hasection, hesection, hmsection, ?_⟩
  intro h
  have hlength : a.choices.length = 1 := by rw [← a.length_pairs, hapairs]; rfl
  have hstay : ("Stay", "1") ∈ e.pairs.drop forkSection.choices.length := by
    apply h
    rw [hmpairs, hlength]
    decide
  rw [hepairs] at hstay
  revert hstay
  decide

theorem merged_keeps_play_fork : ∃ after extended, Stored "k" forkStory forkServer.store ∧
    forkDraft.accepted? = some extended ∧ Relation.ReflTransGen (Played "k") forkServer after ∧
    (forkDraft.merged? ⟨"k", "1"⟩ after.store).isSome = true ∧
    ∃ played merged, Stored "k" played after.store ∧
      Stored "k" merged (forkDraft.finish ⟨"k", "1"⟩ after.store after.now).store ∧
      merged.state = played.state := by
  obtain ⟨after, extended, _, _, hstep, haccepted, -, hmerged, -⟩ := fork_merged
  have hsome : (forkDraft.merged? ⟨"k", "1"⟩ after.store).isSome = true :=
    Option.isSome_of_eq_some hmerged
  obtain ⟨played, merged, hplayed, hstored, hstate, -⟩ :=
    merged_keeps_play stored_fork haccepted (.single hstep) hsome
  exact ⟨after, extended, stored_fork, haccepted, .single hstep, hsome, played, merged, hplayed,
    hstored, hstate⟩

end Service

end Gamebook
