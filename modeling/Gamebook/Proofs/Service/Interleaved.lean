import Gamebook.Proofs.Service.Merge

/-!
# Requests and extensions that interleave

While extensions of a story are being written, the story is played, answers about it are adopted, and
other extensions of it begin and finish.

* `Moment`        : a server, and the extensions that are being written.
* `Happens`       : what happens next to the story under a key.
* `kept_of_event` : whatever happens next, the sections that are stored stay stored, with their content.
* `content_kept`  : so they do in every run.
* `exists_run_of_merged` : an extension that is merged behind some play is such a run.
-/

set_option autoImplicit false

namespace Gamebook.Service

/-- A server, and the extensions of a story that are being written on it, each with its section. -/
structure Moment where
  server : Server
  drafts : List (String × Draft)

/-- What happens next to the story under a key.  An extension takes two steps, and others may happen in
between: it begins with what is stored then, and any one that has begun may finish next. -/
inductive Happens (key : String) : Moment → Moment → Prop
  | navigated (moment : Moment) (answers : List String) (m : Move) :
      Happens key moment
        { moment with server := ((navigate key answers m).run.run moment.server).2 }
  | adopted (moment : Moment) (p : Proposal) :
      Happens key moment { moment with server := ((adopt key p).run.run moment.server).2 }
  | begun (moment : Moment) (sectionId : String) (delivery : Extension.Delivery)
      (clock : List Extension.Reading) :
      Happens key moment
        { moment with
          drafts := (sectionId, (⟨key, sectionId⟩ : Job).begin moment.server.store delivery clock) ::
            moment.drafts }
  | finished (server : Server) (front back : List (String × Draft)) (sectionId : String)
      (draft : Draft) :
      Happens key ⟨server, front ++ (sectionId, draft) :: back⟩
        ⟨{ server with store := (draft.finish ⟨key, sectionId⟩ server.store server.now).store },
          front ++ back⟩
  | waited (moment : Moment) (now : Int) :
      Happens key moment { moment with server := { moment.server with now := now } }

variable {key : String} {s : Story}

/-! ## One step -/

/-- A story that keeps another one, once it is stored. -/
theorem kept_of_keptIn {u : Story} (hproper : u.Proper) (hwritable : u.isWritable = true)
    (hkept : s.KeptIn u) (store : Store) (now : Int) :
    ∃ t, (store.kept now key u).load key = .ok (some t) ∧ s.KeptIn t :=
  ⟨u.settled, (stored_kept hproper hwritable store now key).load_eq, hkept.settled⟩

theorem kept_of_navigate (answers : List String) (m : Move) {server : Server}
    (hload : server.store.load key = .ok (some s)) :
    ∃ t, ((navigate key answers m).run.run server).2.store.load key = .ok (some t) ∧
      s.KeptIn t := by
  have hs : s.Proper := Store.proper_of_load hload
  obtain hsame | ⟨u, hproper, hwritable, hreplayed, hstore⟩ := store_navigate answers m hload
  · rw [hsame]
    exact ⟨s, hload, .refl hs⟩
  · rw [hstore]
    exact kept_of_keptIn hproper hwritable (hreplayed.keptIn hs hproper) server.store server.now

theorem kept_of_adopt (p : Proposal) {server : Server}
    (hload : server.store.load key = .ok (some s)) :
    ∃ t, ((adopt key p).run.run server).2.store.load key = .ok (some t) ∧ s.KeptIn t := by
  have hs : s.Proper := Store.proper_of_load hload
  obtain hsame | ⟨u, hu, hwritable, hstore⟩ :=
    store_update (adopted · p) (fun t => .adopted t.view) hload
  · rw [adopt_eq_update, hsame]
    exact ⟨s, hload, .refl hs⟩
  · obtain ⟨extended, hreview, rfl⟩ := of_adopted hu
    have hproper := Extension.proper_of_review hs hreview
    -- the start of play leaves the sections as they are
    have hkept : s.KeptIn extended.started := fun id => Extension.keptIn_of_review hs hreview id
    rw [adopt_eq_update, hstore]
    exact kept_of_keptIn (Story.proper_started hproper) hwritable hkept server.store server.now

/-- However the draft came about, a job stores nothing, or a story that keeps the stored one. -/
theorem kept_of_finish (draft : Draft) (sectionId : String) {store : Store} (now : Int)
    (hload : store.load key = .ok (some s)) :
    ∃ t, (draft.finish ⟨key, sectionId⟩ store now).store.load key = .ok (some t) ∧ s.KeptIn t := by
  have hs : s.Proper := Store.proper_of_load hload
  rw [finish_store]
  cases hmerged : draft.merged? ⟨key, sectionId⟩ store with
  | none => exact ⟨s, hload, .refl hs⟩
  | some merged =>
    obtain ⟨latest, response, hlatest, hreview, hwritable⟩ := of_merged hmerged
    cases hload.symm.trans hlatest
    exact kept_of_keptIn (Extension.proper_of_review hs hreview) hwritable
      (Extension.keptIn_of_review hs hreview) store now

/-- Whatever happens next, the sections that are stored stay stored, with their content. -/
theorem kept_of_event {before after : Moment} (h : Happens key before after)
    (hload : before.server.store.load key = .ok (some s)) :
    ∃ t, after.server.store.load key = .ok (some t) ∧ s.KeptIn t := by
  have hs : s.Proper := Store.proper_of_load hload
  cases h with
  | navigated _ answers m => exact kept_of_navigate answers m hload
  | adopted _ p => exact kept_of_adopt p hload
  | begun => exact ⟨s, hload, .refl hs⟩
  | finished server front back sectionId draft => exact kept_of_finish draft sectionId server.now hload
  | waited => exact ⟨s, hload, .refl hs⟩

/-! ## Every run -/

/-- From each point of a run to each later one, the sections that are stored stay stored, with their
content. -/
theorem content_kept {before after : Moment} (hrun : Relation.ReflTransGen (Happens key) before after)
    (hload : before.server.store.load key = .ok (some s)) :
    ∃ t, after.server.store.load key = .ok (some t) ∧ s.KeptIn t := by
  have hs : s.Proper := Store.proper_of_load hload
  induction hrun with
  | refl => exact ⟨s, hload, .refl hs⟩
  | tail _ hstep ih =>
    obtain ⟨t, ht, hst⟩ := ih
    obtain ⟨u, hu, htu⟩ := kept_of_event hstep ht
    exact ⟨u, hu, hst.trans hs (Store.proper_of_load ht) (Store.proper_of_load hu) htu⟩

/-- Play, while an extension that began before is being written. -/
theorem happens_of_played {before after : Server}
    (h : Relation.ReflTransGen (Played key) before after) (drafts : List (String × Draft)) :
    Relation.ReflTransGen (Happens key) ⟨before, drafts⟩ ⟨after, drafts⟩ := by
  induction h with
  | refl => exact .refl
  | tail _ hstep ih =>
    refine ih.tail ?_
    cases hstep with
    | navigated answers m => exact .navigated ⟨_, drafts⟩ answers m
    | waited now => exact .waited ⟨_, drafts⟩ now

/-- An extension that is merged behind some play is such a run. -/
theorem exists_run_of_merged {job : Job} {before after : Server} {delivery : Extension.Delivery}
    {clock : List Extension.Reading} {merged : Story}
    (hplayed : Relation.ReflTransGen (Played job.key) before after)
    (hmerged : (job.begin before.store delivery clock).merged? job after.store = some merged) :
    ∃ moment : Moment, Relation.ReflTransGen (Happens job.key) ⟨before, []⟩ moment ∧
      moment.server.store.load job.key = .ok (some merged.settled) := by
  have hbegun := Relation.ReflTransGen.single
    (Happens.begun ⟨before, []⟩ job.sectionId delivery clock : Happens job.key _ _)
  have hrun := (hbegun.trans (happens_of_played hplayed _)).tail
    (.finished after [] [] job.sectionId _)
  exact ⟨_, hrun, (stored_of_merged hmerged after.now).load_eq⟩

/-- The run in which a choice comes back keeps the sections, too. -/
theorem content_kept_fork : ∃ after, Relation.ReflTransGen (Happens "k") ⟨forkServer, []⟩ after ∧
    forkServer.store.load "k" = .ok (some forkStory) ∧
    ∃ t, after.server.store.load "k" = .ok (some t) ∧ forkStory.KeptIn t ∧
      (t.section? "1").map Section.pairs = some [("Go", "2"), ("Stay", "1"), ("Climb", "3")] := by
  obtain ⟨_, _, _, merged, hstep, -, -, hmerged, -, -, hpairs⟩ := fork_merged
  obtain ⟨after, hrun, hlast⟩ : ∃ after : Moment,
      Relation.ReflTransGen (Happens "k") ⟨forkServer, []⟩ after ∧
        after.server.store.load "k" = .ok (some merged.settled) :=
    exists_run_of_merged (.single hstep) hmerged
  obtain ⟨t, ht, hkept⟩ := content_kept hrun stored_fork.load_eq
  cases hlast.symm.trans ht
  exact ⟨after, hrun, stored_fork.load_eq, _, ht, hkept, hpairs⟩

end Gamebook.Service
