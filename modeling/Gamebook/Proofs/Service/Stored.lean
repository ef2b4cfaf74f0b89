import Gamebook.Proofs.Extension.Content
import Gamebook.Proofs.Service.Session
import Mathlib.Logic.Relation

/-!
# A stored story from request to request

* `Stored`          : a story is stored under a key as the service writes it.
* `stored_placed`   : so it is behind a request that creates or replaces one.
* `store_update`    : what a request that changes a stored story leaves behind.
* `store_navigate`  : what a step of play does.
* `Played`          : a step of play on a stored story, or some time that passes.
* `replayed_of_played` : what is stored behind any number of these.
-/

set_option autoImplicit false

namespace Gamebook

/-- A settled story stays the same when it is written and loaded again. -/
theorem Story.settled_settled (s : Story) : s.settled.settled = s.settled :=
  storyCodec_lawful.settled_settled s

theorem Story.proper_settled {s : Story} (h : s.Proper) : s.settled.Proper :=
  storyCodec_lawful.proper_settled s h

theorem Story.settled_section {s : Story} (h : s.settled = s) {id : String} {a : Section}
    (ha : s.section? id = some a) : a.settled = a := by
  have hsettled := s.section?_settled id
  rw [h, ha, Option.map_some, Option.some.injEq] at hsettled
  exact hsettled.symm

namespace Story.Replayed

variable {s t u : Story}

theorem trans (hst : s.Replayed t) (htu : t.Replayed u) : s.Replayed u := by
  intro id
  obtain ⟨next, hnext⟩ := hst id
  obtain ⟨after, hafter⟩ := htu id
  refine ⟨after, ?_⟩
  rw [hafter, hnext, Option.map_map]
  rfl

theorem settled (hs : s.settled = s) (h : s.Replayed t) : s.Replayed t.settled := by
  intro id
  obtain ⟨next, hnext⟩ := h id
  refine ⟨next.map fun choices => choices.map Choice.settled, ?_⟩
  rw [section?_settled, hnext]
  cases ha : s.section? id with
  | none => rfl
  | some a =>
    show some ({ a.settled with next := _ } : Section) = some { a with next := _ }
    rw [settled_section hs ha]

end Story.Replayed

/-! ## Records -/

namespace Store

def kept (store : Store) (now : Int) (key : String) (s : Story) : Store :=
  ⟨store.records.put key ⟨s.title?, s.compactText, now⟩⟩

theorem save_eq {s : Story} (store : Store) (now : Int) (key : String) :
    store.save now key s =
      if s.isWritable then .ok (store.kept now key s) else .error .tooDeep := by
  unfold save Story.writeCompact Story.write
  split <;> rfl

/-- The store does not tell a story from what becomes of it by writing and loading. -/
theorem kept_settled (store : Store) (now : Int) (key : String) (s : Story) :
    store.kept now key s.settled = store.kept now key s := by
  unfold kept Story.compactText
  rw [s.toJson_settled, Service.title?_settled]

theorem proper_of_load {store : Store} {key : String} {s : Story}
    (h : store.load key = .ok (some s)) : s.Proper := by
  unfold load at h
  split at h
  · cases h
  · rename_i record hrecord
    cases htext : Story.ofText record.text with
    | error e =>
      rw [htext] at h
      cases h
    | ok t =>
      rw [htext] at h
      cases h
      exact Story.proper_of_text htext

end Store

namespace Service

/-- A story is stored under a key: its text is there, and loads as the story. -/
structure Stored (key : String) (s : Story) (store : Store) : Prop where
  text : (store.record? key).map Record.text = some s.compactText
  proper : s.Proper
  writable : s.isWritable = true
  settled : s.settled = s

variable {key : String} {s : Story}

theorem Stored.load_eq {store : Store} (h : Stored key s store) :
    store.load key = .ok (some s) := by
  have hload := load_of_text h.text h.proper h.writable
  rwa [h.settled] at hload

theorem stored_kept (hproper : s.Proper) (hwritable : s.isWritable = true) (store : Store) (now : Int)
    (key : String) : Stored key s.settled (store.kept now key s) where
  text := by
    unfold Store.kept Store.record? Story.compactText
    rw [Table.get?_put, if_pos rfl, s.toJson_settled]
    rfl
  proper := Story.proper_settled hproper
  writable := (isWritable_settled s).trans hwritable
  settled := s.settled_settled

/-- A request that creates or replaces a story leaves it stored at the start of its play. -/
theorem stored_placed {before after : Server} (h : Placed key s before after) :
    Stored key s.started.settled after.store := by
  obtain ⟨hproper, -, hwritable, server, rfl⟩ := kept_of_placed h
  exact stored_kept (Story.proper_started hproper) hwritable server.store server.now key

/-! ## Requests that change a stored story -/

/-- Changes a stored story, and answers with the changed one. -/
def update (key : String) (change : Story → Except Failure Story) (answer : Story → Response) :
    Action Response := do
  let t ← attempt (change (← stored key))
  keep key t
  return answer t

theorem navigate_eq_update (key : String) (answers : List String) (m : Move) :
    navigate key answers m = update key (moved · answers m) fun t => .view t.view := rfl

theorem adopt_eq_update (key : String) (p : Proposal) :
    adopt key p = update key (adopted · p) fun t => .adopted t.view := rfl

/-- A change that is refused, or whose outcome cannot be written, stores nothing. -/
theorem run_update (change : Story → Except Failure Story) (answer : Story → Response)
    {server : Server} (hload : server.store.load key = .ok (some s)) :
    (update key change answer).run.run server =
      match change s with
      | .error failure => (.error failure, server)
      | .ok u =>
        if u.isWritable then (.ok (answer u), server.kept key u)
        else (.error (.broken (.write .tooDeep)), server) := by
  unfold update
  rw [run_bind, run_stored hload]
  dsimp only
  rw [run_bind, run_attempt]
  cases change s with
  | error failure => rfl
  | ok u =>
    dsimp only
    rw [run_bind]
    by_cases hwritable : u.isWritable = true
    · rw [run_keep key hwritable, if_pos hwritable]
      rfl
    · rw [run_keep_refused key hwritable, if_neg hwritable]

theorem store_update (change : Story → Except Failure Story) (answer : Story → Response)
    {server : Server} (hload : server.store.load key = .ok (some s)) :
    ((update key change answer).run.run server).2.store = server.store ∨
      ∃ u, change s = .ok u ∧ u.isWritable = true ∧
        ((update key change answer).run.run server).2.store =
          server.store.kept server.now key u := by
  rw [run_update change answer hload]
  cases hchange : change s with
  | error failure => exact .inl rfl
  | ok u =>
    dsimp only
    split
    · rename_i hwritable
      exact .inr ⟨u, rfl, hwritable, rfl⟩
    · exact .inl rfl

theorem of_live {p : Answered} {t : Story} (h : live p = .ok t) : p.story = some t := by
  unfold live at h
  cases hstory : p.story with
  | none =>
    rw [hstory] at h
    cases h
  | some u =>
    rw [hstory] at h
    cases h
    rfl

/-- A step of play on a stored story keeps what play keeps. -/
theorem of_moved {P : Story → Prop} (hP : Story.Invariant P) (hs : P s.started)
    {answers : List String} {m : Move} {t : Story} (h : moved s answers m = .ok t) : P t := by
  unfold moved setUp Player.load at h
  dsimp only at h
  by_cases hsections : s.sections.isEmpty = true
  · rw [if_pos hsections] at h
    cases h
  · rw [if_neg hsections] at h
    have hmove := hP.move (some .ofAnswers)
      (p := (⟨some s.started, answers.map some, [], []⟩ : Answered)) (by rintro _ ⟨⟩; exact hs) m
    simp only [bind, Except.bind, Player.idle] at h
    revert hmove h
    generalize (⟨some s.started, answers.map some, [], []⟩ : Answered).move (some .ofAnswers) m = step
    obtain ⟨p, result⟩ := step
    intro h hmove
    cases result with
    | error e => cases h
    | ok u => exact hmove t (of_live h)

/-- A story that was adopted is a reviewed one at the start of its play. -/
theorem of_adopted {p : Proposal} {t : Story} (h : adopted s p = .ok t) :
    ∃ extended, Extension.review s p.response p.section_.id = .ok (.ok extended) ∧
      t = extended.started := by
  unfold adopted at h
  cases hreview : Extension.review s p.response p.section_.id with
  | error fault =>
    rw [hreview] at h
    cases h
  | ok verdict =>
    rw [hreview] at h
    cases verdict with
    | error reason => cases h
    | ok extended =>
      refine ⟨extended, rfl, ?_⟩
      simp only [written, Except.mapError, bind, Except.bind] at h
      split at h
      · cases h
      · exact (of_opened h).2

/-! ## Play -/

/-- A step of play on the story under a key, carried out or refused, or some time that passes. -/
inductive Played (key : String) : Server → Server → Prop
  | navigated (server : Server) (answers : List String) (m : Move) :
      Played key server ((navigate key answers m).run.run server).2
  | waited (server : Server) (now : Int) : Played key server { server with now := now }

/-- A step of play stores nothing, or a story that differs in the choices of its sections only. -/
theorem store_navigate (answers : List String) (m : Move) {server : Server}
    (hload : server.store.load key = .ok (some s)) :
    ((navigate key answers m).run.run server).2.store = server.store ∨
      ∃ u, u.Proper ∧ u.isWritable = true ∧ s.Replayed u ∧
        ((navigate key answers m).run.run server).2.store =
          server.store.kept server.now key u := by
  obtain hsame | ⟨u, hu, hwritable, hstore⟩ :=
    store_update (moved · answers m) (fun t => .view t.view) hload
  · exact .inl hsame
  · have hproper : u.Proper :=
      of_moved Story.invariant_proper (Story.proper_started (Store.proper_of_load hload)) hu
    have hreplayed : s.Replayed u :=
      of_moved (Story.invariant_replayed s) (Story.Replayed.refl s) hu
    exact .inr ⟨u, hproper, hwritable, hreplayed, hstore⟩

/-- A step that is carried out stores the story as it is then. -/
theorem stored_navigate {answers : List String} {m : Move} {server : Server} {u : Story}
    (hload : server.store.load key = .ok (some s)) (hmoved : moved s answers m = .ok u)
    (hwritable : u.isWritable = true) :
    Stored key u.settled ((navigate key answers m).run.run server).2.store := by
  have hproper : u.Proper :=
    of_moved Story.invariant_proper (Story.proper_started (Store.proper_of_load hload)) hmoved
  rw [navigate_eq_update, run_update _ _ hload, hmoved]
  dsimp only
  rw [if_pos hwritable]
  exact stored_kept hproper hwritable server.store server.now key

/-- A step of play leaves a story stored that differs in the choices of its sections only. -/
theorem replayed_of_step {before after : Server} (hstored : Stored key s before.store)
    (h : Played key before after) : ∃ t, Stored key t after.store ∧ s.Replayed t := by
  cases h with
  | waited now => exact ⟨s, hstored, .refl s⟩
  | navigated answers m =>
    obtain hsame | ⟨u, hproper, hwritable, hreplayed, hstore⟩ :=
      store_navigate answers m hstored.load_eq
    · rw [hsame]
      exact ⟨s, hstored, .refl s⟩
    · rw [hstore]
      exact ⟨u.settled, stored_kept hproper hwritable before.store before.now key,
        hreplayed.settled hstored.settled⟩

/-- So do any number of steps. -/
theorem replayed_of_played {before after : Server} (hstored : Stored key s before.store)
    (h : Relation.ReflTransGen (Played key) before after) :
    ∃ t, Stored key t after.store ∧ s.Replayed t := by
  induction h with
  | refl => exact ⟨s, hstored, .refl s⟩
  | tail _ hstep ih =>
    obtain ⟨t, ht, hst⟩ := ih
    obtain ⟨u, hu, htu⟩ := replayed_of_step ht hstep
    exact ⟨u, hu, hst.trans htu⟩

end Service

end Gamebook
