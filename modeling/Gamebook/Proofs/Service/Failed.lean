import Gamebook.Proofs.Script.Interrupted
import Gamebook.Proofs.Service.Stored

/-!
# Failed requests

A request may fail at many points: at the stored text, at the start of play, in the middle of a script,
in a review, when the story is written.  At whichever it fails, nothing was stored before; and once a
story was stored, nothing is left that can fail.

* `Reads`, `Atomic`        : actions that leave the store alone, always or when they fail.
* `Call`, `Call.action`    : what can be asked of the service about stories, and how it is done.
* `Ready`, `Call.prepare?` : what is ready before a story is stored; the story is stored then, and its
  player shows it.
* `keep_then_answer`         : behind the storing nothing fails.
* `failed_request_keeps_store`, `failed_call_keeps_store` : every request, and every call.
-/

set_option autoImplicit false

namespace Gamebook.Service

section Actions

variable {α β : Type} {x : Action α} {f : α → Action β}

/-- An action that leaves the store alone. -/
def Reads (x : Action α) : Prop := ∀ server, (x.run.run server).2.store = server.store

/-- An action that leaves the store alone if it fails. -/
def Atomic (x : Action α) : Prop :=
  ∀ server failure, (x.run.run server).1 = .error failure → (x.run.run server).2.store = server.store

theorem Reads.atomic (h : Reads x) : Atomic x := fun server _ _ => h server

theorem reads_pure (a : α) : Reads (pure a : Action α) := fun _ => rfl

theorem reads_attempt (outcome : Except Failure α) : Reads (attempt outcome) := by
  intro server
  rw [run_attempt]

theorem reads_throw (failure : Failure) : Reads (throw failure : Action α) := fun _ => rfl

/-- What follows an action, carried out where the action was. -/
theorem bind_cases (x : Action α) (f : α → Action β) (server : Server) :
    (∃ failure, (x.run.run server).1 = .error failure ∧
      (x >>= f).run.run server = (.error failure, (x.run.run server).2)) ∨
    ∃ a, (x.run.run server).1 = .ok a ∧
      (x >>= f).run.run server = (f a).run.run (x.run.run server).2 := by
  rw [run_bind]
  rcases x.run.run server with ⟨outcome, after⟩
  cases outcome with
  | error failure => exact .inl ⟨failure, rfl, rfl⟩
  | ok a => exact .inr ⟨a, rfl, rfl⟩

theorem Reads.bind (hx : Reads x) (hf : ∀ a, Reads (f a)) : Reads (x >>= f) := by
  intro server
  obtain ⟨failure, -, hrun⟩ | ⟨a, -, hrun⟩ := bind_cases x f server
  · rw [hrun]
    exact hx server
  · rw [hrun, hf a, hx server]

/-- Nothing is stored before the rest begins. -/
theorem Reads.bind_atomic (hx : Reads x) (hf : ∀ a, Atomic (f a)) : Atomic (x >>= f) := by
  intro server failure h
  obtain ⟨_, -, hrun⟩ | ⟨a, -, hrun⟩ := bind_cases x f server
  · rw [hrun]
    exact hx server
  · rw [hrun] at h ⊢
    rw [hf a _ failure h, hx server]

/-- Nothing fails behind what was carried out. -/
theorem Atomic.bind_succeeds (hx : Atomic x)
    (hf : ∀ before a after, x.run.run before = (.ok a, after) →
      ∃ b last, (f a).run.run after = (.ok b, last)) : Atomic (x >>= f) := by
  intro server failure h
  obtain ⟨_, hfailed, hrun⟩ | ⟨a, hok, hrun⟩ := bind_cases x f server
  · rw [hrun]
    exact hx server _ hfailed
  · obtain ⟨b, last, hb⟩ := hf server a _ (Prod.ext hok rfl)
    rw [hrun, hb] at h
    cases h

theorem attempt_bind (outcome : Except Failure α) (f : α → Except Failure β) :
    attempt (outcome >>= f) = attempt outcome >>= fun a => attempt (f a) := by
  cases outcome <;> rfl

end Actions

/-! ## The parts of a request -/

theorem reads_get : Reads (get : Action Server) := fun _ => rfl

theorem reads_stored (key : String) : Reads (stored key) := by
  refine reads_get.bind fun server => ?_
  split
  · exact reads_throw _
  · exact reads_throw _
  · exact reads_pure _

/-- A key that is made up is counted, which is not stored. -/
theorem reads_makeKey : Reads makeKey := fun _ => rfl

theorem reads_checkFree (key : String) : Reads (checkFree key) := by
  refine reads_get.bind fun server => ?_
  split
  · exact reads_throw _
  · exact reads_pure _
  · exact reads_throw _

theorem reads_keyFor (key : Option String) : Reads (keyFor key) := by
  cases key with
  | none => exact reads_makeKey
  | some key =>
    unfold keyFor
    dsimp only
    split
    · exact reads_makeKey
    · exact (reads_checkFree key).bind fun _ => reads_pure key

theorem atomic_keep (key : String) (s : Story) : Atomic (keep key s) := by
  intro server failure h
  by_cases hwritable : s.isWritable = true
  · rw [run_keep key hwritable] at h
    cases h
  · rw [run_keep_refused key hwritable]

theorem atomic_delete (key : String) : Atomic (delete key) := by
  refine reads_get.bind_atomic fun server => ?_
  dsimp only
  split
  · rintro _ _ ⟨⟩
  · exact (reads_throw _).atomic

theorem reads_view (key : String) : Reads (view key) :=
  (reads_stored key).bind fun s => (reads_attempt (opened s)).bind fun _ =>
    (reads_attempt _).bind fun _ => reads_pure _

theorem reads_read (key : String) : Reads (read key) :=
  (reads_stored key).bind fun _ => (reads_attempt _).bind fun _ => reads_pure _

theorem reads_readThrough (key : String) (j : Journey) : Reads (readThrough key j) := by
  refine (reads_stored key).bind fun s => ?_
  split
  · exact reads_pure _
  · exact reads_throw _

theorem reads_extend (key : String) (target : Option Target) : Reads (extend key target) :=
  (reads_stored key).bind fun s => (reads_attempt (sectionToExtend s target)).bind fun _ => reads_pure _

/-! ## Storing as the last deed but one -/

/-- What is ready before a story is stored: its key, the player who has it, and what the view is shown
as. -/
structure Ready where
  key : String
  player : Answered
  shown : View → Response

namespace Ready

/-- Stores the player's story. -/
def keep (r : Ready) : Action Unit := attempt (live r.player) >>= Service.keep r.key

/-- Answers with the player's view. -/
def answer (r : Ready) : Action Response := do
  return r.shown (← attempt (r.player.view.mapError .ofPlay))

end Ready

/-- A player after one step of play in a story. -/
def played (s : Story) (answers : List String) (m : Move) : Except Failure Answered := do
  match (← setUp s answers).move (some .ofAnswers) m with
  | (p, .ok ()) => return p
  | (_, .error e) => throw (.ofPlay e)

/-- A player of a story extended by a writer's answer. -/
def reviewed (s : Story) (p : Proposal) : Except Failure Answered := do
  match ← written (Extension.review s p.response p.section_.id) with
  | .error reason => throw (.refused (.rejected reason))
  | .ok extended =>
    match extended.checkGraph with
    | .error e => throw (.broken (.graph e))
    | .ok () => setUp extended []

theorem moved_eq_played (s : Story) (answers : List String) (m : Move) :
    moved s answers m = played s answers m >>= live := by
  unfold moved played
  cases setUp s answers with
  | error failure => rfl
  | ok p =>
    dsimp only [bind, Except.bind]
    rcases p.move (some .ofAnswers) m with ⟨q, _ | u⟩ <;> rfl

theorem adopted_eq_reviewed (s : Story) (p : Proposal) : adopted s p = reviewed s p >>= live := by
  unfold adopted reviewed
  cases written (Extension.review s p.response p.section_.id) with
  | error failure => rfl
  | ok verdict =>
    cases verdict with
    | error reason => rfl
    | ok extended =>
      dsimp only [bind, Except.bind]
      cases extended.checkGraph <;> rfl

theorem keep_answer_eq (r : Ready) :
    (attempt (live r.player) >>= fun s => Service.keep r.key s >>= fun _ => pure (r.shown s.view)) =
      r.keep >>= fun _ => r.answer := by
  unfold Ready.keep Ready.answer live Player.view
  cases r.player.story with
  | none => rfl
  | some s => rfl

/-- Behind the storing nothing fails: the player has the story that was stored, and so there is a view of
it, whose media can be written like the story was. -/
theorem keep_then_answer {r : Ready} {before after : Server}
    (h : r.keep.run.run before = (.ok (), after)) :
    ∃ v, r.answer.run.run after = (.ok (r.shown v), after) ∧ v.isWritable = true := by
  obtain ⟨s, mid, hlive, hkeep⟩ := of_bind h
  rw [run_attempt, Prod.mk.injEq] at hlive
  obtain ⟨hlive, rfl⟩ := hlive
  refine ⟨s.view, ?_, view_isWritable (of_keep hkeep).1⟩
  unfold Ready.answer Player.view
  rw [of_live hlive]
  rfl

/-! ## Calls -/

/-- What can be asked of the service about stories. -/
inductive Call where
  | create (c : Creation)
  | replace (key : String) (s : Story)
  | delete (key : String)
  | view (key : String)
  | enter (key : String) (entrance : Entrance)
  | choose (key : String) (pick : Pick)
  | forward (key : String) (answers : List String)
  | back (key : String) (answers : List String)
  | readThrough (key : String) (j : Journey)
  | extend (key : String) (target : Option Target)
  | adopt (key : String) (p : Proposal)

namespace Call

def action : Call → Action Response
  | create c => Service.create c
  | replace key s => Service.replace key s
  | delete key => Service.delete key
  | view key => Service.view key
  | enter key entrance => navigate key entrance.answers (.enter entrance.section_.id)
  | choose key pick => navigate key pick.answers (.choose pick.index)
  | forward key answers => navigate key answers .forward
  | back key answers => navigate key answers .back
  | readThrough key j => Service.readThrough key j
  | extend key target => Service.extend key target
  | adopt key p => Service.adopt key p

/-- What is ready after a step of play on a stored story. -/
def prepareMove (key : String) (answers : List String) (m : Move) : Action Ready := do
  let s ← stored key
  return ⟨key, ← attempt (played s answers m), .view⟩

/-- What a call that stores a story does before. -/
def prepare? : Call → Option (Action Ready)
  | create c => some do
    let key ← keyFor c.key
    return ⟨key, ← attempt (setUp (c.story.getD .fresh) []), .created key⟩
  | replace key s => some do return ⟨key, ← attempt (setUp s []), .view⟩
  | enter key entrance => some (prepareMove key entrance.answers (.enter entrance.section_.id))
  | choose key pick => some (prepareMove key pick.answers (.choose pick.index))
  | forward key answers => some (prepareMove key answers .forward)
  | back key answers => some (prepareMove key answers .back)
  | adopt key p => some do
    let s ← stored key
    return ⟨key, ← attempt (reviewed s p), .adopted⟩
  | delete _ | view _ | readThrough .. | extend .. => none

end Call

theorem navigate_eq_prepared (key : String) (answers : List String) (m : Move) :
    navigate key answers m = Call.prepareMove key answers m >>= fun r => r.keep >>= fun _ => r.answer := by
  unfold navigate Call.prepareMove
  simp only [moved_eq_played, attempt_bind, bind_assoc, pure_bind, ← keep_answer_eq]

/-- A call that stores a story prepares it, stores it, and answers. -/
theorem action_eq_prepared {c : Call} {prepare : Action Ready} (h : c.prepare? = some prepare) :
    c.action = prepare >>= fun r => r.keep >>= fun _ => r.answer := by
  cases c with
  | create c =>
    cases h
    simp only [Call.action, create, opened, attempt_bind, bind_assoc, pure_bind, ← keep_answer_eq]
  | replace key s =>
    cases h
    simp only [Call.action, replace, opened, attempt_bind, bind_assoc, pure_bind, ← keep_answer_eq]
  | enter key entrance =>
    cases h
    exact navigate_eq_prepared _ _ _
  | choose key pick =>
    cases h
    exact navigate_eq_prepared _ _ _
  | forward key answers =>
    cases h
    exact navigate_eq_prepared _ _ _
  | back key answers =>
    cases h
    exact navigate_eq_prepared _ _ _
  | adopt key p =>
    cases h
    simp only [Call.action, adopt, adopted_eq_reviewed, attempt_bind, bind_assoc, pure_bind,
      ← keep_answer_eq]
  | delete key => cases h
  | view key => cases h
  | readThrough key j => cases h
  | extend key target => cases h

theorem reads_prepareMove (key : String) (answers : List String) (m : Move) :
    Reads (Call.prepareMove key answers m) :=
  (reads_stored key).bind fun _ => (reads_attempt _).bind fun _ => reads_pure _

/-- What a call does before it stores a story changes nothing that is stored. -/
theorem reads_prepare {c : Call} {prepare : Action Ready} (h : c.prepare? = some prepare) :
    Reads prepare := by
  cases c with
  | create c =>
    cases h
    exact (reads_keyFor c.key).bind fun _ => (reads_attempt _).bind fun _ => reads_pure _
  | replace key s =>
    cases h
    exact (reads_attempt _).bind fun _ => reads_pure _
  | enter key entrance =>
    cases h
    exact reads_prepareMove _ _ _
  | choose key pick =>
    cases h
    exact reads_prepareMove _ _ _
  | forward key answers =>
    cases h
    exact reads_prepareMove _ _ _
  | back key answers =>
    cases h
    exact reads_prepareMove _ _ _
  | adopt key p =>
    cases h
    exact (reads_stored key).bind fun _ => (reads_attempt _).bind fun _ => reads_pure _
  | delete key => cases h
  | view key => cases h
  | readThrough key j => cases h
  | extend key target => cases h

theorem atomic_action (c : Call) : Atomic c.action := by
  cases hprepare : c.prepare? with
  | some prepare =>
    rw [action_eq_prepared hprepare]
    refine (reads_prepare hprepare).bind_atomic fun r => ?_
    have hkeep : Atomic r.keep := (reads_attempt _).bind_atomic fun s => atomic_keep r.key s
    refine hkeep.bind_succeeds fun before _ after hdone => ?_
    obtain ⟨v, hv, -⟩ := keep_then_answer hdone
    exact ⟨_, _, hv⟩
  | none =>
    cases c with
    | delete key => exact atomic_delete key
    | view key => exact (reads_view key).atomic
    | readThrough key j => exact (reads_readThrough key j).atomic
    | extend key target => exact (reads_extend key target).atomic
    | _ => cases hprepare

/-! ## Requests -/

/-- A request is a call with what its body says, or leaves the store alone. -/
theorem atomic_perform (r : Request) (e : Endpoint) : Atomic (perform r e) := by
  cases e with
  | create => exact (reads_attempt _).bind_atomic fun c => atomic_action (.create c)
  | list => exact (reads_get.bind fun _ => reads_pure _).atomic
  | read key => exact (reads_read key).atomic
  | replace key => exact (reads_attempt _).bind_atomic fun s => atomic_action (.replace key s)
  | delete key => exact atomic_action (.delete key)
  | view key => exact atomic_action (.view key)
  | enter key => exact (reads_attempt _).bind_atomic fun b => atomic_action (.enter key b)
  | choose key => exact (reads_attempt _).bind_atomic fun b => atomic_action (.choose key b)
  | forward key => exact (reads_attempt _).bind_atomic fun b => atomic_action (.forward key (b.getD []))
  | back key => exact (reads_attempt _).bind_atomic fun b => atomic_action (.back key (b.getD []))
  | readThrough key => exact (reads_attempt _).bind_atomic fun j => atomic_action (.readThrough key j)
  | extend key => exact (reads_attempt _).bind_atomic fun target => atomic_action (.extend key target)
  | adopt key => exact (reads_attempt _).bind_atomic fun p => atomic_action (.adopt key p)
  | events _ =>
    unfold perform
    dsimp only
    split
    · exact (reads_pure _).atomic
    · exact (reads_throw _).atomic
  | documentation => exact (reads_pure _).atomic

/-- A request that has no response leaves the store as it was. -/
theorem failed_request_keeps_store (server : Server) (r : Request) (failure : Failure)
    (h : (server.handle r).2 = .error failure) : (server.handle r).1.store = server.store := by
  have hatomic : Atomic (handle r) := by
    unfold handle
    split
    · exact (reads_throw _).atomic
    · exact atomic_perform r _
    · exact (reads_throw _).atomic
    · exact (reads_throw _).atomic
    · exact (reads_throw _).atomic
  exact hatomic server failure h

/-- A call that fails, for whatever reason, leaves the store as it was.  A call that stores a story first
prepares it, which changes nothing that is stored; behind the storing it always answers, with a view that
can be written. -/
theorem failed_call_keeps_store (c : Call) (server : Server) :
    (∀ failure, (c.action.run.run server).1 = .error failure →
      (c.action.run.run server).2.store = server.store) ∧
    ∀ prepare, c.prepare? = some prepare →
      c.action = (prepare >>= fun r => r.keep >>= fun _ => r.answer) ∧
      ∀ r mid, prepare.run.run server = (.ok r, mid) → mid.store = server.store ∧
        ∀ after, r.keep.run.run mid = (.ok (), after) →
          ∃ v, r.answer.run.run after = (.ok (r.shown v), after) ∧ v.isWritable = true := by
  refine ⟨atomic_action c server, fun prepare hprepare => ⟨action_eq_prepared hprepare, ?_⟩⟩
  intro r mid hrun
  refine ⟨?_, fun after hdone => keep_then_answer hdone⟩
  have hreads := reads_prepare hprepare server
  rwa [hrun] at hreads

/-- A step of play that is refused or interrupted fails. -/
theorem run_navigate_of_error {key : String} {s : Story} {answers : List String} {m : Move} {p : Answered}
    {e : PlayError} {server : Server} (hload : server.store.load key = .ok (some s))
    (hsetUp : setUp s answers = .ok p) (he : (p.move (some .ofAnswers) m).2 = .error e) :
    ((navigate key answers m).run.run server).1 = .error (.ofPlay e) := by
  have hmoved : moved s answers m = .error (.ofPlay e) := by
    unfold moved
    rw [hsetUp]
    dsimp only [bind, Except.bind]
    generalize p.move (some .ofAnswers) m = step at he ⊢
    obtain ⟨q, result⟩ := step
    cases he
    rfl
  rw [navigate_eq_update, run_update _ _ hload, hmoved]

/-- A story whose script has changed it when it is interrupted. -/
def snareStory : Story :=
  { Story.fresh with
    sections :=
      [("1", { Section.ofLines "1" [""] with
        script := .value [⟨"SET", some ["mood", "brave"], []⟩,
          ⟨"ADD_TO_VARIABLE", some ["mood", hugeLiteral], []⟩] })] }

theorem proper_snareStory : snareStory.Proper := by
  refine { Story.proper_fresh with sections := ⟨by decide, ?_⟩ }
  intro e he
  rw [List.mem_singleton.1 he]
  refine ⟨fun _ h => (nomatch h), fun _ h => (nomatch h), ?_, fun _ h => (nomatch h), ProperExtra.nil _⟩
  intro lines hlines
  cases hlines
  simp only [Codec.list, List.forall_mem_cons]
  exact ⟨ProperExtra.nil _, ProperExtra.nil _, List.forall_mem_nil _⟩

def snareServer : Server := { Server.start 0 with store := Store.empty.kept 0 "k" snareStory }

/-- A script is interrupted in the middle of a step of play, and the story that is stored is the one from
before the step. -/
theorem failed_call_keeps_store_snare :
    let c : Call := .enter "k" ⟨[], .name "1"⟩
    ∃ failure, (c.action.run.run snareServer).1 = .error failure ∧
      (c.action.run.run snareServer).2.store = snareServer.store := by
  intro c
  let set : Gamebook.Action := ⟨"SET", some ["mood", "brave"], []⟩
  let add : Gamebook.Action := ⟨"ADD_TO_VARIABLE", some ["mood", hugeLiteral], []⟩
  let start : Answered := ⟨some snareStory.started, [], [], []⟩
  let scene : Scene (List (Option String)) := ⟨snareStory.started.entered "1" true, [], [], []⟩
  have hended : (runScript (some Prompter.ofAnswers) [set, add] scene).2 ≠ none := by
    intro hend
    have hread : add.numerals (runScript (some Prompter.ofAnswers) [set] scene).1.story =
        ["brave", hugeLiteral] := by decide +kernel
    have hfits := (runScript_completes_iff (by rintro _ ⟨⟩; exact answers_ofAnswers) _ scene).1.1 hend
      [set] add [] rfl hugeLiteral (by rw [hread]; exact List.mem_cons_of_mem _ List.mem_cons_self)
    rw [overflows_hugeLiteral] at hfits
    cases hfits
  obtain ⟨cause, hcause⟩ := Option.ne_none_iff_exists'.1 hended
  have hlines : snareStory.started.linesOf "1" = some ([set, add].map Line.ofAction) := rfl
  have hentered : (start.enter (some .ofAnswers) "1" true).2 = .error (.interrupted cause) :=
    Player.enter_of_interrupted rfl hlines hcause
  have hstored : Stored "k" snareStory snareServer.store :=
    stored_kept proper_snareStory rfl Store.empty 0 "k"
  have hfailed : (c.action.run.run snareServer).1 = .error (.ofPlay (.interrupted cause)) :=
    run_navigate_of_error hstored.load_eq rfl hentered
  exact ⟨_, hfailed, (failed_call_keeps_store c snareServer).1 _ hfailed⟩

end Gamebook.Service

