import Gamebook.Proofs.Story.Reload
import Gamebook.Service.Server

/-!
# A story played through the service

Every request loads the stored story anew, plays one step and stores the story again.  What is seen of
it is the same as in one session that keeps the story and plays all the steps.

* `served`, `lived`    : what the steps of play show, through the service and in one session.
* `Placed`             : a story stored by a request that creates or replaces one.
* `Twin`               : the stored story is the one of the session, written.
* `navigate_follows`, `view_follows` : one step, and a look at the story.
* `served_eq_lived`    : all steps.
-/

set_option autoImplicit false

namespace Gamebook.Service

/-! ## Two ways to play -/

/-- What is seen of a step: its outcome, the document after it, and the view that is asked for then. -/
structure Shown (α : Type) where
  outcome : Except Failure α
  document : Option String
  view : Except Failure α

/-- What the steps show when each of them is a request. -/
def served {α : Type} (look : Response → α) (key : String) :
    Server → List (List String × Move) → List (Shown α)
  | _, [] => []
  | server, (answers, m) :: rest =>
    let (outcome, after) := (navigate key answers m).run.run server
    let (seen, last) := (view key).run.run after
    ⟨outcome.map look, (after.store.record? key).map Record.text, seen.map look⟩ ::
      served look key last rest

def stepOf (p : Answered) (answers : List String) (m : Move) : Player.Step (List (Option String)) Unit :=
  ({ p with desk := answers.map some } : Answered).move (some .ofAnswers) m

/-- What the steps show when one player takes them all. -/
def lived {α : Type} (look : Response → α) : Answered → List (List String × Move) → List (Shown α)
  | _, [] => []
  | p, (answers, m) :: rest =>
    let (after, result) := stepOf p answers m
    let seen := (after.view.mapError Failure.ofPlay).map fun v => look (.view v)
    ⟨(result.mapError Failure.ofPlay).bind fun _ => seen, after.story.map Story.compactText, seen⟩ ::
      lived look after rest

/-- Why steps of a session are refused. -/
def refusals : Answered → List (List String × Move) → List PlayError
  | _, [] => []
  | p, (answers, m) :: rest =>
    match stepOf p answers m with
    | (after, .ok ()) => refusals after rest
    | (after, .error e) => e :: refusals after rest

/-- A step to a section or a choice that is not there. -/
def isStray : PlayError → Bool
  | .missingSection _ => true
  | .invalidChoice .. => true
  | _ => false

/-- A story stored by a request that creates or replaces one. -/
inductive Placed (key : String) : Story → Server → Server → Prop
  | created {body : Option String} {c : Creation} {v : View} {before after : Server}
      (hbody : readBody Creation.check body = .ok c)
      (h : (create c).run.run before = (.ok (.created key v), after)) :
      Placed key (c.story.getD .fresh) before after
  | replaced {body : Option String} {s : Story} {v : View} {before after : Server}
      (hbody : readBody Story.check body = .ok s)
      (h : (replace key s).run.run before = (.ok (.view v), after)) :
      Placed key s before after

/-! ## Requests step by step -/

section Requests

variable {α β : Type}

theorem run_bind (x : Action α) (f : α → Action β) (server : Server) :
    (x >>= f).run.run server =
      match x.run.run server with
      | (.ok a, after) => (f a).run.run after
      | (.error failure, after) => (.error failure, after) := by
  have hrun : (x >>= f).run.run server =
      (ExceptT.bindCont f (x.run.run server).1).run (x.run.run server).2 := rfl
  rw [hrun]
  rcases x.run.run server with ⟨outcome, after⟩
  cases outcome <;> rfl

theorem run_attempt (outcome : Except Failure α) (server : Server) :
    (attempt outcome).run.run server = (outcome, server) := by
  cases outcome <;> rfl

theorem run_stored {key : String} {s : Story} {server : Server}
    (h : server.store.load key = .ok (some s)) :
    (stored key).run.run server = (.ok s, server) := by
  have hget : (get : Action Server).run.run server = (.ok server, server) := rfl
  unfold stored
  rw [run_bind, hget]
  dsimp only
  rw [h]
  rfl

def Server.kept (server : Server) (key : String) (s : Story) : Server :=
  { server with store := ⟨server.store.records.put key ⟨s.title?, s.compactText, server.now⟩⟩ }

theorem run_keep (key : String) {s : Story} (h : s.isWritable = true) (server : Server) :
    (keep key s).run.run server = (.ok (), server.kept key s) := by
  have hsave : server.store.save server.now key s =
      .ok ⟨server.store.records.put key ⟨s.title?, s.compactText, server.now⟩⟩ := by
    simp only [Store.save, Story.writeCompact, Story.write, if_pos h, Except.map]
    rfl
  unfold keep
  rw [run_bind]
  show (attempt (written (server.store.save server.now key s)) >>= _ : Action Unit).run.run server = _
  rw [run_bind, run_attempt, hsave]
  rfl

theorem run_keep_refused (key : String) {s : Story} (h : ¬ s.isWritable = true) (server : Server) :
    (keep key s).run.run server = (.error (.broken (.write .tooDeep)), server) := by
  have hsave : server.store.save server.now key s = .error .tooDeep := by
    simp only [Store.save, Story.writeCompact, Story.write, if_neg h, Except.map]
  unfold keep
  rw [run_bind]
  show (attempt (written (server.store.save server.now key s)) >>= _ : Action Unit).run.run server = _
  rw [run_bind, run_attempt, hsave]
  rfl

theorem of_keep {key : String} {s : Story} {before after : Server}
    (h : (keep key s).run.run before = (.ok (), after)) :
    s.isWritable = true ∧ after = before.kept key s := by
  by_cases hwritable : s.isWritable = true
  · rw [run_keep key hwritable] at h
    cases h
    exact ⟨hwritable, rfl⟩
  · rw [run_keep_refused key hwritable] at h
    cases h

end Requests

/-! ## The stored story and the story of the session -/

theorem load_of_text {store : Store} {key : String} {s : Story}
    (htext : (store.record? key).map Record.text = some s.compactText) (hproper : s.Proper)
    (hwritable : s.isWritable = true) : store.load key = .ok (some s.settled) := by
  obtain ⟨r, hr, htext⟩ := Option.map_eq_some_iff.1 htext
  have hload := Story.reload hproper hwritable ⟨none, false⟩
  unfold Store.load
  rw [hr]
  dsimp only
  rw [htext, Story.compactText, Json.compact, hload]
  rfl

/-- The stored story is the one of the session, written; both are in play. -/
structure Twin (key : String) (s : Story) (server : Server) : Prop where
  stored : (server.store.record? key).map Record.text = some s.compactText
  proper : s.Proper
  writable : s.isWritable = true
  playing : s.Playing

theorem twin_kept (key : String) {s : Story} (hproper : s.Proper) (hwritable : s.isWritable = true)
    (hplaying : s.Playing) (server : Server) : Twin key s (server.kept key s) := by
  refine ⟨?_, hproper, hwritable, hplaying⟩
  rw [Server.kept, Store.record?, Table.get?_put, if_pos rfl]
  rfl

theorem isWritable_settled (s : Story) : s.settled.isWritable = s.isWritable := by
  unfold Story.isWritable
  rw [s.unknownValues_settled, List.all_map]
  congr 1
  funext v
  exact Json.isWithin_finiteOnly v unknownDepth

theorem title?_settled (s : Story) : s.settled.title? = s.title? := by
  unfold Story.title? Story.settled
  cases s.metadata <;> rfl

theorem kept_settled (server : Server) (key : String) (s : Story) :
    server.kept key s.settled = server.kept key s := by
  unfold Server.kept Story.compactText
  rw [s.toJson_settled, title?_settled]

namespace Twin

variable {key : String} {s : Story} {server : Server}

/-- What is loaded is the story of the session, settled. -/
theorem load_eq (h : Twin key s server) : server.store.load key = .ok (some s.settled) :=
  load_of_text h.stored h.proper h.writable

theorem setUp_eq (h : Twin key s server) (answers : List String) :
    setUp s.settled answers = .ok ⟨some s.settled, answers.map some, [], []⟩ := by
  have hstarted : s.settled.started = s.settled := by
    rw [s.started_settled, h.playing.started_eq]
  have hsections : s.settled.sections.isEmpty = false := by
    obtain ⟨-, st, id, past, -, -, hhas, -⟩ := h.playing
    rw [← s.hasSection_settled] at hhas
    rw [Bool.eq_false_iff, ne_eq, List.isEmpty_iff]
    intro hnil
    rw [Story.hasSection, hnil] at hhas
    cases hhas
  unfold setUp Player.load
  dsimp only
  rw [hsections, hstarted]
  rfl

end Twin

/-! ## What is seen -/

theorem currentText_settled (s : Story) : s.settled.currentText = s.currentText := by
  unfold Story.currentText
  rw [s.currentSection?_settled, ← Story.settled_simulation.values rfl]
  cases s.currentSection? <;> rfl

theorem shownChoices_settled (s : Story) : s.settled.shownChoices = s.shownChoices := by
  unfold Story.shownChoices
  rw [s.currentChoices_settled, List.map_map, ← Story.settled_simulation.values rfl]
  rfl

theorem view_settled (s : Story) : s.settled.view.toJson = s.view.toJson := by
  have hid : s.settled.currentId? = s.currentId? := (Story.settled_simulation.currentId rfl).symm
  have hvalues : s.settled.variableValues = s.variableValues :=
    (Story.settled_simulation.values rfl).symm
  have hhistory : s.settled.history = s.history := (Story.settled_simulation.history rfl).symm
  have hforward : s.settled.canForward = s.canForward := by
    unfold Story.canForward
    rw [s.currentChoices_settled, List.length_map]
  have hmedia : (s.settled.view.media.elim .null Media.toJson) =
      s.view.media.elim .null Media.toJson := by
    simp only [Story.view, s.currentSection?_settled]
    cases s.currentSection? with
    | none => rfl
    | some x =>
      simp only [Option.map_some, Option.bind_some, Section.settled]
      cases x.media with
      | value m => exact mediaCodec_lawful.write_settled m
      | absent => rfl
      | null => rfl
  unfold View.toJson
  rw [hmedia]
  simp only [Story.view, Story.canBack, hid, hvalues, hhistory, hforward, currentText_settled,
    shownChoices_settled]

/-- The media of a story that is written may be written. -/
theorem view_isWritable {s : Story} (h : s.isWritable = true) : s.view.isWritable = true := by
  unfold View.isWritable Story.view
  rw [Option.all_eq_true]
  intro m hm
  obtain ⟨x, hx, hmedia⟩ := Option.bind_eq_some_iff.1 hm
  obtain ⟨id, -, hsection⟩ := Option.bind_eq_some_iff.1 hx
  rw [List.all_eq_true]
  intro v hv
  apply s.isWritable_iff.1 h
  simp only [Story.unknownValues, List.mem_append]
  refine .inl (.inr (List.mem_flatMap.2 ⟨x, ?_, ?_⟩))
  · exact List.mem_map_of_mem (Table.mem_of_get? hsection)
  · simp only [Section.unknownValues, List.mem_append]
    refine .inl (.inl (.inl (.inr ?_)))
    cases hvalue : x.media with
    | value n =>
      rw [hvalue] at hmedia
      cases hmedia
      exact hv
    | absent =>
      rw [hvalue] at hmedia
      cases hmedia
    | null =>
      rw [hvalue] at hmedia
      cases hmedia

theorem view_follows {key : String} {s : Story} {server : Server} (h : Twin key s server) :
    (view key).run.run server = (.ok (.view s.settled.view), server) := by
  have hopened : opened s.settled = .ok s.settled := by
    unfold opened
    rw [h.setUp_eq]
    rfl
  have hwrite : s.settled.view.write = .ok s.settled.view.toJson := by
    unfold View.write
    rw [if_pos (view_isWritable (by rw [isWritable_settled]; exact h.writable))]
  unfold view
  rw [run_bind, run_stored h.load_eq]
  dsimp only
  rw [run_bind, run_attempt, hopened]
  dsimp only
  rw [run_bind, run_attempt, hwrite]
  rfl

/-! ## One step -/

section Refused

variable {σ : Type} {prompter : Option (Prompter σ)} {p : Player σ} {e : PlayError}

/-- A stray step to a section leaves the player as it was. -/
theorem enter_refused {id : String} {remember : Bool}
    (h : (p.enter prompter id remember).2 = .error e) (he : isStray e = true) :
    (p.enter prompter id remember).1 = p := by
  unfold Player.enter at h ⊢
  split
  · rfl
  · rename_i s hs
    simp only [hs] at h
    split
    · rfl
    · rename_i x hx
      simp only [hx, Player.runEntered] at h
      split at h
      · cases h
      · cases h
        cases he

theorem enter_found {s : Story} (hs : p.story = some s) {id : String} (hid : s.hasSection id = true)
    {remember : Bool} (h : (p.enter prompter id remember).2 = .error e) : isStray e = false := by
  obtain ⟨x, hx⟩ := Option.isSome_iff_exists.1 hid
  have hx : s.section? id = some x := hx
  unfold Player.enter at h
  simp only [hs, hx, Player.runEntered] at h
  split at h
  · cases h
  · cases h
    rfl

theorem error_of_map {α β : Type} {f : α → β} {x : Except PlayError α} (h : x.map f = .error e) :
    x = .error e := by
  cases x with
  | ok a => cases h
  | error other =>
    cases h
    rfl

theorem forward_refused (h : (p.forward prompter).2 = .error e) (he : isStray e = true) :
    (p.forward prompter).1 = p := by
  rw [Player.forward_eq] at h ⊢
  split
  · rename_i target htargets
    rw [htargets] at h
    exact enter_refused (error_of_map h) he
  · rfl

theorem choose_refused {index : Int} (h : (p.choose prompter index).2 = .error e)
    (he : isStray e = true) : (p.choose prompter index).1 = p := by
  rw [Player.choose_eq] at h ⊢
  split
  · rename_i target htarget
    rw [htarget] at h
    exact enter_refused h he
  · rfl

/-- A step back that is refused as a stray one was so before the history was shortened. -/
theorem back_refused (h : (p.back prompter).2 = .error e) (he : isStray e = true) :
    (p.back prompter).1 = p := by
  unfold Player.back at h ⊢
  split
  · rfl
  · rename_i s hs
    rw [hs] at h
    dsimp only at h
    split
    · rfl
    · rename_i previous hprevious
      rw [hprevious] at h
      dsimp only at h
      split
      · rename_i hhas
        rw [if_pos hhas] at h
        have hhas : s.popped.hasSection previous = true := hhas
        have hfound := enter_found (p := { p with story := some s.popped }) rfl hhas (error_of_map h)
        rw [hfound] at he
        cases he
      · rfl

/-- A stray step leaves the player as it was. -/
theorem move_refused {m : Move} (h : (p.move prompter m).2 = .error e) (he : isStray e = true) :
    (p.move prompter m).1 = p := by
  cases m with
  | enter id => exact enter_refused h he
  | choose index => exact choose_refused h he
  | forward => exact forward_refused (error_of_map h) he
  | back => exact back_refused (error_of_map h) he

end Refused

section Step

variable {s : Story} {p : Answered} (hp : p.story = some s) (answers : List String) (m : Move)

include hp

/-- A step of a session keeps what a step of play keeps. -/
theorem kept_of_step {P : Story → Prop} (hP : Story.Invariant P) (hs : P s) :
    ∀ t, (stepOf p answers m).1.story = some t → P t := by
  refine hP.move _ ?_ m
  intro t ht
  rw [hp] at ht
  cases ht
  exact hs

theorem twin_of_step {key : String} {server : Server} (h : Twin key s server) {t : Story}
    (ht : (stepOf p answers m).1.story = some t) : Twin key t (server.kept key t) := by
  have hproper := kept_of_step hp answers m Story.invariant_proper h.proper t ht
  have hplaying := kept_of_step hp answers m Story.invariant_playing h.playing t ht
  have hunknown := kept_of_step hp answers m (Story.invariant_unknown _) (s.isWritable_iff.1 h.writable)
  exact twin_kept key hproper (t.isWritable_iff.2 (hunknown t ht)) hplaying server

/-- The same step on the settled story ends with the settled story, and the same result. -/
theorem step_settled : ∃ t, (stepOf p answers m).1.story = some t ∧ ∃ q : Answered,
    q.story = some t.settled ∧
      (⟨some s.settled, answers.map some, [], []⟩ : Answered).move (some .ofAnswers) m =
        (q, (stepOf p answers m).2) := by
  have hrelated : Player.Related (fun s t => t = s.settled) False
      ({ p with desk := answers.map some } : Answered)
      ⟨some s.settled, answers.map some, [], []⟩ := by
    refine ⟨?_, rfl, False.elim, False.elim⟩
    dsimp only
    rw [hp]
    exact .some rfl
  obtain ⟨⟨hstory, -⟩, hresult⟩ :=
    Player.move_related Story.settled_simulation (some .ofAnswers) hrelated m
  have hsome : (stepOf p answers m).1.story.isSome = true :=
    Player.move_isSome _ (p := { p with desk := answers.map some }) (Option.isSome_of_eq_some hp) m
  obtain ⟨t, ht⟩ := Option.isSome_iff_exists.1 hsome
  refine ⟨t, ht, _, ?_, Prod.ext rfl hresult.symm⟩
  change Option.Rel _ (stepOf p answers m).1.story _ at hstory
  rw [ht] at hstory
  generalize Player.story _ = story at hstory ⊢
  cases hstory with
  | some heq => rw [heq]

theorem moved_eq {key : String} {server : Server} (h : Twin key s server) :
    ∃ t, (stepOf p answers m).1.story = some t ∧
      moved s.settled answers m =
        match (stepOf p answers m).2 with
        | .ok () => .ok t.settled
        | .error e => .error (.ofPlay e) := by
  obtain ⟨t, ht, q, hq, hmove⟩ := step_settled hp answers m
  refine ⟨t, ht, ?_⟩
  unfold moved
  rw [h.setUp_eq]
  show (match (⟨some s.settled, answers.map some, [], []⟩ : Answered).move (some .ofAnswers) m with
    | (q, .ok ()) => live q
    | (_, .error e) => throw (Failure.ofPlay e) : Except Failure Story) = _
  rw [hmove]
  cases (stepOf p answers m).2 with
  | ok u =>
    dsimp only
    rw [live, hq]
  | error e => rfl

/-- One request and one step of the session: both are refused in the same way and change nothing, or the
request stores what the session has then. -/
theorem navigate_follows {key : String} {server : Server} (h : Twin key s server) :
    match stepOf p answers m with
    | (after, .ok ()) => ∃ t, after.story = some t ∧ Twin key t (server.kept key t) ∧
        (navigate key answers m).run.run server = (.ok (.view t.settled.view), server.kept key t)
    | (_, .error e) => (navigate key answers m).run.run server = (.error (.ofPlay e), server) := by
  obtain ⟨t, ht, hmoved⟩ := moved_eq hp answers m h
  have htwin := twin_of_step hp answers m h ht
  have hnavigate : (navigate key answers m).run.run server =
      match moved s.settled answers m with
      | .ok t => (keep key t >>= fun _ => return .view t.view : Action Response).run.run server
      | .error failure => (.error failure, server) := by
    unfold navigate
    rw [run_bind, run_stored h.load_eq]
    dsimp only
    rw [run_bind, run_attempt]
    cases moved s.settled answers m <;> rfl
  rw [hnavigate, hmoved]
  revert ht
  generalize stepOf p answers m = x
  obtain ⟨after, result⟩ := x
  intro ht
  cases result with
  | error e => rfl
  | ok u =>
    refine ⟨t, ht, htwin, ?_⟩
    dsimp only
    rw [run_bind, run_keep key (by rw [isWritable_settled]; exact htwin.writable), kept_settled]
    rfl

end Step

/-! ## All steps -/

/-- The steps show the same in both ways, for a look that does not tell settled stories apart. -/
theorem served_eq_lived_of {α : Type} {look : Response → α} {q : Json → Prop}
    (hlook : ∀ s : Story, (∀ v ∈ s.unknownValues, q v) →
      look (.view s.settled.view) = look (.view s.view)) {key : String}
    (steps : List (List String × Move)) {s : Story} {p : Answered} {server : Server}
    (h : Twin key s server) (hp : p.story = some s) (hs : ∀ v ∈ s.unknownValues, q v)
    (hstray : ∀ e ∈ refusals p steps, isStray e = true) :
    served look key server steps = lived look p steps := by
  induction steps generalizing s p server with
  | nil => rfl
  | cons step rest ih =>
    obtain ⟨answers, m⟩ := step
    have hfollows := navigate_follows hp answers m h
    have hunknown := kept_of_step hp answers m (Story.invariant_unknown q) hs
    obtain ⟨x, hx⟩ : ∃ x, stepOf p answers m = x := ⟨_, rfl⟩
    unfold served lived
    unfold refusals at hstray
    rw [hx] at hfollows hunknown hstray ⊢
    obtain ⟨after, result⟩ := x
    cases result with
    | ok u =>
      obtain ⟨t, ht, htwin, hnavigate⟩ := hfollows
      have hseen := view_follows htwin
      have hview : after.view = .ok t.view := by
        unfold Player.view
        rw [ht]
      dsimp only at hstray
      dsimp only
      rw [hnavigate]
      dsimp only
      rw [hseen]
      dsimp only
      rw [ih htwin ht (hunknown t ht) hstray, htwin.stored, hview, ht]
      simp only [Except.map, Except.mapError, hlook t (hunknown t ht)]
      rfl
    | error e =>
      dsimp only at hstray hfollows
      rw [List.forall_mem_cons] at hstray
      have hafter : after = { p with desk := answers.map some } := by
        have hrefused := move_refused (p := { p with desk := answers.map some })
          (congrArg Prod.snd hx) hstray.1
        rw [← hrefused]
        exact (congrArg Prod.fst hx).symm
      have hstory : after.story = some s := by
        rw [hafter]
        exact hp
      have hview : after.view = .ok s.view := by
        unfold Player.view
        rw [hstory]
      dsimp only
      rw [hfollows]
      dsimp only
      rw [view_follows h]
      dsimp only
      rw [ih h hstory hs hstray.2, h.stored, hview, hstory]
      simp only [Except.map, Except.mapError, hlook s hs]
      rfl

/-! ## The stored story at the start -/

theorem of_bind {α β : Type} {x : Action α} {f : α → Action β} {before after : Server} {b : β}
    (h : (x >>= f).run.run before = (.ok b, after)) :
    ∃ a mid, x.run.run before = (.ok a, mid) ∧ (f a).run.run mid = (.ok b, after) := by
  rw [run_bind] at h
  split at h
  · rename_i a mid hx
    exact ⟨a, mid, hx, h⟩
  · cases h

theorem of_bodyValue {body : Option String} {v : Json} (h : bodyValue body = .ok (some v)) :
    v.Proper := by
  unfold bodyValue at h
  dsimp only at h
  split at h
  · cases h
  · split at h
    · cases h
    · split at h
      · rename_i hread
        cases h
        exact Json.proper_of_read hread
      · cases h
      · cases h

/-- What is read from a body was accepted as a proper value. -/
theorem of_readBody {α : Type} {check : Json → Checked α} {body : Option String} {a : α}
    (h : readBody check body = .ok a) : ∃ v : Json, v.Proper ∧ check v = .ok a := by
  unfold readBody at h
  obtain ⟨value, hvalue⟩ : ∃ value, bodyValue body = value := ⟨_, rfl⟩
  rw [hvalue] at h
  rcases value with fault | _ | v
  · cases h
  · cases h
  · refine ⟨v, of_bodyValue hvalue, ?_⟩
    have hcheck : checkBody check v = .ok a := h
    unfold checkBody at hcheck
    split at hcheck
    · rename_i b hb
      cases hcheck
      exact hb
    · cases hcheck

theorem proper_creation {body : Option String} {c : Creation}
    (h : readBody Creation.check body = .ok c) : (c.story.getD .fresh).Proper := by
  obtain ⟨v, hv, hcheck⟩ := of_readBody h
  obtain ⟨fields, rfl, hfields⟩ := Check.of_model hcheck
  obtain ⟨g, story, hg, hstory, rfl⟩ := Checked.of_seq hfields
  obtain ⟨key, -, rfl⟩ := Checked.of_map hg
  have hall := storyCodec_lawful.of_optional hv hstory
  cases story with
  | value s => exact hall s rfl
  | absent => exact Story.proper_fresh
  | null => exact Story.proper_fresh

theorem of_opened {s t : Story} (h : opened s = .ok t) : s.sections ≠ [] ∧ t = s.started := by
  unfold opened setUp Player.load at h
  dsimp only at h
  cases hsections : s.sections with
  | nil =>
    rw [hsections] at h
    cases h
  | cons e rest =>
    rw [hsections] at h
    cases h
    exact ⟨List.cons_ne_nil e rest, rfl⟩

/-- Keeping an opened story, whatever is answered then. -/
theorem of_opened_kept {key : String} {s : Story} {f : Story → Response} {r : Response}
    {before after : Server}
    (h : (attempt (opened s) >>= fun t => keep key t >>= fun _ => pure (f t) : Action Response).run.run
      before = (.ok r, after)) :
    s.sections ≠ [] ∧ s.started.isWritable = true ∧ r = f s.started ∧
      after = before.kept key s.started := by
  obtain ⟨t, mid, ht, h⟩ := of_bind h
  rw [run_attempt, Prod.mk.injEq] at ht
  obtain ⟨hopened, rfl⟩ := ht
  obtain ⟨hsections, rfl⟩ := of_opened hopened
  obtain ⟨u, mid, hkeep, h⟩ := of_bind h
  obtain ⟨hwritable, rfl⟩ := of_keep hkeep
  cases h
  exact ⟨hsections, hwritable, rfl, rfl⟩

theorem kept_of_placed {key : String} {s : Story} {before after : Server}
    (h : Placed key s before after) :
    s.Proper ∧ s.sections ≠ [] ∧ s.started.isWritable = true ∧
      ∃ server, after = Server.kept server key s.started := by
  cases h with
  | created hbody h =>
    refine ⟨proper_creation hbody, ?_⟩
    unfold create at h
    obtain ⟨made, mid, -, h⟩ := of_bind h
    obtain ⟨hsections, hwritable, hr, rfl⟩ := of_opened_kept h
    cases hr
    exact ⟨hsections, hwritable, mid, rfl⟩
  | replaced hbody h =>
    obtain ⟨v, hv, hcheck⟩ := of_readBody hbody
    refine ⟨storyCodec_lawful.proper_check v s hv hcheck, ?_⟩
    unfold replace at h
    obtain ⟨hsections, hwritable, -, rfl⟩ := of_opened_kept h
    exact ⟨hsections, hwritable, before, rfl⟩

/-- A story that was stored is the one that a session starts with, written. -/
theorem twin_placed {key : String} {s : Story} {before after : Server}
    (h : Placed key s before after) (hnamed : s.hasSection "" = false) :
    Twin key s.started after ∧
      ((Player.idle [] : Answered).load (some s)).1.story = some s.started := by
  obtain ⟨hproper, hsections, hwritable, server, rfl⟩ := kept_of_placed h
  refine ⟨twin_kept key (Story.proper_started hproper) hwritable
    (Story.playing_started hsections hnamed) server, ?_⟩
  unfold Player.load
  dsimp only
  rw [if_neg (by simpa using hsections)]

/-- Playing a stored story request by request shows what playing it in one session shows: the same
outcome of every step, the same document after it, and the same view when it is asked for; as documents,
and as they are when the numbers in unknown fields are finite. -/
theorem served_eq_lived {key : String} {s : Story} {before after : Server}
    (hplaced : Placed key s before after) (hnamed : s.hasSection "" = false)
    (steps : List (List String × Move))
    (hstray : ∀ e ∈ refusals ((Player.idle []).load (some s)).1 steps, isStray e = true) :
    served Response.body key after steps =
        lived Response.body ((Player.idle []).load (some s)).1 steps ∧
      ((∀ v ∈ s.unknownValues, v.isFinite = true) →
        served id key after steps = lived id ((Player.idle []).load (some s)).1 steps) := by
  obtain ⟨htwin, hstory⟩ := twin_placed hplaced hnamed
  refine ⟨?_, ?_⟩
  · refine served_eq_lived_of (q := fun _ => True) ?_ steps htwin hstory (fun _ _ => trivial) hstray
    intro t _
    exact view_settled t
  · intro hfinite
    have hstarted := Story.unknown_started hfinite
    refine served_eq_lived_of (q := fun v => v.isFinite = true) ?_ steps htwin hstory hstarted hstray
    intro t ht
    rw [t.settled_eq_iff.2 ht]

/-- A body that begins as an object with fields does is UTF-8, and has no mark in front. -/
theorem readBody_of_object {α : Type} {check : Json → Checked α} {s : String} {rest : List Char} {v : Json}
    (h : s.toList = '\x7b' :: '"' :: rest) (hread : Json.read s = .ok v) :
    readBody check (some s) = checkBody check v := by
  have hsome : s.isEmpty = false := by
    rw [String.isEmpty_eq_false_iff]
    rintro rfl
    cases h
  have hoctets : ∀ more, Text.Encoding.ofOctets (0x7b :: 0x22 :: more) = .utf8 := by
    rintro (_ | ⟨_, _ | ⟨_, _⟩⟩) <;> rfl
  have hencoding : Text.Encoding.ofOctets ((s.toList.take 4).flatMap Text.charOctets) = .utf8 := by
    rw [h]
    exact hoctets _
  have htext : Text.ofJsonOctets? s = some s := by
    unfold Text.ofJsonOctets? Text.withoutMark
    rw [hencoding, h]
    rfl
  unfold readBody bodyValue
  simp only [Option.getD_some, hsome, htext, hread]
  rfl

theorem readBody_ferry :
    readBody Story.check (some Story.ferryDocument.compact) = .ok Story.ferry := by
  have hfront : ∃ rest, Story.ferryDocument.compact.toList = '\x7b' :: '"' :: rest := by
    unfold Json.compact Json.write
    rw [String.toList_ofList]
    exact ⟨_, rfl⟩
  obtain ⟨rest, hrest⟩ := hfront
  rw [readBody_of_object hrest (Json.read_write _ Story.proper_ferryDocument (by decide))]
  rfl

def Shown.values (shown : Shown Response) : Table String :=
  match shown.view with
  | .ok (.view v) => v.values
  | _ => []

/-- On the ferry the name is asked for, a choice that is not there is refused, the offered way back is taken,
and the passenger, coming aboard again, gives no name. -/
def crossing : List (List String × Move) :=
  [(["Ada"], .choose 0), ([], .choose 7), ([], .forward), ([], .back)]

theorem served_eq_lived_crossing : ∃ after, Placed "k" Story.ferry (.start 0) after ∧
    served id "k" after crossing = lived id ((Player.idle []).load (some Story.ferry)).1 crossing ∧
    refusals ((Player.idle []).load (some Story.ferry)).1 crossing = [.invalidChoice 7 1] ∧
    (served id "k" after crossing).map Shown.values =
      List.replicate 4 [("name", "Ada"), ("seat", "taken")] := by
  have hplaced : Placed "k" Story.ferry (.start 0) _ := .replaced readBody_ferry rfl
  have hrefused : refusals ((Player.idle []).load (some Story.ferry)).1 crossing = [.invalidChoice 7 1] := by
    decide +kernel
  obtain ⟨-, hsame⟩ := served_eq_lived hplaced (by decide) crossing (by rw [hrefused]; decide)
  refine ⟨_, hplaced, hsame (by decide), hrefused, ?_⟩
  rw [hsame (by decide)]
  decide +kernel

end Gamebook.Service
