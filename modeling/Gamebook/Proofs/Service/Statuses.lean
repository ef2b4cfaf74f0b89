import Gamebook.Proofs.Service.Stored

/-!
# The statuses of refused queries

Whatever text is stored under a key, a query about it has a response or is refused with a status of its
own; or else it breaks off, as a fault that no status is made for.

* `Errand`, `Query`    : what can be asked about a stored story, and of the service about stories.
* `Assigned`           : the refusals of a query with their statuses, by what is stored.
* `Hazard`             : what breaks a query off.
* `Errand.outcome`     : what an errand comes to, which the stored story alone decides.
* `Classified`         : an outcome that breaks off, and is refused, exactly under given conditions.
* `documented_iff`     : the queries that are answered as they should be.
* `corrupt_key_broken` : a key that is taken by a text that does not load.
-/

set_option autoImplicit false

namespace Gamebook.Service

open Extension (review)

/-! ## What can be asked -/

/-- What can be asked about a stored story. -/
inductive Errand where
  | document
  | view
  | step (answers : List String) (m : Move)
  | readThrough (j : Journey)
  | extend (target : Option Target)
  | adopt (p : Proposal)

def Errand.action (key : String) : Errand → Action Response
  | .document => Service.read key
  | .view => Service.view key
  | .step answers m => navigate key answers m
  | .readThrough j => Service.readThrough key j
  | .extend target => Service.extend key target
  | .adopt p => Service.adopt key p

/-- What can be asked of the service about stories. -/
inductive Query where
  | create (c : Creation)
  | replace (key : String) (s : Story)
  | delete (key : String)
  | errand (key : String) (e : Errand)

def Query.action : Query → Action Response
  | .create c => Service.create c
  | .replace key s => Service.replace key s
  | .delete key => Service.delete key
  | .errand key e => e.action key

/-- The key that a new story is to have; an empty one is none. -/
def Creation.newKey? (c : Creation) : Option String := c.key.filter fun key => !key.isEmpty

def Creation.newStory (c : Creation) : Story := c.story.getD .fresh

def stepIn (s : Story) (answers : List String) (m : Move) : Player.Step (List (Option String)) Unit :=
  (⟨some s.started, answers.map some, [], []⟩ : Answered).move (some .ofAnswers) m

/-- The read-through of a journey. -/
def Journey.route (j : Journey) (s : Story) : Except LinearizeError String :=
  s.linearize (some j.start.id) (some j.finish.id) (j.through.map (some ·.id)) none

/-- The section to extend when none is named. -/
def nearest? (s : Story) : Option String :=
  s.started.currentId?.bind fun id => s.started.extendable? id none []

/-! ## Refusals and their statuses -/

inductive Errand.Refuses (s : Story) : Errand → Refusal → Nat → Prop
  | viewEmpty (h : s.sections = []) : Refuses s .view .noSections 422
  | stepEmpty {answers : List String} {m : Move} (h : s.sections = []) :
      Refuses s (.step answers m) .noSections 422
  | extendEmpty (h : s.sections = []) : Refuses s (.extend none) .noSections 422
  | missingSection {answers : List String} {m : Move} {id : String} (hs : s.sections ≠ [])
      (h : (stepIn s answers m).2 = .error (.missingSection id)) :
      Refuses s (.step answers m) (.missingSection id) 404
  | missingTarget {target : Target} (h : s.hasSection target.id = false) :
      Refuses s (.extend (some target)) (.missingSection target.id) 404
  | invalidChoice {answers : List String} {m : Move} {index : Int} {available : Nat}
      (hs : s.sections ≠ [])
      (h : (stepIn s answers m).2 = .error (.invalidChoice index available)) :
      Refuses s (.step answers m) (.invalidChoice index available) 422
  | noReadThrough {j : Journey} {e : LinearizeError} (h : j.route s = .error e)
      (he : ∀ fault, e ≠ .number fault) : Refuses s (.readThrough j) (.noReadThrough e) 422
  | nothingToExtend (hs : s.sections ≠ []) (h : nearest? s = none) :
      Refuses s (.extend none) .nothingToExtend 422
  | rejected {p : Proposal} {reason : Extension.Rejection}
      (h : review s p.response p.section_.id = .ok (.error reason)) :
      Refuses s (.adopt p) (.rejected reason) 422

/-- The refusals of queries, by what is stored: 409 when a new story is to have a key that is taken, 500
for a stored text that does not load, 404 when a story or a section is missing, and 422 otherwise. -/
inductive Assigned (store : Store) : Query → Refusal → Nat → Prop
  | taken {c : Creation} {key : String} (hkey : c.newKey? = some key)
      (h : store.records.has key = true) : Assigned store (.create c) (.taken key) 409
  | createEmpty {c : Creation} (hkey : ∀ key, c.newKey? = some key → store.records.has key = false)
      (h : c.newStory.sections = []) : Assigned store (.create c) .noSections 422
  | replaceEmpty {key : String} {s : Story} (h : s.sections = []) :
      Assigned store (.replace key s) .noSections 422
  | deleteMissing {key : String} (h : store.records.has key = false) :
      Assigned store (.delete key) .noStory 404
  | missing {key : String} {e : Errand} (h : store.records.has key = false) :
      Assigned store (.errand key e) .noStory 404
  | unreadable {key : String} {e : Errand} {error : StoryError} (h : store.load key = .error error) :
      Assigned store (.errand key e) .unreadable 500
  | errand {key : String} {e : Errand} {s : Story} {r : Refusal} {n : Nat}
      (hload : store.load key = .ok (some s)) (h : e.Refuses s r n) :
      Assigned store (.errand key e) r n

/-! ## Hazards -/

/-- What breaks an errand on a stored story off: a story or a view that cannot be written, a script that
is interrupted, and an id that is too large a number. -/
inductive Errand.Breaks (s : Story) : Errand → Prop
  | document (h : s.isWritable = false) : Breaks s .document
  | view (hs : s.sections ≠ []) (h : s.started.view.isWritable = false) : Breaks s .view
  | interrupted {answers : List String} {m : Move} {cause : Interruption} (hs : s.sections ≠ [])
      (h : (stepIn s answers m).2 = .error (.interrupted cause)) : Breaks s (.step answers m)
  | step {answers : List String} {m : Move} {t : Story} (hs : s.sections ≠ [])
      (hstep : (stepIn s answers m).2 = .ok ()) (ht : (stepIn s answers m).1.story = some t)
      (h : t.isWritable = false) : Breaks s (.step answers m)
  | number {j : Journey} {fault : NumberFault} (h : j.route s = .error (.number fault)) :
      Breaks s (.readThrough j)
  | review {p : Proposal} {fault : WriteFault}
      (h : review s p.response p.section_.id = .error fault) : Breaks s (.adopt p)
  | adopt {p : Proposal} {t : Story}
      (hreview : Extension.review s p.response p.section_.id = .ok (.ok t)) (h : t.isWritable = false) :
      Breaks s (.adopt p)

/-- What breaks a query off: a stored text that does not load, when its key is to be used again; a stored
text beyond a limit of the reader; a new story that cannot be written; and what breaks errands off. -/
inductive Hazard (store : Store) : Query → Prop
  | taken {c : Creation} {key : String} {error : StoryError} (hkey : c.newKey? = some key)
      (h : store.load key = .error error) : Hazard store (.create c)
  | create {c : Creation} (hkey : ∀ key, c.newKey? = some key → store.records.has key = false)
      (hs : c.newStory.sections ≠ []) (h : c.newStory.isWritable = false) : Hazard store (.create c)
  | replace {key : String} {s : Story} (hs : s.sections ≠ []) (h : s.isWritable = false) :
      Hazard store (.replace key s)
  | limit {key : String} {e : Errand} {error : StoryError} (hload : store.load key = .error error)
      (h : error.isLimit = true) : Hazard store (.errand key e)
  | errand {key : String} {e : Errand} {s : Story} (hload : store.load key = .ok (some s))
      (h : e.Breaks s) : Hazard store (.errand key e)

/-- A query is answered as it should be: it is refused exactly for the reasons, and with the statuses,
that are assigned to it, and it does not break off. -/
structure Documented (store : Store) (q : Query) (outcome : Except Failure Response) : Prop where
  refused : ∀ r n, outcome = .error (.refused r) ∧ n = r.status ↔ Assigned store q r n
  unbroken : ∀ fault, outcome ≠ .error (.broken fault)

/-! ## Outcomes -/

/-- What becomes of a story that is to be stored, and of its response. -/
def saved (s : Story) (r : Response) : Except Failure Response :=
  if s.isWritable then .ok r else .error (.broken (.write .tooDeep))

/-- What becomes of the view of a story that is only looked at. -/
def seen (s : Story) : Except Failure Response :=
  if s.view.isWritable then .ok (.view s.view) else .error (.broken (.view .tooDeep))

def Errand.outcome (key : String) (s : Story) : Errand → Except Failure Response
  | .document => saved s (.document s)
  | .view => opened s >>= seen
  | .step answers m => do
    let t ← moved s answers m
    saved t (.view t.view)
  | .readThrough j =>
    match j.route s with
    | .ok markdown => .ok (.readThrough (Story.fileTitle (some s) ++ ".md") markdown)
    | .error e => .error (.ofReadThrough e)
  | .extend target => (sectionToExtend s target).map (.scheduled key)
  | .adopt p => do
    let t ← adopted s p
    saved t (.adopted t.view)

section Outcomes

variable {key : String} {s : Story} {server : Server}

/-- A story that is to be stored is stored, or breaks the request off. -/
theorem run_saved (key : String) (s : Story) (r : Response) (server : Server) :
    ((keep key s >>= fun _ => pure r : Action Response).run.run server).1 = saved s r := by
  rw [run_bind]
  unfold saved
  by_cases hwritable : s.isWritable = true
  · rw [run_keep key hwritable, if_pos hwritable]
    rfl
  · rw [run_keep_refused key hwritable, if_neg hwritable]

/-- The view of a story is shown, or breaks the request off. -/
theorem run_seen (s : Story) (server : Server) :
    ((attempt (s.view.write.mapError fun fault => .broken (.view fault)) >>=
      fun _ => pure (.view s.view) : Action Response).run.run server).1 = seen s := by
  rw [run_bind, run_attempt]
  unfold seen View.write
  cases s.view.isWritable <;> rfl

/-- The stored story alone decides what an errand comes to. -/
theorem run_errand (e : Errand) (hload : server.store.load key = .ok (some s)) :
    ((e.action key).run.run server).1 = e.outcome key s := by
  cases e with
  | document =>
    unfold Errand.action Service.read
    rw [run_bind, run_stored hload]
    dsimp only
    rw [run_bind, run_attempt]
    dsimp only [Errand.outcome]
    unfold saved Story.write
    cases s.isWritable <;> rfl
  | view =>
    unfold Errand.action Service.view
    rw [run_bind, run_stored hload]
    dsimp only
    rw [run_bind, run_attempt]
    dsimp only [Errand.outcome, bind, Except.bind]
    cases opened s with
    | error failure => rfl
    | ok t => exact run_seen t server
  | step answers m =>
    unfold Errand.action navigate
    rw [run_bind, run_stored hload]
    dsimp only
    rw [run_bind, run_attempt]
    dsimp only [Errand.outcome, bind, Except.bind]
    cases moved s answers m with
    | error failure => rfl
    | ok t => exact run_saved key t _ server
  | readThrough j =>
    unfold Errand.action Service.readThrough
    rw [run_bind, run_stored hload]
    dsimp only [Errand.outcome, Journey.route]
    cases s.linearize (some j.start.id) (some j.finish.id) (j.through.map (some ·.id)) none <;> rfl
  | extend target =>
    unfold Errand.action Service.extend
    rw [run_bind, run_stored hload]
    dsimp only
    rw [run_bind, run_attempt]
    dsimp only [Errand.outcome]
    cases sectionToExtend s target <;> rfl
  | adopt p =>
    unfold Errand.action Service.adopt
    rw [run_bind, run_stored hload]
    dsimp only
    rw [run_bind, run_attempt]
    dsimp only [Errand.outcome, bind, Except.bind]
    cases adopted s p with
    | error failure => rfl
    | ok t => exact run_saved key t _ server

end Outcomes

/-! ## The parts of an errand -/

theorem setUp_eq (s : Story) (answers : List String) :
    setUp s answers =
      if s.sections = [] then .error (.refused .noSections)
      else .ok ⟨some s.started, answers.map some, [], []⟩ := by
  unfold setUp Player.load
  dsimp only
  cases s.sections <;> rfl

theorem opened_eq (s : Story) :
    opened s = if s.sections = [] then .error (.refused .noSections) else .ok s.started := by
  unfold opened
  rw [setUp_eq]
  split <;> rfl

theorem isWritable_started (s : Story) : s.started.isWritable = s.isWritable := by
  have hvalues : s.started.unknownValues = s.unknownValues := by
    unfold Story.started Story.withState Story.unknownValues Story.stateOrEmpty
    cases s.state <;> rfl
  unfold Story.isWritable
  rw [hvalues]

theorem moved_stepIn (s : Story) (answers : List String) (m : Move) :
    moved s answers m =
      if s.sections = [] then .error (.refused .noSections)
      else
        match stepIn s answers m with
        | (p, .ok ()) => live p
        | (_, .error e) => .error (.ofPlay e) := by
  unfold moved
  rw [setUp_eq]
  split
  · rfl
  · unfold stepIn
    rfl

theorem sectionToExtend_none (s : Story) :
    sectionToExtend s none =
      if s.sections = [] then .error (.refused .noSections)
      else (nearest? s).elim (.error (.refused .nothingToExtend)) .ok := by
  unfold sectionToExtend
  dsimp only
  rw [opened_eq]
  by_cases hs : s.sections = []
  · rw [if_pos hs, if_pos hs]
    rfl
  · rw [if_neg hs, if_neg hs]
    dsimp only [bind, Except.bind, nearest?]
    cases s.started.currentId?.bind fun id => s.started.extendable? id none [] <;> rfl

/-- An accepted answer is played from its start. -/
theorem adopted_eq_opened {s extended : Story} {p : Proposal} (hs : s.Proper)
    (hreview : review s p.response p.section_.id = .ok (.ok extended)) :
    adopted s p = opened extended := by
  have hgraph := Extension.graph_of_review hs hreview
  unfold adopted
  simp only [hreview, hgraph, written, Except.mapError, bind, Except.bind]

theorem stepIn_isSome (s : Story) (answers : List String) (m : Move) :
    (stepIn s answers m).1.story.isSome = true :=
  Player.move_isSome _ (p := ⟨some s.started, _, _, _⟩) rfl m

/-- An error of a step that is taken with a story: a section or a choice that is not there, or a script
that is interrupted. -/
def IsStepError (e : PlayError) : Prop :=
  (∃ id, e = .missingSection id) ∨ (∃ index available, e = .invalidChoice index available) ∨
    ∃ cause, e = .interrupted cause

theorem error_of_enter {p : Answered} (h : p.story.isSome = true) {id : String} {remember : Bool}
    {e : PlayError} (he : (p.enter (some .ofAnswers) id remember).2 = .error e) : IsStepError e := by
  obtain ⟨s, hs⟩ := Option.isSome_iff_exists.1 h
  rw [Player.enter_eq _ p s hs] at he
  cases hlines : s.linesOf id with
  | none =>
    rw [hlines] at he
    cases he
    exact .inl ⟨id, rfl⟩
  | some lines =>
    rw [hlines] at he
    dsimp only at he
    split at he
    · cases he
    · cases he
      exact .inr (.inr ⟨_, rfl⟩)

theorem error_of_move {p : Answered} (h : p.story.isSome = true) {m : Move} {e : PlayError}
    (he : (p.move (some .ofAnswers) m).2 = .error e) : IsStepError e := by
  cases m with
  | enter id => exact error_of_enter h he
  | choose index =>
    unfold Player.move at he
    dsimp only at he
    rw [Player.choose_eq] at he
    split at he
    · exact error_of_enter h he
    · cases he
      exact .inr (.inl ⟨_, _, rfl⟩)
  | forward =>
    unfold Player.move at he
    dsimp only at he
    rw [Player.forward_eq] at he
    split at he
    · exact error_of_enter h (error_of_map (error_of_map he))
    · cases he
  | back =>
    obtain ⟨s, hs⟩ := Option.isSome_iff_exists.1 h
    simp only [Player.move, Player.back, hs] at he
    split at he
    · cases he
    · split at he
      · exact error_of_enter (by rfl) (error_of_map (error_of_map he))
      · cases he
        exact .inl ⟨_, rfl⟩

/-! ## What errands come to -/

/-- An outcome is broken off exactly under a condition, and refused as a relation has it otherwise. -/
structure Classified (outcome : Except Failure Response) (breaks : Prop)
    (refuses : Refusal → Nat → Prop) : Prop where
  broken : (∃ fault, outcome = .error (.broken fault)) ↔ breaks
  refused : ¬ breaks → ∀ r n, outcome = .error (.refused r) ∧ n = r.status ↔ refuses r n

namespace Classified

variable {breaks : Prop} {refuses : Refusal → Nat → Prop}

theorem of_ok (response : Response) (hbreaks : ¬ breaks) (hrefuses : ∀ r n, ¬ refuses r n) :
    Classified (.ok response) breaks refuses where
  broken := iff_of_false (fun ⟨_, h⟩ => by cases h) hbreaks
  refused _ r n := iff_of_false (fun ⟨h, _⟩ => by cases h) (hrefuses r n)

theorem of_broken (fault : Fault) (hbreaks : breaks) :
    Classified (.error (.broken fault)) breaks refuses where
  broken := iff_of_true ⟨fault, rfl⟩ hbreaks
  refused h := absurd hbreaks h

theorem of_refused {r : Refusal} (hbreaks : ¬ breaks) (hr : refuses r r.status)
    (honly : ∀ other n, refuses other n → other = r ∧ n = r.status) :
    Classified (.error (.refused r)) breaks refuses where
  broken := iff_of_false (fun ⟨_, h⟩ => by cases h) hbreaks
  refused _ other n := by
    constructor
    · rintro ⟨h, rfl⟩
      cases h
      exact hr
    · intro h
      obtain ⟨rfl, hn⟩ := honly other n h
      exact ⟨rfl, hn⟩

/-- Storing a story breaks off when the story cannot be written, and is never refused. -/
theorem of_saved (s : Story) (response : Response) (hbreaks : breaks ↔ s.isWritable = false)
    (hrefuses : ∀ r n, ¬ refuses r n) : Classified (saved s response) breaks refuses := by
  unfold saved
  split
  · rename_i hwritable
    exact .of_ok _ (fun h => Bool.false_ne_true ((hbreaks.1 h).symm.trans hwritable)) hrefuses
  · rename_i hwritable
    exact .of_broken _ (hbreaks.2 (Bool.eq_false_of_not_eq_true hwritable))

theorem congr {outcome : Except Failure Response} {breaks' : Prop} {refuses' : Refusal → Nat → Prop}
    (h : Classified outcome breaks refuses) (hbreaks : breaks' ↔ breaks)
    (hrefuses : ∀ r n, refuses' r n ↔ refuses r n) : Classified outcome breaks' refuses' where
  broken := h.broken.trans hbreaks.symm
  refused hsafe r n := (h.refused (fun hb => hsafe (hbreaks.2 hb)) r n).trans (hrefuses r n).symm

end Classified

variable {s : Story}

theorem classified_document (key : String) :
    Classified (Errand.outcome key s .document) (Errand.Breaks s .document)
      (Errand.Refuses s .document) := by
  exact .of_saved s _ ⟨fun h => by cases h; assumption, .document⟩ (fun _ _ h => nomatch h)

theorem classified_view (key : String) :
    Classified (Errand.outcome key s .view) (Errand.Breaks s .view) (Errand.Refuses s .view) := by
  show Classified (opened s >>= seen) _ _
  rw [opened_eq]
  split
  · rename_i hs
    exact .of_refused (fun h => by cases h; contradiction) (.viewEmpty hs)
      (fun _ _ h => by cases h; exact ⟨rfl, rfl⟩)
  · rename_i hs
    show Classified (seen s.started) _ _
    unfold seen
    split
    · exact .of_ok _ (fun h => by cases h; simp_all) (fun _ _ h => by cases h; contradiction)
    · exact .of_broken _ (.view hs (by simp_all))

theorem classified_step (key : String) (answers : List String) (m : Move) :
    Classified (Errand.outcome key s (.step answers m)) (Errand.Breaks s (.step answers m))
      (Errand.Refuses s (.step answers m)) := by
  show Classified (moved s answers m >>= fun t => saved t (.view t.view)) _ _
  rw [moved_stepIn]
  split
  · rename_i hs
    exact .of_refused (fun h => by cases h <;> contradiction) (.stepEmpty hs)
      (fun _ _ h => by cases h <;> first | contradiction | exact ⟨rfl, rfl⟩)
  · rename_i hs
    have hsome := stepIn_isSome s answers m
    split
    · -- the step was taken, and its story is to be stored
      rename_i p hstep
      rw [hstep] at hsome
      obtain ⟨t, ht⟩ := Option.isSome_iff_exists.1 hsome
      have hlive : live p = .ok t := by
        unfold live
        rw [ht]
      rw [hlive]
      have hbreaks : Errand.Breaks s (.step answers m) ↔ t.isWritable = false :=
        ⟨fun h => by cases h <;> simp_all,
          .step hs (by rw [hstep]) (by rw [hstep]; exact ht)⟩
      exact .of_saved t _ hbreaks (fun _ _ h => by cases h <;> simp_all)
    · rename_i p e hstep
      obtain ⟨id, rfl⟩ | ⟨index, available, rfl⟩ | ⟨cause, rfl⟩ :=
        error_of_move (p := ⟨some s.started, _, _, _⟩) rfl (congrArg Prod.snd hstep)
      · exact .of_refused (fun h => by cases h <;> simp_all) (.missingSection hs (by rw [hstep]))
          (fun _ _ h => by cases h <;> simp_all [Refusal.status])
      · exact .of_refused (fun h => by cases h <;> simp_all) (.invalidChoice hs (by rw [hstep]))
          (fun _ _ h => by cases h <;> simp_all [Refusal.status])
      · exact .of_broken _ (.interrupted hs (by rw [hstep]))

theorem classified_readThrough (key : String) (j : Journey) :
    Classified (Errand.outcome key s (.readThrough j)) (Errand.Breaks s (.readThrough j))
      (Errand.Refuses s (.readThrough j)) := by
  dsimp only [Errand.outcome]
  cases hroute : j.route s with
  | ok markdown =>
    exact .of_ok _ (fun h => by cases h; simp_all) (fun _ _ h => by cases h; simp_all)
  | error e =>
    cases e with
    | number fault => exact .of_broken _ (.number hroute)
    | missingSection ref =>
      exact .of_refused (fun h => by cases h; simp_all) (.noReadThrough hroute (fun _ h => by cases h))
        (fun _ _ h => by cases h; simp_all [Refusal.status])
    | noRoute start finish through =>
      exact .of_refused (fun h => by cases h; simp_all) (.noReadThrough hroute (fun _ h => by cases h))
        (fun _ _ h => by cases h; simp_all [Refusal.status])

theorem classified_extend (key : String) (target : Option Target) :
    Classified (Errand.outcome key s (.extend target)) (Errand.Breaks s (.extend target))
      (Errand.Refuses s (.extend target)) := by
  have hbreaks : ¬ Errand.Breaks s (.extend target) := fun h => nomatch h
  cases target with
  | some target =>
    dsimp only [Errand.outcome, sectionToExtend]
    split
    · exact .of_ok _ hbreaks (fun _ _ h => by cases h; simp_all)
    · exact .of_refused hbreaks (.missingTarget (by simp_all))
        (fun _ _ h => by cases h; exact ⟨rfl, rfl⟩)
  | none =>
    dsimp only [Errand.outcome]
    rw [sectionToExtend_none]
    split
    · rename_i hs
      exact .of_refused hbreaks (.extendEmpty hs)
        (fun _ _ h => by cases h <;> first | contradiction | exact ⟨rfl, rfl⟩)
    · rename_i hs
      cases hnearest : nearest? s with
      | some id => exact .of_ok _ hbreaks (fun _ _ h => by cases h <;> simp_all)
      | none =>
        exact .of_refused hbreaks (.nothingToExtend hs hnearest)
          (fun _ _ h => by cases h <;> first | contradiction | exact ⟨rfl, rfl⟩)

theorem classified_adopt (key : String) (p : Proposal) (hs : s.Proper) :
    Classified (Errand.outcome key s (.adopt p)) (Errand.Breaks s (.adopt p))
      (Errand.Refuses s (.adopt p)) := by
  show Classified (adopted s p >>= fun t => saved t (.adopted t.view)) _ _
  cases hreview : review s p.response p.section_.id with
  | error fault =>
    unfold adopted
    rw [hreview]
    exact .of_broken _ (.review hreview)
  | ok verdict =>
    cases verdict with
    | error reason =>
      unfold adopted
      rw [hreview]
      exact .of_refused (fun h => by cases h <;> simp_all) (.rejected hreview)
        (fun _ _ h => by cases h; simp_all [Refusal.status])
    | ok extended =>
      obtain ⟨-, b, -, hb, -⟩ := Extension.extended_of_review hs hreview
      have hsections : extended.sections ≠ [] := by
        intro hnil
        rw [Story.section?, hnil] at hb
        cases hb
      rw [adopted_eq_opened hs hreview, opened_eq, if_neg hsections]
      have hbreaks : Errand.Breaks s (.adopt p) ↔ extended.started.isWritable = false := by
        rw [isWritable_started]
        exact ⟨fun h => by cases h <;> simp_all, .adopt hreview⟩
      exact .of_saved extended.started _ hbreaks (fun _ _ h => by cases h; simp_all)

theorem classified_errand (key : String) (e : Errand) (hs : s.Proper) :
    Classified (e.outcome key s) (e.Breaks s) (e.Refuses s) := by
  cases e with
  | document => exact classified_document key
  | view => exact classified_view key
  | step answers m => exact classified_step key answers m
  | readThrough j => exact classified_readThrough key j
  | extend target => exact classified_extend key target
  | adopt p => exact classified_adopt key p hs

/-! ## What queries come to -/

variable {store : Store} {server : Server} {key : String}

theorem run_get (server : Server) : (get : Action Server).run.run server = (.ok server, server) := rfl

theorem load_eq_none_iff : store.load key = .ok none ↔ store.records.has key = false := by
  unfold Store.load Store.record? Table.has
  cases store.records.get? key with
  | none => exact iff_of_true rfl rfl
  | some record =>
    refine iff_of_false ?_ Bool.true_eq_false.mp
    dsimp only
    cases Story.ofText record.text <;> exact fun h => nomatch h

theorem has_of_load {found : Except StoryError (Option Story)} (hload : store.load key = found)
    (hfound : found ≠ .ok none) : store.records.has key = true := by
  rw [← Bool.not_eq_false, ← load_eq_none_iff, hload]
  exact hfound

theorem run_stored_of_error {error : StoryError} (hload : server.store.load key = .error error) :
    ((stored key).run.run server).1 = .error (.ofStored error) := by
  unfold stored
  rw [run_bind, run_get]
  dsimp only
  rw [hload]
  rfl

theorem run_stored_of_none (hload : server.store.load key = .ok none) :
    ((stored key).run.run server).1 = .error (.refused .noStory) := by
  unfold stored
  rw [run_bind, run_get]
  dsimp only
  rw [hload]
  rfl

theorem run_errand_unloaded (e : Errand) {failure : Failure}
    (h : ((stored key).run.run server).1 = .error failure) :
    ((e.action key).run.run server).1 = .error failure := by
  obtain ⟨rest, hrest⟩ : ∃ rest : Story → Action Response, e.action key = stored key >>= rest := by
    cases e <;> exact ⟨_, rfl⟩
  rw [hrest, run_bind]
  revert h
  rcases (stored key).run.run server with ⟨outcome, after⟩
  rintro rfl
  rfl

theorem classified_query_errand (key : String) (e : Errand) (server : Server) :
    Classified ((e.action key).run.run server).1 (Hazard server.store (.errand key e))
      (Assigned server.store (.errand key e)) := by
  cases hload : server.store.load key with
  | error error =>
    have hrun : ((e.action key).run.run server).1 = .error (.ofStored error) :=
      run_errand_unloaded e (run_stored_of_error hload)
    have hhas : server.store.records.has key = true := has_of_load hload (fun h => nomatch h)
    rw [hrun]
    unfold Failure.ofStored
    split
    · rename_i hlimit
      exact .of_broken _ (.limit hload hlimit)
    · rename_i hlimit
      exact .of_refused (fun h => by cases h <;> simp_all) (.unreadable hload)
        (fun _ _ h => by cases h <;> simp_all [Refusal.status])
  | ok found =>
    cases found with
    | none =>
      have hrun : ((e.action key).run.run server).1 = .error (.refused .noStory) :=
        run_errand_unloaded e (run_stored_of_none hload)
      rw [hrun]
      exact .of_refused (fun h => by cases h <;> simp_all) (.missing (load_eq_none_iff.1 hload))
        (fun _ _ h => by cases h <;> simp_all [Refusal.status])
    | some s =>
      have hhas : server.store.records.has key = true := has_of_load hload (fun h => nomatch h)
      rw [run_errand e hload]
      have hclassified := classified_errand key e (Store.proper_of_load hload)
      have hbreaks : Hazard server.store (.errand key e) ↔ e.Breaks s :=
        ⟨fun h => by cases h <;> simp_all, fun h => .errand hload h⟩
      have hrefuses (r : Refusal) (n : Nat) :
          Assigned server.store (.errand key e) r n ↔ e.Refuses s r n :=
        ⟨fun h => by cases h <;> simp_all, fun h => .errand hload h⟩
      exact hclassified.congr hbreaks hrefuses

theorem run_placed (key : String) (s : Story) (shown : Story → Response) (server : Server) :
    ((attempt (opened s) >>= fun t => keep key t >>= fun _ => pure (shown t) :
        Action Response).run.run server).1 =
      if s.sections = [] then .error (.refused .noSections) else saved s.started (shown s.started) := by
  rw [run_bind, run_attempt, opened_eq]
  by_cases hs : s.sections = []
  · rw [if_pos hs, if_pos hs]
  · rw [if_neg hs, if_neg hs]
    exact run_saved key s.started _ server

theorem classified_query_replace (key : String) (s : Story) (server : Server) :
    Classified ((replace key s).run.run server).1 (Hazard server.store (.replace key s))
      (Assigned server.store (.replace key s)) := by
  unfold replace
  rw [run_placed]
  split
  · rename_i hs
    exact .of_refused (fun h => by cases h; contradiction) (.replaceEmpty hs)
      (fun _ _ h => by cases h; exact ⟨rfl, rfl⟩)
  · rename_i hs
    have hbreaks : Hazard server.store (.replace key s) ↔ s.started.isWritable = false := by
      rw [isWritable_started]
      exact ⟨fun h => by cases h; assumption, .replace hs⟩
    exact .of_saved s.started _ hbreaks (fun _ _ h => by cases h; contradiction)

theorem classified_query_delete (key : String) (server : Server) :
    Classified ((delete key).run.run server).1 (Hazard server.store (.delete key))
      (Assigned server.store (.delete key)) := by
  have hbreaks : ¬ Hazard server.store (.delete key) := fun h => nomatch h
  have hrun : ((delete key).run.run server).1 =
      if server.store.records.has key then .ok .deleted else .error (.refused .noStory) := by
    unfold delete
    rw [run_bind, run_get]
    dsimp only [Store.delete]
    cases server.store.records.has key <;> rfl
  rw [hrun]
  split
  · exact .of_ok _ hbreaks (fun _ _ h => by cases h; simp_all)
  · exact .of_refused hbreaks (.deleteMissing (by simp_all))
      (fun _ _ h => by cases h; exact ⟨rfl, rfl⟩)

theorem run_keyFor_given {c : Creation} {key : String} (hkey : c.newKey? = some key) (server : Server) :
    (keyFor c.key).run.run server =
      match server.store.load key with
      | .error error => (.error (.broken (.story error)), server)
      | .ok none => (.ok key, server)
      | .ok (some _) => (.error (.refused (.taken key)), server) := by
  unfold Creation.newKey? at hkey
  obtain ⟨hgiven, hne⟩ := Option.filter_eq_some_iff.1 hkey
  have hempty : key.isEmpty = false := by simpa using hne
  rw [hgiven]
  unfold keyFor
  dsimp only
  rw [hempty]
  show (checkFree key >>= fun _ => pure key : Action String).run.run server = _
  unfold checkFree
  rw [run_bind, run_bind, run_get]
  dsimp only
  cases server.store.load key with
  | error error => rfl
  | ok found => cases found <;> rfl

/-- A free key is kept, and for none there is a new one. -/
theorem run_keyFor_free {c : Creation} {server : Server}
    (hfree : ∀ key, c.newKey? = some key → server.store.records.has key = false) :
    ∃ key after, (keyFor c.key).run.run server = (.ok key, after) := by
  cases hkey : c.newKey? with
  | some key =>
    rw [run_keyFor_given hkey, load_eq_none_iff.2 (hfree key hkey)]
    exact ⟨_, _, rfl⟩
  | none =>
    unfold Creation.newKey? at hkey
    cases hgiven : c.key with
    | none => exact ⟨_, _, rfl⟩
    | some key =>
      rw [hgiven] at hkey
      have hempty : key.isEmpty = true := by simpa using hkey
      unfold keyFor
      dsimp only
      rw [hempty]
      exact ⟨_, _, rfl⟩

/-- A new story whose key is free, or made up. -/
theorem classified_query_create_free {c : Creation} {server : Server}
    (hfree : ∀ key, c.newKey? = some key → server.store.records.has key = false) :
    Classified ((create c).run.run server).1 (Hazard server.store (.create c))
      (Assigned server.store (.create c)) := by
  obtain ⟨key, after, hkey⟩ := run_keyFor_free hfree
  have hloads (key : String) (h : c.newKey? = some key) : server.store.load key = .ok none :=
    load_eq_none_iff.2 (hfree key h)
  have hrun : ((create c).run.run server).1 =
      if c.newStory.sections = [] then .error (.refused .noSections)
      else saved c.newStory.started (.created key c.newStory.started.view) := by
    unfold create
    rw [run_bind, hkey]
    exact run_placed key c.newStory (fun t => .created key t.view) after
  rw [hrun]
  split
  · rename_i hs
    exact .of_refused (fun h => by cases h <;> simp_all) (.createEmpty hfree hs)
      (fun _ _ h => by cases h <;> simp_all [Refusal.status])
  · rename_i hs
    have hbreaks : Hazard server.store (.create c) ↔ c.newStory.started.isWritable = false := by
      rw [isWritable_started]
      exact ⟨fun h => by cases h <;> simp_all, .create hfree hs⟩
    exact .of_saved c.newStory.started _ hbreaks (fun _ _ h => by cases h <;> simp_all)

theorem classified_query_create (c : Creation) (server : Server) :
    Classified ((create c).run.run server).1 (Hazard server.store (.create c))
      (Assigned server.store (.create c)) := by
  cases hkey : c.newKey? with
  | none => exact classified_query_create_free (by rw [hkey]; exact fun _ h => nomatch h)
  | some key =>
    have hrun := run_keyFor_given hkey server
    cases hload : server.store.load key with
    | error error =>
      rw [hload] at hrun
      unfold create
      rw [run_bind, hrun]
      exact .of_broken _ (.taken hkey hload)
    | ok found =>
      cases found with
      | none =>
        refine classified_query_create_free fun other h => ?_
        rw [hkey] at h
        cases h
        exact load_eq_none_iff.1 hload
      | some s =>
        have hhas : server.store.records.has key = true := has_of_load hload (fun h => nomatch h)
        rw [hload] at hrun
        unfold create
        rw [run_bind, hrun]
        exact .of_refused (fun h => by cases h <;> simp_all) (.taken hkey hhas)
          (fun _ _ h => by cases h <;> simp_all [Refusal.status])

/-- Every query breaks off exactly by one of the hazards, and is refused as assigned otherwise. -/
theorem classified_query (q : Query) (server : Server) :
    Classified (q.action.run.run server).1 (Hazard server.store q) (Assigned server.store q) := by
  cases q with
  | create c => exact classified_query_create c server
  | replace key s => exact classified_query_replace key s server
  | delete key => exact classified_query_delete key server
  | errand key e => exact classified_query_errand key e server

/-- A query is answered as it should be, whatever is stored, exactly when it meets no hazard. -/
theorem documented_iff (q : Query) (server : Server) :
    Documented server.store q (q.action.run.run server).1 ↔ ¬ Hazard server.store q := by
  have hclassified := classified_query q server
  constructor
  · intro hdocumented hhazard
    obtain ⟨fault, hfault⟩ := hclassified.broken.2 hhazard
    exact hdocumented.unbroken fault hfault
  · intro hsafe
    exact ⟨hclassified.refused hsafe, fun fault h => hsafe (hclassified.broken.1 ⟨fault, h⟩)⟩

/-- A server on which the text under a key is no story. -/
def corruptServer : Server := { Server.start 0 with store := ⟨[("k", ⟨none, "\x7b", 0⟩)]⟩ }

/-- The key is taken, and a request that reads the story is refused as it should be; one that wants to
use the key again breaks off. -/
theorem corrupt_key_broken :
    let q : Query := .create ⟨some "k", none⟩
    corruptServer.store.records.has "k" = true ∧
      ((Errand.document.action "k").run.run corruptServer).1 = .error (.refused .unreadable) ∧
      (∃ error, (q.action.run.run corruptServer).1 = .error (.broken (.story error))) ∧
      ¬ Documented corruptServer.store q (q.action.run.run corruptServer).1 := by
  intro q
  obtain ⟨error, hload, hlimit⟩ : ∃ error, corruptServer.store.load "k" = .error error ∧
      error.isLimit = false := by
    have hchars : "\x7b".toList = ['\x7b'] := by decide +kernel
    have hread : ∃ error, Json.read "\x7b" = .error error ∧ (StoryError.json error).isLimit = false := by
      unfold Json.read
      rw [hchars]
      exact ⟨_, rfl, rfl⟩
    obtain ⟨error, hread, hlimit⟩ := hread
    refine ⟨.json error, ?_, hlimit⟩
    show (Story.ofText "\x7b").map some = _
    unfold Story.ofText
    rw [hread]
    rfl
  have hbroken : (q.action.run.run corruptServer).1 = .error (.broken (.story error)) := by
    show ((create ⟨some "k", none⟩).run.run corruptServer).1 = _
    unfold create
    rw [run_bind, run_keyFor_given (c := ⟨some "k", none⟩) rfl, hload]
  refine ⟨rfl, ?_, ⟨error, hbroken⟩, fun h => h.unbroken _ hbroken⟩
  rw [run_errand_unloaded .document (run_stored_of_error hload), Failure.ofStored, hlimit]
  rfl

end Gamebook.Service
