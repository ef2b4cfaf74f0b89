import Gamebook.Proofs.Service.Stored
import Mathlib.Data.List.Induction

/-!
# A store as a map from keys to stories

A store is used by any number of calls, each at a time of its own.  What it answers is compared with the
history of the calls alone: with the story that was last saved under a key.

* `Call`, `Reply`, `answer` : what is asked of a store, what it answers and how it is left.
* `behind`             : the store behind some calls.
* `LastSaved`          : the story that was last saved under a key, and not removed since.
* `Mirrors`            : the records are the stories last saved; `mirrors_answer` for one call and
  `mirrors_behind` for all.
* `Promised`, `IsSafe` : what a call should do, and the calls that do it.
* `promised_iff_safe`  : a call does what is promised exactly when it is safe, from `promised_iff` for
  any store that mirrors the calls before.
-/

set_option autoImplicit false

namespace Gamebook.Store

/-! ## Calls -/

/-- What is asked of a store. -/
inductive Call where
  | save (key : String) (s : Story)
  | get (key : String)
  | delete (key : String)
  | removeInactive (hours : Int)

/-- What a store answers. -/
inductive Reply where
  | saved (result : Except WriteFault Unit)
  | found (result : Except StoryError (Option Story))
  | deleted (there : Bool)
  | removed (result : Except CalendarFault Nat)

/-- A call at a time.  A call that breaks off leaves the store as it was. -/
def answer (store : Store) (now : Int) : Call → Store × Reply
  | .save key s =>
    match store.save now key s with
    | .ok after => (after, .saved (.ok ()))
    | .error fault => (store, .saved (.error fault))
  | .get key => (store, .found (store.load key))
  | .delete key => ((store.delete key).1, .deleted (store.delete key).2)
  | .removeInactive hours =>
    match store.removeInactive now hours with
    | .ok (after, count) => (after, .removed (.ok count))
    | .error fault => (store, .removed (.error fault))

/-- The store behind some calls, each with its time, on an empty one. -/
def behind (calls : List (Int × Call)) : Store :=
  calls.foldl (fun store c => (store.answer c.1 c.2).1) .empty

/-- A call at a time puts something in place of a story that was saved under a key, or removes it. -/
def Call.Clears (key : String) (saved now : Int) : Call → Prop
  | .save other s => other = key ∧ s.isWritable = true
  | .get _ => False
  | .delete other => other = key
  | .removeInactive hours =>
    (∃ time, Calendar.before now hours = .ok time) ∧ hours * Calendar.hour < now - saved

/-- The story was saved under the key at a time, and no call has cleared it since. -/
def LastSaved (calls : List (Int × Call)) (key : String) (s : Story) (saved : Int) : Prop :=
  ∃ before later, calls = before ++ (saved, .save key s) :: later ∧ s.isWritable = true ∧
    ∀ c ∈ later, ¬ c.2.Clears key saved c.1

section History

variable {calls : List (Int × Call)} {key : String} {s : Story} {saved : Int}

theorem not_lastSaved_nil : ¬ LastSaved [] key s saved := by
  rintro ⟨before, later, h, -⟩
  exact List.append_ne_nil_of_right_ne_nil _ (List.cons_ne_nil _ _) h.symm

/-- One more call saves a story, or leaves it saved. -/
theorem lastSaved_append {now : Int} {call : Call} :
    LastSaved (calls ++ [(now, call)]) key s saved ↔
      (call = .save key s ∧ now = saved ∧ s.isWritable = true) ∨
        (LastSaved calls key s saved ∧ ¬ call.Clears key saved now) := by
  constructor
  · rintro ⟨before, later, hcalls, hwritable, hlater⟩
    cases later using List.reverseRecOn with
    | nil =>
      obtain ⟨-, hlast⟩ := List.append_inj' hcalls rfl
      cases hlast
      exact .inl ⟨rfl, rfl, hwritable⟩
    | append_singleton later c =>
      rw [← List.cons_append, ← List.append_assoc] at hcalls
      obtain ⟨hinit, hlast⟩ := List.append_inj' hcalls rfl
      cases hlast
      rw [List.forall_mem_append] at hlater
      exact .inr ⟨⟨before, later, hinit, hwritable, hlater.1⟩, hlater.2 _ List.mem_cons_self⟩
  · rintro (⟨rfl, rfl, hwritable⟩ | ⟨⟨before, later, rfl, hwritable, hlater⟩, hclears⟩)
    · exact ⟨calls, [], rfl, hwritable, List.forall_mem_nil _⟩
    · refine ⟨before, later ++ [(now, call)], by rw [List.append_assoc]; rfl, hwritable, ?_⟩
      rw [List.forall_mem_append]
      exact ⟨hlater, List.forall_mem_singleton.2 hclears⟩

end History

/-! ## Records -/

def recordOf (s : Story) (saved : Int) : Record := ⟨s.title?, s.compactText, saved⟩

/-- The records of a store are the stories last saved, one under each key. -/
structure Mirrors (calls : List (Int × Call)) (store : Store) : Prop where
  nodup : (Table.keys store.records).Nodup
  record : ∀ key r, store.record? key = some r ↔
    ∃ s saved, LastSaved calls key s saved ∧ r = recordOf s saved

theorem behind_append (calls : List (Int × Call)) (now : Int) (call : Call) :
    behind (calls ++ [(now, call)]) = ((behind calls).answer now call).1 := by
  unfold behind
  rw [List.foldl_append]
  rfl

/-- The time some hours before another, where the calendar has one. -/
theorem before_eq {now hours time : Int} (h : Calendar.before now hours = .ok time) :
    time = now - hours * Calendar.hour := by
  unfold Calendar.before at h
  cases hspan : Calendar.span hours with
  | error fault =>
    rw [hspan] at h
    cases h
  | ok length =>
    have hlength : length = hours * Calendar.hour := by
      unfold Calendar.span at hspan
      dsimp only at hspan
      split at hspan
      · cases hspan
      · split at hspan
        · cases hspan
        · exact (Except.ok.inj hspan).symm
    rw [hspan] at h
    unfold Calendar.within at h
    dsimp only [bind, Except.bind] at h
    split at h
    · rw [← hlength]
      exact (Except.ok.inj h).symm
    · cases h

theorem isOlder_iff (r : Record) (now hours : Int) :
    r.isOlder (now - hours * Calendar.hour) = true ↔ hours * Calendar.hour < now - r.updated := by
  unfold Record.isOlder
  rw [decide_eq_true_eq]
  omega

section Answers

variable {store : Store} {now : Int} {key : String} {s : Story} {hours : Int}

theorem answer_save (h : s.isWritable = true) :
    store.answer now (.save key s) = (store.kept now key s, .saved (.ok ())) := by
  unfold answer
  dsimp only
  rw [save_eq, if_pos h]

theorem answer_save_deep (h : ¬ s.isWritable = true) :
    store.answer now (.save key s) = (store, .saved (.error .tooDeep)) := by
  unfold answer
  dsimp only
  rw [save_eq, if_neg h]

theorem answer_get : store.answer now (.get key) = (store, .found (store.load key)) := rfl

theorem answer_removeInactive {time : Int} (h : Calendar.before now hours = .ok time) :
    store.answer now (.removeInactive hours) =
      ((store.removeOlder time).1, .removed (.ok (store.removeOlder time).2)) := by
  unfold answer removeInactive
  dsimp only
  rw [h]
  rfl

theorem answer_removeInactive_outside {fault : CalendarFault}
    (h : Calendar.before now hours = .error fault) :
    store.answer now (.removeInactive hours) = (store, .removed (.error fault)) := by
  unfold answer removeInactive
  dsimp only
  rw [h]
  rfl

end Answers

section Step

variable {calls : List (Int × Call)} {store : Store}

/-- A call that neither saves nor clears anything leaves the history as it is. -/
theorem mirrors_idle (h : Mirrors calls store) {now : Int} {call : Call}
    (hsave : ∀ key s, call = .save key s → ¬ s.isWritable = true)
    (hclears : ∀ key saved, ¬ call.Clears key saved now) : Mirrors (calls ++ [(now, call)]) store where
  nodup := h.nodup
  record := by
    intro key r
    rw [h.record]
    refine exists₂_congr fun s saved => and_congr_left fun _ => ?_
    rw [lastSaved_append, and_iff_left (hclears key saved),
      or_iff_right fun hsaved => hsave key s hsaved.1 hsaved.2.2]

theorem mirrors_save (h : Mirrors calls store) {now : Int} {key : String} {s : Story}
    (hwritable : s.isWritable = true) :
    Mirrors (calls ++ [(now, .save key s)]) (store.kept now key s) where
  nodup := Table.nodup_put h.nodup _ _
  record := by
    intro other r
    have hget : (store.kept now key s).record? other =
        if other = key then some (recordOf s now) else store.record? other := Table.get?_put ..
    rw [hget]
    by_cases hkey : other = key
    · subst hkey
      rw [if_pos rfl]
      constructor
      · rintro ⟨⟩
        exact ⟨s, now, lastSaved_append.2 (.inl ⟨rfl, rfl, hwritable⟩), rfl⟩
      · rintro ⟨t, saved, hlast, rfl⟩
        rcases lastSaved_append.1 hlast with ⟨hcall, rfl, -⟩ | ⟨-, hclears⟩
        · cases hcall
          rfl
        · exact absurd ⟨rfl, hwritable⟩ hclears
    · rw [if_neg hkey, h.record]
      refine exists₂_congr fun t saved => and_congr_left fun _ => ?_
      rw [lastSaved_append, or_iff_right, and_iff_left]
      · exact fun hclears => hkey hclears.1.symm
      · rintro ⟨hcall, -⟩
        cases hcall
        exact hkey rfl

theorem mirrors_delete (h : Mirrors calls store) {now : Int} {key : String} :
    Mirrors (calls ++ [(now, .delete key)]) (store.delete key).1 where
  nodup := h.nodup.sublist (Table.keys_erase_sublist _ _)
  record := by
    intro other r
    have hget : (store.delete key).1.record? other =
        if other = key then none else store.record? other := Table.get?_erase h.nodup ..
    rw [hget]
    by_cases hkey : other = key
    · subst hkey
      rw [if_pos rfl]
      refine iff_of_false (fun hr => nomatch hr) ?_
      rintro ⟨s, saved, hlast, -⟩
      rcases lastSaved_append.1 hlast with ⟨hcall, -⟩ | ⟨-, hclears⟩
      · cases hcall
      · exact hclears rfl
    · rw [if_neg hkey, h.record]
      refine exists₂_congr fun s saved => and_congr_left fun _ => ?_
      rw [lastSaved_append, or_iff_right (fun hcall => nomatch hcall.1), and_iff_left]
      exact fun hclears => hkey hclears.symm

theorem mirrors_removeOlder (h : Mirrors calls store) {now hours time : Int}
    (hbefore : Calendar.before now hours = .ok time) :
    Mirrors (calls ++ [(now, .removeInactive hours)]) (store.removeOlder time).1 where
  nodup := h.nodup.sublist (Table.keys_filter_sublist _ _)
  record := by
    intro key r
    have hget : (store.removeOlder time).1.record? key =
        (store.record? key).filter fun r => !r.isOlder time := Table.get?_filter h.nodup ..
    rw [hget, Option.filter_eq_some_iff, h.record, Bool.not_eq_true', Bool.eq_false_iff,
      before_eq hbefore, ne_eq, isOlder_iff]
    constructor
    · rintro ⟨⟨s, saved, hlast, rfl⟩, hyoung⟩
      exact ⟨s, saved, lastSaved_append.2 (.inr ⟨hlast, fun hclears => hyoung hclears.2⟩), rfl⟩
    · rintro ⟨s, saved, hlast, rfl⟩
      rcases lastSaved_append.1 hlast with ⟨hcall, -⟩ | ⟨hlast, hclears⟩
      · cases hcall
      · exact ⟨⟨s, saved, hlast, rfl⟩, fun hold => hclears ⟨⟨time, hbefore⟩, hold⟩⟩

theorem mirrors_answer (h : Mirrors calls store) (now : Int) (call : Call) :
    Mirrors (calls ++ [(now, call)]) (store.answer now call).1 := by
  cases call with
  | save key s =>
    by_cases hwritable : s.isWritable = true
    · rw [answer_save hwritable]
      exact mirrors_save h hwritable
    · rw [answer_save_deep hwritable]
      refine mirrors_idle h ?_ fun _ _ hclears => hwritable hclears.2
      rintro _ _ ⟨⟩
      exact hwritable
  | get key => exact mirrors_idle h (fun _ _ hcall => nomatch hcall) fun _ _ hclears => hclears
  | delete key => exact mirrors_delete h
  | removeInactive hours =>
    cases hbefore : Calendar.before now hours with
    | ok time =>
      rw [answer_removeInactive hbefore]
      exact mirrors_removeOlder h hbefore
    | error fault =>
      rw [answer_removeInactive_outside hbefore]
      refine mirrors_idle h (fun _ _ hcall => nomatch hcall) ?_
      rintro _ _ ⟨⟨time, htime⟩, -⟩
      rw [hbefore] at htime
      cases htime

end Step

theorem mirrors_behind (calls : List (Int × Call)) : Mirrors calls (behind calls) := by
  induction calls using List.reverseRecOn with
  | nil =>
    refine ⟨List.nodup_nil, fun key r => iff_of_false (fun hr => nomatch hr) ?_⟩
    rintro ⟨s, saved, hlast, -⟩
    exact not_lastSaved_nil hlast
  | append_singleton calls c ih =>
    obtain ⟨now, call⟩ := c
    rw [behind_append]
    exact mirrors_answer ih now call

/-! ## What is promised -/

/-- What a call should do with a store that holds the stories last saved: a story that is saved gets a
record, or the title, the text and the time of the record that is there; a story that is looked for is the
one last saved; a deletion tells whether there was one; and a removal drops just the records that are too
old, and counts them. -/
def Promised (calls : List (Int × Call)) (now : Int) (store : Store) (outcome : Store × Reply) :
    Call → Prop
  | .save key s => outcome.2 = .saved (.ok ()) ∧ outcome.1.records =
      match store.record? key with
      | none => store.records ++ [(key, recordOf s now)]
      | some _ => store.records.modify key fun r =>
        { r with title := s.title?, text := s.compactText, updated := now }
  | .get key => outcome.1 = store ∧ ∃ found, outcome.2 = .found (.ok found) ∧
      ∀ s, found = some s ↔ ∃ saved, LastSaved calls key s saved
  | .delete key => (∃ there, outcome.2 = .deleted there ∧
        (there = true ↔ ∃ s saved, LastSaved calls key s saved)) ∧
      ∀ other, outcome.1.record? other = if other = key then none else store.record? other
  | .removeInactive hours => ∃ count, outcome.2 = .removed (.ok count) ∧
      outcome.1.records =
        store.records.filter (fun e => !decide (hours * Calendar.hour < now - e.2.updated)) ∧
      store.records.length = outcome.1.records.length + count

/-- A story that is saved can be written, the unknown fields of a story that is looked for hold finite
numbers only, and the hours of a removal lead to a time of the calendar. -/
def IsSafe (calls : List (Int × Call)) (now : Int) : Call → Prop
  | .save _ s => s.isWritable = true
  | .get key => ∀ s saved, LastSaved calls key s saved → ∀ v ∈ s.unknownValues, v.isFinite = true
  | .delete _ => True
  | .removeInactive hours => ∃ time, Calendar.before now hours = .ok time

section Promises

variable {calls : List (Int × Call)} {store : Store} {key : String} {s : Story} {saved : Int}

theorem LastSaved.writable (h : LastSaved calls key s saved) : s.isWritable = true := by
  obtain ⟨_, _, _, hwritable, -⟩ := h
  exact hwritable

theorem LastSaved.mem (h : LastSaved calls key s saved) : (saved, .save key s) ∈ calls := by
  obtain ⟨before, later, rfl, -⟩ := h
  exact List.mem_append_right _ List.mem_cons_self

theorem load_of_lastSaved (h : Mirrors calls store) (hlast : LastSaved calls key s saved)
    (hproper : s.Proper) : store.load key = .ok (some s.settled) := by
  refine Service.load_of_text ?_ hproper hlast.writable
  rw [(h.record key _).2 ⟨s, saved, hlast, rfl⟩]
  rfl

theorem load_of_not_lastSaved (h : Mirrors calls store)
    (hnone : ¬ ∃ s saved, LastSaved calls key s saved) : store.load key = .ok none := by
  have hfree : store.record? key = none := by
    rw [Option.eq_none_iff_forall_ne_some]
    intro r hr
    obtain ⟨s, saved, hlast, -⟩ := (h.record key r).1 hr
    exact hnone ⟨s, saved, hlast⟩
  unfold load
  rw [hfree]

/-- What is found under a key is the story last saved, as far as writing and loading keep it. -/
theorem found_iff (h : Mirrors calls store)
    (hproper : ∀ s saved, LastSaved calls key s saved → s.Proper) :
    (∃ found, store.load key = .ok found ∧ ∀ s, found = some s ↔ ∃ saved, LastSaved calls key s saved) ↔
      ∀ s saved, LastSaved calls key s saved → ∀ v ∈ s.unknownValues, v.isFinite = true := by
  constructor
  · rintro ⟨found, hload, hfound⟩ s saved hlast
    have hsettled := (load_of_lastSaved h hlast (hproper s saved hlast)).symm.trans hload
    have hsame := (hfound s).2 ⟨saved, hlast⟩
    rw [hsame, Except.ok.injEq, Option.some.injEq] at hsettled
    exact s.settled_eq_iff.1 hsettled
  · intro hfinite
    have hload : ∀ s saved, LastSaved calls key s saved → store.load key = .ok (some s) := by
      intro s saved hlast
      have hload := load_of_lastSaved h hlast (hproper s saved hlast)
      rwa [s.settled_eq_iff.2 (hfinite s saved hlast)] at hload
    by_cases hsome : ∃ s saved, LastSaved calls key s saved
    · obtain ⟨s, saved, hlast⟩ := hsome
      refine ⟨some s, hload s saved hlast, fun t => ⟨?_, ?_⟩⟩
      · rintro ⟨⟩
        exact ⟨saved, hlast⟩
      · rintro ⟨time, hother⟩
        exact Except.ok.inj ((hload s saved hlast).symm.trans (hload t time hother))
    · refine ⟨none, load_of_not_lastSaved h hsome, fun t => iff_of_false (fun ht => nomatch ht) ?_⟩
      rintro ⟨saved, hlast⟩
      exact hsome ⟨t, saved, hlast⟩

/-- A story that is saved under a free key gets a record; else the record that is there is changed. -/
theorem kept_records (now : Int) (key : String) (s : Story) : (store.kept now key s).records =
    match store.record? key with
    | none => store.records ++ [(key, recordOf s now)]
    | some _ => store.records.modify key fun r =>
      { r with title := s.title?, text := s.compactText, updated := now } := by
  cases hrecord : store.record? key with
  | none => exact Table.put_of_not_mem (Table.get?_eq_none_iff.1 hrecord) _
  | some r => exact Table.put_eq_modify (List.mem_map_of_mem (Table.mem_of_get? hrecord)) _

theorem there_iff (h : Mirrors calls store) :
    (store.delete key).2 = true ↔ ∃ s saved, LastSaved calls key s saved := by
  have hthere : (store.delete key).2 = (store.record? key).isSome := rfl
  rw [hthere, Option.isSome_iff_exists]
  constructor
  · rintro ⟨r, hr⟩
    obtain ⟨s, saved, hlast, -⟩ := (h.record key r).1 hr
    exact ⟨s, saved, hlast⟩
  · rintro ⟨s, saved, hlast⟩
    exact ⟨_, (h.record key _).2 ⟨s, saved, hlast, rfl⟩⟩

/-- What a removal keeps and what it counts. -/
theorem removeOlder_eq {now hours time : Int} (hbefore : Calendar.before now hours = .ok time) :
    (store.removeOlder time).1.records =
        store.records.filter (fun e => !decide (hours * Calendar.hour < now - e.2.updated)) ∧
      store.records.length = (store.removeOlder time).1.records.length + (store.removeOlder time).2 := by
  have hold : ∀ e : String × Record,
      e.2.isOlder time = decide (hours * Calendar.hour < now - e.2.updated) := by
    intro e
    rw [Bool.eq_iff_iff, decide_eq_true_eq, before_eq hbefore, isOlder_iff]
  unfold removeOlder
  simp only [hold, true_and]
  rw [← List.countP_eq_length_filter, Nat.add_comm]
  have hcount := List.length_eq_countP_add_countP
    (fun e : String × Record => decide (hours * Calendar.hour < now - e.2.updated)) (l := store.records)
  simp only [decide_not, Bool.decide_eq_true] at hcount
  exact hcount

/-- The title beside a text is that of the story that the text is. -/
theorem titled (h : Mirrors calls store)
    (hproper : ∀ key s saved, LastSaved calls key s saved → s.Proper) (e : String × Record)
    (he : e ∈ store.records) : ∃ s, Story.ofText e.2.text = .ok s ∧ e.2.title = s.title? := by
  obtain ⟨s, saved, hlast, hr⟩ := (h.record e.1 e.2).1 (Table.get?_of_mem h.nodup he)
  refine ⟨s.settled, ?_, ?_⟩
  · rw [hr]
    exact Story.reload (hproper e.1 s saved hlast) hlast.writable ⟨none, false⟩
  · rw [hr, Service.title?_settled]
    rfl

/-- One call on a store that mirrors the calls before. -/
theorem promised_iff (h : Mirrors calls store)
    (hproper : ∀ key s saved, LastSaved calls key s saved → s.Proper) (now : Int) (call : Call) :
    Promised calls now store (store.answer now call) call ↔ IsSafe calls now call := by
  cases call with
  | save key s =>
    by_cases hwritable : s.isWritable = true
    · rw [answer_save hwritable]
      exact iff_of_true ⟨rfl, kept_records now key s⟩ hwritable
    · rw [answer_save_deep hwritable]
      exact iff_of_false (fun hsaved => nomatch hsaved.1) hwritable
  | get key =>
    have hfound := found_iff h (hproper key)
    simp only [Promised, answer_get, true_and, Reply.found.injEq]
    exact hfound
  | delete key =>
    exact iff_of_true ⟨⟨_, rfl, there_iff h⟩, fun other => Table.get?_erase h.nodup ..⟩ trivial
  | removeInactive hours =>
    cases hbefore : Calendar.before now hours with
    | ok time =>
      rw [answer_removeInactive hbefore]
      exact iff_of_true ⟨_, rfl, removeOlder_eq hbefore⟩ ⟨time, hbefore⟩
    | error fault =>
      rw [answer_removeInactive_outside hbefore]
      refine iff_of_false ?_ ?_
      · rintro ⟨_, hreply, -⟩
        cases hreply
      · rintro ⟨time, htime⟩
        rw [hbefore] at htime
        cases htime

/-- A call that is not safe leaves the store as it was. -/
theorem answer_of_not_isSafe {now : Int} {call : Call} (hnot : ¬ IsSafe calls now call) :
    (store.answer now call).1 = store := by
  cases call with
  | save key s => rw [answer_save_deep hnot]
  | get key => rfl
  | delete key => exact absurd trivial hnot
  | removeInactive hours =>
    cases hbefore : Calendar.before now hours with
    | ok time => exact absurd ⟨time, hbefore⟩ hnot
    | error fault => rw [answer_removeInactive_outside hbefore]

/-- Every call, on a store behind others that saved stories as they are loaded and played.  Under each
key the record of the story last saved stands, and nothing else; its title is that of the story its text
is, and it is found as far as writing and loading keep it.  The call does what is promised exactly when it
is safe; one that is not leaves the store as it was. -/
theorem promised_iff_safe (hreached : ∀ c ∈ calls, ∀ key s, c.2 = .save key s → s.Reached)
    (now : Int) (call : Call) :
    Mirrors calls (behind calls) ∧
      (∀ e ∈ (behind calls).records, ∃ s, Story.ofText e.2.text = .ok s ∧ e.2.title = s.title?) ∧
      (∀ key s saved, LastSaved calls key s saved →
        (behind calls).load key = .ok (some s.settled)) ∧
      (Promised calls now (behind calls) ((behind calls).answer now call) call ↔
        IsSafe calls now call) ∧
      (¬ IsSafe calls now call → ((behind calls).answer now call).1 = behind calls) := by
  have h := mirrors_behind calls
  have hproper : ∀ key s saved, LastSaved calls key s saved → s.Proper := fun key s saved hlast =>
    (hreached _ hlast.mem key s rfl).proper
  exact ⟨h, titled h hproper,
    fun key s saved hlast => load_of_lastSaved h hlast (hproper key s saved hlast),
    promised_iff h hproper now call, answer_of_not_isSafe⟩

end Promises

/-- Two stories saved thirty hours apart. -/
def apart : List (Int × Call) :=
  [(0, .save "old" .fresh), (30 * Calendar.hour, .save "new" .fresh)]

/-- A removal that drops one of them. -/
theorem promised_apart :
    let outcome := (behind apart).answer (48 * Calendar.hour) (.removeInactive 24)
    Promised apart (48 * Calendar.hour) (behind apart) outcome (.removeInactive 24) ∧
      outcome.2 = .removed (.ok 1) ∧ outcome.1.records.map Prod.fst = ["new"] := by
  have hreached : ∀ c ∈ apart, ∀ key s, c.2 = .save key s → s.Reached := by
    simp only [apart, List.forall_mem_cons]
    refine ⟨?_, ?_, List.forall_mem_nil _⟩
    · rintro _ _ ⟨⟩
      exact .fresh
    · rintro _ _ ⟨⟩
      exact .fresh
  obtain ⟨-, -, -, hiff, -⟩ := promised_iff_safe hreached (48 * Calendar.hour) (.removeInactive 24)
  exact ⟨hiff.2 ⟨_, rfl⟩, rfl, rfl⟩

/-- A removal whose hours reach behind the beginning of the calendar breaks off, where it should remove
nothing and say so; and a number in an unknown field that is not finite is not found again. -/
theorem far_removal_and_nan : ∃ s,
    Story.ofText "\x7b\"sections\": \x7b\x7d, \"x\": NaN\x7d" = .ok s ∧
    let now := Calendar.yearStart 2024
    let store := behind [(now, .save "k" s)]
    (store.answer now (.removeInactive 10000000000)).2 = .removed (.error .outside) ∧
      ¬ Promised [(now, .save "k" s)] now store (store.answer now (.removeInactive 10000000000))
        (.removeInactive 10000000000) ∧
      ¬ Promised [(now, .save "k" s)] now store (store.answer now (.get "k")) (.get "k") := by
  let s : Story := ⟨.absent, .absent, [], .absent, [("x", .float .nan)]⟩
  refine ⟨s, Story.ofText_nan, ?_⟩
  intro now store
  have hlast : LastSaved [(now, .save "k" s)] "k" s now := ⟨[], [], rfl, rfl, List.forall_mem_nil _⟩
  have hload := load_of_lastSaved (mirrors_behind _) hlast (Story.proper_of_text Story.ofText_nan)
  have hremoved : (store.answer now (.removeInactive 10000000000)).2 = .removed (.error .outside) := rfl
  refine ⟨hremoved, ?_, ?_⟩
  · rintro ⟨count, hcount, -⟩
    cases hcount.symm.trans hremoved
  · rintro ⟨-, found, hfound, hsame⟩
    have hfound := Reply.found.inj hfound
    rw [(hsame _).2 ⟨now, hlast⟩, hload] at hfound
    have hextra := congrArg Story.extra (Option.some.inj (Except.ok.inj hfound))
    exact nomatch (hextra : [("x", Json.null)] = [("x", .float .nan)])

end Gamebook.Store
