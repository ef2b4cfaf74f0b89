import Gamebook.Proofs.Route.Least
import Gamebook.Proofs.Story.Reachable
import Gamebook.Proofs.Table
import Mathlib.Data.List.Perm.Subperm

/-!
# Where choices lead there is a route

One search follows choices without entering a section twice and stops at its goal; the other explores every
way, level by level, as far as a depth.  The shortest way to an end enters no section twice and meets its end
only there, so that it is a route; and a route has at most as many sections as the story.

* `Leads.of_chain`, `exists_chain` : routes are ways, and the shortest ways are routes.
* `search_admissible`    : a search from one section ends on an admissible route, or there is none.
* `Admissible.leads`, `exists_admissible` : there is a route to a goal where choices lead to it.
* `Admissible.length_lt` : it has no more sections than the story.
* `search_iff_reachable` : both searches find the same sections.
-/

set_option autoImplicit false

namespace Gamebook

variable {s : Story} {start finish : String}

/-! ## Ways and routes -/

theorem Story.hasSection_of_mem_targets (s : Story) {id target : String} (h : target ∈ s.targets id) :
    s.hasSection id = true := by
  rw [hasSection_eq]
  unfold targets at h
  split at h
  · rename_i hx
    rw [hx]
    rfl
  · cases h

/-- Along a route each section is led to by as many choices as stand before it. -/
theorem Story.Leads.of_chain {n : Nat} {id : String} {r : List String} (h : s.Leads start n id)
    (hlinked : (id :: r).IsChain fun a b => b ∈ s.targets a) :
    s.Leads start (n + r.length) ((id :: r).getLast (List.cons_ne_nil _ _)) := by
  induction r generalizing n id with
  | nil => exact h
  | cons t r ih =>
    rw [List.isChain_cons_cons] at hlinked
    have hrest := ih (h.of_mem_targets hlinked.1) hlinked.2
    rw [List.getLast_cons_cons, List.length_cons, Nat.add_comm r.length 1, ← Nat.add_assoc]
    exact hrest

/-- A way that is no longer than any other to its end is a route: it enters no section twice, for each of
its sections is as far from the start as there are choices before it. -/
theorem Story.exists_chain {n : Nat} (h : s.Leads start n finish)
    (hleast : ∀ m, s.Leads start m finish → n ≤ m) :
    ∃ r : List String, (start :: r).IsChain (fun a b => b ∈ s.targets a) ∧ (start :: r).Nodup ∧
      (start :: r).getLast? = some finish ∧ ∀ id ∈ start :: r, ∃ m ≤ n, s.Leads start m id := by
  induction h with
  | here =>
    refine ⟨[], List.isChain_singleton _, List.nodup_singleton _, rfl, ?_⟩
    exact List.forall_mem_singleton.2 ⟨0, Nat.le_refl 0, .here⟩
  | @choose n id x c hleads hx hc ih =>
    have hbefore : ∀ m, s.Leads start m id → n ≤ m := fun m hm =>
      Nat.le_of_succ_le_succ (hleast (m + 1) (hm.choose hx hc))
    obtain ⟨r, hlinked, hnodup, hlast, hnear⟩ := ih hbefore
    have hnew : c.target ∉ start :: r := by
      intro hmem
      obtain ⟨m, hmn, hm⟩ := hnear c.target hmem
      exact absurd (hleast m hm) (Nat.not_le.2 (Nat.lt_succ_of_le hmn))
    refine ⟨r ++ [c.target], ?_, ?_, ?_, ?_⟩
    · rw [← List.cons_append, List.isChain_append]
      refine ⟨hlinked, List.isChain_singleton _, fun a ha b hb => ?_⟩
      cases hlast.symm.trans ha
      cases hb
      exact mem_targets hx hc
    · rw [← List.cons_append]
      refine List.nodup_append.2 ⟨hnodup, List.nodup_singleton _, fun a ha b hb => ?_⟩
      rintro rfl
      exact hnew (List.mem_singleton.1 hb ▸ ha)
    · rw [← List.cons_append, List.getLast?_concat]
    · intro other hother
      rw [← List.cons_append, List.mem_append, List.mem_singleton] at hother
      obtain hother | rfl := hother
      · obtain ⟨m, hmn, hm⟩ := hnear other hother
        exact ⟨m, Nat.le_succ_of_le hmn, hm⟩
      · exact ⟨n + 1, Nat.le_refl _, hleads.choose hx hc⟩

namespace Route

variable {goal : Goal}

/-! ## The outcome of a search -/

/-- A search from one section ends on an admissible route, or there is none. -/
theorem search_admissible (s : Story) (goal : Goal) (start : String)
    (hforms : ∀ id ∈ goal.through, ∃ forms, idForms id = .ok forms) :
    (search s [start] goal = .ok none ∧ ∀ r, ¬ Admissible s goal [start] r) ∨
      ∃ r, search s [start] goal = .ok (some (start :: r)) ∧ Admissible s goal [start] r := by
  have hoff : (⟨start, none, [], []⟩ : Cursor).OffGoal goal := ⟨by simp, by simp⟩
  rcases Cursor.run_finds (s := s) hforms _ hoff with ⟨hnone, hahead⟩ | ⟨ns, found, hfound, hahead, -⟩
  · refine .inl ⟨hnone, fun r hr => ?_⟩
    obtain ⟨ns, hns⟩ := @exists_follows s start r hr.linked
    exact hahead ns _ (ahead_start_iff.2 ⟨r, rfl, hr, hns⟩)
  · obtain ⟨r, rfl, hadm, -⟩ := ahead_start_iff.1 hahead
    exact .inr ⟨r, hfound, hadm⟩

/-- What is asked of a route is its end, and nothing else. -/
def Goal.only (finish : String) : Goal := ⟨finish, [], none⟩

/-- The choices along an admissible route lead to the goal. -/
theorem Admissible.leads {r : List String} (h : Admissible s goal [start] r) :
    s.Leads start r.length goal.finish := by
  have hlinked : (start :: r).IsChain fun a b => b ∈ s.targets a := h.linked
  have hway := Story.Leads.here.of_chain hlinked
  have hlast : (start :: r).getLast (List.cons_ne_nil _ _) = goal.finish :=
    Option.some.inj ((List.getLast?_eq_some_getLast _).symm.trans h.finish)
  rwa [hlast, Nat.zero_add] at hway

/-- A shortest way to a goal is an admissible route. -/
theorem exists_admissible {n : Nat} (h : s.Leads start n finish) :
    ∃ r, Admissible s (.only finish) [start] r := by
  obtain ⟨m, -, hm, hleast⟩ := h.exists_least
  obtain ⟨r, hlinked, hnodup, hlast, -⟩ := Story.exists_chain hm hleast
  have hfresh := (List.nodup_cons.1 hnodup).1
  refine ⟨r, hlinked, hnodup.of_cons, ?_, hlast, ?_, fun _ h => (nomatch h), fun _ _ h => nomatch h⟩
  · intro id hid hstart
    exact hfresh (List.mem_singleton.1 hstart ▸ hid)
  · intro hmem
    rw [← List.dropLast_append_getLast? finish hlast] at hnodup
    exact (List.nodup_append.1 hnodup).2.2 finish hmem finish (List.mem_singleton_self _) rfl

/-! ## Sections along a route -/

/-- The sections of a route that ends at a section are all there: each but the last has a choice. -/
theorem hasSection_of_chain {r : List String} {id : String}
    (hlinked : (id :: r).IsChain fun a b => b ∈ s.targets a)
    (hlast : (id :: r).getLast? = some finish) (hfinish : s.hasSection finish = true) :
    ∀ other ∈ id :: r, s.hasSection other = true := by
  induction r generalizing id with
  | nil =>
    cases hlast
    exact List.forall_mem_singleton.2 hfinish
  | cons t r ih =>
    rw [List.isChain_cons_cons] at hlinked
    rw [List.getLast?_cons_cons] at hlast
    exact List.forall_mem_cons.2 ⟨s.hasSection_of_mem_targets hlinked.1, ih hlinked.2 hlast⟩

theorem Admissible.hasSection {r : List String} (h : Admissible s goal [start] r)
    (hfinish : s.hasSection goal.finish = true) : ∀ id ∈ start :: r, s.hasSection id = true :=
  hasSection_of_chain h.linked h.finish hfinish

theorem Admissible.nodup_route {r : List String} (h : Admissible s goal [start] r) :
    (start :: r).Nodup :=
  List.nodup_cons.2 ⟨fun hmem => h.fresh start hmem (List.mem_singleton_self _), h.nodup⟩

/-- An admissible route to a section has at most as many sections as the story. -/
theorem Admissible.length_lt {r : List String} (h : Admissible s goal [start] r)
    (hfinish : s.hasSection goal.finish = true) : r.length < s.sections.length := by
  have hsub : start :: r ⊆ s.ids := fun id hid =>
    (Table.has_iff s.sections id).1 (h.hasSection hfinish id hid)
  have hlength := (List.subperm_of_subset h.nodup_route hsub).length_le
  rwa [Story.ids, Table.keys, List.length_map] at hlength

/-! ## Both searches -/

/-- Within a depth no less than the number of sections are those sections to which there is a route. -/
theorem mem_reachable_iff_admissible (hfinish : s.hasSection finish = true) {depth : Int}
    (hdepth : s.sections.length ≤ depth) :
    finish ∈ s.reachable start depth ↔ ∃ r, Admissible s (.only finish) [start] r := by
  rw [Story.mem_reachable_iff, and_iff_right hfinish]
  constructor
  · rintro ⟨n, -, hleads⟩
    exact exists_admissible hleads
  · rintro ⟨r, h⟩
    have hlength := h.length_lt hfinish
    exact ⟨r.length, by omega, h.leads⟩

/-- A search that asks for its end only finds a route to a section where that section is within reach, as soon
as the depth is no less than the number of sections; in every other case it says that there is none. -/
theorem search_iff_reachable (s : Story) (start : String) {finish : String}
    (hfinish : s.hasSection finish = true) {depth : Int} (hdepth : s.sections.length ≤ depth) :
    ((∃ route, search s [start] (.only finish) = .ok (some route)) ↔
      finish ∈ s.reachable start depth) ∧
    (search s [start] (.only finish) = .ok none ↔ finish ∉ s.reachable start depth) := by
  rw [mem_reachable_iff_admissible hfinish hdepth]
  rcases search_admissible s (.only finish) start (fun _ h => nomatch h) with
    ⟨hsearch, hnone⟩ | ⟨r, hsearch, hadm⟩
  · rw [hsearch]
    exact ⟨iff_of_false (fun ⟨_, h⟩ => nomatch h) (fun ⟨r, h⟩ => hnone r h),
      iff_of_true rfl fun ⟨r, h⟩ => hnone r h⟩
  · rw [hsearch]
    exact ⟨iff_of_true ⟨_, rfl⟩ ⟨r, hadm⟩, iff_of_false (fun h => nomatch h) fun h => h ⟨r, hadm⟩⟩

/-- The third section of the looped story is within reach, and so there is a route to it. -/
theorem search_iff_reachable_looped : loopedStory.hasSection "3" = true ∧
    (loopedStory.sections.length : Int) ≤ 3 ∧ "3" ∈ loopedStory.reachable "1" 3 ∧
    ∃ route, search loopedStory ["1"] (.only "3") = .ok (some route) := by
  have hsection : loopedStory.hasSection "3" = true := rfl
  have hdepth : (loopedStory.sections.length : Int) ≤ 3 := by decide
  have hreach : "3" ∈ loopedStory.reachable "1" 3 := by decide
  exact ⟨hsection, hdepth, hreach, (search_iff_reachable loopedStory "1" hsection hdepth).1.2 hreach⟩

end Route

end Gamebook
