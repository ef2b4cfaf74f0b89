import Gamebook.Proofs.Route.Agreement
import Gamebook.Route.Markdown

/-!
# What a read-through passes through

* `Passage`          : sections that can be read one after another, from a start to an end.
* `Meets`            : a passage has a section asked for, or the one whose id is the number that was meant.
* `visitsAll_of_run` : the outcome of a search passes through every section asked for.
* `markdown_eq_join` : sections in order are written one by one.
* `linearize_along`  : a read-through is written along a passage that meets every section asked for.
* `linearize_along_twins`, `twin_passed_over` : two sections whose ids denote one number.
-/

set_option autoImplicit false

namespace Gamebook

namespace Route

variable {s : Story} {goal : Goal}

/-- Sections that can be read one after another: choices lead along them from a start to an end, all of them
are there, and none comes twice. -/
structure Passage (s : Story) (start finish : String) (route : List String) : Prop where
  begins : route.head? = some start
  ends : route.getLast? = some finish
  linked : route.IsChain fun a b => b ∈ s.targets a
  nodup : route.Nodup
  present : ∀ id ∈ route, s.hasSection id = true

/-- The section asked for is on a route, or the one that bears the shortest spelling of the number which the id
asked for denotes. -/
def Meets (route : List String) (id : String) : Prop :=
  id ∈ route ∨ ∃ x, numberOfText id = .ok x ∧ x.isNaN = false ∧ textOfNumber x ∈ route

theorem Admissible.passage {start : String} {r : List String} (h : Admissible s goal [start] r)
    (hfinish : s.hasSection goal.finish = true) : Passage s start goal.finish (start :: r) where
  begins := rfl
  ends := h.finish
  linked := h.linked
  nodup := h.nodup_route
  present := h.hasSection hfinish

theorem meets_of_forms {route forms : List String} {id form : String} (hforms : idForms id = .ok forms)
    (hform : form ∈ forms) (hroute : form ∈ route) : Meets route id := by
  unfold idForms at hforms
  simp only [bind, Except.bind, pure, Except.pure] at hforms
  split at hforms
  · cases hforms
  · rename_i x hx
    split at hforms <;> cases hforms
    · cases List.mem_singleton.1 hform
      exact .inl hroute
    · rename_i hnumber
      rw [List.mem_cons, List.mem_singleton] at hform
      obtain rfl | rfl := hform
      · exact .inl hroute
      · exact .inr ⟨x, hx, Bool.eq_false_iff.2 hnumber, hroute⟩

/-! ## The outcome of a search -/

/-- A route that a search gives passes through every section asked for. -/
theorem Cursor.visitsAll_of_run {c : Cursor} {route : List String}
    (h : c.run s goal = .ok (some route)) : visitsAll route goal.through = .ok true := by
  have hretreat {c : Cursor} (h : c.retreat = .ended (.ok (some route))) : False := by
    unfold retreat at h
    split at h <;> cases h
  induction c using Cursor.run.induct s goal with
  | case1 c outcome hstep =>
    rw [run_of_ended hstep] at h
    subst h
    unfold step at hstep
    split at hstep
    · split at hstep
      · unfold arrive at hstep
        split at hstep
        · rename_i hvisits
          cases hstep
          exact hvisits
        · exact (hretreat hstep).elim
        · cases hstep
      · cases hstep
    · unfold follow at hstep
      split at hstep
      · exact (hretreat hstep).elim
      · split at hstep <;> cases hstep
  | case2 c next hstep ih => exact ih (run_of_underway hstep ▸ h)

/-- The route found from one section is an admissible one, whatever is asked for. -/
theorem admissible_of_search {start : String} {route : List String}
    (h : search s [start] goal = .ok (some route)) :
    ∃ r, route = start :: r ∧ Admissible s goal [start] r := by
  have hvisits : visitsAll route goal.through = .ok true := Cursor.visitsAll_of_run h
  have hforms : ∀ id ∈ goal.through, ∃ forms, idForms id = .ok forms := by
    intro id hid
    obtain ⟨forms, hforms, -⟩ := (visitsAll_iff _ _).1 hvisits id hid
    exact ⟨forms, hforms⟩
  rcases search_admissible s goal start hforms with ⟨hnone, -⟩ | ⟨r, hsome, hadm⟩
  · rw [h] at hnone
    cases hnone
  · rw [h] at hsome
    cases hsome
    exact ⟨r, rfl, hadm⟩

theorem Admissible.meets {start : String} {r : List String} (h : Admissible s goal [start] r) {id : String}
    (hid : id ∈ goal.through) : Meets (start :: r) id := by
  obtain ⟨forms, hforms, form, hform, hroute⟩ := h.through id hid
  exact meets_of_forms hforms hform hroute

end Route

/-! ## Writing a read-through -/

namespace Story

open Route

variable {s : Story}

/-- Sections in order are written one by one. -/
theorem markdown_eq_join (s : Story) (ids : List SectionRef) :
    s.markdown ids = String.join (ids.map fun ref => s.markdown [ref]) := by
  induction ids with
  | nil => rfl
  | cons ref ids ih =>
    have hsplit : s.markdown (ref :: ids) = s.markdown [ref] ++ s.markdown ids := by
      unfold markdown
      rw [← List.singleton_append, List.filterMap_append, String.join_append]
    rw [hsplit, ih, List.map_cons, String.join_cons]

/-- A read-through is written section by section along a passage from its start to its end.  Each section asked
for is there; it is on the passage, or another one is whose id is the shortest spelling of the number that the
id asked for denotes. -/
theorem linearize_along {start finish : SectionRef} {through : List SectionRef} {maxLength : Option Int}
    {text : String} (h : s.linearize start finish through maxLength = .ok text) :
    ∃ a b route, start = some a ∧ finish = some b ∧ Passage s a b route ∧
      text = String.join (route.map fun id => s.markdown [some id]) ∧
      ∀ ref ∈ through, ∃ id, ref = some id ∧ s.hasSection id = true ∧ Meets route id := by
  unfold linearize at h
  split at h
  · cases h
  · rename_i hfound
    rw [List.find?_eq_none] at hfound
    have hthere : ∀ ref ∈ start :: finish :: through, ∃ id, ref = some id ∧ s.hasSection id = true := by
      intro ref href
      exact Option.any_eq_true _ _ |>.1 (by simpa using hfound ref href)
    simp only [List.forall_mem_cons] at hthere
    obtain ⟨⟨a, rfl, -⟩, ⟨b, rfl, hb⟩, hthrough⟩ := hthere
    split at h
    · cases h
    · cases h
    · rename_i route hsearch
      cases h
      obtain ⟨r, rfl, hadm⟩ := admissible_of_search hsearch
      refine ⟨a, b, a :: r, rfl, rfl, hadm.passage hb, ?_, fun ref href => ?_⟩
      · rw [markdown_eq_join, List.map_map]
        rfl
      · obtain ⟨id, rfl, hid⟩ := hthrough ref href
        exact ⟨id, rfl, hid, hadm.meets (List.mem_map_of_mem href)⟩

/-- Two sections whose ids denote one number, on two ways to the end. -/
def twins : Story where
  metadata := .absent
  state := .absent
  sections :=
    [("1", { Section.ofLines "1" ["A fork."] with
        next := .value [.added "0" "Left", .added "00" "Right"] }),
      ("0", { Section.ofLines "0" ["A mill."] with next := .value [.added "3" "On"] }),
      ("00", { Section.ofLines "00" ["A ford."] with next := .value [.added "3" "On"] }),
      ("3", .ofLines "3" ["The end."])]
  definitions := .absent

/-- The mill has the number that the ford was asked for by. -/
theorem linearize_twins : twins.linearize (some "1") (some "3") [some "00"] none =
    .ok "A fork.\n\nA mill.\n\nThe end.\n\n" := by
  decide +kernel

theorem linearize_along_twins :
    twins.linearize (some "1") (some "3") [some "00"] none =
      .ok "A fork.\n\nA mill.\n\nThe end.\n\n" ∧
    ∃ a b route, some "1" = some a ∧ some "3" = some b ∧ Passage twins a b route ∧
      "A fork.\n\nA mill.\n\nThe end.\n\n" =
        String.join (route.map fun id => twins.markdown [some id]) ∧
      ∀ ref ∈ [some "00"], ∃ id, ref = some id ∧ twins.hasSection id = true ∧ Meets route id :=
  ⟨linearize_twins, linearize_along linearize_twins⟩

/-- By way of the ford there is one passage only. -/
theorem passage_by_ford {route : List String} (h : Passage twins "1" "3" route) (hford : "00" ∈ route) :
    route = ["1", "00", "3"] := by
  have hfirst : twins.targets "1" = ["0", "00"] := rfl
  have hmill : twins.targets "0" = ["3"] := rfl
  have hbank : twins.targets "00" = ["3"] := rfl
  have hlast : twins.targets "3" = [] := rfl
  obtain ⟨hbegins, hends, hlinked, -, -⟩ := h
  match route with
  | [] => cases hbegins
  | [_] => simp_all
  | [_, _] => simp_all
  | [_, _, _] => simp_all
  | _ :: t :: u :: v :: _ =>
    -- two choices lead to the end, and the end has none
    cases hbegins
    simp only [List.isChain_cons_cons, hfirst] at hlinked
    obtain ⟨ht, hu, hv, -⟩ := hlinked
    obtain rfl | rfl : t = "0" ∨ t = "00" := by simpa using ht
    all_goals
      obtain rfl : u = "3" := by simpa [hmill, hbank] using hu
      rw [hlast] at hv
      cases hv

/-- The text is not written along any passage that has the ford, although the ford was asked for. -/
theorem twin_passed_over :
    twins.linearize (some "1") (some "3") [some "00"] none =
      .ok "A fork.\n\nA mill.\n\nThe end.\n\n" ∧
    ¬ ∃ route, Passage twins "1" "3" route ∧
      "A fork.\n\nA mill.\n\nThe end.\n\n" =
        String.join (route.map fun id => twins.markdown [some id]) ∧ "00" ∈ route := by
  refine ⟨linearize_twins, ?_⟩
  rintro ⟨route, hpassage, htext, hford⟩
  rw [passage_by_ford hpassage hford] at htext
  exact absurd htext (by decide +kernel)

end Story

end Gamebook
