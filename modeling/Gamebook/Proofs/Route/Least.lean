import Gamebook.Route.Search
import Mathlib.Data.List.Chain
import Mathlib.Logic.Function.Iterate

/-!
# The search finds the least admissible route

* `Admissible` : what an extension of a route has to satisfy, said without the search.
* `Follows`    : the positions of the choices that lead along a list of sections.
* `Completes`  : the same extensions, choice by choice from the end of a route.
* `Ahead`      : the extensions that a search has not yet ruled out, with their positions.

`step_ahead` says what one step does to them: a step that does not end the search keeps them all, and
one that ends it has none left, or stands on the least of them.  `search_least` follows by induction
on the steps.
-/

set_option autoImplicit false

namespace Gamebook.Route

variable {s : Story} {goal : Goal}

/-! ## Admissible extensions -/

/-- The sections `r` extend a route to the goal. -/
structure Admissible (s : Story) (goal : Goal) (route r : List String) : Prop where
  /-- Each section is led to by a choice of the one before it. -/
  linked : (route.getLast?.toList ++ r).IsChain fun a b => b ∈ s.targets a
  nodup : r.Nodup
  fresh : ∀ id ∈ r, id ∉ route
  finish : (route ++ r).getLast? = some goal.finish
  /-- The goal is not passed on the way. -/
  notBefore : goal.finish ∉ (route.getLast?.toList ++ r).dropLast
  through : ∀ id ∈ goal.through,
    ∃ forms, idForms id = .ok forms ∧ ∃ form ∈ forms, form ∈ route ++ r
  short : r ≠ [] → ∀ limit, goal.maxLength = some limit → ((route ++ r).length : Int) ≤ limit

/-- The choices at these positions lead from a section along the others. -/
def Follows (s : Story) : String → List Nat → List String → Prop
  | _, [], [] => True
  | id, n :: ns, t :: r => (s.targets id)[n]? = some t ∧ Follows s t ns r
  | _, _, _ => False

/-- The choices at these positions lead from the end of a route, given from its last section back,
along further sections to the goal. -/
inductive Completes (s : Story) (goal : Goal) : List String → List Nat → List String → Prop where
  | here {tip : String} {before : List String} (hfinish : tip = goal.finish)
      (hvisits : visitsAll (tip :: before).reverse goal.through = .ok true) :
      Completes s goal (tip :: before) [] []
  | on {tip t : String} {before r : List String} {n : Nat} {ns : List Nat}
      (hfinish : tip ≠ goal.finish) (htarget : (s.targets tip)[n]? = some t)
      (hfresh : t ∉ tip :: before) (hroom : goal.mayExtend (tip :: before).length = true)
      (hrest : Completes s goal (t :: tip :: before) ns r) :
      Completes s goal (tip :: before) (n :: ns) (t :: r)

theorem visitsAll_iff (route ids : List String) : visitsAll route ids = .ok true ↔
    ∀ id ∈ ids, ∃ forms, idForms id = .ok forms ∧ ∃ form ∈ forms, form ∈ route := by
  induction ids with
  | nil => simp [visitsAll]
  | cons id ids ih =>
    cases hforms : idForms id with
    | error fault => simp [visitsAll, hforms, bind, Except.bind]
    | ok forms =>
      by_cases hany : forms.any route.contains = true
      · have : ∃ form ∈ forms, form ∈ route := by simpa using hany
        simpa [visitsAll, hforms, hany, bind, Except.bind, this] using ih
      · have : ¬ ∃ form ∈ forms, form ∈ route := by simpa using hany
        simp [visitsAll, hforms, hany, bind, Except.bind, pure, Except.pure, this]

theorem visitsAll_error {route ids : List String} {fault : NumberFault}
    (h : visitsAll route ids = .error fault) : ∃ id ∈ ids, idForms id = .error fault := by
  induction ids with
  | nil => cases h
  | cons id ids ih =>
    cases hforms : idForms id with
    | error other =>
      simp only [visitsAll, hforms, bind, Except.bind] at h
      cases h
      exact ⟨id, List.mem_cons_self, hforms⟩
    | ok forms =>
      simp only [visitsAll, hforms, bind, Except.bind] at h
      split at h
      · obtain ⟨other, hmem, hother⟩ := ih h
        exact ⟨other, List.mem_cons_of_mem _ hmem, hother⟩
      · cases h

theorem mayExtend_iff (length : Nat) : goal.mayExtend length = true ↔
    ∀ limit, goal.maxLength = some limit → (length : Int) < limit := by
  unfold Goal.mayExtend
  cases goal.maxLength <;> simp

/-- Nothing to add is admissible at the goal only. -/
theorem admissible_nil_iff (tip : String) (before : List String) :
    Admissible s goal (tip :: before).reverse [] ↔
      tip = goal.finish ∧ visitsAll (tip :: before).reverse goal.through = .ok true := by
  constructor
  · intro h
    have hfinish := h.finish
    simp only [List.reverse_cons, List.append_nil, List.getLast?_append, List.getLast?_singleton,
      Option.some_or, Option.some.injEq] at hfinish
    exact ⟨hfinish, (visitsAll_iff _ _).2 (by simpa using h.through)⟩
  · rintro ⟨rfl, hvisits⟩
    exact ⟨by simp, by simp, by simp, by simp, by simp,
      by simpa using (visitsAll_iff _ _).1 hvisits, by simp⟩

/-- An admissible extension is one choice, and an admissible extension of the longer route. -/
theorem admissible_cons_iff (tip t : String) (before r : List String) :
    Admissible s goal (tip :: before).reverse (t :: r) ↔
      tip ≠ goal.finish ∧ t ∈ s.targets tip ∧ t ∉ tip :: before ∧
        goal.mayExtend (tip :: before).length = true ∧
        Admissible s goal (t :: tip :: before).reverse r := by
  have hshift : (tip :: before).reverse ++ t :: r = (t :: tip :: before).reverse ++ r := by simp
  have hlast : (tip :: before).reverse.getLast? = some tip := by simp
  have hlast' : (t :: tip :: before).reverse.getLast? = some t := by simp
  constructor
  · intro h
    have hlinked := h.linked
    have hnot := h.notBefore
    have hfresh := h.fresh t List.mem_cons_self
    rw [hlast] at hlinked hnot
    simp only [Option.toList_some, List.singleton_append, List.isChain_cons_cons,
      List.dropLast_cons_cons, List.mem_cons, not_or] at hlinked hnot
    rw [List.mem_reverse] at hfresh
    refine ⟨fun e => hnot.1 e.symm, hlinked.1, hfresh, ?_, ?_⟩
    · rw [mayExtend_iff]
      intro limit hlimit
      have hshort := h.short (by simp) limit hlimit
      simp only [List.length_append, List.length_reverse, List.length_cons] at hshort ⊢
      omega
    · refine ⟨by rw [hlast']; exact hlinked.2, h.nodup.of_cons, ?_, by rw [← hshift]; exact h.finish,
        by rw [hlast']; exact hnot.2, by rw [← hshift]; exact h.through,
        fun _ => by rw [← hshift]; exact h.short (by simp)⟩
      intro id hid hmem
      rw [List.mem_reverse, List.mem_cons] at hmem
      rcases hmem with rfl | hmem
      · exact (List.nodup_cons.1 h.nodup).1 hid
      · exact h.fresh id (List.mem_cons_of_mem _ hid) (List.mem_reverse.2 hmem)
  · rintro ⟨hfinish, htarget, hfresh, hroom, h⟩
    have hlinked := h.linked
    have hnot := h.notBefore
    rw [hlast'] at hlinked hnot
    refine ⟨?_, ?_, ?_, by rw [hshift]; exact h.finish, ?_, by rw [hshift]; exact h.through, ?_⟩
    · rw [hlast]
      exact List.isChain_cons_cons.2 ⟨htarget, hlinked⟩
    · refine List.nodup_cons.2 ⟨fun hmem => h.fresh t hmem ?_, h.nodup⟩
      simp
    · intro id hid hmem
      rw [List.mem_reverse] at hmem
      rcases List.mem_cons.1 hid with rfl | hid
      · exact hfresh hmem
      · exact h.fresh id hid (List.mem_reverse.2 (List.mem_cons_of_mem _ hmem))
    · rw [hlast]
      simp only [Option.toList_some, List.singleton_append, List.dropLast_cons_cons, List.mem_cons,
        not_or] at hnot ⊢
      exact ⟨fun e => hfinish e.symm, hnot⟩
    · intro _ limit hlimit
      rw [hshift]
      cases r with
      | nil =>
        have := (mayExtend_iff _).1 hroom limit hlimit
        simp only [List.length_append, List.length_reverse, List.length_cons, List.length_nil] at *
        omega
      | cons _ _ => exact h.short (by simp) limit hlimit

/-- Completions, choice by choice, are the admissible extensions with their positions. -/
theorem completes_iff {tip : String} {before r : List String} {ns : List Nat} :
    Completes s goal (tip :: before) ns r ↔
      Admissible s goal (tip :: before).reverse r ∧ Follows s tip ns r := by
  induction r generalizing tip before ns with
  | nil =>
    rw [admissible_nil_iff]
    constructor
    · rintro ⟨hfinish, hvisits⟩
      exact ⟨⟨hfinish, hvisits⟩, trivial⟩
    · rintro ⟨⟨hfinish, hvisits⟩, hfollows⟩
      cases ns with
      | nil => exact .here hfinish hvisits
      | cons _ _ => exact hfollows.elim
  | cons t r ih =>
    rw [admissible_cons_iff]
    constructor
    · rintro (_ | ⟨hfinish, htarget, hfresh, hroom, hrest⟩)
      obtain ⟨hadm, hfollows⟩ := ih.1 hrest
      exact ⟨⟨hfinish, List.mem_of_getElem? htarget, hfresh, hroom, hadm⟩, htarget, hfollows⟩
    · rintro ⟨⟨hfinish, -, hfresh, hroom, hadm⟩, hfollows⟩
      cases ns with
      | nil => exact hfollows.elim
      | cons n ns => exact .on hfinish hfollows.1 hfresh hroom (ih.2 ⟨hadm, hfollows.2⟩)

/-! ## What a search has not yet ruled out -/

/-- An extension of a route by choices of which the first was not yet tried, `base` being the
positions of the choices that lead to the end of the route. -/
def Remains (s : Story) (goal : Goal) (route : List String) (tried : Option Nat) (base ns : List Nat)
    (found : List String) : Prop :=
  ∃ ms r, Completes s goal route ms r ∧ (∀ k, tried = some k → ∃ m rest, ms = m :: rest ∧ k ≤ m) ∧
    ns = base ++ ms ∧ found = route.reverse ++ r

/-- The positions of the choices that lead along the sections passed. -/
def positions (passed : List Passed) : List Nat := (passed.map Passed.position).reverse

/-- The routes not yet ruled out from the tip or from a section passed, with their positions. -/
def AheadFrom (s : Story) (goal : Goal) (before : List String) :
    List Passed → String → Option Nat → List Nat → List String → Prop
  | [], tip, tried, ns, found => Remains s goal (tip :: before) tried [] ns found
  | p :: earlier, tip, tried, ns, found =>
    Remains s goal (tip :: ((p :: earlier).map Passed.id ++ before)) tried (positions (p :: earlier))
      ns found ∨
    AheadFrom s goal before earlier p.id (some (p.position + 1)) ns found

namespace Cursor

variable {c next : Cursor}

/-- The routes that a search has not yet ruled out, with their positions. -/
def Ahead (s : Story) (goal : Goal) (c : Cursor) (ns : List Nat) (found : List String) : Prop :=
  AheadFrom s goal c.before c.passed c.tip c.tried ns found

/-- The routes not yet ruled out that go on from the tip. -/
def Here (s : Story) (goal : Goal) (c : Cursor) (ns : List Nat) (found : List String) : Prop :=
  Remains s goal c.route c.tried (positions c.passed) ns found

/-- The goal is neither a section whose choices are tried nor one that was passed. -/
structure OffGoal (goal : Goal) (c : Cursor) : Prop where
  tip : ∀ n, c.tried = some n → c.tip ≠ goal.finish
  passed : ∀ p ∈ c.passed, p.id ≠ goal.finish

/-- What is ahead goes on from the tip, or from a section passed. -/
theorem ahead_iff (c : Cursor) (ns : List Nat) (found : List String) :
    c.Ahead s goal ns found ↔ c.Here s goal ns found ∨
      ∃ p earlier, c.passed = p :: earlier ∧
        (⟨p.id, some (p.position + 1), earlier, c.before⟩ : Cursor).Ahead s goal ns found := by
  obtain ⟨tip, tried, passed, before⟩ := c
  cases passed with
  | nil => simp [Ahead, Here, AheadFrom, route, positions]
  | cons p earlier => simp [Ahead, Here, AheadFrom, route]

/-- A search goes back only when nothing goes on from its tip. -/
theorem retreat_ahead (hc : ∀ ns found, ¬ c.Here s goal ns found) :
    (∀ next, c.retreat = .underway next → ∀ ns found,
      next.Ahead s goal ns found ↔ c.Ahead s goal ns found) ∧
    (∀ outcome, c.retreat = .ended outcome →
      outcome = .ok none ∧ ∀ ns found, ¬ c.Ahead s goal ns found) := by
  unfold retreat
  constructor
  · intro next h ns found
    split at h
    · cases h
    · rename_i p earlier hp
      cases h
      rw [ahead_iff c]
      simp [hc, hp]
  · intro outcome h
    split at h
    · rename_i hp
      cases h
      refine ⟨rfl, fun ns found => ?_⟩
      rw [ahead_iff c]
      simp [hc, hp]
    · cases h

/-- A completion starts with the next choice, or with a later one. -/
theorem here_some_iff {n : Nat} (hc : c.tried = some n) (ns : List Nat) (found : List String) :
    c.Here s goal ns found ↔
      (∃ ms r, Completes s goal c.route (n :: ms) r ∧ ns = positions c.passed ++ n :: ms ∧
        found = c.route.reverse ++ r) ∨ Here s goal { c with tried := some (n + 1) } ns found := by
  constructor
  · rintro ⟨ms, r, hcompletes, htried, hns, hfound⟩
    obtain ⟨m, rest, rfl, hm⟩ := htried n hc
    rcases Nat.eq_or_lt_of_le hm with rfl | hlt
    · exact Or.inl ⟨rest, r, hcompletes, hns, hfound⟩
    · refine Or.inr ⟨m :: rest, r, hcompletes, ?_, hns, hfound⟩
      rintro k ⟨⟩
      exact ⟨m, rest, rfl, hlt⟩
  · rintro (⟨ms, r, hcompletes, hns, hfound⟩ | ⟨ms, r, hcompletes, htried, hns, hfound⟩)
    · refine ⟨n :: ms, r, hcompletes, fun k hk => ?_, hns, hfound⟩
      rw [hc] at hk
      cases hk
      exact ⟨n, ms, rfl, Nat.le_refl _⟩
    · obtain ⟨m, rest, rfl, hm⟩ := htried (n + 1) rfl
      refine ⟨m :: rest, r, hcompletes, fun k hk => ?_, hns, hfound⟩
      rw [hc] at hk
      cases hk
      exact ⟨m, rest, rfl, by omega⟩

/-- Looking at a section that is not the goal leaves all its choices to be tried. -/
theorem here_none_iff (hc : c.tried = none) (hfinish : c.tip ≠ goal.finish) (ns : List Nat)
    (found : List String) :
    Here s goal { c with tried := some 0 } ns found ↔ c.Here s goal ns found := by
  constructor
  · rintro ⟨ms, r, hcompletes, -, hns, hfound⟩
    exact ⟨ms, r, hcompletes, by simp [hc], hns, hfound⟩
  · rintro ⟨ms, r, hcompletes, -, hns, hfound⟩
    refine ⟨ms, r, hcompletes, ?_, hns, hfound⟩
    rintro k ⟨⟩
    cases hcompletes with
    | here htip _ => exact absurd htip hfinish
    | on _ _ _ _ _ => exact ⟨_, _, rfl, Nat.zero_le _⟩

/-- At the goal nothing but the route itself completes it. -/
theorem not_here_of_finish (hfinish : c.tip = goal.finish)
    (hvisits : visitsAll c.route.reverse goal.through = .ok false) (ns : List Nat)
    (found : List String) : ¬ c.Here s goal ns found := by
  rintro ⟨ms, r, hcompletes, -, -, -⟩
  cases hcompletes with
  | here _ htrue => rw [route] at hvisits; rw [hvisits] at htrue; cases htrue
  | on hne _ _ _ _ => exact hne hfinish

/-- Behind the last choice nothing is left. -/
theorem not_here_of_none {n : Nat} (hc : c.tried = some n) (hn : (s.targets c.tip)[n]? = none)
    (ns : List Nat) (found : List String) : ¬ c.Here s goal ns found := by
  rintro ⟨ms, r, hcompletes, htried, -, -⟩
  obtain ⟨m, rest, rfl, hm⟩ := htried n hc
  cases hcompletes with
  | on _ htarget _ _ _ =>
    have := (List.getElem?_eq_some_iff.1 htarget).1
    have := List.getElem?_eq_none_iff.1 hn
    omega

/-- What is ahead changes with what goes on from the tip. -/
theorem ahead_congr {k : Option Nat} {ns : List Nat} {found : List String}
    (h : Here s goal { c with tried := k } ns found ↔ c.Here s goal ns found) :
    Ahead s goal { c with tried := k } ns found ↔ c.Ahead s goal ns found := by
  rw [ahead_iff, ahead_iff c, h]

/-- The completions from a section entered are those that start with the choice followed. -/
theorem here_entered_iff {n : Nat} {t : String} (ht : (s.targets c.tip)[n]? = some t)
    (hfinish : c.tip ≠ goal.finish) (hfresh : t ∉ c.route)
    (hroom : goal.mayExtend c.route.length = true) (ns : List Nat) (found : List String) :
    Here s goal ⟨t, none, ⟨c.tip, n⟩ :: c.passed, c.before⟩ ns found ↔
      ∃ ms r, Completes s goal c.route (n :: ms) r ∧ ns = positions c.passed ++ n :: ms ∧
        found = c.route.reverse ++ r := by
  constructor
  · rintro ⟨ms, r, hcompletes, -, hns, hfound⟩
    exact ⟨ms, t :: r, .on hfinish ht hfresh hroom hcompletes, by simp [hns, positions],
      by simp [hfound, route]⟩
  · rintro ⟨ms, r, hcompletes, hns, hfound⟩
    cases hcompletes with
    | on _ htarget _ _ hrest =>
      rw [ht] at htarget
      cases htarget
      exact ⟨ms, _, hrest, by simp, by simp [hns, positions], by simp [hfound, route]⟩

/-- Following a choice rules nothing out: one that is skipped starts no completion, and the
completions that start with one that is followed go on from the section entered. -/
theorem ahead_of_follow {n : Nat} (hoff : c.OffGoal goal) (hc : c.tried = some n)
    (h : c.follow s goal n = .underway next) (ns : List Nat) (found : List String) :
    next.Ahead s goal ns found ↔ c.Ahead s goal ns found := by
  unfold follow at h
  split at h
  · rename_i hn
    exact (retreat_ahead (not_here_of_none hc hn)).1 next h ns found
  · rename_i t ht
    split at h
    · rename_i hskip
      cases h
      apply ahead_congr
      rw [here_some_iff hc]
      refine ⟨Or.inr, fun hhere => hhere.resolve_left ?_⟩
      rintro ⟨ms, r, hcompletes, -, -⟩
      cases hcompletes with
      | on _ htarget hfresh hroom _ =>
        rw [ht] at htarget
        cases htarget
        rcases Bool.or_eq_true_iff.1 hskip with hmem | hshort
        · exact hfresh (List.contains_iff_mem.1 hmem)
        · rw [route, hroom] at hshort
          cases hshort
    · rename_i hskip
      cases h
      rw [Bool.or_eq_true_iff, not_or, List.contains_iff_mem, Bool.not_eq_true',
        Bool.not_eq_false] at hskip
      have hrest := @ahead_iff s goal { c with tried := some (n + 1) } ns found
      rw [ahead_iff, ahead_iff c, here_some_iff hc, here_entered_iff ht (hoff.tip n hc) hskip.1 hskip.2, or_assoc,
        ← hrest]
      simp

/-- A step that does not end the search rules nothing out. -/
theorem ahead_of_step (hoff : c.OffGoal goal) (h : c.step s goal = .underway next) (ns : List Nat) (found : List String) :
    next.Ahead s goal ns found ↔ c.Ahead s goal ns found := by
  unfold step at h
  split at h
  · rename_i hc
    split at h
    · rename_i hfinish
      unfold arrive at h
      split at h
      · cases h
      · rename_i hvisits
        exact (retreat_ahead (not_here_of_finish hfinish hvisits)).1 next h ns found
      · cases h
    · rename_i hfinish
      cases h
      exact ahead_congr (here_none_iff hc hfinish ns found)
  · rename_i n hc
    exact ahead_of_follow hoff hc h ns found

theorem OffGoal.retreat (hoff : c.OffGoal goal) (h : c.retreat = .underway next) :
    next.OffGoal goal := by
  unfold Cursor.retreat at h
  split at h
  · cases h
  · rename_i p earlier hp
    cases h
    exact ⟨fun _ _ => hoff.passed p (by simp [hp]), fun q hq => hoff.passed q (by simp [hp, hq])⟩

theorem OffGoal.step (hoff : c.OffGoal goal) (h : c.step s goal = .underway next) :
    next.OffGoal goal := by
  unfold Cursor.step at h
  split at h
  · split at h
    · unfold arrive at h
      split at h
      · cases h
      · exact hoff.retreat h
      · cases h
    · rename_i hfinish
      cases h
      exact ⟨fun _ _ => hfinish, hoff.passed⟩
  · rename_i n hc
    unfold follow at h
    split at h
    · exact hoff.retreat h
    · split at h
      · cases h
        exact ⟨fun _ _ => hoff.tip n hc, hoff.passed⟩
      · cases h
        refine ⟨by simp, fun p hp => ?_⟩
        rcases List.mem_cons.1 hp with rfl | hp
        · exact hoff.tip n hc
        · exact hoff.passed p hp

/-! ## The order in which a search rules out -/

/-- At the first place where two lists differ, the second one has the greater number. -/
def Beyond (xs ns : List Nat) : Prop :=
  ∃ front a b back rest, xs = front ++ a :: back ∧ ns = front ++ b :: rest ∧ a < b

theorem Beyond.append {xs ns : List Nat} (h : Beyond xs ns) (ys : List Nat) :
    Beyond (xs ++ ys) ns := by
  obtain ⟨front, a, b, back, rest, rfl, rfl, hlt⟩ := h
  exact ⟨front, a, b, back ++ ys, rest, by simp, rfl, hlt⟩

theorem Beyond.lex {xs ns : List Nat} (h : Beyond xs ns) : List.Lex (· < ·) xs ns := by
  obtain ⟨front, a, b, back, rest, rfl, rfl, hlt⟩ := h
  induction front with
  | nil => exact .rel hlt
  | cons x front ih => exact .cons ih

/-- Completions by later choices lie beyond the choices tried. -/
theorem beyond_of_remains {route : List String} {n : Nat} {base ns : List Nat} {found : List String}
    (h : Remains s goal route (some (n + 1)) base ns found) : Beyond (base ++ [n]) ns := by
  obtain ⟨ms, r, -, htried, rfl, -⟩ := h
  obtain ⟨m, rest, rfl, hm⟩ := htried (n + 1) rfl
  exact ⟨base, n, m, [], rest, rfl, rfl, hm⟩

/-- What is ahead of a section from which choices were tried lies beyond them. -/
theorem beyond_of_aheadFrom {before : List String} {passed : List Passed} {tip : String} {n : Nat}
    {ns : List Nat} {found : List String}
    (h : AheadFrom s goal before passed tip (some (n + 1)) ns found) :
    Beyond (positions passed ++ [n]) ns := by
  induction passed generalizing tip n with
  | nil => exact beyond_of_remains h
  | cons p earlier ih =>
    rcases h with h | h
    · exact beyond_of_remains h
    · have hpositions : positions (p :: earlier) = positions earlier ++ [p.position] := by
        simp [positions]
      rw [hpositions]
      exact (ih h).append [n]

/-- The positions that lead to a section not yet looked at come first of all that is ahead. -/
theorem first_of_ahead (hfinish : c.tip = goal.finish) {ns : List Nat}
    {found : List String} (h : c.Ahead s goal ns found) :
    positions c.passed = ns ∨ List.Lex (· < ·) (positions c.passed) ns := by
  rcases (ahead_iff c ns found).1 h with ⟨ms, r, hcompletes, -, rfl, -⟩ | ⟨p, earlier, hp, hlater⟩
  · cases hcompletes with
    | here _ _ => exact Or.inl (by simp)
    | on hne _ _ _ _ => exact absurd hfinish hne
  · right
    rw [show positions c.passed = positions earlier ++ [p.position] by simp [positions, hp]]
    exact (beyond_of_aheadFrom hlater).lex

/-- The least of the routes ahead is found, or none is ahead. -/
def Finds (s : Story) (goal : Goal) (c : Cursor)
    (outcome : Except NumberFault (Option (List String))) : Prop :=
  (outcome = .ok none ∧ ∀ ns found, ¬ c.Ahead s goal ns found) ∨
  ∃ ns found, outcome = .ok (some found) ∧ c.Ahead s goal ns found ∧
    ∀ ns' found', c.Ahead s goal ns' found' → ns = ns' ∨ List.Lex (· < ·) ns ns'

/-- A step that ends the search finds the least of the routes ahead. -/
theorem finds_of_step (hforms : ∀ id ∈ goal.through, ∃ forms, idForms id = .ok forms)
    {outcome : Except NumberFault (Option (List String))} (h : c.step s goal = .ended outcome) :
    Finds s goal c outcome := by
  unfold step at h
  split at h
  · rename_i hc
    split at h
    · rename_i hfinish
      unfold arrive at h
      split at h
      · rename_i hvisits
        cases h
        have hhere : c.Here s goal (positions c.passed) c.route.reverse :=
          ⟨[], [], .here hfinish hvisits, by simp [hc], by simp, by simp⟩
        exact Or.inr ⟨_, _, rfl, (ahead_iff c _ _).2 (Or.inl hhere),
          fun _ _ h => first_of_ahead hfinish h⟩
      · rename_i hvisits
        exact Or.inl ((retreat_ahead (not_here_of_finish hfinish hvisits)).2 outcome h)
      · rename_i fault hvisits
        obtain ⟨id, hid, hfault⟩ := visitsAll_error hvisits
        obtain ⟨forms, hok⟩ := hforms id hid
        rw [hfault] at hok
        cases hok
    · cases h
  · rename_i n hc
    unfold follow at h
    split at h
    · rename_i hn
      exact Or.inl ((retreat_ahead (not_here_of_none hc hn)).2 outcome h)
    · split at h <;> cases h

/-- A search finds the least of the routes ahead of it. -/
theorem run_finds (hforms : ∀ id ∈ goal.through, ∃ forms, idForms id = .ok forms) (c : Cursor)
    (hoff : c.OffGoal goal) : Finds s goal c (c.run s goal) := by
  induction c using Cursor.run.induct s goal with
  | case1 c outcome h =>
    rw [run_of_ended h]
    exact finds_of_step hforms h
  | case2 c next h ih =>
    rw [run_of_underway h]
    simpa only [Finds, ahead_of_step hoff h] using ih (hoff.step h)

end Cursor

/-! ## The search as a sequence of steps -/

/-- One step of a search; one that has ended stays as it is. -/
def Progress.advance (s : Story) (goal : Goal) : Progress → Progress
  | .underway c => c.step s goal
  | .ended outcome => .ended outcome

/-- After finitely many steps a search has ended, with the outcome of `Cursor.run`. -/
theorem exists_advance_eq (c : Cursor) :
    ∃ n, (Progress.advance s goal)^[n] (.underway c) = .ended (c.run s goal) := by
  induction c using Cursor.run.induct s goal with
  | case1 c outcome h => exact ⟨1, by rw [Cursor.run_of_ended h]; exact h⟩
  | case2 c next h ih =>
    obtain ⟨n, hn⟩ := ih
    refine ⟨n + 1, ?_⟩
    rw [Function.iterate_succ_apply, Cursor.run_of_underway h, ← hn]
    exact congrArg _ h

/-- Positions lead along one list of sections only. -/
theorem Follows.unique {id : String} {ns : List Nat} {r r' : List String} (h : Follows s id ns r)
    (h' : Follows s id ns r') : r = r' := by
  induction r generalizing id ns r' with
  | nil => cases ns <;> cases r' <;> first | rfl | exact h'.elim | exact h.elim
  | cons t r ih =>
    cases ns with
    | nil => exact h.elim
    | cons n ns =>
      cases r' with
      | nil => exact h'.elim
      | cons t' r' =>
        have ht : some t = some t' := h.1.symm.trans h'.1
        cases ht
        rw [ih h.2 h'.2]

/-- Linked sections are led to by the choices at some positions. -/
theorem exists_follows {id : String} {r : List String}
    (h : (id :: r).IsChain fun a b => b ∈ s.targets a) : ∃ ns, Follows s id ns r := by
  induction r generalizing id with
  | nil => exact ⟨[], trivial⟩
  | cons t r ih =>
    rw [List.isChain_cons_cons] at h
    obtain ⟨n, hn⟩ := List.getElem?_of_mem h.1
    obtain ⟨ns, hns⟩ := ih h.2
    exact ⟨n :: ns, hn, hns⟩

/-- What is ahead of a search that has just begun are the admissible extensions. -/
theorem ahead_start_iff {tip : String} {before : List String} {ns : List Nat}
    {found : List String} :
    (⟨tip, none, [], before⟩ : Cursor).Ahead s goal ns found ↔
      ∃ r, found = (tip :: before).reverse ++ r ∧ Admissible s goal (tip :: before).reverse r ∧
        Follows s tip ns r := by
  constructor
  · rintro ⟨ms, r, hcompletes, -, rfl, rfl⟩
    exact ⟨r, rfl, completes_iff.1 hcompletes⟩
  · rintro ⟨r, rfl, h⟩
    exact ⟨ns, r, completes_iff.2 h, by simp, rfl, rfl⟩

/-- **A search ends, and its outcome is the least admissible route, or none when there is none.**
The order is the lexicographic one of the positions of the choices. -/
theorem search_least (s : Story) (goal : Goal) (start : List String) (hstart : start ≠ [])
    (hforms : ∀ id ∈ goal.through, ∃ forms, idForms id = .ok forms) :
    (∃ n, (Progress.advance s goal)^[n] (.start start) = .ended (search s start goal)) ∧
    ((search s start goal = .ok none ∧ ∀ r, ¬ Admissible s goal start r) ∨
      ∃ r ns, search s start goal = .ok (some (start ++ r)) ∧ Admissible s goal start r ∧
        Follows s (start.getLast hstart) ns r ∧
        ∀ r' ns', Admissible s goal start r' → Follows s (start.getLast hstart) ns' r' →
          r = r' ∧ ns = ns' ∨ List.Lex (· < ·) ns ns') := by
  obtain ⟨tip, before, hrev⟩ := List.exists_cons_of_ne_nil (List.reverse_ne_nil_iff.2 hstart)
  obtain rfl : start = (tip :: before).reverse := by rw [← hrev, List.reverse_reverse]
  have hbegun : Progress.start (tip :: before).reverse = .underway ⟨tip, none, [], before⟩ := by
    simp [Progress.start]
  have hsearch : search s (tip :: before).reverse goal =
      Cursor.run s goal ⟨tip, none, [], before⟩ := by rw [search, hbegun]
  have hlast : (tip :: before).reverse.getLast hstart = tip := by simp
  rw [hsearch, hbegun, hlast]
  refine ⟨exists_advance_eq _, ?_⟩
  have hoff : (⟨tip, none, [], before⟩ : Cursor).OffGoal goal := ⟨by simp, by simp⟩
  rcases Cursor.run_finds (s := s) hforms _ hoff with ⟨hnone, hahead⟩ | ⟨ns, found, hfound, hahead, hleast⟩
  · refine Or.inl ⟨hnone, fun r hr => ?_⟩
    obtain ⟨ns, hns⟩ := @exists_follows s tip r (by simpa using hr.linked)
    exact hahead ns _ (ahead_start_iff.2 ⟨r, rfl, hr, hns⟩)
  · obtain ⟨r, rfl, hadm, hfollows⟩ := ahead_start_iff.1 hahead
    refine Or.inr ⟨r, ns, hfound, hadm, hfollows, fun r' ns' hadm' hfollows' => ?_⟩
    rcases hleast ns' _ (ahead_start_iff.2 ⟨r', rfl, hadm', hfollows'⟩) with rfl | hlex
    · exact Or.inl ⟨hfollows.unique hfollows', rfl⟩
    · exact Or.inr hlex

/-- Three sections: a loop between the first two, and a choice that leads nowhere. -/
def loopedStory : Story where
  metadata := .absent
  state := .absent
  sections :=
    [("1", { Section.ofLines "1" [] with
        next := .value [.added "4" "", .added "3" "", .added "b" ""] }),
      ("b", { Section.ofLines "b" [] with next := .value [.added "1" "", .added "3" ""] }),
      ("3", .ofLines "3" [])]
  definitions := .absent

/-- From the first section by way of the second to the third. -/
theorem search_least_looped :
    (["1"] : List String) ≠ [] ∧
    (∀ id ∈ (⟨"3", ["b"], some 3⟩ : Goal).through, ∃ forms, idForms id = .ok forms) ∧
    (∃ n, (Progress.advance loopedStory ⟨"3", ["b"], some 3⟩)^[n] (.start ["1"]) =
      .ended (search loopedStory ["1"] ⟨"3", ["b"], some 3⟩)) ∧
    ((search loopedStory ["1"] ⟨"3", ["b"], some 3⟩ = .ok none ∧
        ∀ r, ¬ Admissible loopedStory ⟨"3", ["b"], some 3⟩ ["1"] r) ∨
      ∃ r ns, search loopedStory ["1"] ⟨"3", ["b"], some 3⟩ = .ok (some (["1"] ++ r)) ∧
        Admissible loopedStory ⟨"3", ["b"], some 3⟩ ["1"] r ∧ Follows loopedStory "1" ns r ∧
        ∀ r' ns', Admissible loopedStory ⟨"3", ["b"], some 3⟩ ["1"] r' →
          Follows loopedStory "1" ns' r' → r = r' ∧ ns = ns' ∨ List.Lex (· < ·) ns ns') := by
  have hforms : ∀ id ∈ (⟨"3", ["b"], some 3⟩ : Goal).through, ∃ forms, idForms id = .ok forms := by
    intro id hid
    obtain rfl : id = "b" := by simpa using hid
    exact ⟨["b"], by decide +kernel⟩
  exact ⟨by simp, hforms, search_least loopedStory _ ["1"] (by simp) hforms⟩

end Gamebook.Route
