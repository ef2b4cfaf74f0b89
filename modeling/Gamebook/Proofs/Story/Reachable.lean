import Gamebook.Story.Graph
import Mathlib.Data.List.Nodup
import Mathlib.Logic.Function.Iterate

/-!
# Sections within a number of choices

The search takes up one entry of its queue after another.  Its entries are in the order of their distances,
and no two of these are more than one apart; so a section is taken up first by an entry that has its true
distance, and when the queue is empty nothing within the depth is left out.

* `Leads`          : choices lead from the start to an id, in a number of steps.
* `NoFarther`      : one id is no farther from the start than another.
* `Search`, `Search.next` : a search under way, and one entry taken up.
* `Search.Turn`, `Search.of_steps` : what taking up an entry comes to, and what every search keeps.
* `explore_eq`     : `explore` takes up entries until its steps are used up.
* `Search.queue_of_weight_le` : it has as many steps as it needs.
* `Levelled.turn`, `Search.found_suffix_of_le` : the distances in the queue, and a search beside a deeper one.
* `Search.Faithful.turn`, `exists_last` : what a search knows, and what it knows at its end.
* `mem_reachable_iff`, `nodup_reachable`, `pairwise_reachable`, `reachable_prefix` : the sections found.
* `reachable_exact` : all of it together.
-/

set_option autoImplicit false

namespace Gamebook.Story

/-! ## Distances -/

/-- Choices lead from the start to an id in a number of steps.  Only a section that there is has choices;
the id that the last choice names may be that of none. -/
inductive Leads (s : Story) (start : String) : Nat → String → Prop where
  | here : Leads s start 0 start
  | choose {n : Nat} {id : String} {x : Section} {c : Choice} :
    Leads s start n id → s.section? id = some x → c ∈ x.choices → Leads s start (n + 1) c.target

/-- The first id is no farther from the start than the second. -/
def NoFarther (s : Story) (start near far : String) : Prop :=
  ∀ n, s.Leads start n far → ∃ m ≤ n, s.Leads start m near

variable {s : Story} {start : String} {depth : Int}

theorem Leads.of_mem_targets {n : Nat} {id target : String} (h : s.Leads start n id)
    (htarget : target ∈ s.targets id) : s.Leads start (n + 1) target := by
  unfold targets at htarget
  split at htarget
  · rename_i x hx
    obtain ⟨c, hc, rfl⟩ := List.mem_map.1 htarget
    exact h.choose hx hc
  · cases htarget

theorem leads_zero_iff {id : String} : s.Leads start 0 id ↔ id = start := by
  constructor
  · intro h
    cases h
    rfl
  · rintro rfl
    exact .here

/-- Of the numbers of steps that lead to an id one is least. -/
theorem Leads.exists_least {n : Nat} {id : String} (h : s.Leads start n id) :
    ∃ m ≤ n, s.Leads start m id ∧ ∀ k, s.Leads start k id → m ≤ k := by
  induction n using Nat.strongRecOn with
  | ind n ih =>
    by_cases hleast : ∀ k, s.Leads start k id → n ≤ k
    · exact ⟨n, Nat.le_refl n, h, hleast⟩
    · simp only [not_forall, Nat.not_le] at hleast
      obtain ⟨k, hk, hkn⟩ := hleast
      obtain ⟨m, hmk, hm⟩ := ih k hkn hk
      exact ⟨m, by omega, hm⟩

theorem hasSection_eq (s : Story) (id : String) : s.hasSection id = (s.section? id).isSome := rfl

theorem mem_targets {id : String} {x : Section} (hx : s.section? id = some x) {c : Choice}
    (hc : c ∈ x.choices) : c.target ∈ s.targets id := by
  unfold targets
  rw [hx]
  exact List.mem_map_of_mem hc

/-! ## A search under way -/

/-- A search under way: the ids still to be taken up with their distances, the ids taken up, and those of
them that are sections; the latest stands first in both. -/
structure Search where
  queue : List (String × Int)
  seen : List String
  found : List String

namespace Search

def begin (start : String) : Search := ⟨[(start, 0)], [], []⟩

/-- Takes up the first entry of the queue. -/
def next (s : Story) (depth : Int) (x : Search) : Search :=
  match x.queue with
  | [] => x
  | (id, distance) :: queue =>
    if id ∈ x.seen ∨ depth < distance then { x with queue := queue }
    else
      { queue := queue ++ ((s.targets id).filter (· ∉ id :: x.seen)).map (·, distance + 1)
        seen := id :: x.seen
        found := if s.hasSection id then id :: x.found else x.found }

/-- Takes up a number of entries, as far as there are so many. -/
def steps (s : Story) (depth : Int) (n : Nat) (x : Search) : Search := (next s depth)^[n] x

theorem steps_succ (n : Nat) (x : Search) :
    x.steps s depth (n + 1) = (x.next s depth).steps s depth n := Function.iterate_succ_apply _ _ _

/-- What taking up an entry comes to. -/
inductive Turn (s : Story) (depth : Int) : Search → Search → Prop where
  | ended (seen found : List String) : Turn s depth ⟨[], seen, found⟩ ⟨[], seen, found⟩
  /-- The id was taken up before, or is too far. -/
  | dropped {id : String} {distance : Int} (queue : List (String × Int)) {seen : List String}
      (found : List String) : id ∈ seen ∨ depth < distance →
    Turn s depth ⟨(id, distance) :: queue, seen, found⟩ ⟨queue, seen, found⟩
  | taken {id : String} {distance : Int} (queue : List (String × Int)) {seen : List String}
      (found : List String) : id ∉ seen → distance ≤ depth →
    Turn s depth ⟨(id, distance) :: queue, seen, found⟩
      ⟨queue ++ ((s.targets id).filter (· ∉ id :: seen)).map (·, distance + 1), id :: seen,
        if s.hasSection id then id :: found else found⟩

variable {x : Search}

theorem turn_next (x : Search) : Turn s depth x (x.next s depth) := by
  obtain ⟨queue, seen, found⟩ := x
  cases queue with
  | nil => exact .ended seen found
  | cons entry queue =>
    obtain ⟨id, distance⟩ := entry
    unfold next
    dsimp only
    split
    · rename_i hdrop
      exact .dropped queue found hdrop
    · rename_i htake
      rw [not_or, Int.not_lt] at htake
      exact .taken queue found htake.1 htake.2

/-- What holds of a search and is kept by each entry taken up, holds of it at any time. -/
theorem of_steps {P : Search → Prop} (hturn : ∀ {x y}, Turn s depth x y → P x → P y) (hx : P x)
    (n : Nat) : P (x.steps s depth n) := by
  induction n generalizing x with
  | zero => exact hx
  | succ n ih =>
    rw [steps_succ]
    exact ih (hturn x.turn_next hx)

end Search

/-- The search takes up as many entries as it has steps. -/
theorem explore_eq (s : Story) (depth : Int) (fuel : Nat) (x : Search) :
    s.explore depth fuel x.queue x.seen x.found = (x.steps s depth fuel).found.reverse := by
  induction fuel generalizing x with
  | zero => rfl
  | succ fuel ih =>
    rw [Search.steps_succ, ← ih]
    unfold Search.next
    obtain ⟨queue, seen, found⟩ := x
    cases queue with
    | nil =>
      cases fuel <;> rfl
    | cons entry queue =>
      obtain ⟨id, distance⟩ := entry
      simp only [explore, Bool.or_eq_true, List.contains_iff_mem, decide_eq_true_eq]
      split
      · rfl
      · cases hx : s.section? id with
        | none => simp [targets, hasSection_eq, hx]
        | some x => simp [targets, hasSection_eq, hx]

/-! ## The search ends -/

/-- Number of choices of the sections not yet taken up. -/
def openChoices (seen : List String) : Table Section → Nat
  | [] => 0
  | (id, x) :: rest => (if id ∈ seen then 0 else x.choices.length) + openChoices seen rest

theorem openChoices_nil (s : Story) : openChoices [] s.sections = s.choiceCount := by
  unfold choiceCount
  induction s.sections with
  | nil => rfl
  | cons e rest ih =>
    rw [openChoices, if_neg List.not_mem_nil, ih]
    rfl

theorem openChoices_cons_le_self (id : String) (seen : List String) (sections : Table Section) :
    openChoices (id :: seen) sections ≤ openChoices seen sections := by
  induction sections with
  | nil => exact Nat.le_refl _
  | cons e rest ih =>
    unfold openChoices
    refine Nat.add_le_add ?_ ih
    split_ifs with hmore hseen
    · exact Nat.le_refl _
    · exact Nat.zero_le _
    · exact absurd (List.mem_cons_of_mem _ ‹_›) hmore
    · exact Nat.le_refl _

/-- With a section that is taken up its choices are closed. -/
theorem openChoices_cons_le {id : String} {seen : List String} (hnew : id ∉ seen)
    (sections : Table Section) {x : Section} (hx : sections.get? id = some x) :
    x.choices.length + openChoices (id :: seen) sections ≤ openChoices seen sections := by
  induction sections with
  | nil => cases hx
  | cons e rest ih =>
    obtain ⟨key, first⟩ := e
    rw [Table.get?_cons] at hx
    unfold openChoices
    split at hx
    · rename_i hkey
      cases hx
      rw [← eq_of_beq hkey, if_pos List.mem_cons_self, if_neg hnew, Nat.zero_add]
      exact Nat.add_le_add_left (openChoices_cons_le_self id seen rest) _
    · rename_i hkey
      have hkey : key ≠ id := fun h => hkey (beq_iff_eq.2 h.symm)
      have hsame : key ∈ id :: seen ↔ key ∈ seen := by simp [hkey]
      have hrest := ih hx
      simp only [hsame]
      omega

theorem length_targets_le {id : String} {seen : List String} (hnew : id ∉ seen) (s : Story) :
    (s.targets id).length + openChoices (id :: seen) s.sections ≤ openChoices seen s.sections := by
  unfold targets
  cases hx : s.section? id with
  | none =>
    rw [List.length_nil, Nat.zero_add]
    exact openChoices_cons_le_self id seen s.sections
  | some x =>
    rw [List.length_map]
    exact openChoices_cons_le hnew s.sections hx

namespace Search

variable {x : Search}

/-- How many entries are still to be taken up, at most. -/
def weight (s : Story) (x : Search) : Nat := x.queue.length + openChoices x.seen s.sections

theorem Turn.weight_lt {y : Search} (h : Turn s depth x y) (hqueue : x.queue ≠ []) :
    y.weight s < x.weight s := by
  unfold weight
  cases h with
  | ended => exact absurd rfl hqueue
  | dropped queue found hdrop =>
    dsimp only
    rw [List.length_cons]
    omega
  | @taken id distance queue seen found hnew hnear =>
    have htargets := length_targets_le hnew s
    have hfilter := List.length_filter_le (· ∉ id :: seen) (s.targets id)
    dsimp only
    rw [List.length_append, List.length_map, List.length_cons]
    omega

/-- A search that has as many steps as its weight takes up all entries. -/
theorem queue_of_weight_le {n : Nat} (h : x.weight s ≤ n) : (x.steps s depth n).queue = [] := by
  induction n generalizing x with
  | zero =>
    have hlength : x.queue.length = 0 := by
      unfold weight at h
      omega
    exact List.length_eq_zero_iff.1 hlength
  | succ n ih =>
    by_cases hqueue : x.queue = []
    · refine of_steps (P := fun y => y.queue = []) (fun hturn hy => ?_) hqueue _
      cases hturn with
      | ended => rfl
      | dropped | taken => cases hy
    · have hlt := (@turn_next s depth x).weight_lt hqueue
      rw [steps_succ]
      exact ih (by omega)

theorem weight_begin (s : Story) (start : String) : (begin start).weight s = s.choiceCount + 1 := by
  unfold weight begin
  rw [openChoices_nil, List.length_singleton, Nat.add_comm]

end Search

/-! ## Distances in the queue -/

/-- Distances do not decrease along the queue, and no two are more than one apart. -/
structure Levelled (queue : List (String × Int)) : Prop where
  ascending : queue.Pairwise fun e f => e.2 ≤ f.2
  narrow : ∀ e ∈ queue, ∀ f ∈ queue, f.2 ≤ e.2 + 1

namespace Levelled

variable {id : String} {distance : Int} {queue : List (String × Int)}

theorem tail (h : Levelled ((id, distance) :: queue)) : Levelled queue :=
  ⟨h.ascending.of_cons, fun e he f hf =>
    h.narrow e (List.mem_cons_of_mem _ he) f (List.mem_cons_of_mem _ hf)⟩

theorem head_le (h : Levelled ((id, distance) :: queue)) {e : String × Int} (he : e ∈ queue) :
    distance ≤ e.2 := List.rel_of_pairwise_cons h.ascending he

/-- Entries one farther than the first come last. -/
theorem push (h : Levelled ((id, distance) :: queue)) (targets : List String) :
    Levelled (queue ++ targets.map (·, distance + 1)) := by
  have hfirst : ∀ e ∈ queue, e.2 ≤ distance + 1 := fun e he =>
    h.narrow _ List.mem_cons_self e (List.mem_cons_of_mem _ he)
  have hnew : ∀ e ∈ targets.map (·, distance + 1), e.2 = distance + 1 := by
    intro e he
    obtain ⟨t, -, rfl⟩ := List.mem_map.1 he
    rfl
  constructor
  · refine List.pairwise_append.2 ⟨h.tail.ascending, ?_, ?_⟩
    · exact List.pairwise_map.2 (List.pairwise_of_forall fun _ _ => Int.le_refl _)
    · intro e he f hf
      rw [hnew f hf]
      exact hfirst e he
  · intro e he f hf
    rcases List.mem_append.1 he with he | he <;> rcases List.mem_append.1 hf with hf | hf
    · exact h.tail.narrow e he f hf
    · have := h.head_le he
      have := hnew f hf
      omega
    · have := hnew e he
      have := hfirst f hf
      omega
    · have := hnew e he
      have := hnew f hf
      omega

theorem turn {x y : Search} (hturn : Search.Turn s depth x y) (h : Levelled x.queue) :
    Levelled y.queue := by
  cases hturn with
  | ended => exact h
  | dropped => exact h.tail
  | taken => exact h.push _

end Levelled

/-! ## One search and a deeper one -/

namespace Search

variable {x : Search}

theorem Turn.found_suffix {y : Search} (h : Turn s depth x y) : x.found <:+ y.found := by
  cases h with
  | ended | dropped => exact List.suffix_refl _
  | taken =>
    dsimp only
    split
    · exact List.suffix_cons _ _
    · exact List.suffix_refl _

/-- What is found stays found. -/
theorem found_steps (x : Search) (n : Nat) : x.found <:+ (x.steps s depth n).found :=
  of_steps (P := fun y => x.found <:+ y.found) (fun hturn hy => hy.trans hturn.found_suffix)
    (List.suffix_refl _) n

/-- Nothing more is found beyond the depth. -/
theorem found_of_beyond (h : ∀ e ∈ x.queue, depth < e.2) (n : Nat) :
    (x.steps s depth n).found = x.found := by
  refine (of_steps (P := fun y => (∀ e ∈ y.queue, depth < e.2) ∧ y.found = x.found) ?_ ⟨h, rfl⟩ n).2
  rintro _ _ hturn ⟨hbeyond, hfound⟩
  cases hturn with
  | ended => exact ⟨hbeyond, hfound⟩
  | dropped => exact ⟨(List.forall_mem_cons.1 hbeyond).2, hfound⟩
  | taken _ _ _ hnear => exact absurd (List.forall_mem_cons.1 hbeyond).1 (Int.not_lt.2 hnear)

/-- Within the depth a deeper search takes the same turns. -/
theorem next_of_le {more : Int} (hmore : depth ≤ more) {id : String} {distance : Int}
    (hnear : distance ≤ depth) {queue : List (String × Int)} (seen found : List String) :
    next s more ⟨(id, distance) :: queue, seen, found⟩ =
      next s depth ⟨(id, distance) :: queue, seen, found⟩ := by
  have hdepth : ¬ depth < distance := Int.not_lt.2 hnear
  have hdeeper : ¬ more < distance := Int.not_lt.2 (Int.le_trans hnear hmore)
  unfold next
  simp only [hdepth, hdeeper]

/-- A deeper search finds at first what the shallower one finds. -/
theorem found_suffix_of_le {more : Int} (hmore : depth ≤ more) (hx : Levelled x.queue) (n : Nat) :
    (x.steps s depth n).found <:+ (x.steps s more n).found := by
  induction n generalizing x with
  | zero => exact List.suffix_refl _
  | succ n ih =>
    by_cases hbeyond : ∀ e ∈ x.queue, depth < e.2
    · rw [found_of_beyond hbeyond]
      exact x.found_steps _
    · obtain ⟨queue, seen, found⟩ := x
      cases queue with
      | nil => exact absurd (List.forall_mem_nil _) hbeyond
      | cons entry queue =>
        obtain ⟨id, distance⟩ := entry
        -- were the first entry beyond the depth, so were all of them
        have hnear : distance ≤ depth := by
          refine Int.not_lt.1 fun hfar => hbeyond (List.forall_mem_cons.2 ⟨hfar, fun e he => ?_⟩)
          exact Int.lt_of_lt_of_le hfar (hx.head_le he)
        rw [steps_succ, steps_succ, next_of_le hmore hnear]
        exact ih (hx.turn (turn_next _))

end Search

/-! ## What a search knows -/

namespace Search

/-- An id at a distance is not forgotten: it was taken up, it stands in the queue, or it is too far. -/
def Heeds (depth : Int) (x : Search) (id : String) (distance : Int) : Prop :=
  id ∈ x.seen ∨ (id, distance) ∈ x.queue ∨ depth < distance

/-- An id was taken up by its true distance, and so was or will be what its choices lead to. -/
structure Settles (s : Story) (start : String) (depth : Int) (x : Search) (id : String) (n : Nat) :
    Prop where
  leads : s.Leads start n id
  least : ∀ m, s.Leads start m id → n ≤ m
  near : n ≤ depth
  ahead : ∀ e ∈ x.queue, n ≤ e.2
  targets : ∀ t ∈ s.targets id, x.Heeds depth t (n + 1)

/-- A search has settled what it has taken up, in the order of the distances, and forgets nothing. -/
structure Faithful (s : Story) (start : String) (depth : Int) (x : Search) : Prop where
  levelled : Levelled x.queue
  found : x.found = x.seen.filter s.hasSection
  nodup : x.seen.Nodup
  queued : ∀ e ∈ x.queue, ∃ n : Nat, e.2 = n ∧ s.Leads start n e.1
  settled : ∀ id ∈ x.seen, ∃ n, x.Settles s start depth id n
  origin : x.Heeds depth start 0
  /-- The latest stands first. -/
  ordered : x.seen.Pairwise fun later earlier => s.NoFarther start earlier later

variable {x y : Search} {id : String} {n : Nat}

theorem Heeds.turn {distance : Int} (hturn : Turn s depth x y) (h : x.Heeds depth id distance) :
    y.Heeds depth id distance := by
  cases hturn with
  | ended => exact h
  | dropped queue found hdrop =>
    obtain hseen | hqueue | hfar := h
    · exact .inl hseen
    · rcases List.mem_cons.1 hqueue with heq | hqueue
      · cases heq
        exact hdrop.imp_right .inr
      · exact .inr (.inl hqueue)
    · exact .inr (.inr hfar)
  | taken queue found hnew hnear =>
    obtain hseen | hqueue | hfar := h
    · exact .inl (List.mem_cons_of_mem _ hseen)
    · rcases List.mem_cons.1 hqueue with heq | hqueue
      · cases heq
        exact .inl List.mem_cons_self
      · exact .inr (.inl (List.mem_append_left _ hqueue))
    · exact .inr (.inr hfar)

theorem Settles.turn (hturn : Turn s depth x y) (h : x.Settles s start depth id n) :
    y.Settles s start depth id n where
  leads := h.leads
  least := h.least
  near := h.near
  ahead := by
    have hahead := h.ahead
    cases hturn with
    | ended => exact hahead
    | dropped => exact (List.forall_mem_cons.1 hahead).2
    | taken =>
      intro e he
      rcases List.mem_append.1 he with he | he
      · exact hahead e (List.mem_cons_of_mem _ he)
      · obtain ⟨t, -, rfl⟩ := List.mem_map.1 he
        have := hahead _ List.mem_cons_self
        dsimp only at this ⊢
        omega
  targets t ht := (h.targets t ht).turn hturn

namespace Faithful

theorem begin (s : Story) (start : String) (depth : Int) :
    (Search.begin start).Faithful s start depth where
  levelled := ⟨List.pairwise_singleton _ _, by simp [Search.begin]⟩
  found := rfl
  nodup := .nil
  queued := by
    intro e he
    rw [List.mem_singleton.1 he]
    exact ⟨0, rfl, .here⟩
  settled _ h := absurd h List.not_mem_nil
  origin := .inr (.inl List.mem_cons_self)
  ordered := .nil

/-- Within the depth an id was taken up, or something that is no farther stands in the queue. -/
theorem reaches (h : x.Faithful s start depth) (hleads : s.Leads start n id) (hn : n ≤ depth) :
    id ∈ x.seen ∨ ∃ e ∈ x.queue, e.2 ≤ n := by
  have hheeded {t : String} {k : Nat} (hk : k ≤ depth) (ht : x.Heeds depth t k) :
      t ∈ x.seen ∨ ∃ e ∈ x.queue, e.2 ≤ k := by
    obtain hseen | hqueue | hfar := ht
    · exact .inl hseen
    · exact .inr ⟨_, hqueue, Int.le_refl _⟩
    · exact absurd hk (Int.not_le.2 hfar)
  induction hleads with
  | here => exact hheeded hn h.origin
  | @choose n id _ c hleads hsection hc ih =>
    obtain hseen | ⟨e, he, hle⟩ := ih (by omega)
    -- the id that the choice leaves is settled, at its least distance, so the choice is not forgotten
    · obtain ⟨m, hm⟩ := h.settled id hseen
      have hmn : m + 1 ≤ n + 1 := Nat.succ_le_succ (hm.least n hleads)
      have htarget := hm.targets _ (mem_targets hsection hc)
      obtain hseen | ⟨e, he, hle⟩ := hheeded (k := m + 1) (by omega) htarget
      · exact .inl hseen
      · exact .inr ⟨e, he, by omega⟩
    · exact .inr ⟨e, he, by omega⟩

/-- The first id of the queue, when it is taken up, is taken up by its true distance. -/
theorem settles_head {distance : Int} {queue : List (String × Int)} {seen found : List String}
    (h : Faithful s start depth ⟨(id, distance) :: queue, seen, found⟩) (hnew : id ∉ seen)
    (hnear : distance ≤ depth) :
    ∃ n : Nat, distance = n ∧ Settles s start depth
      ⟨queue ++ ((s.targets id).filter (· ∉ id :: seen)).map (·, distance + 1), id :: seen,
        if s.hasSection id then id :: found else found⟩ id n := by
  obtain ⟨n, hn, hleads⟩ := h.queued _ List.mem_cons_self
  dsimp only at hn hleads
  subst hn
  refine ⟨n, rfl, hleads, ?_, hnear, ?_, ?_⟩
  -- on a shorter way the id would be taken up already, or something nearer would stand in front of it
  · intro m hm
    by_cases hfar : depth < m
    · omega
    · obtain hseen | ⟨e, he, hle⟩ := h.reaches hm (Int.not_lt.1 hfar)
      · exact absurd hseen hnew
      · rcases List.mem_cons.1 he with rfl | he
        · exact Int.ofNat_le.1 hle
        · have := h.levelled.head_le he
          omega
  · intro e he
    rcases List.mem_append.1 he with he | he
    · exact h.levelled.head_le he
    · obtain ⟨t, -, rfl⟩ := List.mem_map.1 he
      dsimp only
      omega
  · intro t ht
    by_cases hseen : t ∈ id :: seen
    · exact .inl hseen
    · refine .inr (.inl (List.mem_append_right _ (List.mem_map_of_mem ?_)))
      exact List.mem_filter.2 ⟨ht, decide_eq_true hseen⟩

theorem turn (hturn : Turn s depth x y) (h : x.Faithful s start depth) : y.Faithful s start depth where
  levelled := h.levelled.turn hturn
  found := by
    have hfound := h.found
    cases hturn with
    | ended | dropped => exact hfound
    | taken =>
      dsimp only at hfound ⊢
      rw [List.filter_cons, hfound]
  nodup := by
    have hnodup := h.nodup
    cases hturn with
    | ended | dropped => exact hnodup
    | taken _ _ hnew => exact List.nodup_cons.2 ⟨hnew, hnodup⟩
  queued := by
    have hqueued := h.queued
    cases hturn with
    | ended => exact hqueued
    | dropped => exact (List.forall_mem_cons.1 hqueued).2
    | taken =>
      obtain ⟨⟨n, hn, hleads⟩, hqueued⟩ := List.forall_mem_cons.1 hqueued
      intro e he
      rcases List.mem_append.1 he with he | he
      · exact hqueued e he
      · obtain ⟨t, ht, rfl⟩ := List.mem_map.1 he
        refine ⟨n + 1, ?_, hleads.of_mem_targets (List.mem_filter.1 ht).1⟩
        dsimp only at hn ⊢
        omega
  settled := by
    have hsettled (id : String) (hid : id ∈ x.seen) : ∃ n, y.Settles s start depth id n := by
      obtain ⟨n, hn⟩ := h.settled id hid
      exact ⟨n, hn.turn hturn⟩
    cases hturn with
    | ended | dropped => exact hsettled
    | taken _ _ hnew hnear =>
      obtain ⟨n, -, hn⟩ := h.settles_head hnew hnear
      exact List.forall_mem_cons.2 ⟨⟨n, hn⟩, hsettled⟩
  origin := h.origin.turn hturn
  ordered := by
    have hordered := h.ordered
    cases hturn with
    | ended | dropped => exact hordered
    | taken _ _ hnew hnear =>
      obtain ⟨n, rfl, hn⟩ := h.settles_head hnew hnear
      refine List.pairwise_cons.2 ⟨fun earlier hearlier m hm => ?_, hordered⟩
      obtain ⟨k, hk⟩ := h.settled earlier hearlier
      have hkn : k ≤ n := Int.ofNat_le.1 (hk.ahead _ List.mem_cons_self)
      exact ⟨k, Nat.le_trans hkn (hn.least m hm), hk.leads⟩

end Faithful

end Search

/-! ## The sections found -/

theorem reachable_eq (s : Story) (start : String) (depth : Int) :
    s.reachable start depth = ((Search.begin start).steps s depth (s.choiceCount + 1)).found.reverse :=
  explore_eq s depth (s.choiceCount + 1) (Search.begin start)

/-- At its end a search has an empty queue. -/
theorem exists_last (s : Story) (start : String) (depth : Int) :
    ∃ last : Search, last.queue = [] ∧ last.Faithful s start depth ∧
      s.reachable start depth = (last.seen.filter s.hasSection).reverse := by
  have hlast := Search.of_steps Search.Faithful.turn (Search.Faithful.begin s start depth)
    (s.choiceCount + 1)
  refine ⟨_, Search.queue_of_weight_le (Nat.le_of_eq (Search.weight_begin s start)), hlast, ?_⟩
  rw [reachable_eq, hlast.found]

theorem mem_reachable_iff {id : String} :
    id ∈ s.reachable start depth ↔ s.hasSection id ∧ ∃ n : Nat, n ≤ depth ∧ s.Leads start n id := by
  obtain ⟨last, hqueue, hlast, hfound⟩ := exists_last s start depth
  rw [hfound, List.mem_reverse, List.mem_filter, and_comm]
  refine and_congr_right fun _ => ⟨fun hseen => ?_, fun ⟨n, hn, hleads⟩ => ?_⟩
  · obtain ⟨n, hn⟩ := hlast.settled id hseen
    exact ⟨n, hn.near, hn.leads⟩
  · obtain hseen | ⟨e, he, -⟩ := hlast.reaches hleads hn
    · exact hseen
    · rw [hqueue] at he
      cases he

theorem nodup_reachable (s : Story) (start : String) (depth : Int) : (s.reachable start depth).Nodup := by
  obtain ⟨last, -, hlast, hfound⟩ := exists_last s start depth
  rw [hfound]
  exact List.nodup_reverse.2 (hlast.nodup.filter _)

theorem pairwise_reachable (s : Story) (start : String) (depth : Int) :
    (s.reachable start depth).Pairwise (s.NoFarther start) := by
  obtain ⟨last, -, hlast, hfound⟩ := exists_last s start depth
  rw [hfound, List.pairwise_reverse]
  exact hlast.ordered.filter _

theorem reachable_prefix (s : Story) (start : String) {more : Int} (h : depth ≤ more) :
    s.reachable start depth <+: s.reachable start more := by
  have hsuffix := Search.found_suffix_of_le (s := s) h (Search.Faithful.begin s start depth).levelled
    (s.choiceCount + 1)
  rw [reachable_eq, reachable_eq, List.reverse_prefix]
  exact hsuffix

/-- The search ends, and finds exactly the sections to which the start leads by at most so many choices, each
once and none behind one that is farther.  What it finds within a greater depth begins with them. -/
theorem reachable_exact (s : Story) (start : String) (depth : Int) :
    (∃ n, ((Search.begin start).steps s depth n).queue = [] ∧
      s.reachable start depth = ((Search.begin start).steps s depth n).found.reverse) ∧
    (∀ id, id ∈ s.reachable start depth ↔
      s.hasSection id ∧ ∃ n : Nat, n ≤ depth ∧ s.Leads start n id) ∧
    (s.reachable start depth).Nodup ∧
    (s.reachable start depth).Pairwise (s.NoFarther start) ∧
    ∀ more : Nat, s.reachable start depth <+: s.reachable start (depth + more) := by
  refine ⟨⟨s.choiceCount + 1, ?_, reachable_eq s start depth⟩, fun _ => mem_reachable_iff,
    nodup_reachable s start depth, pairwise_reachable s start depth, fun more => ?_⟩
  · exact Search.queue_of_weight_le (Nat.le_of_eq (Search.weight_begin s start))
  · exact reachable_prefix s start (by omega)

end Gamebook.Story
