import Gamebook.Proofs.Story.Reachable

/-!
# The nearest section open to extension

The sections found by the search stand in the order of their distances, so the first of them that is open to
extension is a nearest one.  How far the search goes is up to the story, which may say so; a look-ahead of
zero counts as none, and then the search goes as far as the setting says.

* `IsOpen`            : a section open to extension, and not excluded.
* `IsNearest`         : an answer that names a nearest section open to extension, or that there is none.
* `isNearest_extendable?` : the answer for the look-ahead in force.
* `nearest_iff`       : the answers that keep to the look-ahead of the story.
* `nearest_crossroads`, `zero_exceeded` : a look-ahead that is kept to, and one that is not.
-/

set_option autoImplicit false

namespace Gamebook.Story

/-- A section of this id is marked as open to extension, and the id is not excluded. -/
def IsOpen (s : Story) (excluded : List String) (id : String) : Prop :=
  (∃ x, s.section? id = some x ∧ x.extendable = .value true) ∧ id ∉ excluded

/-- The answer is a section open to extension within the depth, no other being nearer; or there is none. -/
def IsNearest (s : Story) (start : String) (depth : Int) (excluded : List String) : Option String → Prop
  | some id => s.IsOpen excluded id ∧ ∃ n : Nat, n ≤ depth ∧ s.Leads start n id ∧
      ∀ other m, s.IsOpen excluded other → s.Leads start m other → n ≤ m
  | none => ∀ id n, s.IsOpen excluded id → s.Leads start n id → depth < n

variable {s : Story} {start : String} {depth : Int} {excluded : List String}

theorem IsOpen.hasSection {id : String} (h : s.IsOpen excluded id) : s.hasSection id := by
  obtain ⟨⟨x, hx, -⟩, -⟩ := h
  rw [hasSection_eq, hx]
  rfl

theorem isOpen_iff (id : String) : s.IsOpen excluded id ↔
    ((s.section? id).any (fun x => x.extendable.get? == some true) && !excluded.contains id) = true := by
  have hmarked (x : Section) : (x.extendable.get? == some true) = true ↔ x.extendable = .value true := by
    cases x.extendable <;> simp [Field.get?]
  simp [IsOpen, Option.any_eq_true, hmarked]

/-- The first section open to extension among those found within a depth is a nearest one. -/
theorem isNearest_find? (s : Story) (start : String) (depth : Int) (excluded : List String) :
    s.IsNearest start depth excluded ((s.reachable start depth).find? fun id =>
      (s.section? id).any (fun x => x.extendable.get? == some true) && !excluded.contains id) := by
  have hfound {id : String} {n : Nat} (hopen : s.IsOpen excluded id) (hleads : s.Leads start n id)
      (hn : n ≤ depth) : id ∈ s.reachable start depth :=
    mem_reachable_iff.2 ⟨hopen.hasSection, n, hn, hleads⟩
  generalize hanswer : List.find? _ _ = answer
  cases answer with
  | none =>
    intro id n hopen hleads
    refine Int.not_le.1 fun hn => ?_
    exact List.find?_eq_none.1 hanswer id (hfound hopen hleads hn) ((isOpen_iff id).1 hopen)
  | some id =>
    obtain ⟨hopen, before, after, hsplit, hbefore⟩ := List.find?_eq_some_iff_append.1 hanswer
    have hmem : id ∈ s.reachable start depth := hsplit ▸ List.mem_append_right _ List.mem_cons_self
    have hordered := s.pairwise_reachable start depth
    obtain ⟨-, k, hk, hleads⟩ := mem_reachable_iff.1 hmem
    obtain ⟨n, hnk, hn, hleast⟩ := hleads.exists_least
    refine ⟨(isOpen_iff id).2 hopen, n, by omega, hn, fun other m hother hm => ?_⟩
    by_cases hfar : depth < m
    · omega
    -- what stands before the answer is not open, and what stands behind it is no nearer
    have hlater := hfound hother hm (Int.not_lt.1 hfar)
    rw [hsplit] at hlater hordered
    rcases List.mem_append.1 hlater with hearlier | hlater
    · have hclosed := hbefore other hearlier
      rw [(isOpen_iff other).1 hother] at hclosed
      cases hclosed
    · rcases List.mem_cons.1 hlater with rfl | hlater
      · exact hleast m hm
      · have hfarther := List.rel_of_pairwise_cons (List.pairwise_append.1 hordered).2.1 hlater
        obtain ⟨j, hjm, hj⟩ := hfarther m hm
        exact Nat.le_trans (hleast j hj) hjm

theorem isNearest_extendable? (s : Story) (start : String) (given : Option Int) (excluded : List String)
    (setting : Int) : s.IsNearest start (s.effectiveLookAhead given setting) excluded
      (s.extendable? start given excluded setting) :=
  isNearest_find? s start (s.effectiveLookAhead given setting) excluded

/-- The start is a nearest section to itself, and the only one at no distance.  A search to a depth below
zero does not come as far. -/
theorem isNearest_zero_iff {answer : Option String} (h : s.IsNearest start depth excluded answer) :
    s.IsNearest start 0 excluded answer ↔ s.IsOpen excluded start ∧ 0 ≤ depth ∨
      ¬ s.IsOpen excluded start ∧ s.IsNearest start depth excluded none := by
  cases answer with
  | none =>
    constructor
    · refine fun hzero => .inr ⟨fun hstart => ?_, h⟩
      exact absurd (hzero start 0 hstart .here) (by decide)
    · rintro (⟨hstart, hdepth⟩ | ⟨hclosed, -⟩)
      · exact absurd (h start 0 hstart .here) (by omega)
      · intro id n hopen hleads
        rcases n with _ | n
        · exact absurd (leads_zero_iff.1 hleads ▸ hopen) hclosed
        · omega
  | some id =>
    obtain ⟨hopen, n, hn, hleads, hleast⟩ := h
    constructor
    · rintro ⟨-, m, hm, hstart, -⟩
      obtain rfl : m = 0 := by omega
      exact .inl ⟨leads_zero_iff.1 hstart ▸ hopen, by omega⟩
    · rintro (⟨hstart, -⟩ | ⟨-, hnone⟩)
      · have hzero : n ≤ 0 := hleast start 0 hstart .here
        exact ⟨hopen, n, by omega, hleads, hleast⟩
      · exact absurd hn (Int.not_le.2 (hnone id n hopen hleads))

/-- A story that sets no look-ahead is searched as far as the setting says, and so is one that sets zero; any
other look-ahead of the story is kept to.  Zero is kept to as well when the start itself is open to extension
and the setting is not below zero, or when the start is not and nothing is within the setting, and in no other
case. -/
theorem nearest_iff (s : Story) (start : String) (excluded : List String) (setting : Int) :
    (s.lookAhead? = none →
      s.IsNearest start setting excluded (s.extendable? start none excluded setting)) ∧
    ∀ n, s.lookAhead? = some n →
      (s.IsNearest start n excluded (s.extendable? start none excluded setting) ↔
        (n = 0 → s.IsOpen excluded start ∧ 0 ≤ setting ∨
          ¬ s.IsOpen excluded start ∧ s.IsNearest start setting excluded none)) ∧
      (n = 0 → s.IsNearest start setting excluded (s.extendable? start none excluded setting)) := by
  have hanswer := s.isNearest_extendable? start none excluded setting
  unfold effectiveLookAhead at hanswer
  refine ⟨fun hnone => ?_, fun n hn => ?_⟩
  · rw [hnone] at hanswer
    exact hanswer
  · rw [hn] at hanswer
    dsimp only at hanswer
    split at hanswer
    · rename_i hzero
      subst hzero
      rw [isNearest_zero_iff hanswer]
      exact ⟨⟨fun h _ => h, fun h => h rfl⟩, fun _ => hanswer⟩
    · rename_i hzero
      exact ⟨iff_of_true hanswer fun h => absurd h hzero, fun h => absurd h hzero⟩

/-- A story of a look-ahead, its only section open to extension one choice away. -/
def crossroads (lookAhead : Int) : Story :=
  { metadata := .value ⟨.absent, .absent, .absent, .absent, .value lookAhead, .absent, []⟩
    state := .absent
    sections := [
      ("1", { Section.ofLines "1" ["A fork."] with next := .value [.added "2" "Left", .added "9" "Right"] }),
      ("2", { Section.ofLines "2" ["A mill."] with
        next := .value [.added "1" "Back"], extendable := .value true })]
    definitions := .absent }

/-- One choice ahead the mill is found. -/
theorem nearest_crossroads : (crossroads 1).lookAhead? = some 1 ∧
    (crossroads 1).IsNearest "1" 1 [] (some "2") := by
  have hanswer : (crossroads 1).extendable? "1" none [] = some "2" := by decide
  have hnearest := ((nearest_iff (crossroads 1) "1" [] defaultLookAhead).2 1 rfl).1.2 (fun h => by cases h)
  rw [hanswer] at hnearest
  exact ⟨rfl, hnearest⟩

/-- No choice ahead it is found as well, although it is one choice away. -/
theorem zero_exceeded : (crossroads 0).lookAhead? = some 0 ∧
    (crossroads 0).extendable? "1" none [] = some "2" ∧
    ¬ (crossroads 0).IsNearest "1" 0 [] ((crossroads 0).extendable? "1" none []) := by
  have hanswer : (crossroads 0).extendable? "1" none [] = some "2" := by decide
  refine ⟨rfl, hanswer, ?_⟩
  rw [hanswer]
  rintro ⟨-, n, hn, hleads, -⟩
  obtain rfl : n = 0 := by omega
  exact absurd (leads_zero_iff.1 hleads) (by decide)

end Gamebook.Story
