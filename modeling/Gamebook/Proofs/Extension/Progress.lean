import Gamebook.Extension.Extend
import Gamebook.Proofs.Extension.Content
import Gamebook.Proofs.Number.Overflow

/-!
# How far an extension comes

* `Delivery.received`   : the length of all text that a writer sends.
* `sorted_progress`, `le_received` : the lengths reported grow, and stay within it.
* `Reading.Fits`        : the readings that can be compared with any other.
* `isSmooth_progress`   : with such readings nothing hinders the reports.
* `exists_request`      : for a story that can be written there is a request.
* `exists_result_iff`   : the extensions that are not broken off.
-/

set_option autoImplicit false

namespace Gamebook.Extension

/-! ## The lengths reported -/

def textOf (chunks : List (Option String)) : String := String.join (chunks.map (·.getD ""))

/-- The length of all text that comes in; of a refused request there is none. -/
def Delivery.received (d : Delivery) : Nat :=
  if d.refusal.isSome then 0 else (textOf d.chunks).length

theorem length_textOf_cons (chunk : Option String) (rest : List (Option String)) :
    (textOf (chunk :: rest)).length = (chunk.getD "").length + (textOf rest).length := by
  unfold textOf
  rw [List.map_cons, String.join_cons, String.length_append]

/-- What is reported lies between what was received before and all that comes in, and never falls. -/
theorem sorted_watch (received : Nat) (last : Reading) (clock : List Reading)
    (chunks : List (Option String)) :
    let lengths := (watch received last clock chunks).lengths
    lengths.Pairwise (· ≤ ·) ∧
      ∀ n ∈ lengths, received ≤ n ∧ n ≤ received + (textOf chunks).length := by
  induction chunks generalizing received last clock with
  | nil => exact ⟨.nil, List.forall_mem_nil _⟩
  | cons chunk rest ih =>
    dsimp only
    rw [length_textOf_cons, ← Nat.add_assoc]
    unfold watch
    dsimp only
    split
    · exact ⟨.nil, List.forall_mem_nil _⟩
    · -- nothing is reported of this chunk
      obtain ⟨hsorted, hbounds⟩ := ih (received + (chunk.getD "").length) last (nextReading clock).2
      refine ⟨hsorted, fun n hn => ?_⟩
      have := hbounds n hn
      omega
    · obtain ⟨hsorted, hbounds⟩ :=
        ih (received + (chunk.getD "").length) (nextReading clock).1 (nextReading clock).2
      refine ⟨List.pairwise_cons.2 ⟨fun n hn => (hbounds n hn).1, hsorted⟩, ?_⟩
      rw [List.forall_mem_cons]
      refine ⟨by omega, fun n hn => ?_⟩
      have := hbounds n hn
      omega

variable (delivery : Delivery) (clock : List Reading)

theorem sorted_progress : (delivery.progress clock).lengths.Pairwise (· ≤ ·) := by
  unfold Delivery.progress
  split
  · exact .nil
  · exact (sorted_watch 0 _ _ delivery.chunks).1

theorem le_received : ∀ n ∈ (delivery.progress clock).lengths, n ≤ delivery.received := by
  unfold Delivery.progress Delivery.received
  split
  · exact List.forall_mem_nil _
  · intro n hn
    simpa using ((sorted_watch 0 _ _ delivery.chunks).2 n hn).2

/-! ## The clock -/

/-- A reading that can be compared with any other: a binary64 number, or a whole number that has one
near to it. -/
def Reading.Fits : Reading → Prop
  | .whole n => n.natAbs < overflowBound
  | .binary _ => True

theorem Reading.exists_toBinary {t : Reading} (h : t.Fits) : ∃ x, t.toBinary = .ok x := by
  cases t with
  | whole n =>
    have hsome : Binary64.ofInt? n ≠ none := by
      rw [ne_eq, ofInt?_eq_none_iff, Nat.not_le]
      exact h
    obtain ⟨x, hx⟩ := Option.ne_none_iff_exists'.1 hsome
    refine ⟨x, ?_⟩
    rw [toBinary, hx, Option.elim_some]
  | binary x => exact ⟨x, rfl⟩

theorem Reading.exists_isDue {last now : Reading} (hlast : last.Fits) (hnow : now.Fits) :
    ∃ due, last.isDue now = .ok due := by
  obtain ⟨a, ha⟩ := exists_toBinary hlast
  obtain ⟨b, hb⟩ := exists_toBinary hnow
  unfold isDue
  split
  · exact ⟨_, rfl⟩
  · rw [ha, hb]
    exact ⟨_, rfl⟩

theorem fits_nextReading {clock : List Reading} (h : ∀ t ∈ clock, t.Fits) :
    (nextReading clock).1.Fits ∧ ∀ t ∈ (nextReading clock).2, t.Fits := by
  have hzero : 0 < overflowBound := by decide +kernel
  unfold nextReading
  split
  · exact ⟨hzero, h⟩
  · exact ⟨h _ List.mem_cons_self, h⟩
  · exact List.forall_mem_cons.1 h

theorem fault_watch {last : Reading} {clock : List Reading} (hlast : last.Fits)
    (hclock : ∀ t ∈ clock, t.Fits) (received : Nat) (chunks : List (Option String)) :
    (watch received last clock chunks).fault = none := by
  induction chunks generalizing received last clock with
  | nil => rfl
  | cons chunk rest ih =>
    obtain ⟨hnow, hrest⟩ := fits_nextReading hclock
    obtain ⟨due, hdue⟩ := Reading.exists_isDue hlast hnow
    unfold watch
    dsimp only
    rw [hdue]
    cases due with
    | false => exact ih hlast hrest _
    | true => exact ih hnow hrest _

/-- With readings that can be compared, the watch over a delivery lasts until its end. -/
theorem fault_progress {clock : List Reading} (h : ∀ t ∈ clock, t.Fits) :
    (delivery.progress clock).fault = none := by
  unfold Delivery.progress
  split
  · rfl
  · obtain ⟨hstart, hrest⟩ := fits_nextReading h
    exact fault_watch hstart hrest 0 delivery.chunks

/-- Nothing hinders the reports: the watch lasts, and each length reported can be read again. -/
structure Progress.IsSmooth (p : Progress) : Prop where
  fault : p.fault = none
  short : ∀ n ∈ p.lengths, (Nat.repr n).length ≤ digitLimit

/-- So it is with readings that can be compared, and a text of a length that can be read again. -/
theorem isSmooth_progress {clock : List Reading} (hclock : ∀ t ∈ clock, t.Fits)
    (hreceived : (Nat.repr delivery.received).length ≤ digitLimit) :
    (delivery.progress clock).IsSmooth where
  fault := fault_progress delivery hclock
  short n hn := by
    have hpos : 0 < digitLimit := by decide
    have hbelow := (Nat.length_repr_le_iff hpos).1 hreceived
    exact (Nat.length_repr_le_iff hpos).2 (Nat.lt_of_le_of_lt (le_received delivery clock n hn) hbelow)

/-! ## The request -/

/-- The look-ahead of a story, if it sets one, has fewer than 4000 digits. -/
def IsNear (s : Story) : Prop := ∀ n, s.lookAhead? = some n → (Nat.repr n.natAbs).length < 4000

variable {s : Story} (start : String)

theorem length_repr_four_mul (n : Nat) : (Nat.repr (4 * n)).length ≤ (Nat.repr n).length + 1 := by
  have hpos : 0 < (Nat.repr n).length := Nat.length_repr_pos
  have hbound : n < 10 ^ (Nat.repr n).length := (Nat.length_repr_le_iff hpos).1 (Nat.le_refl _)
  refine (Nat.length_repr_le_iff (Nat.succ_pos _)).2 ?_
  rw [Nat.pow_succ]
  omega

theorem exists_pathLength {n : Int} (h : (Nat.repr n.natAbs).length < 4000) :
    ∃ text, pathLength n = .ok text := by
  have hlength := length_repr_four_mul n.natAbs
  have htimes : (4 * n).natAbs = 4 * n.natAbs := Int.natAbs_mul 4 n
  unfold pathLength
  dsimp only
  rw [if_neg (by rw [htimes]; omega)]
  exact ⟨_, rfl⟩

theorem length_effectiveLookAhead (h : IsNear s) :
    (Nat.repr (s.effectiveLookAhead none).natAbs).length < 4000 := by
  have hdefault : (Nat.repr Story.defaultLookAhead.natAbs).length < 4000 := by decide
  unfold Story.effectiveLookAhead
  dsimp only
  split
  · rename_i n hn
    split
    · exact hdefault
    · exact h n hn
  · exact hdefault

/-- For a story that can be written there is a request. -/
theorem exists_request (hnear : IsNear s) (hwritable : s.isWritable = true) :
    ∃ request, Request.build s start none = .ok request := by
  obtain ⟨length, hlength⟩ := exists_pathLength (length_effectiveLookAhead hnear)
  unfold Request.build userPrompt
  rw [hwritable, hlength]
  exact ⟨_, rfl⟩

theorem no_request (hwritable : s.isWritable = false) :
    Request.build s start none = .error (.write .tooDeep) := by
  unfold Request.build
  rw [hwritable]
  rfl

/-! ## The result -/

variable {former : Story}

/-- A story that can be written has a review of any answer. -/
theorem exists_verdict (hwritable : former.isWritable = true) (response x : String) :
    ∃ verdict, review former response x = .ok verdict := by
  unfold review
  split
  · exact ⟨_, rfl⟩
  · unfold reviewDocument
    split
    · split
      · unfold Story.write
        rw [if_pos hwritable]
        exact ⟨_, rfl⟩
      · exact ⟨_, rfl⟩
    · exact ⟨_, rfl⟩

/-- The graph of an accepted story does not break the extension off. -/
theorem exists_judgeText (hformer : former.Proper) (hwritable : former.isWritable = true)
    (placeholders : Placeholders) (text : String) :
    ∃ result, judgeText former start placeholders text = .ok result := by
  obtain ⟨verdict, hreview⟩ := exists_verdict hwritable (restore text placeholders) start
  unfold judgeText
  rw [hreview]
  cases verdict with
  | error reason => exact ⟨_, rfl⟩
  | ok extended =>
    dsimp only
    rw [graph_of_review hformer hreview]
    exact ⟨_, rfl⟩

/-- An extension comes to a result exactly when the story can be written and the watch over the delivery
lasts. -/
theorem exists_result_iff (hs : s.Proper) (hnear : IsNear s) :
    (∃ result, (extendStory s start delivery clock).result = .ok result) ↔
      s.isWritable = true ∧ (delivery.progress clock).fault = none := by
  unfold extendStory
  dsimp only
  cases hwritable : s.isWritable with
  | false =>
    rw [no_request start hwritable]
    refine iff_of_false ?_ ?_
    · rintro ⟨result, h⟩
      cases h
    · rintro ⟨h, -⟩
      cases h
  | true =>
    obtain ⟨request, hrequest⟩ := exists_request start hnear hwritable
    rw [hrequest]
    dsimp only
    have hfault : (delivery.reply clock).progress.fault = (delivery.progress clock).fault := rfl
    cases h : (delivery.progress clock).fault with
    | some fault =>
      have hjudge : judge s start request.placeholders (delivery.reply clock) =
          .error (.clock fault) := by
        unfold judge
        rw [hfault, h]
      rw [hjudge]
      refine iff_of_false ?_ ?_
      · rintro ⟨result, h⟩
        cases h
      · rintro ⟨-, h⟩
        cases h
    | none =>
      obtain ⟨result, hjudge⟩ : ∃ result,
          judge s start request.placeholders (delivery.reply clock) = .ok result := by
        unfold judge
        rw [hfault, h]
        cases (delivery.reply clock).outcome with
        | error message => exact ⟨_, rfl⟩
        | ok text => exact exists_judgeText start hs hwritable _ text
      rw [hjudge]
      refine iff_of_true ⟨result, ?_⟩ ⟨rfl, rfl⟩
      cases result <;> rfl

end Gamebook.Extension
