import Gamebook.Json.Printer
import Gamebook.Proofs.Number.ReadBack

/-!
# Numbers read back

* `Bounded`                  : what follows a number does not continue it.
* `number_int`               : the digits of a whole number are read as that number.
* `number_float`             : the parts of a number with a fraction or an exponent.
* `number_render`            : a decimal in the style of documents is read as the number nearest to it.
* `number_finiteText`        : the text of a finite number is read as that number.

The digits of a decimal stand in four forms: behind `0.`, before zeros and `.0`, around a point, and
with an exponent.  Each is read as the same digits, up to zeros that the exponent accounts for.
-/

set_option autoImplicit false

namespace Gamebook.Json

/-! ## Runs of digits -/

/-- The text does not begin with a digit. -/
def NoDigit (cs : List Char) : Prop := ∀ c, cs.head? = some c → c.isDigit = false

/-- The text does not continue a number. -/
def Bounded (cs : List Char) : Prop :=
  ∀ c, cs.head? = some c → c.isDigit = false ∧ c ≠ '.' ∧ c ≠ 'e' ∧ c ≠ 'E'

theorem bounded_nil : Bounded [] := by
  intro c h
  cases h

theorem bounded_cons {c : Char} {cs : List Char}
    (h : c.isDigit = false ∧ c ≠ '.' ∧ c ≠ 'e' ∧ c ≠ 'E') : Bounded (c :: cs) := by
  intro d hd
  cases hd
  exact h

theorem Bounded.noDigit {cs : List Char} (h : Bounded cs) : NoDigit cs := fun c hc => (h c hc).1

theorem noDigit_cons {c : Char} (cs : List Char) (h : c.isDigit = false) : NoDigit (c :: cs) := by
  intro d hd
  cases hd
  exact h

theorem takeWhile_digits {ds rest : List Char} (hds : ∀ c ∈ ds, c.isDigit = true)
    (hrest : NoDigit rest) : (ds ++ rest).takeWhile Char.isDigit = ds := by
  rw [List.takeWhile_append_of_pos hds]
  cases rest with
  | nil => simp
  | cons c rest => simp [hrest c rfl]

theorem dropWhile_digits {ds rest : List Char} (hds : ∀ c ∈ ds, c.isDigit = true)
    (hrest : NoDigit rest) : (ds ++ rest).dropWhile Char.isDigit = rest := by
  rw [List.dropWhile_append_of_pos hds]
  cases rest with
  | nil => rfl
  | cons c rest => simp [hrest c rfl]

/-! ## The parts of a number -/

theorem wholePart?_zero (rest : List Char) : wholePart? ('0' :: rest) = some (['0'], rest) := rfl

theorem wholePart?_digits {c : Char} {ds rest : List Char} (hc : c.isDigit = true) (hzero : c ≠ '0')
    (hds : ∀ d ∈ ds, d.isDigit = true) (hrest : NoDigit rest) :
    wholePart? (c :: (ds ++ rest)) = some (c :: ds, rest) := by
  unfold wholePart?
  split
  · rename_i h
    cases h
    exact absurd rfl hzero
  · rename_i h
    cases h
    rw [if_pos hc, takeWhile_digits hds hrest, dropWhile_digits hds hrest]
  · rename_i h
    cases h

theorem wholePart?_repr (n : Nat) {rest : List Char} (hrest : NoDigit rest) :
    wholePart? ((Nat.repr n).toList ++ rest) = some ((Nat.repr n).toList, rest) := by
  by_cases hn : n = 0
  · subst hn
    exact wholePart?_zero rest
  · obtain ⟨c, cs, hcs, hdigit, hzero⟩ := repr_head (Nat.pos_of_ne_zero hn)
    have hall (d : Char) (hd : d ∈ cs) : d.isDigit = true :=
      isDigit_of_mem_repr (n := n) (by rw [hcs]; exact List.mem_cons_of_mem c hd)
    rw [hcs]
    exact wholePart?_digits hdigit hzero hall hrest

theorem fractionDigits_point {ds rest : List Char} (hne : ds ≠ [])
    (hds : ∀ d ∈ ds, d.isDigit = true) (hrest : NoDigit rest) :
    fractionDigits ('.' :: (ds ++ rest)) = (ds, rest) := by
  simp only [fractionDigits]
  rw [takeWhile_digits hds hrest, dropWhile_digits hds hrest, if_neg (by simpa using hne)]

theorem fractionDigits_none {cs : List Char} (h : ∀ c, cs.head? = some c → c ≠ '.') :
    fractionDigits cs = ([], cs) := by
  unfold fractionDigits
  split
  · exact absurd rfl (h '.' rfl)
  · rfl

theorem exponentOf_none {cs : List Char} (h : Bounded cs) : exponentOf cs = (none, cs) := by
  unfold exponentOf
  cases cs with
  | nil => rfl
  | cons c cs =>
    obtain ⟨-, -, he, hE⟩ := h c rfl
    simp [he, hE]

/-- The exponent of the scientific form. -/
theorem exponentOf_render (width : Nat) (e : Int) {rest : List Char} (hrest : NoDigit rest) :
    exponentOf ('e' :: ((renderExponent width e).toList ++ rest)) = (some e, rest) := by
  have hdigits : ∀ d ∈ List.replicate (width - (Nat.repr e.natAbs).length) '0' ++
      (Nat.repr e.natAbs).toList, d.isDigit = true := by
    intro d hd
    rcases List.mem_append.1 hd with hd | hd
    · rw [List.eq_of_mem_replicate hd]
      rfl
    · exact isDigit_of_mem_repr hd
  have hvalue : digitsValue (List.replicate (width - (Nat.repr e.natAbs).length) '0' ++
      (Nat.repr e.natAbs).toList) = e.natAbs := by
    rw [digitsValue_zeros_append, digitsValue_repr]
  have hne : List.replicate (width - (Nat.repr e.natAbs).length) '0' ++
      (Nat.repr e.natAbs).toList ≠ [] := by
    simp
  unfold renderExponent
  simp only [String.toList_append, String.toList_ofList, List.append_assoc]
  rw [← List.append_assoc (List.replicate _ _)]
  generalize List.replicate (width - (Nat.repr e.natAbs).length) '0' ++
    (Nat.repr e.natAbs).toList = ds at *
  by_cases hneg : e < 0
  · rw [if_pos hneg]
    simp only [String.reduceToList, List.cons_append, List.nil_append, exponentOf]
    rw [takeWhile_digits hdigits hrest, dropWhile_digits hdigits hrest, hvalue]
    simp only [beq_self_eq_true, Bool.true_or, if_true, List.isEmpty_iff, hne, if_false]
    rw [show -(e.natAbs : Int) = e by omega]
  · rw [if_neg hneg]
    simp only [String.reduceToList, List.cons_append, List.nil_append, exponentOf]
    rw [takeWhile_digits hdigits hrest, dropWhile_digits hdigits hrest, hvalue]
    simp only [beq_self_eq_true, Bool.true_or, if_true, List.isEmpty_iff, hne, if_false]
    rw [show (e.natAbs : Int) = e by omega]
    rfl

/-! ## Whole numbers and others -/

/-- The sign in front of a number. -/
def signChars (negative : Bool) : List Char := if negative then ['-'] else []

/-- A number is read after its sign. -/
theorem number_signed (negative : Bool) {cs whole tail : List Char}
    (h : wholePart? cs = some (whole, tail)) :
    number (signChars negative ++ cs) =
      (let (fraction, rest) := fractionDigits tail
      let (exponent, rest) := exponentOf rest
      if fraction.isEmpty && exponent.isNone then
        if digitLimit < whole.length then .error (.digitLimit whole.length)
        else .ok (.int (if negative then -(digitsValue whole : Int) else digitsValue whole), rest)
      else .ok (.float (.ofDecimal negative (digitsValue (whole ++ fraction))
        (exponent.getD 0 - fraction.length)), rest)) := by
  cases negative with
  | true =>
    unfold number signChars
    simp only [if_true, List.singleton_append]
    rw [h]
  | false =>
    have hhead : ∀ rest, cs ≠ '-' :: rest := by
      rintro rest rfl
      cases h
    unfold number signChars
    simp only [Bool.false_eq_true, if_false, List.nil_append]
    rw [h]

theorem intText_toList (n : Int) :
    (intText n).toList = signChars (decide (n < 0)) ++ (Nat.repr n.natAbs).toList := by
  unfold intText signChars
  by_cases hneg : n < 0 <;> simp [hneg]

theorem number_int {n : Int} (hn : (Nat.repr n.natAbs).length ≤ digitLimit) {rest : List Char}
    (hrest : Bounded rest) : number ((intText n).toList ++ rest) = .ok (.int n, rest) := by
  rw [intText_toList, List.append_assoc, number_signed _ (wholePart?_repr _ hrest.noDigit),
    fractionDigits_none fun c hc => (hrest c hc).2.1]
  dsimp only
  rw [exponentOf_none hrest]
  dsimp only
  simp only [List.isEmpty_nil, Option.isNone_none, Bool.and_self, if_true]
  rw [if_neg (by rw [length_toList_repr]; omega), digitsValue_repr]
  by_cases hneg : n < 0
  · rw [decide_eq_true hneg, if_pos rfl]
    congr 3
    omega
  · rw [decide_eq_false hneg, if_neg (by decide)]
    congr 3
    omega

/-- The number nearest to a decimal of the given parts. -/
theorem number_float (negative : Bool) {cs whole tail fraction after rest : List Char}
    {exponent : Option Int} (hwhole : wholePart? cs = some (whole, tail))
    (hfraction : fractionDigits tail = (fraction, after))
    (hexponent : exponentOf after = (exponent, rest))
    (hsome : fraction ≠ [] ∨ exponent.isSome = true) :
    number (signChars negative ++ cs) =
      .ok (.float (.ofDecimal negative (digitsValue (whole ++ fraction))
        (exponent.getD 0 - fraction.length)), rest) := by
  rw [number_signed negative hwhole, hfraction]
  dsimp only
  rw [hexponent]
  dsimp only
  have hnot : ¬ (fraction.isEmpty && exponent.isNone) = true := by
    rw [Bool.and_eq_true, List.isEmpty_iff, Option.isNone_iff_eq_none]
    rintro ⟨rfl, rfl⟩
    rcases hsome with h | h
    · exact h rfl
    · cases h
  rw [if_neg hnot]

/-! ## Decimals in the style of documents -/

theorem ok_ofDecimal_congr (negative : Bool) (s : Nat) (rest : List Char) {a b : Int} (h : a = b) :
    (.ok (.float (.ofDecimal negative s a), rest) : Except Stop (Json × List Char)) =
      .ok (.float (.ofDecimal negative s b), rest) := by
  rw [h]

section Render

variable (negative : Bool) {s : Nat} (hs : 0 < s) {rest : List Char} (hrest : Bounded rest)

include hs hrest

omit hs in
/-- Digits behind the point and zeros. -/
theorem number_behindPoint (k : Nat) :
    number (signChars negative ++
        ('0' :: '.' :: (List.replicate k '0' ++ (Nat.repr s).toList ++ rest))) =
      .ok (.float (.ofDecimal negative s (-((Nat.repr s).toList.length : Int) - k)), rest) := by
  have hdigits : ∀ d ∈ List.replicate k '0' ++ (Nat.repr s).toList, d.isDigit = true := by
    intro d hd
    rcases List.mem_append.1 hd with hd | hd
    · rw [List.eq_of_mem_replicate hd]
      rfl
    · exact isDigit_of_mem_repr hd
  have hne : List.replicate k '0' ++ (Nat.repr s).toList ≠ [] := by simp
  have hvalue : digitsValue (['0'] ++ (List.replicate k '0' ++ (Nat.repr s).toList)) = s := by
    rw [← List.append_assoc, List.singleton_append, ← List.replicate_succ,
      digitsValue_zeros_append, digitsValue_repr]
  rw [number_float negative (wholePart?_zero _)
    (fractionDigits_point hne hdigits hrest.noDigit) (exponentOf_none hrest) (.inl hne), hvalue]
  apply ok_ofDecimal_congr negative s rest
  simp only [Option.getD_none, List.length_append, List.length_replicate]
  omega

/-- Digits before zeros and the mark of a whole number. -/
theorem number_marked (k : Nat) :
    number (signChars negative ++
        ((Nat.repr s).toList ++ List.replicate k '0' ++ ('.' :: '0' :: rest))) =
      .ok (.float (.ofDecimal negative s k), rest) := by
  obtain ⟨c, ds, hcs, hdigit, hzero⟩ := repr_head hs
  have hdigits : ∀ d ∈ ds ++ List.replicate k '0', d.isDigit = true := by
    intro d hd
    rcases List.mem_append.1 hd with hd | hd
    · exact isDigit_of_mem_repr (n := s) (by rw [hcs]; exact List.mem_cons_of_mem c hd)
    · rw [List.eq_of_mem_replicate hd]
      rfl
  have hwhole := wholePart?_digits hdigit hzero hdigits
    (noDigit_cons (c := '.') ('0' :: rest) rfl)
  have hvalue : digitsValue (c :: (ds ++ List.replicate k '0') ++ ['0']) = s * 10 ^ (k + 1) := by
    rw [← List.cons_append, ← hcs, List.append_assoc, ← List.replicate_succ',
      digitsValue_append_zeros, digitsValue_repr]
  rw [hcs, List.cons_append, List.cons_append,
    number_float negative hwhole
      (@fractionDigits_point ['0'] rest (by simp) (by simp) hrest.noDigit)
      (exponentOf_none hrest) (.inl (by simp)), hvalue, ofDecimal_mul_pow negative hs]
  apply ok_ofDecimal_congr negative s rest
  simp only [Option.getD_none, List.length_singleton]
  omega

theorem number_aroundPoint {p : Nat} (hp : 0 < p) (hlt : p < (Nat.repr s).toList.length) :
    number (signChars negative ++
        ((Nat.repr s).toList.take p ++ ('.' :: ((Nat.repr s).toList.drop p ++ rest)))) =
      .ok (.float (.ofDecimal negative s (p - ((Nat.repr s).toList.length : Int))), rest) := by
  obtain ⟨c, ds, hcs, hdigit, hzero⟩ := repr_head hs
  obtain ⟨q, rfl⟩ : ∃ q, p = q + 1 := ⟨p - 1, by omega⟩
  have hdigits : ∀ d ∈ ds, d.isDigit = true := fun d hd =>
    isDigit_of_mem_repr (n := s) (by rw [hcs]; exact List.mem_cons_of_mem c hd)
  have hwhole := wholePart?_digits hdigit hzero
    (fun d hd => hdigits d (List.mem_of_mem_take (i := q) hd))
    (noDigit_cons (c := '.') (ds.drop q ++ rest) rfl)
  have hlength : q < ds.length := by
    rw [hcs, List.length_cons] at hlt
    omega
  have hne : ds.drop q ≠ [] := by
    rw [ne_eq, List.drop_eq_nil_iff]
    omega
  have hvalue : digitsValue (c :: ds.take q ++ ds.drop q) = s := by
    rw [List.cons_append, List.take_append_drop, ← hcs, digitsValue_repr]
  rw [hcs, List.take_succ_cons, List.drop_succ_cons, List.cons_append,
    number_float negative hwhole
      (fractionDigits_point hne (fun d hd => hdigits d (List.mem_of_mem_drop hd)) hrest.noDigit)
      (exponentOf_none hrest) (.inl hne), hvalue]
  apply ok_ofDecimal_congr negative s rest
  simp only [Option.getD_none, List.length_drop, List.length_cons]
  omega

theorem number_scientific (width : Nat) (e : Int) :
    number (signChars negative ++ ((Nat.repr s).toList.take 1 ++
        ((if ((Nat.repr s).toList.drop 1).isEmpty then []
          else '.' :: (Nat.repr s).toList.drop 1) ++
        ('e' :: ((renderExponent width e).toList ++ rest))))) =
      .ok (.float (.ofDecimal negative s (e + 1 - ((Nat.repr s).toList.length : Int))), rest) := by
  obtain ⟨c, ds, hcs, hdigit, hzero⟩ := repr_head hs
  have hdigits : ∀ d ∈ ds, d.isDigit = true := fun d hd =>
    isDigit_of_mem_repr (n := s) (by rw [hcs]; exact List.mem_cons_of_mem c hd)
  have hexponent := exponentOf_render width e hrest.noDigit
  have hvalue : digitsValue ([c] ++ ds) = s := by
    rw [List.singleton_append, ← hcs, digitsValue_repr]
  rw [hcs, List.take_succ_cons, List.take_zero, List.drop_succ_cons, List.drop_zero]
  by_cases hds : ds = []
  · subst hds
    have hwhole := @wholePart?_digits c [] _ hdigit hzero (by simp)
      (noDigit_cons (c := 'e') ((renderExponent width e).toList ++ rest) rfl)
    have hnone : fractionDigits ('e' :: ((renderExponent width e).toList ++ rest)) =
        ([], 'e' :: ((renderExponent width e).toList ++ rest)) :=
      fractionDigits_none (by simp)
    have hread := number_float negative hwhole hnone hexponent (.inr rfl)
    rw [hvalue] at hread
    rw [List.isEmpty_nil, if_pos rfl]
    apply hread.trans
    apply ok_ofDecimal_congr negative s rest
    simp only [Option.getD_some, List.length_cons, List.length_nil]
    omega
  · have hwhole := @wholePart?_digits c [] _ hdigit hzero (by simp)
      (noDigit_cons (c := '.')
        (ds ++ ('e' :: ((renderExponent width e).toList ++ rest))) rfl)
    have hpoint := fractionDigits_point hds hdigits
      (noDigit_cons (c := 'e') ((renderExponent width e).toList ++ rest) rfl)
    have hread := number_float negative hwhole hpoint hexponent (.inr rfl)
    rw [hvalue] at hread
    rw [if_neg (by rw [List.isEmpty_iff]; exact hds)]
    apply hread.trans
    apply ok_ofDecimal_congr negative s rest
    simp only [Option.getD_some, List.length_cons]
    omega

/-- A positive decimal is read as the number nearest to it. -/
theorem number_render (e : Int) :
    number (signChars negative ++ (((Decimal.mk s e).render numberStyle).toList ++ rest)) =
      .ok (.float (.ofDecimal negative s e), rest) := by
  have hlength : 0 < (Nat.repr s).toList.length := by
    rw [length_toList_repr]
    exact Nat.length_repr_pos
  unfold Decimal.render numberStyle
  dsimp only
  split
  · split
    · have hread := number_behindPoint negative (s := s) hrest
        (-(e + ((Nat.repr s).toList.length : Int))).toNat
      simp only [String.toList_append, String.toList_ofList, String.reduceToList,
        List.cons_append, List.nil_append, List.append_assoc] at hread ⊢
      rw [hread]
      apply ok_ofDecimal_congr negative s rest
      omega
    · split
      · have hread := number_marked negative hs hrest
          (e + ((Nat.repr s).toList.length : Int) - ((Nat.repr s).toList.length : Int)).toNat
        simp only [String.toList_append, String.toList_ofList, String.reduceToList, if_true,
          List.cons_append, List.nil_append, List.append_assoc] at hread ⊢
        rw [hread]
        apply ok_ofDecimal_congr negative s rest
        omega
      · have hread := number_aroundPoint negative hs hrest
          (p := (e + ((Nat.repr s).toList.length : Int)).toNat) (by omega) (by omega)
        simp only [String.toList_append, String.toList_ofList, String.reduceToList,
          List.cons_append, List.nil_append, List.append_assoc] at hread ⊢
        rw [hread]
        apply ok_ofDecimal_congr negative s rest
        omega
  · have hread := number_scientific negative hs hrest 2
      (e + ((Nat.repr s).toList.length : Int) - 1)
    have hpoint : (if ((Nat.repr s).toList.drop 1).isEmpty then ""
          else "." ++ String.ofList ((Nat.repr s).toList.drop 1)).toList =
        if ((Nat.repr s).toList.drop 1).isEmpty then []
          else '.' :: (Nat.repr s).toList.drop 1 := by
      split <;> simp
    simp only [String.toList_append, String.toList_ofList, hpoint, String.reduceToList,
      List.cons_append, List.nil_append, List.append_assoc] at hread ⊢
    rw [hread]
    apply ok_ofDecimal_congr negative s rest
    omega

end Render

/-- The text of a finite number is read as that number. -/
theorem number_finiteText (negative : Bool) {u : Nat} (hu : Representable u) {rest : List Char}
    (hrest : Bounded rest) :
    number ((finiteText negative u).toList ++ rest) = .ok (.float (.finite negative u hu), rest) := by
  have hsign : (if negative then "-" else "").toList = signChars negative := by
    cases negative <;> rfl
  unfold finiteText
  rw [String.toList_append, hsign, List.append_assoc]
  by_cases hzero : u = 0
  · subst hzero
    have hpoint : fractionDigits ('.' :: '0' :: rest) = (['0'], rest) :=
      @fractionDigits_point ['0'] rest (by simp) (by simp) hrest.noDigit
    simp only [if_true, String.reduceToList, List.cons_append, List.nil_append]
    rw [number_float negative (wholePart?_zero _) hpoint (exponentOf_none hrest) (.inl (by simp)),
      show digitsValue (['0'] ++ ['0']) = 0 from rfl, ofDecimal_zero, Binary64.zero]
  · have hpos := Nat.pos_of_ne_zero hzero
    have hsig := shortest_significand_pos hu hpos
    have hvalue := ofDecimal_shortest hu hpos negative
    rw [if_neg hzero]
    generalize shortest u = d at *
    obtain ⟨s, e⟩ := d
    rw [number_render negative hsig hrest, hvalue]

end Gamebook.Json
