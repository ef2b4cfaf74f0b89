import Gamebook.Proofs.Number.Monotone
import Gamebook.Proofs.Number.Order
import Gamebook.Proofs.Number.Standard

/-!
# Written numbers read back

The text that a finite number is written as is a decimal numeral of ASCII digits, whose value is the number.

* `spells_digitsValue`  : ASCII digits spell their value.
* `render_numeral`      : a decimal is written as a numeral for it, with an exponent when the point would
  stand far away.
* `isScientific_iff`    : the mark of an exponent tells the numerals with one.
* `numberOfText_of_ascii` : a numeral of ASCII digits is read as its value.
* `top_le_micro_iff`, `top_le_sextillion_iff` : where the point of a number stands.
* `textOfNumber_reads_back` : every number is read back from its text, but for the sign of zero.
-/

set_option autoImplicit false

namespace Gamebook

open Text
open Json (digitsValue)
open Binary64 (ofDecimal)

/-! ## The numeral of a decimal -/

theorem spells_digitsValue {ds : List Char} (h : ∀ c ∈ ds, c.isDigit = true) :
    Spells asciiDigit? 10 ds (digitsValue ds) := by
  induction ds using List.reverseRecOn with
  | nil => exact .nil
  | append_singleton ds c ih =>
    rw [List.forall_mem_append, List.forall_mem_singleton] at h
    have hlast : asciiDigit? c = some (c.toNat - '0'.toNat) := by
      unfold asciiDigit?
      rw [if_pos h.2]
    have hvalue : digitsValue (ds ++ [c]) = digitsValue ds * 10 + (c.toNat - '0'.toNat) := by
      unfold digitsValue
      rw [List.foldl_append]
      rfl
    rw [hvalue]
    exact .snoc (ih h.1) hlast

section Render

variable {sign : List Char} {negative : Bool} {s : Nat} (hsign : Sign sign negative) (hs : 0 < s)

theorem spells_zeros_repr (k s : Nat) :
    Spells asciiDigit? 10 (List.replicate k '0' ++ (Nat.repr s).toList) s := by
  have hdigits : ∀ c ∈ List.replicate k '0' ++ (Nat.repr s).toList, c.isDigit = true := by
    rw [List.forall_mem_append]
    exact ⟨fun c hc => by rw [List.eq_of_mem_replicate hc]; rfl, fun c hc => isDigit_of_mem_repr hc⟩
  have hspells := spells_digitsValue hdigits
  rwa [digitsValue_zeros_append, digitsValue_repr] at hspells

theorem spells_repr_zeros (s k : Nat) :
    Spells asciiDigit? 10 ((Nat.repr s).toList ++ List.replicate k '0') (s * 10 ^ k) := by
  have hdigits : ∀ c ∈ (Nat.repr s).toList ++ List.replicate k '0', c.isDigit = true := by
    rw [List.forall_mem_append]
    exact ⟨fun c hc => isDigit_of_mem_repr hc, fun c hc => by rw [List.eq_of_mem_replicate hc]; rfl⟩
  have hspells := spells_digitsValue hdigits
  rwa [digitsValue_append_zeros, digitsValue_repr] at hspells

theorem spells_repr (s : Nat) : Spells asciiDigit? 10 (Nat.repr s).toList s :=
  spells_zeros_repr 0 s

theorem repr_ne_nil (s : Nat) : (Nat.repr s).toList ≠ [] := by
  simp

theorem mantissa_behindPoint (k s : Nat) :
    Mantissa asciiDigit? ('0' :: '.' :: (List.replicate k '0' ++ (Nat.repr s).toList)) s
      (-(k + (Nat.repr s).length)) := by
  have hspells := spells_zeros_repr (k + 1) s
  rw [List.replicate_succ, List.cons_append] at hspells
  have hmantissa := @Mantissa.point asciiDigit? ['0'] (List.replicate k '0' ++ (Nat.repr s).toList) s
    (by simp) hspells
  rw [List.length_append, List.length_replicate, length_toList_repr, Int.natCast_add] at hmantissa
  exact hmantissa

/-- Digits before zeros. -/
theorem mantissa_whole (s k : Nat) :
    Mantissa asciiDigit? ((Nat.repr s).toList ++ List.replicate k '0') (s * 10 ^ k) 0 :=
  .whole (by simp) (spells_repr_zeros s k)

theorem mantissa_aroundPoint (p s : Nat) :
    Mantissa asciiDigit? ((Nat.repr s).toList.take p ++ '.' :: (Nat.repr s).toList.drop p) s
      (-((Nat.repr s).length - p : Nat)) := by
  have hspells := spells_repr s
  have hne := repr_ne_nil s
  rw [← List.take_append_drop p (Nat.repr s).toList] at hspells hne
  have hmantissa := Mantissa.point hne hspells
  rw [List.length_drop, length_toList_repr] at hmantissa
  exact hmantissa

/-- One digit, and the others behind a point if there are any. -/
theorem mantissa_scientific (s : Nat) :
    Mantissa asciiDigit? ((Nat.repr s).toList.take 1 ++
      if ((Nat.repr s).toList.drop 1).isEmpty then [] else '.' :: (Nat.repr s).toList.drop 1) s
      (1 - (Nat.repr s).length) := by
  have hlength : 0 < (Nat.repr s).length := Nat.length_repr_pos
  split
  · rename_i hnone
    rw [List.isEmpty_iff, List.drop_eq_nil_iff, length_toList_repr] at hnone
    have hone : (1 - (Nat.repr s).length : Int) = 0 := by omega
    rw [List.append_nil, List.take_of_length_le (by rw [length_toList_repr]; exact hnone), hone]
    exact .whole (repr_ne_nil s) (spells_repr s)
  · have hmantissa := mantissa_aroundPoint 1 s
    have hplace : (1 - (Nat.repr s).length : Int) = -((Nat.repr s).length - 1 : Nat) := by omega
    rw [hplace]
    exact hmantissa

/-- A multiple of a unit by its sign and its magnitude. -/
theorem signed_whole (n : Int) (unit : Nat) :
    Binary64.signed (decide (n < 0)) (n.natAbs * unit) = n * unit := by
  unfold Binary64.signed
  by_cases hneg : n < 0
  · have habs : (n.natAbs : Int) = -n := by omega
    rw [decide_eq_true hneg, if_pos rfl, Int.natCast_mul, habs, Int.neg_mul, Int.neg_neg]
  · have habs : (n.natAbs : Int) = n := by omega
    rw [decide_eq_false hneg, if_neg (by decide), Int.natCast_mul, habs]

/-- The exponent is written without zeros in front. -/
theorem exponentPart_render (k : Int) :
    ExponentPart asciiDigit? ('e' :: (renderExponent 1 k).toList) k := by
  have hlength : 0 < (Nat.repr k.natAbs).length := Nat.length_repr_pos
  have hzeros : 1 - (Nat.repr k.natAbs).length = 0 := by omega
  have htext : (renderExponent 1 k).toList =
      (if k < 0 then ['-'] else ['+']) ++ (Nat.repr k.natAbs).toList := by
    unfold renderExponent
    dsimp only
    rw [hzeros]
    split <;> simp
  have hsign : Sign (if k < 0 then ['-'] else ['+']) (decide (k < 0)) := by
    by_cases hneg : k < 0
    · rw [if_pos hneg, decide_eq_true hneg]
      exact .minus
    · rw [if_neg hneg, decide_eq_false hneg]
      exact .plus
  have hk := signed_whole k 1
  rw [Nat.mul_one, Int.natCast_one, Int.mul_one] at hk
  have hpart := ExponentPart.mk (.inl rfl) hsign (repr_ne_nil k.natAbs) (spells_repr k.natAbs)
  rwa [hk, ← htext] at hpart

/-- A decimal is written without an exponent when its point is near: digits, perhaps with a point among
them, that spell it with some of its zeros. -/
theorem render_near {e : Int} (h : -6 < (Decimal.mk s e).top ∧ (Decimal.mk s e).top ≤ 21) :
    ∃ k : Nat, Mantissa asciiDigit? ((Decimal.mk s e).render variableStyle).toList (s * 10 ^ k)
      (e - k) := by
  have hlength : 0 < (Nat.repr s).length := Nat.length_repr_pos
  unfold Decimal.top at h
  unfold Decimal.render variableStyle
  dsimp only at h ⊢
  simp only [length_toList_repr]
  rw [if_pos h]
  generalize hplace : e + ((Nat.repr s).length : Int) = place at *
  split
  · obtain ⟨k, hk⟩ : ∃ k, (-place).toNat = k := ⟨_, rfl⟩
    have hmantissa := mantissa_behindPoint k s
    have he : e - (0 : Nat) = -(k + ((Nat.repr s).length : Int)) := by omega
    refine ⟨0, ?_⟩
    rw [Nat.pow_zero, Nat.mul_one, he, hk]
    simpa using hmantissa
  · split
    · obtain ⟨k, hk⟩ : ∃ k, (place - ((Nat.repr s).length : Int)).toNat = k := ⟨_, rfl⟩
      have hmantissa := mantissa_whole s k
      have he : e - k = 0 := by omega
      refine ⟨k, ?_⟩
      rw [he, hk]
      simpa using hmantissa
    · obtain ⟨p, hp⟩ : ∃ p, place.toNat = p := ⟨_, rfl⟩
      have hmantissa := mantissa_aroundPoint p s
      have he : e - (0 : Nat) = -((Nat.repr s).length - p : Nat) := by omega
      refine ⟨0, ?_⟩
      rw [Nat.pow_zero, Nat.mul_one, he, hp]
      simpa using hmantissa

/-- A decimal is written with an exponent when its point is far. -/
theorem render_far {e : Int} (h : ¬ (-6 < (Decimal.mk s e).top ∧ (Decimal.mk s e).top ≤ 21)) :
    ∃ body part k, ((Decimal.mk s e).render variableStyle).toList = body ++ part ∧
      Mantissa asciiDigit? body s (1 - (Nat.repr s).length) ∧ ExponentPart asciiDigit? part k ∧
        k + (1 - (Nat.repr s).length) = e := by
  unfold Decimal.top at h
  unfold Decimal.render variableStyle
  dsimp only at h ⊢
  simp only [length_toList_repr]
  rw [if_neg h]
  refine ⟨_, _, e + (Nat.repr s).length - 1, ?_, mantissa_scientific s, exponentPart_render _, by omega⟩
  split <;> simp

include hsign hs in
/-- A decimal is written as a numeral for it, with an exponent just when the point is far. -/
theorem render_numeral (e : Int) :
    ∃ isScientific d, DecimalNumeral asciiDigit?
        (sign ++ ((Decimal.mk s e).render variableStyle).toList) isScientific d ∧
      d.value = ofDecimal negative s e ∧
        (isScientific = false ↔ -6 < (Decimal.mk s e).top ∧ (Decimal.mk s e).top ≤ 21) := by
  by_cases h : -6 < (Decimal.mk s e).top ∧ (Decimal.mk s e).top ≤ 21
  · obtain ⟨k, hbody⟩ := render_near h
    refine ⟨false, _, .positional hsign hbody, ?_, iff_of_true rfl h⟩
    unfold DecimalLiteral.value
    dsimp only
    rw [ofDecimal_mul_pow negative hs, Int.sub_add_cancel]
  · obtain ⟨body, part, k, htext, hbody, hpart, he⟩ := render_far h
    rw [htext]
    refine ⟨true, _, .scientific hsign hbody hpart, ?_, iff_of_false (by decide) h⟩
    unfold DecimalLiteral.value
    dsimp only
    rw [he]

end Render

/-! ## Numerals of ASCII digits -/

section Ascii

variable {cs : List Char} {isScientific : Bool} {d : DecimalLiteral} {text : String}

/-- The mark of an exponent tells the numerals with one. -/
theorem isScientific_iff (h : DecimalNumeral asciiDigit? cs isScientific d) :
    isScientific = true ↔ 'e' ∈ cs ∨ 'E' ∈ cs := by
  cases h with
  | scientific hsign hbody hpart =>
    refine iff_of_true rfl ?_
    obtain ⟨hmark, -, -, -⟩ := hpart
    rcases hmark with rfl | rfl
    · exact .inl (by simp)
    · exact .inr (by simp)
  | positional hsign hbody =>
    refine iff_of_false (by decide) ?_
    have hdigit (c : Char) (hc : (asciiDigit? c).isSome = true) : c ≠ 'e' ∧ c ≠ 'E' := by
      have hc := isDigit_of_asciiDigit? hc
      constructor
      · rintro rfl
        cases hc
      · rintro rfl
        cases hc
    have hnone := List.forall_mem_append.2
      ⟨hsign.forall_mem (p := fun c => c ≠ 'e' ∧ c ≠ 'E') (by decide) (by decide),
        hbody.forall_mem (by decide) hdigit⟩
    rintro (he | he)
    · exact (hnone _ he).1 rfl
    · exact (hnone _ he).2 rfl

theorem numberOfText_of_ascii (h : DecimalNumeral asciiDigit? text.toList isScientific d) :
    numberOfText text = .ok d.value := by
  have hvisible (c : Char) (hc : c ∈ text.toList) : isVisible c = true := by
    rcases (Numeral.decimal h).visible_or_digit c hc with hc | hc
    · exact hc
    · exact isVisible_of_isDigit (isDigit_of_asciiDigit? hc)
  have hblank (c : Char) (hc : c ∈ text.toList) : isBlank c = false :=
    isBlank_of_isVisible (hvisible c hc)
  have hwhole : Stripped isBlank text.toList text.toList :=
    ⟨[], [], by simp, List.forall_mem_nil _, List.forall_mem_nil _,
      fun c hc => hblank c (List.mem_of_mem_head? hc), fun c hc => hblank c (List.mem_of_getLast? hc)⟩
  refine numberOfText_of_decimal (stripped_iff.1 hwhole).symm (h.mono fun c _ n hn => ?_)
  rw [← hn]
  have hdigit := isDigit_of_asciiDigit? (c := c) (by rw [hn]; rfl)
  unfold asciiDigit?
  rw [decimalDigit?_of_isDigit hdigit, if_pos hdigit]
  rfl

end Ascii

/-! ## Where the point of a number stands -/

namespace Binary64

/-- A number without its sign. -/
def magnitude : Binary64 → Binary64
  | .nan => .nan
  | .infinite _ => .infinite false
  | .finite _ units exact => .finite false units exact

/-- A number, with zero for either zero. -/
def unsignZero (x : Binary64) : Binary64 := if x = .zero true then .zero false else x

/-- A number other than zero that is less than a millionth or no less than `10^21` in magnitude. -/
def IsFar (x : Binary64) : Prop :=
  x.same (.zero false) = false ∧
    (x.magnitude.lt (ofDecimal false 1 (-6)) = true ∨ (ofDecimal false 1 21).le x.magnitude = true)

theorem finite_lt_iff {u v : Nat} (hu : Representable u) (hv : Representable v) :
    (finite false u hu).lt (finite false v hv) = true ↔ u < v := by
  unfold lt
  rw [related_of_rank _ rfl rfl, decide_eq_true_eq]
  exact Int.ofNat_lt

end Binary64

section Point

variable {u : Nat} (hu : Representable u) (hpos : 0 < u)

include hpos

/-- The point of a number stands left of the place of a power of ten just when the number is less. -/
theorem top_le_iff_lt {v : Nat} (hv : Representable v) (hvpos : 0 < v) {t : Int}
    (hvalue : ofDecimal false 1 t = .finite false v hv) (hreads : Decimal.reads v ⟨1, t⟩ = true)
    {d : Decimal} (hcandidate : candidate? v (0 + 1) = some d) (hd : stripZeros 20 d = ⟨1, t⟩) :
    (shortest u).top ≤ t ↔ (Binary64.finite false u hu).lt (ofDecimal false 1 t) = true := by
  obtain ⟨n, d', hn, hd', hshortest⟩ := exists_candidate?_of_isSome (by omega)
    (Option.isSome_iff_exists.2 ⟨d, hcandidate⟩)
  rw [Nat.le_zero.1 hn, hcandidate] at hd'
  cases hd'
  rw [hvalue, Binary64.finite_lt_iff]
  exact top_shortest_le_iff hu hpos hv hvpos hreads (hshortest.trans hd)

theorem top_le_micro_iff :
    (shortest u).top ≤ -6 ↔ (Binary64.finite false u hu).lt (ofDecimal false 1 (-6)) = true := by
  have hplace : pointPlace (roundUnits (Nat.pow 2 1074) (Nat.pow 10 6)) = -6 :=
    pointPlace_eq (k := 393) rfl (by decide +kernel) (by decide +kernel)
  have hcandidate : candidate? (roundUnits (Nat.pow 2 1074) (Nat.pow 10 6)) (0 + 1) = some ⟨10, -7⟩ := by
    unfold candidate?
    rw [hplace]
    decide +kernel
  exact top_le_iff_lt hu hpos (by decide +kernel) (by decide +kernel) (by decide +kernel)
    (by decide +kernel) hcandidate (by decide)

theorem top_le_sextillion_iff :
    (shortest u).top ≤ 21 ↔ (Binary64.finite false u hu).lt (ofDecimal false 1 21) = true := by
  have hplace : pointPlace (Nat.pow 10 21 * Nat.pow 2 1074) = 22 :=
    pointPlace_eq (k := 421) rfl (by decide +kernel) (by decide +kernel)
  have hcandidate : candidate? (Nat.pow 10 21 * Nat.pow 2 1074) (0 + 1) = some ⟨1, 21⟩ := by
    unfold candidate?
    rw [hplace]
    decide +kernel
  exact top_le_iff_lt hu hpos (by decide +kernel) (by decide +kernel) (by decide +kernel)
    (by decide +kernel) hcandidate (by decide)

end Point

/-! ## Reading back -/

/-- What the text of a number looks like.  A finite number is written as a decimal numeral of ASCII digits,
which has an exponent just when the number is far. -/
def WrittenAs : Binary64 → String → Prop
  | .nan, text => text = "NaN"
  | .infinite negative, text => text = if negative then "-Infinity" else "Infinity"
  | .finite negative units exact, text =>
    (∃ isScientific d, DecimalNumeral asciiDigit? text.toList isScientific d) ∧
      ((∃ d, DecimalNumeral asciiDigit? text.toList true d) ↔
        (Binary64.finite negative units exact).IsFar)

section ReadBack

variable {negative : Bool} {u : Nat} (hu : Representable u)

theorem unsignZero_of_pos (hpos : 0 < u) :
    (Binary64.finite negative u hu).unsignZero = .finite negative u hu := by
  unfold Binary64.unsignZero
  rw [if_neg]
  unfold Binary64.zero
  intro h
  injection h
  omega

/-- A number is far just when the point of its shortest decimal is. -/
theorem isFar_iff (hpos : 0 < u) : (Binary64.finite negative u hu).IsFar ↔
    ¬ (-6 < (shortest u).top ∧ (shortest u).top ≤ 21) := by
  have hzero : (Binary64.finite negative u hu).same (.zero false) = false := by
    unfold Binary64.same
    rw [Binary64.related_of_rank _ rfl rfl, beq_eq_false_iff_ne]
    unfold Binary64.signed
    cases negative <;> simp <;> omega
  have hle : (ofDecimal false 1 21).le (Binary64.finite false u hu) =
      !(Binary64.finite false u hu).lt (ofDecimal false 1 21) :=
    Binary64.le_eq_not_lt (by decide +kernel) (fun h => nomatch h)
  have hmagnitude : (Binary64.finite negative u hu).magnitude = .finite false u hu := rfl
  have hfar : (!(Binary64.finite false u hu).lt (ofDecimal false 1 21)) = true ↔
      ¬ (shortest u).top ≤ 21 := by
    rw [Bool.not_eq_true', ← Bool.not_eq_true, top_le_sextillion_iff hu hpos]
  unfold Binary64.IsFar
  rw [hmagnitude, hle, hfar, ← top_le_micro_iff hu hpos, and_iff_right hzero]
  omega

theorem exists_numeral (x : Binary64) (hx : x.isFinite = true) :
    ∃ isScientific d, DecimalNumeral asciiDigit? (textOfNumber x).toList isScientific d ∧
      d.value = x.unsignZero ∧ (isScientific = true ↔ x.IsFar) := by
  cases x with
  | nan | infinite => cases hx
  | finite negative u hu =>
    by_cases hzero : u = 0
    · subst hzero
      have hnumeral : DecimalNumeral asciiDigit? ['0'] false ⟨false, 0, 0⟩ :=
        .positional .none (.whole (by decide) (foldlM_eq_some_iff.1 rfl))
      have hunsign : (Binary64.finite negative 0 hu).unsignZero = .zero false := by
        cases negative <;> rfl
      have htext : textOfNumber (.finite negative 0 hu) = "0" := rfl
      have hsame : (Binary64.finite negative 0 hu).same (.zero false) = true := by
        cases negative <;> rfl
      rw [htext, hunsign]
      refine ⟨false, ⟨false, 0, 0⟩, hnumeral, ofDecimal_zero false 0, iff_of_false (by decide) ?_⟩
      intro hfar
      rw [hfar.1] at hsame
      cases hsame
    · have hpos := Nat.pos_of_ne_zero hzero
      have hsign : Sign (if negative then "-" else "").toList negative := by
        cases negative
        · exact .none
        · exact .minus
      have htext : textOfNumber (.finite negative u hu) =
          (if negative then "-" else "") ++ (shortest u).render variableStyle := by
        unfold textOfNumber
        dsimp only
        rw [if_neg hzero]
      have hsig := shortest_significand_pos hu hpos
      have hread := ofDecimal_shortest hu hpos negative
      rw [htext, String.toList_append, isFar_iff hu hpos, unsignZero_of_pos hu hpos]
      generalize shortest u = decimal at *
      obtain ⟨s, e⟩ := decimal
      obtain ⟨isScientific, d, hnumeral, hvalue, hflag⟩ := render_numeral hsign hsig e
      exact ⟨isScientific, d, hnumeral, hvalue.trans hread, by rw [← hflag, Bool.not_eq_false]⟩

theorem writtenAs_textOfNumber (x : Binary64) : WrittenAs x (textOfNumber x) := by
  cases x with
  | nan | infinite => rfl
  | finite negative u hu =>
    obtain ⟨isScientific, d, hnumeral, -, hflag⟩ := exists_numeral (.finite negative u hu) rfl
    refine ⟨⟨isScientific, d, hnumeral⟩, ?_⟩
    rw [← hflag]
    constructor
    · rintro ⟨d', hd'⟩
      rw [isScientific_iff hnumeral, ← isScientific_iff hd']
    · rintro rfl
      exact ⟨d, hnumeral⟩

/-- A number is read back from its text. -/
theorem numberOfText_textOfNumber (x : Binary64) : numberOfText (textOfNumber x) = .ok x.unsignZero := by
  cases x with
  | nan => decide +kernel
  | infinite negative => cases negative <;> decide +kernel
  | finite negative u hu =>
    obtain ⟨isScientific, d, hnumeral, hvalue, -⟩ := exists_numeral (.finite negative u hu) rfl
    rw [numberOfText_of_ascii hnumeral, hvalue]

theorem textOfNumber_unsignZero (x : Binary64) : textOfNumber x.unsignZero = textOfNumber x := by
  have hzero (negative : Bool) : textOfNumber (.zero negative) = "0" := rfl
  unfold Binary64.unsignZero
  split
  · rename_i h
    rw [h, hzero, hzero]
  · rfl

end ReadBack

/-- A number is written as a word or as a decimal numeral, with an exponent just when it is far, and is read
back from its text but for the sign of zero; what is read back is written as the same text. -/
theorem textOfNumber_reads_back (x : Binary64) :
    WrittenAs x (textOfNumber x) ∧ numberOfText (textOfNumber x) = .ok x.unsignZero ∧
      (numberOfText (textOfNumber x)).map textOfNumber = .ok (textOfNumber x) := by
  have hread := numberOfText_textOfNumber x
  refine ⟨writtenAs_textOfNumber x, hread, ?_⟩
  rw [hread]
  exact congrArg _ (textOfNumber_unsignZero x)

end Gamebook
