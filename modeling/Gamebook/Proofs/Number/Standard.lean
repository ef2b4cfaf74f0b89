import Gamebook.Proofs.Number.Numeral

/-!
# Numerals by the standard

A text is meant to be read as a number the way JavaScript reads it, where other characters are blank than
the ones that texts are trimmed of, and only ASCII digits count.

* `Convention.standard`    : the blanks and the digits of JavaScript.
* `Numeral.visible_or_digit` : what a numeral is made of.
* `isPeculiar`             : the characters that are blanks or digits by one convention only.
* `denotes_standard_iff`   : a text without them denotes the same by both conventions.
* `not_isPeculiar_of_isNumeral` : nor has a text any that is a numeral by both.
* `numberOfText_standard_iff` : which texts are read as the standard says.
-/

set_option autoImplicit false

namespace Gamebook

open Text

/-- White space and line terminators, by the standard. -/
def isStandardBlank (c : Char) : Bool :=
  let n := c.toNat
  (9 ≤ n && n ≤ 13) || n == 0x20 || n == 0xa0 || n == 0x1680 || (0x2000 ≤ n && n ≤ 0x200a) ||
    n == 0x2028 || n == 0x2029 || n == 0x202f || n == 0x205f || n == 0x3000 || n == 0xfeff

def asciiDigit? (c : Char) : Option Nat :=
  if c.isDigit then some (c.toNat - '0'.toNat) else none

/-- The blanks and the digits of JavaScript. -/
def Convention.standard : Convention := ⟨isStandardBlank, asciiDigit?⟩

/-- An ASCII character that is neither a blank nor a control character. -/
def isVisible (c : Char) : Bool := 0x21 ≤ c.toNat && c.toNat ≤ 0x7e

/-- A character that is a blank or a digit by the standard convention or by the wide one, but not by
both. -/
def isPeculiar (c : Char) : Bool :=
  (0x1c ≤ c.toNat && c.toNat ≤ 0x1f) || c.toNat == 0x85 || c.toNat == 0xfeff ||
    (isDecimalDigit c && !c.isDigit)

/-! ## Classes of characters -/

section Classes

variable {c : Char}

theorem isVisible_iff : isVisible c = true ↔ 0x21 ≤ c.toNat ∧ c.toNat ≤ 0x7e := by
  unfold isVisible
  rw [Bool.and_eq_true, decide_eq_true_eq, decide_eq_true_eq]

theorem isDigit_iff : c.isDigit = true ↔ 0x30 ≤ c.toNat ∧ c.toNat ≤ 0x39 := by
  rw [Char.isDigit, Bool.and_eq_true, decide_eq_true_eq, decide_eq_true_eq]
  exact Iff.rfl

theorem isVisible_of_isDigit (h : c.isDigit = true) : isVisible c = true := by
  rw [isDigit_iff] at h
  rw [isVisible_iff]
  omega

theorem isDigit_of_asciiDigit? (h : (asciiDigit? c).isSome = true) : c.isDigit = true := by
  unfold asciiDigit? at h
  split at h
  · assumption
  · cases h

theorem isVisible_of_radixDigit? {base d : Nat} (h : radixDigit? base c = some d) :
    isVisible c = true := by
  have hletter (low high : Char) (hlow : 0x21 ≤ low.toNat) (hhigh : high.toNat ≤ 0x7e)
      (hc : low ≤ c ∧ c ≤ high) : isVisible c = true := by
    have hbelow : low.toNat ≤ c.toNat := UInt32.le_iff_toNat_le.1 hc.1
    have habove : c.toNat ≤ high.toNat := UInt32.le_iff_toNat_le.1 hc.2
    rw [isVisible_iff]
    omega
  unfold radixDigit? at h
  dsimp only at h
  split at h
  · rename_i hdigit
    exact isVisible_of_isDigit hdigit
  · split at h
    · rename_i hc
      exact hletter 'a' 'f' (by decide) (by decide) hc
    · split at h
      · rename_i hc
        exact hletter 'A' 'F' (by decide) (by decide) hc
      · rw [if_neg (Nat.lt_irrefl base)] at h
        cases h

/-- A decimal digit is one of the ten characters that start with the zero of its script. -/
theorem exists_decimalZero (h : isDecimalDigit c = true) :
    ∃ z ∈ decimalZeros, z ≤ c.toNat ∧ c.toNat < z + 10 := by
  unfold isDecimalDigit decimalDigit? at h
  rw [Option.isSome_map, List.find?_isSome] at h
  obtain ⟨z, hz, hc⟩ := h
  rw [Bool.and_eq_true, decide_eq_true_eq, decide_eq_true_eq] at hc
  exact ⟨z, hz, hc⟩

theorem isStandardBlank_of_isDecimalDigit (h : isDecimalDigit c = true) :
    isStandardBlank c = false := by
  obtain ⟨z, hz, hlow, hhigh⟩ := exists_decimalZero h
  have hapart : ∀ z ∈ decimalZeros, (0x20 < z ∧ z + 9 < 0xa0 ∨ 0xa0 < z ∧ z + 9 < 0x1680 ∨
      0x1680 < z ∧ z + 9 < 0x2000 ∨ 0x3000 < z ∧ z + 9 < 0xfeff ∨ 0xfeff < z) := by decide
  have := hapart z hz
  unfold isStandardBlank
  simp only [Bool.or_eq_false_iff, Bool.and_eq_false_iff, decide_eq_false_iff_not, beq_eq_false_iff_ne]
  omega

/-- The only visible decimal digits are the ASCII ones. -/
theorem isDigit_of_isVisible (hvisible : isVisible c = true) (h : isDecimalDigit c = true) :
    c.isDigit = true := by
  obtain ⟨z, hz, hlow, hhigh⟩ := exists_decimalZero h
  have hfirst : ∀ z ∈ decimalZeros, z = 0x30 ∨ 0x7e < z := by decide
  have := hfirst z hz
  rw [isVisible_iff] at hvisible
  rw [isDigit_iff]
  omega

theorem isBlank_of_isVisible (h : isVisible c = true) : isBlank c = false := by
  rw [isVisible_iff] at h
  unfold isBlank isWhiteSpace
  simp only [Bool.or_eq_false_iff, Bool.and_eq_false_iff, decide_eq_false_iff_not, beq_eq_false_iff_ne]
  omega

theorem isPeculiar_of_isVisible (h : isVisible c = true) : isPeculiar c = false := by
  have hdigit : (isDecimalDigit c && !c.isDigit) = false := by
    cases hd : isDecimalDigit c with
    | false => rfl
    | true => rw [isDigit_of_isVisible h hd, Bool.not_true, Bool.and_false]
  rw [isVisible_iff] at h
  unfold isPeculiar
  rw [hdigit, Bool.or_false]
  simp only [Bool.or_eq_false_iff, Bool.and_eq_false_iff, decide_eq_false_iff_not, beq_eq_false_iff_ne]
  omega

/-- A character that is not peculiar is taken alike by both conventions. -/
theorem same_of_not_isPeculiar (h : isPeculiar c = false) :
    isBlank c = isStandardBlank c ∧ decimalDigit? c = asciiDigit? c := by
  unfold isPeculiar at h
  simp only [Bool.or_eq_false_iff, Bool.and_eq_false_iff, Bool.not_eq_false',
    decide_eq_false_iff_not, beq_eq_false_iff_ne] at h
  obtain ⟨⟨⟨hseparator, hnext⟩, hmark⟩, hdigit⟩ := h
  constructor
  · rw [Bool.eq_iff_iff]
    unfold isBlank isWhiteSpace isStandardBlank
    simp only [Bool.or_eq_true, Bool.and_eq_true, decide_eq_true_eq, beq_iff_eq]
    omega
  · unfold asciiDigit?
    split
    · rename_i hc
      exact decimalDigit?_of_isDigit hc
    · rename_i hc
      rw [← Option.not_isSome_iff_eq_none]
      exact ne_true_of_eq_false (hdigit.resolve_right hc)

/-- A blank of both conventions is not peculiar. -/
theorem isPeculiar_of_isBlank (hblank : isBlank c = true) (hstandard : isStandardBlank c = true) :
    isPeculiar c = false := by
  have hdigit : isDecimalDigit c = false := by
    by_contra hd
    rw [Bool.not_eq_false] at hd
    rw [isStandardBlank_of_isDecimalDigit hd] at hstandard
    cases hstandard
  unfold isPeculiar
  rw [hdigit, Bool.false_and, Bool.or_false]
  unfold isBlank isWhiteSpace at hblank
  unfold isStandardBlank at hstandard
  simp only [Bool.or_eq_true, Bool.and_eq_true, decide_eq_true_eq, beq_iff_eq] at hblank hstandard
  simp only [Bool.or_eq_false_iff, Bool.and_eq_false_iff, decide_eq_false_iff_not, beq_eq_false_iff_ne]
  omega

end Classes

/-! ## What numerals are made of -/

section Numerals

variable {digit digit' : Char → Option Nat} {cs : List Char} {negative isScientific : Bool} {n : Nat}
  {e : Int} {d : DecimalLiteral} {x : Binary64}

section Members

variable {p : Char → Prop}

theorem Sign.forall_mem (h : Sign cs negative) (hplus : p '+') (hminus : p '-') : ∀ c ∈ cs, p c := by
  cases h with
  | none => exact List.forall_mem_nil _
  | plus => exact List.forall_mem_singleton.2 hplus
  | minus => exact List.forall_mem_singleton.2 hminus

theorem Mantissa.forall_mem (h : Mantissa digit cs n e) (hpoint : p '.')
    (hdigit : ∀ c, (digit c).isSome = true → p c) : ∀ c ∈ cs, p c := by
  cases h with
  | whole hne h => exact fun c hc => hdigit c (h.isSome c hc)
  | point hne h =>
    have hall := h.isSome
    rw [List.forall_mem_append] at hall
    rw [List.forall_mem_append, List.forall_mem_cons]
    exact ⟨fun c hc => hdigit c (hall.1 c hc), hpoint, fun c hc => hdigit c (hall.2 c hc)⟩

theorem ExponentPart.forall_mem (h : ExponentPart digit cs e) (hmark : p 'e' ∧ p 'E') (hplus : p '+')
    (hminus : p '-') (hdigit : ∀ c, (digit c).isSome = true → p c) : ∀ c ∈ cs, p c := by
  obtain ⟨hmark', hsign, hne, h⟩ := h
  rw [List.forall_mem_cons, List.forall_mem_append]
  refine ⟨?_, hsign.forall_mem hplus hminus, fun c hc => hdigit c (h.isSome c hc)⟩
  rcases hmark' with rfl | rfl
  · exact hmark.1
  · exact hmark.2

end Members

/-- A numeral is made of visible ASCII characters and of digits. -/
theorem Numeral.visible_or_digit (h : Numeral digit cs x) :
    ∀ c ∈ cs, isVisible c = true ∨ (digit c).isSome = true := by
  have hvisible (c : Char) (hc : isVisible c = true) : isVisible c = true ∨ (digit c).isSome = true :=
    .inl hc
  have hplus := hvisible '+' (by decide)
  have hminus := hvisible '-' (by decide)
  have hpoint := hvisible '.' (by decide)
  have hmark := And.intro (hvisible 'e' (by decide)) (hvisible 'E' (by decide))
  cases h with
  | decimal h =>
    cases h with
    | positional hsign hbody =>
      rw [List.forall_mem_append]
      exact ⟨hsign.forall_mem hplus hminus, hbody.forall_mem hpoint fun c => .inr⟩
    | scientific hsign hbody hpart =>
      rw [List.forall_mem_append, List.forall_mem_append]
      exact ⟨hsign.forall_mem hplus hminus, hbody.forall_mem hpoint fun c => .inr,
        hpart.forall_mem hmark hplus hminus fun c => .inr⟩
  | infinity hsign =>
    have hword : "Infinity".toList.all isVisible = true := by decide
    rw [List.forall_mem_append]
    exact ⟨hsign.forall_mem hplus hminus, fun c hc => .inl (List.all_eq_true.1 hword c hc)⟩
  | based hmark hne h =>
    rw [List.forall_mem_cons, List.forall_mem_cons]
    refine ⟨hvisible '0' (by decide), .inl ?_, fun c hc => .inl ?_⟩
    · revert hmark
      unfold baseMarks
      simp only [List.mem_cons, Prod.mk.injEq, List.not_mem_nil, or_false]
      rintro (⟨rfl, -⟩ | ⟨rfl, -⟩ | ⟨rfl, -⟩ | ⟨rfl, -⟩ | ⟨rfl, -⟩ | ⟨rfl, -⟩) <;> decide
    · obtain ⟨d, hd⟩ := Option.isSome_iff_exists.1 (h.isSome c hc)
      exact isVisible_of_radixDigit? hd

theorem Mantissa.mono (h : Mantissa digit cs n e)
    (hsame : ∀ c ∈ cs, ∀ d, digit c = some d → digit' c = some d) : Mantissa digit' cs n e := by
  cases h with
  | whole hne h => exact .whole hne (h.mono hsame)
  | point hne h =>
    refine .point hne (h.mono fun c hc => hsame c ?_)
    rw [List.mem_append] at hc
    rw [List.mem_append, List.mem_cons]
    exact hc.imp_right .inr

theorem ExponentPart.mono (h : ExponentPart digit cs e)
    (hsame : ∀ c ∈ cs, ∀ d, digit c = some d → digit' c = some d) : ExponentPart digit' cs e := by
  obtain ⟨hmark, hsign, hne, h⟩ := h
  refine .mk hmark hsign hne (h.mono fun c hc => hsame c ?_)
  exact List.mem_cons_of_mem _ (List.mem_append_right _ hc)

/-- A numeral stays one, and stands for the same literal, where its digits are digits still. -/
theorem DecimalNumeral.mono (h : DecimalNumeral digit cs isScientific d)
    (hsame : ∀ c ∈ cs, ∀ d, digit c = some d → digit' c = some d) :
    DecimalNumeral digit' cs isScientific d := by
  cases h with
  | positional hsign hbody =>
    exact .positional hsign (hbody.mono fun c hc => hsame c (List.mem_append_right _ hc))
  | scientific hsign hbody hpart =>
    have hbehind := (List.forall_mem_append.1 hsame).2
    rw [List.forall_mem_append] at hbehind
    exact .scientific hsign (hbody.mono hbehind.1) (hpart.mono hbehind.2)

theorem Numeral.mono (h : Numeral digit cs x)
    (hsame : ∀ c ∈ cs, ∀ d, digit c = some d → digit' c = some d) : Numeral digit' cs x := by
  cases h with
  | decimal h => exact .decimal (h.mono hsame)
  | infinity hsign => exact .infinity hsign
  | based hmark hne h => exact .based hmark hne h

theorem ofRatio_ne_nan (negative : Bool) (num den : Nat) : Binary64.ofRatio negative num den ≠ .nan := by
  unfold Binary64.ofRatio Binary64.ofUnits
  split
  · exact fun h => nomatch h
  · exact fun h => nomatch h

/-- A numeral always stands for a number. -/
theorem Numeral.ne_nan (h : Numeral digit cs x) : x ≠ .nan := by
  cases h with
  | infinity hsign => exact fun h => nomatch h
  | based hmark hne h => exact ofRatio_ne_nan _ _ _
  | decimal h =>
    unfold DecimalLiteral.value Binary64.ofDecimal
    dsimp only
    split
    · exact fun h => nomatch h
    · split
      · exact fun h => nomatch h
      · split
        · exact ofRatio_ne_nan _ _ _
        · exact ofRatio_ne_nan _ _ _

end Numerals

/-! ## What a text denotes -/

namespace Convention

variable {k : Convention} {text : String} {x : Binary64}

theorem exists_denotes (k : Convention) (text : String) : ∃ x, k.Denotes text x := by
  have hcore := stripped_trimList k.blank text.toList
  by_cases hblank : trimList k.blank text.toList = []
  · exact ⟨_, _, hcore, .inl ⟨hblank, rfl⟩⟩
  · by_cases hnumeral : ∃ x, Numeral k.digit (trimList k.blank text.toList) x
    · obtain ⟨x, hx⟩ := hnumeral
      exact ⟨x, _, hcore, .inr (.inl hx)⟩
    · exact ⟨_, _, hcore, .inr (.inr ⟨hblank, not_exists.1 hnumeral, rfl⟩)⟩

/-- A text that is a numeral, or of which nothing is left, denotes a number, and no other text does. -/
theorem Denotes.ne_nan_iff (h : k.Denotes text x) : x ≠ .nan ↔ k.IsNumeral text := by
  obtain ⟨core, hcore, h⟩ := h
  constructor
  · intro hx
    rcases h with ⟨rfl, -⟩ | h | ⟨-, -, rfl⟩
    · exact ⟨[], hcore, .inl rfl⟩
    · exact ⟨core, hcore, .inr ⟨x, h⟩⟩
    · exact absurd rfl hx
  · rintro ⟨core', hcore', hnumeral⟩
    rw [stripped_iff] at hcore hcore'
    rw [hcore', ← hcore] at hnumeral
    rcases h with ⟨-, rfl⟩ | h | ⟨hne, hnone, -⟩
    · exact fun h => nomatch h
    · exact h.ne_nan
    · rcases hnumeral with hnil | ⟨y, hy⟩
      · exact absurd hnil hne
      · exact absurd hy (hnone y)

theorem denotes_iff_of_not_isNumeral (h : ¬ k.IsNumeral text) : k.Denotes text x ↔ x = .nan := by
  constructor
  · intro hx
    by_contra hne
    exact h (hx.ne_nan_iff.1 hne)
  · rintro rfl
    obtain ⟨y, hy⟩ := exists_denotes k text
    have hnan : y = .nan := by
      by_contra hne
      exact h (hy.ne_nan_iff.1 hne)
    exact hnan ▸ hy

/-- A text is made of blanks and of what a numeral is made of when it is one. -/
theorem IsNumeral.forall_mem (h : k.IsNumeral text) :
    ∀ c ∈ text.toList, k.blank c = true ∨ isVisible c = true ∨ (k.digit c).isSome = true := by
  obtain ⟨core, ⟨before, after, hcs, hbefore, hafter, -⟩, hcore⟩ := h
  have hmid : ∀ c ∈ core, isVisible c = true ∨ (k.digit c).isSome = true := by
    rcases hcore with rfl | ⟨x, hx⟩
    · exact List.forall_mem_nil _
    · exact hx.visible_or_digit
  rw [hcs, List.forall_mem_append, List.forall_mem_append]
  exact ⟨fun c hc => .inl (hbefore c hc), fun c hc => .inr (hmid c hc),
    fun c hc => .inl (hafter c hc)⟩

/-- Conventions that agree on the characters of a text agree on what it denotes. -/
theorem Denotes.congr {k' : Convention} (h : k.Denotes text x)
    (hsame : ∀ c ∈ text.toList, k.blank c = k'.blank c ∧ k.digit c = k'.digit c) :
    k'.Denotes text x := by
  obtain ⟨core, ⟨before, after, hcs, hbefore, hafter, hhead, hlast⟩, h⟩ := h
  rw [hcs, List.forall_mem_append, List.forall_mem_append] at hsame
  obtain ⟨hfront, hmid, hback⟩ := hsame
  have hto (c : Char) (hc : c ∈ core) (d : Nat) (hd : k.digit c = some d) : k'.digit c = some d := by
    rw [← (hmid c hc).2, hd]
  have hfrom (c : Char) (hc : c ∈ core) (d : Nat) (hd : k'.digit c = some d) :
      k.digit c = some d := by
    rw [(hmid c hc).2, hd]
  refine ⟨core, ⟨before, after, hcs, ?_, ?_, ?_, ?_⟩, ?_⟩
  · exact fun c hc => (hfront c hc).1 ▸ hbefore c hc
  · exact fun c hc => (hback c hc).1 ▸ hafter c hc
  · exact fun c hc => (hmid c (List.mem_of_mem_head? hc)).1 ▸ hhead c hc
  · exact fun c hc => (hmid c (List.mem_of_getLast? hc)).1 ▸ hlast c hc
  · rcases h with h | h | ⟨hne, hnone, hx⟩
    · exact .inl h
    · exact .inr (.inl (h.mono hto))
    · exact .inr (.inr ⟨hne, fun y hy => hnone y (hy.mono hfrom), hx⟩)

end Convention

/-! ## Texts without peculiar characters -/

section Peculiar

variable {text : String} {x : Binary64}

/-- A text without peculiar characters denotes the same by both conventions. -/
theorem denotes_standard_iff (h : ∀ c ∈ text.toList, isPeculiar c = false) :
    Convention.wide.Denotes text x ↔ Convention.standard.Denotes text x := by
  have hsame (c : Char) (hc : c ∈ text.toList) := same_of_not_isPeculiar (h c hc)
  constructor
  · exact fun hx => hx.congr hsame
  · exact fun hx => hx.congr fun c hc => ⟨(hsame c hc).1.symm, (hsame c hc).2.symm⟩

/-- A text that is a numeral by both conventions has no peculiar character. -/
theorem not_isPeculiar_of_isNumeral (hwide : Convention.wide.IsNumeral text)
    (hstandard : Convention.standard.IsNumeral text) : ∀ c ∈ text.toList, isPeculiar c = false := by
  intro c hc
  have hwide : isBlank c = true ∨ isVisible c = true ∨ isDecimalDigit c = true := hwide.forall_mem c hc
  have hstandard : isStandardBlank c = true ∨ isVisible c = true ∨ (asciiDigit? c).isSome = true :=
    hstandard.forall_mem c hc
  rcases hstandard with hblank | hvisible | hdigit
  · rcases hwide with hwide | hvisible | hdigit
    · exact isPeculiar_of_isBlank hwide hblank
    · exact isPeculiar_of_isVisible hvisible
    · rw [isStandardBlank_of_isDecimalDigit hdigit] at hblank
      cases hblank
  · exact isPeculiar_of_isVisible hvisible
  · exact isPeculiar_of_isVisible (isVisible_of_isDigit (isDigit_of_asciiDigit? hdigit))

end Peculiar

/-- A number is read of a text just as the wide convention has it, and a text that spells an infinity with
a base mark is refused.  This is what the standard says just when the text is not refused and, where it is
a numeral by either convention, has no peculiar character. -/
theorem numberOfText_standard_iff (text : String) :
    (∀ x, numberOfText text = .ok x ↔ overflows text = false ∧ Convention.wide.Denotes text x) ∧
      ((∀ x, numberOfText text = .ok x ↔ Convention.standard.Denotes text x) ↔
        overflows text = false ∧
          (Convention.wide.IsNumeral text ∨ Convention.standard.IsNumeral text →
            ∀ c ∈ text.toList, isPeculiar c = false)) := by
  refine ⟨fun x => numberOfText_eq_ok_iff, ?_⟩
  constructor
  · intro h
    obtain ⟨x, hstandard⟩ := Convention.exists_denotes .standard text
    obtain ⟨hfits, hwide⟩ := numberOfText_eq_ok_iff.1 ((h x).2 hstandard)
    refine ⟨hfits, fun hnumeral => ?_⟩
    have hx : x ≠ .nan := hnumeral.elim hwide.ne_nan_iff.2 hstandard.ne_nan_iff.2
    exact not_isPeculiar_of_isNumeral (hwide.ne_nan_iff.1 hx) (hstandard.ne_nan_iff.1 hx)
  · rintro ⟨hfits, hplain⟩ x
    rw [numberOfText_eq_ok_iff, and_iff_right hfits]
    by_cases hnumeral : Convention.wide.IsNumeral text ∨ Convention.standard.IsNumeral text
    · exact denotes_standard_iff (hplain hnumeral)
    · rw [not_or] at hnumeral
      rw [Convention.denotes_iff_of_not_isNumeral hnumeral.1,
        Convention.denotes_iff_of_not_isNumeral hnumeral.2]

/-- A digit of another script is read as a number, which by the standard it is not, and a byte order mark
in front keeps a numeral from being read. -/
theorem foreign_digit_read :
    (numberOfText "\u0663" = .ok (.ofRatio false 3 1) ∧ Convention.standard.Denotes "\u0663" .nan) ∧
      numberOfText "\uFEFF3" = .ok .nan ∧ Convention.standard.Denotes "\uFEFF3" (.ofRatio false 3 1) := by
  refine ⟨⟨by decide +kernel, ?_⟩, by decide +kernel, ?_⟩
  · refine (Convention.denotes_iff_of_not_isNumeral fun hnumeral => ?_).2 rfl
    have hmember := hnumeral.forall_mem (Char.ofNat 0x663) (by decide)
    revert hmember
    decide
  · have hthree : DecimalNumeral asciiDigit? ['3'] false ⟨false, 3, 0⟩ :=
      .positional .none (.whole (by decide) (foldlM_eq_some_iff.1 rfl))
    have hvalue : DecimalLiteral.value ⟨false, 3, 0⟩ = .ofRatio false 3 1 := by decide +kernel
    exact ⟨['3'], stripped_iff.2 (by decide), .inr (.inl (hvalue ▸ .decimal hthree))⟩

end Gamebook
