import Gamebook.Proofs.Number.Overflow
import Gamebook.Proofs.Text.Trim
import Mathlib.Data.List.Induction
import Mathlib.Data.List.TakeWhile

/-!
# Numerals

A text denotes a number when a numeral is left of it without the blanks around it, and zero when nothing
is left.  What counts as a blank, and as a digit of a decimal numeral, is a matter of convention; the rest of
the grammar is the same in all conventions.

* `Spells`            : digits of a base spell a number.
* `DecimalNumeral`    : a sign, digits with a point among them, and an exponent.
* `Numeral`           : decimal numerals, infinities, and numerals with a base mark.
* `Convention.Denotes` : what a text denotes.
* `Convention.wide`   : digits of all scripts, and the blanks that a text is trimmed of.
* `read?_eq_some_iff` : the reader of decimal literals reads the decimal numerals of all scripts.
* `numberOfText_eq_ok_iff` : a number that is read of a text is what the text denotes by the wide convention.
-/

set_option autoImplicit false

namespace Gamebook

open Text

/-! ## The grammar -/

/-- Digits of a base spell a number, the last one counting least. -/
inductive Spells (digit : Char → Option Nat) (base : Nat) : List Char → Nat → Prop
  | nil : Spells digit base [] 0
  | snoc {ds : List Char} {c : Char} {n d : Nat} (h : Spells digit base ds n) (hc : digit c = some d) :
    Spells digit base (ds ++ [c]) (n * base + d)

/-- A sign, or none; true for a minus. -/
inductive Sign : List Char → Bool → Prop
  | none : Sign [] false
  | plus : Sign ['+'] false
  | minus : Sign ['-'] true

/-- Digits, perhaps with a point among them: the number that all of them spell, and the power of ten. -/
inductive Mantissa (digit : Char → Option Nat) : List Char → Nat → Int → Prop
  | whole {ds : List Char} {n : Nat} (hne : ds ≠ []) (h : Spells digit 10 ds n) : Mantissa digit ds n 0
  | point {whole fraction : List Char} {n : Nat} (hne : whole ++ fraction ≠ [])
    (h : Spells digit 10 (whole ++ fraction) n) :
    Mantissa digit (whole ++ '.' :: fraction) n (-fraction.length)

/-- The part behind the digits that gives a power of ten. -/
inductive ExponentPart (digit : Char → Option Nat) : List Char → Int → Prop
  | mk {mark : Char} {sign ds : List Char} {negative : Bool} {n : Nat} (hmark : mark = 'e' ∨ mark = 'E')
    (hsign : Sign sign negative) (hne : ds ≠ []) (h : Spells digit 10 ds n) :
    ExponentPart digit (mark :: (sign ++ ds)) (Binary64.signed negative n)

/-- A decimal numeral; true for one with an exponent. -/
inductive DecimalNumeral (digit : Char → Option Nat) : List Char → Bool → DecimalLiteral → Prop
  | positional {sign body : List Char} {negative : Bool} {n : Nat} {e : Int} (hsign : Sign sign negative)
    (hbody : Mantissa digit body n e) : DecimalNumeral digit (sign ++ body) false ⟨negative, n, e⟩
  | scientific {sign body part : List Char} {negative : Bool} {n : Nat} {e k : Int}
    (hsign : Sign sign negative) (hbody : Mantissa digit body n e) (hpart : ExponentPart digit part k) :
    DecimalNumeral digit (sign ++ (body ++ part)) true ⟨negative, n, k + e⟩

def baseMarks : List (Char × Nat) :=
  [('x', 16), ('X', 16), ('o', 8), ('O', 8), ('b', 2), ('B', 2)]

/-- A numeral, and the number nearest to its value. -/
inductive Numeral (digit : Char → Option Nat) : List Char → Binary64 → Prop
  | decimal {cs : List Char} {isScientific : Bool} {d : DecimalLiteral}
    (h : DecimalNumeral digit cs isScientific d) : Numeral digit cs d.value
  | infinity {sign : List Char} {negative : Bool} (hsign : Sign sign negative) :
    Numeral digit (sign ++ "Infinity".toList) (.infinite negative)
  | based {mark : Char} {base n : Nat} {ds : List Char} (hmark : (mark, base) ∈ baseMarks)
    (hne : ds ≠ []) (h : Spells (radixDigit? base) base ds n) :
    Numeral digit ('0' :: mark :: ds) (.ofRatio false n 1)

/-- Which characters count as blanks around a numeral, and which as digits of a decimal one. -/
structure Convention where
  blank : Char → Bool
  digit : Char → Option Nat

namespace Convention

/-- The blanks that texts are trimmed of, and the digits of all scripts. -/
def wide : Convention := ⟨isBlank, decimalDigit?⟩

/-- Something that denotes a number is left of a text without its blanks: nothing, or a numeral. -/
def IsNumeral (k : Convention) (text : String) : Prop :=
  ∃ core, Stripped k.blank text.toList core ∧ (core = [] ∨ ∃ x, Numeral k.digit core x)

/-- What a text denotes: zero when nothing is left of it without its blanks, the number of a numeral,
and no number when something else is left. -/
def Denotes (k : Convention) (text : String) (x : Binary64) : Prop :=
  ∃ core, Stripped k.blank text.toList core ∧
    (core = [] ∧ x = .zero false ∨ Numeral k.digit core x ∨
      core ≠ [] ∧ (∀ y, ¬ Numeral k.digit core y) ∧ x = .nan)

end Convention

/-! ## Digits -/

section Digits

variable {digit digit' : Char → Option Nat} {base n : Nat} {ds cs : List Char}

/-- What digits spell is found by adding them up from the left. -/
theorem foldlM_eq_some_iff :
    ds.foldlM (fun acc c => (digit c).map (acc * base + ·)) 0 = some n ↔ Spells digit base ds n := by
  induction ds using List.reverseRecOn generalizing n with
  | nil =>
    constructor
    · intro h
      cases h
      exact .nil
    · intro h
      generalize hds : ([] : List Char) = ds at h
      cases h with
      | nil => rfl
      | snoc => simp at hds
  | append_singleton ds c ih =>
    rw [List.foldlM_append]
    simp only [List.foldlM_cons, List.foldlM_nil, bind_pure, Option.bind_eq_bind,
      Option.bind_eq_some_iff, Option.map_eq_some_iff]
    constructor
    · rintro ⟨m, hm, d, hd, rfl⟩
      exact .snoc (ih.1 hm) hd
    · intro h
      generalize hcs : ds ++ [c] = cs at h
      cases h with
      | nil => simp at hcs
      | @snoc front last m d h hd =>
        obtain ⟨rfl, hlast⟩ := List.append_inj' hcs rfl
        cases hlast
        exact ⟨m, ih.2 h, d, hd, rfl⟩

theorem decimalValue?_eq_some_iff : decimalValue? ds = some n ↔ Spells decimalDigit? 10 ds n :=
  foldlM_eq_some_iff

theorem radixValue?_eq_some_iff :
    radixValue? base ds = some n ↔ ds ≠ [] ∧ Spells (radixDigit? base) base ds n := by
  unfold radixValue?
  split
  · rename_i h
    exact iff_of_false (fun h' => by cases h') (fun h' => h'.1 (List.isEmpty_iff.1 h))
  · rename_i h
    rw [foldlM_eq_some_iff, List.isEmpty_iff] at *
    exact ⟨fun h' => ⟨h, h'⟩, fun h' => h'.2⟩

/-- Only digits spell a number. -/
theorem Spells.isSome (h : Spells digit base ds n) : ∀ c ∈ ds, (digit c).isSome = true := by
  induction h with
  | nil => exact List.forall_mem_nil _
  | snoc h hc ih =>
    rw [List.forall_mem_append, List.forall_mem_singleton]
    exact ⟨ih, by rw [hc]; rfl⟩

theorem Spells.mono (h : Spells digit base ds n)
    (hsame : ∀ c ∈ ds, ∀ d, digit c = some d → digit' c = some d) : Spells digit' base ds n := by
  induction h with
  | nil => exact .nil
  | snoc h hc ih =>
    rw [List.forall_mem_append, List.forall_mem_singleton] at hsame
    exact .snoc (ih hsame.1) (hsame.2 _ hc)

end Digits

/-! ## The reader of decimal literals -/

namespace DecimalLiteral

variable {cs rest sign ds : List Char} {negative : Bool}

theorem digits_append (hds : ∀ c ∈ ds, isDecimalDigit c = true)
    (hrest : ∀ c, rest.head? = some c → isDecimalDigit c = false) : digits (ds ++ rest) = (ds, rest) := by
  obtain ⟨htake, hdrop⟩ := takeWhile_append_of_head hds hrest
  unfold digits
  rw [htake, hdrop]

theorem append_of_digits (h : digits cs = (ds, rest)) : cs = ds ++ rest := by
  unfold digits at h
  cases h
  exact List.takeWhile_append_dropWhile.symm

theorem sign_append (hsign : Sign sign negative)
    (hrest : ∀ c, rest.head? = some c → c ≠ '-' ∧ c ≠ '+') :
    DecimalLiteral.sign (sign ++ rest) = (negative, rest) := by
  cases hsign with
  | plus | minus => rfl
  | none =>
    rw [List.nil_append]
    unfold DecimalLiteral.sign
    split
    · exact absurd rfl (hrest '-' rfl).1
    · exact absurd rfl (hrest '+' rfl).2
    · rfl

theorem append_of_sign (h : DecimalLiteral.sign cs = (negative, rest)) :
    ∃ front, Sign front negative ∧ cs = front ++ rest := by
  unfold DecimalLiteral.sign at h
  split at h
  · cases h
    exact ⟨['-'], .minus, rfl⟩
  · cases h
    exact ⟨['+'], .plus, rfl⟩
  · cases h
    exact ⟨[], .none, rfl⟩

/-- No digit of any script is a sign, a point or the mark of an exponent. -/
theorem ne_of_isDecimalDigit {c : Char} (h : isDecimalDigit c = true) :
    c ≠ '-' ∧ c ≠ '+' ∧ c ≠ '.' ∧ c ≠ 'e' ∧ c ≠ 'E' := by
  refine ⟨?_, ?_, ?_, ?_, ?_⟩
  all_goals
    rintro rfl
    exact absurd h (by decide)

/-- The exponent part by its sign and its digits. -/
theorem exponentPart_cons {mark : Char} {body after : List Char} (hmark : mark = 'e' ∨ mark = 'E')
    (hsign : DecimalLiteral.sign rest = (negative, body)) (hdigits : digits body = (ds, after)) :
    exponentPart (mark :: rest) = if ds = [] ∨ after ≠ [] then none
      else (decimalValue? ds).map fun n => Binary64.signed negative n := by
  have hmark : (mark == 'e' || mark == 'E') = true := by simpa using hmark
  unfold exponentPart
  dsimp only
  rw [hmark, hsign, if_pos rfl]
  dsimp only
  rw [hdigits]
  dsimp only
  simp only [Bool.or_eq_true, List.isEmpty_iff, Bool.not_eq_true', List.isEmpty_eq_false_iff]
  cases decimalValue? ds <;> rfl

theorem exponentPart_eq_some_iff {k : Int} :
    exponentPart cs = some k ↔ cs = [] ∧ k = 0 ∨ ExponentPart decimalDigit? cs k := by
  constructor
  · intro h
    cases cs with
    | nil => exact .inl ⟨rfl, (Option.some.inj h).symm⟩
    | cons mark rest =>
      by_cases hmark : mark = 'e' ∨ mark = 'E'
      · rcases hs : DecimalLiteral.sign rest with ⟨negative, body⟩
        rcases hd : digits body with ⟨ds, after⟩
        obtain ⟨front, hfront, rfl⟩ := append_of_sign hs
        rw [exponentPart_cons hmark hs hd] at h
        split at h
        · cases h
        · rename_i hends
          rw [not_or, ne_eq, not_not] at hends
          obtain ⟨n, hn, rfl⟩ := Option.map_eq_some_iff.1 h
          rw [append_of_digits hd, hends.2, List.append_nil]
          exact .inr (.mk hmark hfront hends.1 (decimalValue?_eq_some_iff.1 hn))
      · exfalso
        unfold exponentPart at h
        dsimp only at h
        rw [if_neg (by rw [Bool.or_eq_true, beq_iff_eq, beq_iff_eq]; exact hmark)] at h
        cases h
  · rintro (⟨rfl, rfl⟩ | ⟨hmark, hsign, hne, h⟩)
    · rfl
    · rename_i mark front ds negative n
      have hall : ∀ c ∈ ds, isDecimalDigit c = true := h.isSome
      have hhead : ∀ c, ds.head? = some c → c ≠ '-' ∧ c ≠ '+' := fun c hc =>
        have hc := ne_of_isDecimalDigit (hall c (List.mem_of_mem_head? hc))
        ⟨hc.1, hc.2.1⟩
      have hdigits : digits (ds ++ []) = (ds, []) := digits_append hall fun _ hc => nomatch hc
      rw [List.append_nil] at hdigits
      rw [exponentPart_cons hmark (sign_append hsign hhead) hdigits, if_neg (by simpa using hne),
        decimalValue?_eq_some_iff.2 h]
      rfl

theorem append_of_fractionPart {tail fraction part : List Char}
    (h : fractionPart tail = (fraction, part)) :
    fraction = [] ∧ tail = part ∨ tail = '.' :: (fraction ++ part) := by
  unfold fractionPart at h
  split at h
  · exact .inr (congrArg _ (append_of_digits h))
  · cases h
    exact .inl ⟨rfl, rfl⟩

/-- A decimal literal by its sign, its digits before and behind the point, and its exponent. -/
theorem read?_of_parts {body whole tail fraction part : List Char}
    (hsign : DecimalLiteral.sign cs = (negative, body)) (hwhole : digits body = (whole, tail))
    (hfraction : fractionPart tail = (fraction, part)) :
    read? cs = if whole ++ fraction = [] then none
      else (exponentPart part).bind fun k =>
        (decimalValue? (whole ++ fraction)).map fun n => ⟨negative, n, k - fraction.length⟩ := by
  unfold read?
  rw [hsign]
  dsimp only
  rw [hwhole]
  dsimp only
  rw [hfraction]
  dsimp only
  simp only [Bool.and_eq_true, List.isEmpty_iff, List.append_eq_nil_iff]
  split
  · rfl
  · cases exponentPart part with
    | none => rfl
    | some k => cases decimalValue? (whole ++ fraction) <;> rfl

/-- What is behind the digits of a decimal literal is read as its exponent. -/
theorem read?_of_mantissa {body part : List Char} {n : Nat} {e k : Int} (hsign : Sign sign negative)
    (hbody : Mantissa decimalDigit? body n e) (hpart : exponentPart part = some k) :
    read? (sign ++ (body ++ part)) = some ⟨negative, n, k + e⟩ := by
  have hmark : ∀ c, part.head? = some c → c = 'e' ∨ c = 'E' := by
    rcases exponentPart_eq_some_iff.1 hpart with ⟨rfl, -⟩ | ⟨hmark, -, -, -⟩
    · exact fun c hc => nomatch hc
    · exact fun c hc => Option.some.inj hc ▸ hmark
  have hend : ∀ c, part.head? = some c → isDecimalDigit c = false := by
    intro c hc
    rcases hmark c hc with rfl | rfl <;> decide
  have hhead {ds rest : List Char} (hds : ∀ c ∈ ds, isDecimalDigit c = true)
      (hrest : ds = [] → ∀ c, rest.head? = some c → c ≠ '-' ∧ c ≠ '+') :
      ∀ c, (ds ++ rest).head? = some c → c ≠ '-' ∧ c ≠ '+' := by
    intro c hc
    rcases ds with _ | ⟨first, ds⟩
    · exact hrest rfl c hc
    · cases hc
      obtain ⟨hminus, hplus, -⟩ := ne_of_isDecimalDigit (hds c List.mem_cons_self)
      exact ⟨hminus, hplus⟩
  cases hbody with
  | whole hne h =>
    have hall : ∀ c ∈ body, isDecimalDigit c = true := h.isSome
    have hpoint : fractionPart part = ([], part) := by
      unfold fractionPart
      split
      · exact absurd (hmark '.' rfl) (by decide)
      · rfl
    rw [read?_of_parts (sign_append hsign (hhead hall fun h => absurd h hne)) (digits_append hall hend)
      hpoint, List.append_nil, if_neg hne, hpart, decimalValue?_eq_some_iff.2 h]
    simp
  | @point whole fraction _ hne h =>
    have hall : ∀ c ∈ whole ++ fraction, isDecimalDigit c = true := h.isSome
    rw [List.forall_mem_append] at hall
    have hdot : ∀ c, ('.' :: (fraction ++ part)).head? = some c →
        isDecimalDigit c = false ∧ c ≠ '-' ∧ c ≠ '+' := by
      rintro c ⟨⟩
      decide
    rw [List.append_assoc, List.cons_append,
      read?_of_parts (sign_append hsign (hhead hall.1 fun _ c hc => (hdot c hc).2))
        (digits_append hall.1 fun c hc => (hdot c hc).1) (digits_append hall.2 hend),
      if_neg hne, hpart, decimalValue?_eq_some_iff.2 h]
    simp [Int.sub_eq_add_neg]

/-- The reader of decimal literals reads the decimal numerals with digits of all scripts, each in one
way. -/
theorem read?_eq_some_iff {d : DecimalLiteral} :
    read? cs = some d ↔ ∃ isScientific, DecimalNumeral decimalDigit? cs isScientific d := by
  constructor
  · intro h
    rcases hs : DecimalLiteral.sign cs with ⟨negative, body⟩
    rcases hd : digits body with ⟨whole, tail⟩
    rcases hf : fractionPart tail with ⟨fraction, part⟩
    obtain ⟨front, hfront, rfl⟩ := append_of_sign hs
    have hbody := append_of_digits hd
    rw [read?_of_parts hs hd hf] at h
    split at h
    · cases h
    · rename_i hne
      obtain ⟨k, hk, hvalue⟩ := Option.bind_eq_some_iff.1 h
      obtain ⟨n, hn, rfl⟩ := Option.map_eq_some_iff.1 hvalue
      rw [decimalValue?_eq_some_iff] at hn
      -- the digits with their point, and what is behind them
      obtain ⟨mantissa, e, hmantissa, hsplit, he⟩ : ∃ mantissa e, Mantissa decimalDigit? mantissa n e ∧
          body = mantissa ++ part ∧ k - fraction.length = k + e := by
        rcases append_of_fractionPart hf with ⟨rfl, rfl⟩ | rfl
        · rw [List.append_nil] at hne hn
          exact ⟨whole, 0, .whole hne hn, hbody, by simp⟩
        · exact ⟨_, _, .point hne hn, by rw [hbody]; simp, Int.sub_eq_add_neg⟩
      rw [hsplit, he]
      rcases exponentPart_eq_some_iff.1 hk with ⟨rfl, rfl⟩ | hpart
      · rw [List.append_nil, Int.zero_add]
        exact ⟨false, .positional hfront hmantissa⟩
      · exact ⟨true, .scientific hfront hmantissa hpart⟩
  · rintro ⟨isScientific, h⟩
    cases h with
    | positional hsign hbody =>
      have hread := read?_of_mantissa hsign hbody (show exponentPart [] = some 0 from rfl)
      rw [List.append_nil, Int.zero_add] at hread
      exact hread
    | scientific hsign hbody hpart =>
      exact read?_of_mantissa hsign hbody (exponentPart_eq_some_iff.2 (.inr hpart))

end DecimalLiteral

/-! ## The number of a text -/

section OfText

variable {cs : List Char} {n : Nat} {x : Binary64} {text : String}

theorem radixLiteral?_cons {mark : Char} {base : Nat} (hmark : (mark, base) ∈ baseMarks)
    (ds : List Char) : radixLiteral? ('0' :: mark :: ds) = radixValue? base ds := by
  unfold baseMarks at hmark
  simp only [List.mem_cons, Prod.mk.injEq, List.not_mem_nil, or_false] at hmark
  rcases hmark with ⟨rfl, rfl⟩ | ⟨rfl, rfl⟩ | ⟨rfl, rfl⟩ | ⟨rfl, rfl⟩ | ⟨rfl, rfl⟩ | ⟨rfl, rfl⟩ <;> rfl

/-- The reader of literals with a base mark reads the numerals with one. -/
theorem radixLiteral?_eq_some_iff :
    radixLiteral? cs = some n ↔ ∃ mark base ds, cs = '0' :: mark :: ds ∧ (mark, base) ∈ baseMarks ∧
      ds ≠ [] ∧ Spells (radixDigit? base) base ds n := by
  constructor
  · intro h
    obtain ⟨mark, ds, rfl, hmark⟩ := radixLiteral?_shape h
    obtain ⟨base, hbase⟩ : ∃ base, (mark, base) ∈ baseMarks := by
      simp only [List.mem_cons, List.not_mem_nil, or_false] at hmark
      rcases hmark with rfl | rfl | rfl | rfl | rfl | rfl
      · exact ⟨16, by decide⟩
      · exact ⟨16, by decide⟩
      · exact ⟨8, by decide⟩
      · exact ⟨8, by decide⟩
      · exact ⟨2, by decide⟩
      · exact ⟨2, by decide⟩
    rw [radixLiteral?_cons hbase] at h
    exact ⟨mark, base, ds, rfl, hbase, radixValue?_eq_some_iff.1 h⟩
  · rintro ⟨mark, base, ds, rfl, hbase, h⟩
    rw [radixLiteral?_cons hbase]
    exact radixValue?_eq_some_iff.2 h

/-- A whole number that is not refused is read as the number nearest to it. -/
theorem numberOfInt_natCast (h : n < overflowBound) :
    numberOfInt n = .ok (Binary64.ofRatio false n 1) := by
  have hnearest : Binary64.ofInt? n = (Binary64.ofRatio false n 1).unlessInfinite := by
    have hsign : decide ((n : Int) < 0) = false := decide_eq_false (by omega)
    unfold Binary64.ofInt?
    rw [hsign, Int.natAbs_natCast]
  have hfinite : Binary64.ofInt? n ≠ none := fun hnone =>
    absurd ((ofInt?_eq_none_iff n).1 hnone) (Nat.not_le.2 h)
  rw [hnearest] at hfinite
  unfold numberOfInt
  rw [hnearest]
  cases hx : Binary64.ofRatio false n 1 with
  | infinite negative => exact absurd (by rw [hx]; rfl) hfinite
  | nan | finite => rfl

theorem numberOfText_of_blank (h : trimList isBlank text.toList = []) :
    numberOfText text = .ok (.zero false) := by
  unfold numberOfText
  dsimp only
  rw [h]
  rfl

theorem numberOfText_of_decimal {isScientific : Bool} {d : DecimalLiteral}
    (hcs : trimList isBlank text.toList = cs) (h : DecimalNumeral decimalDigit? cs isScientific d) :
    numberOfText text = .ok d.value := by
  have hread := DecimalLiteral.read?_eq_some_iff.2 ⟨isScientific, h⟩
  have hne : cs.isEmpty = false := by
    rw [List.isEmpty_eq_false_iff]
    rintro rfl
    cases hread
  unfold numberOfText
  dsimp only
  rw [hcs, hne, hread]
  rfl

theorem numberOfText_of_infinity {sign : List Char} {negative : Bool} (hsign : Sign sign negative)
    (hcs : trimList isBlank text.toList = sign ++ "Infinity".toList) :
    numberOfText text = .ok (.infinite negative) := by
  unfold numberOfText
  dsimp only
  rw [hcs]
  cases hsign <;> decide

theorem numberOfText_of_radixLiteral? (h : radixLiteral? (trimList isBlank text.toList) = some n) :
    numberOfText text = numberOfInt n := by
  have hread := read?_of_radixLiteral? h
  obtain ⟨mark, ds, hcs, -⟩ := radixLiteral?_shape h
  unfold numberOfText
  dsimp only
  rw [hread, h, hcs]
  simp

/-- What no numeral is left of is not-a-number. -/
theorem numberOfText_of_forall_not (hne : trimList isBlank text.toList ≠ [])
    (h : ∀ y, ¬ Numeral decimalDigit? (trimList isBlank text.toList) y) :
    numberOfText text = .ok .nan := by
  unfold numberOfText
  dsimp only
  rw [List.isEmpty_eq_false_iff.2 hne]
  generalize trimList isBlank text.toList = cs at h
  have hread : DecimalLiteral.read? cs = none := by
    rw [Option.eq_none_iff_forall_ne_some]
    intro d hd
    obtain ⟨isScientific, hd⟩ := DecimalLiteral.read?_eq_some_iff.1 hd
    exact h _ (.decimal hd)
  have hradix : radixLiteral? cs = none := by
    rw [Option.eq_none_iff_forall_ne_some]
    intro n hn
    obtain ⟨mark, base, ds, rfl, hmark, hds, hn⟩ := radixLiteral?_eq_some_iff.1 hn
    exact h _ (.based hmark hds hn)
  have hword {sign : List Char} {negative : Bool} (hsign : Sign sign negative) :
      (cs == sign ++ "Infinity".toList) = false := by
    rw [beq_eq_false_iff_ne]
    rintro rfl
    exact h _ (.infinity hsign)
  have hplain := hword .none
  have hplus := hword .plus
  have hminus := hword .minus
  simp only [hread, hradix]
  rw [if_neg (by decide), if_neg, if_neg]
  · exact ne_true_of_eq_false hminus
  · rw [Bool.or_eq_true, not_or]
    exact ⟨ne_true_of_eq_false hplain, ne_true_of_eq_false hplus⟩

/-- The number of a numeral is read, unless it is refused. -/
theorem numberOfText_of_numeral (h : Numeral decimalDigit? (trimList isBlank text.toList) x)
    (hfits : overflows text = false) : numberOfText text = .ok x := by
  unfold overflows at hfits
  generalize hcs : trimList isBlank text.toList = cs at h hfits
  cases h with
  | decimal h => exact numberOfText_of_decimal hcs h
  | infinity hsign => exact numberOfText_of_infinity hsign hcs
  | based hmark hne h =>
    have hradix := radixLiteral?_eq_some_iff.2 ⟨_, _, _, rfl, hmark, hne, h⟩
    rw [hradix, Option.any_some, decide_eq_false_iff_not, Nat.not_le] at hfits
    rw [numberOfText_of_radixLiteral? (hcs ▸ hradix), numberOfInt_natCast hfits]

/-- A number that is read of a text is what the text denotes by the wide convention, and only whole
numbers that round to an infinity are refused. -/
theorem numberOfText_eq_ok_iff :
    numberOfText text = .ok x ↔ overflows text = false ∧ Convention.wide.Denotes text x := by
  constructor
  · intro h
    have hfits : overflows text = false := by
      rw [Bool.eq_false_iff]
      intro hover
      rw [(numberOfText_eq_error_iff text .tooLarge).2 hover] at h
      cases h
    refine ⟨hfits, trimList isBlank text.toList, stripped_trimList _ _, ?_⟩
    by_cases hblank : trimList isBlank text.toList = []
    · rw [numberOfText_of_blank hblank] at h
      exact .inl ⟨hblank, (Except.ok.inj h).symm⟩
    · by_cases hnumeral : ∃ y, Numeral decimalDigit? (trimList isBlank text.toList) y
      · obtain ⟨y, hy⟩ := hnumeral
        rw [numberOfText_of_numeral hy hfits] at h
        cases h
        exact .inr (.inl hy)
      · rw [not_exists] at hnumeral
        rw [numberOfText_of_forall_not hblank hnumeral] at h
        exact .inr (.inr ⟨hblank, hnumeral, (Except.ok.inj h).symm⟩)
  · rintro ⟨hfits, core, hcore, h⟩
    rw [stripped_iff] at hcore
    subst hcore
    rcases h with ⟨hblank, rfl⟩ | hnumeral | ⟨hne, hnone, rfl⟩
    · exact numberOfText_of_blank hblank
    · exact numberOfText_of_numeral hnumeral hfits
    · exact numberOfText_of_forall_not hne hnone

end OfText

end Gamebook
