import Gamebook.Proofs.Json.ReadBack

/-!
# The characters of the text of a value

* `stringChar_elim`           : a character of a text as it is, and its escapes, case by case.
* `stringChar_cases`          : a character of a text stands for itself or has an escape mark in front.
* `quote_not_mem_stringChar`  : of the characters of a text only a quote is written with a quote.
* `isNumeral_numberText`, `isNumeral_intText` : the characters that numbers are written with.
* `quote_not_mem_lineBreak`, `quote_not_mem_itemMark` : breaks and marks between items have no quotes.
-/

set_option autoImplicit false

namespace Gamebook.Json

/-! ## Texts -/

def shortEscapes : List Char := ['"', '\\', 'n', 'r', 't', 'f', 'b']

/-- What holds of a character as it is and of the escapes holds of the characters of a text; the short
escape of a quote is that of the quote only, and no control character stands for itself. -/
theorem stringChar_elim {P : List Char → Prop} {asciiOnly : Bool} {c : Char}
    (hplain : c ≠ '"' → ¬ c.toNat < 0x20 → P [c])
    (hshort : ∀ d ∈ shortEscapes, (d = '"' → c = '"') → P ['\\', d]) (hunit : ∀ n, P (unitEscape n))
    (hpair : ∀ m n, P (unitEscape m ++ unitEscape n)) : P (stringChar asciiOnly c) := by
  unfold stringChar
  refine iteInduction (fun hquote => hshort _ (by decide) fun _ => eq_of_beq hquote) fun hquote => ?_
  iterate 6
    refine iteInduction (fun _ => hshort _ (by decide) fun h => absurd h (by decide)) fun _ => ?_
  refine iteInduction (fun _ => hunit _) fun hcontrol => iteInduction (fun _ => ?_) fun _ => ?_
  · exact iteInduction (fun _ => hunit _) fun _ => hpair _ _
  · exact hplain (mt beq_iff_eq.2 hquote) hcontrol

theorem stringChar_cases (c : Char) :
    stringChar true c = [c] ∧ c ≠ '"' ∨ ∃ tail, stringChar true c = '\\' :: tail :=
  stringChar_elim (P := fun cs => cs = [c] ∧ c ≠ '"' ∨ ∃ tail, cs = '\\' :: tail)
    (fun hquote _ => .inl ⟨rfl, hquote⟩) (fun _ _ _ => .inr ⟨_, rfl⟩) (fun _ => .inr ⟨_, rfl⟩)
    fun _ _ => .inr ⟨_, rfl⟩

theorem quote_not_mem_unitEscape (n : Nat) : '"' ∉ unitEscape n := by
  have hdigit : ∀ d, d < 16 → Nat.digitChar d ≠ '"' := by decide
  simp only [unitEscape, List.mem_cons, List.not_mem_nil, or_false, not_or]
  exact ⟨by decide, by decide, (hdigit _ (Nat.mod_lt _ (by decide))).symm,
    (hdigit _ (Nat.mod_lt _ (by decide))).symm, (hdigit _ (Nat.mod_lt _ (by decide))).symm,
    (hdigit _ (Nat.mod_lt _ (by decide))).symm⟩

/-- Only a quote is written with a quote. -/
theorem quote_not_mem_stringChar {c : Char} (h : c ≠ '"') : '"' ∉ stringChar true c := by
  refine stringChar_elim (P := fun cs => '"' ∉ cs) (fun _ _ => ?_) (fun d _ hd => ?_)
    quote_not_mem_unitEscape fun m n => ?_
  · rw [List.mem_singleton]
    exact Ne.symm h
  · rw [List.mem_cons, List.mem_singleton, not_or]
    exact ⟨by decide, fun hquote => h (hd hquote.symm)⟩
  · rw [List.mem_append, not_or]
    exact ⟨quote_not_mem_unitEscape m, quote_not_mem_unitEscape n⟩

/-! ## Numbers -/

/-- Numbers are written with digits, signs, a point and the mark of an exponent; there are letters in the words
for what is not finite. -/
def isNumberChar (c : Char) : Bool :=
  c.isDigit || ['+', '-', '.', 'e', 'N', 'a', 'I', 'n', 'f', 'i', 't', 'y'].contains c

/-- There are no other characters than numbers are written with. -/
def IsNumeral (cs : List Char) : Prop := ∀ c ∈ cs, isNumberChar c = true

section Numbers

variable {cs ds : List Char}

theorem isNumeral_append : IsNumeral (cs ++ ds) ↔ IsNumeral cs ∧ IsNumeral ds := List.forall_mem_append

theorem isNumeral_of_all (h : cs.all isNumberChar = true) : IsNumeral cs := List.all_eq_true.1 h

theorem isNumeral_of_digits (h : ∀ c ∈ cs, c.isDigit = true) : IsNumeral cs := fun c hc =>
  Bool.or_eq_true_iff.2 (.inl (h c hc))

theorem IsNumeral.of_subset (h : IsNumeral ds) (hsub : cs ⊆ ds) : IsNumeral cs := fun c hc => h c (hsub hc)

/-- A character that no number is written with is not there. -/
theorem IsNumeral.not_mem (h : IsNumeral cs) {c : Char} (hc : isNumberChar c = false) : c ∉ cs := fun hmem => by
  rw [h c hmem] at hc
  cases hc

theorem isNumeral_repr (n : Nat) : IsNumeral (Nat.repr n).toList :=
  isNumeral_of_digits fun _ hc => isDigit_of_mem_repr hc

theorem isNumeral_zeros (n : Nat) : IsNumeral (List.replicate n '0') := fun c hc => by
  rw [List.eq_of_mem_replicate hc]
  rfl

theorem isNumeral_renderExponent (width : Nat) (e : Int) : IsNumeral (renderExponent width e).toList := by
  have hsign : IsNumeral (if e < 0 then "-" else "+").toList := by
    split <;> exact isNumeral_of_all (by decide)
  unfold renderExponent
  simp only [String.toList_append, String.toList_ofList, isNumeral_append]
  exact ⟨⟨hsign, isNumeral_zeros _⟩, isNumeral_repr _⟩

theorem isNumeral_render (style : DecimalStyle) (d : Decimal) : IsNumeral (d.render style).toList := by
  have hdigits := isNumeral_repr d.significand
  have htake (n : Nat) : IsNumeral ((Nat.repr d.significand).toList.take n) :=
    hdigits.of_subset (List.take_subset n _)
  have hdrop (n : Nat) : IsNumeral ((Nat.repr d.significand).toList.drop n) :=
    hdigits.of_subset (List.drop_subset n _)
  have hwhole : IsNumeral (if style.markWhole then ".0" else "").toList := by
    split <;> exact isNumeral_of_all (by decide)
  have hfraction : IsNumeral (if ((Nat.repr d.significand).toList.drop 1).isEmpty then ""
      else "." ++ String.ofList ((Nat.repr d.significand).toList.drop 1)).toList := by
    split
    · exact isNumeral_of_all (by decide)
    · simp only [String.toList_append, String.toList_ofList, isNumeral_append]
      exact ⟨isNumeral_of_all (by decide), hdrop 1⟩
  unfold Decimal.render
  dsimp only
  split
  · split
    · simp only [String.toList_append, String.toList_ofList, isNumeral_append]
      exact ⟨⟨isNumeral_of_all (by decide), isNumeral_zeros _⟩, hdigits⟩
    · split
      · simp only [String.toList_append, String.toList_ofList, isNumeral_append]
        exact ⟨⟨hdigits, isNumeral_zeros _⟩, hwhole⟩
      · simp only [String.toList_append, String.toList_ofList, isNumeral_append]
        exact ⟨⟨htake _, isNumeral_of_all (by decide)⟩, hdrop _⟩
  · simp only [String.toList_append, isNumeral_append]
    rw [String.toList_ofList (l := (Nat.repr d.significand).toList.take 1)]
    exact ⟨⟨⟨htake 1, hfraction⟩, isNumeral_of_all (by decide)⟩, isNumeral_renderExponent _ _⟩

theorem isNumeral_intText (n : Int) : IsNumeral (intText n).toList := by
  unfold intText
  split
  · rw [String.toList_append, isNumeral_append]
    exact ⟨isNumeral_of_all (by decide), isNumeral_repr _⟩
  · exact isNumeral_repr _

theorem isNumeral_finiteText (negative : Bool) (units : Nat) : IsNumeral (finiteText negative units).toList := by
  have hsign : IsNumeral (if negative then "-" else "").toList := by
    split <;> exact isNumeral_of_all (by decide)
  rw [finiteText, String.toList_append, isNumeral_append]
  refine ⟨hsign, ?_⟩
  split
  · exact isNumeral_of_all (by decide)
  · exact isNumeral_render _ _

theorem isNumeral_numberText (x : Binary64) : IsNumeral (numberText x).toList := by
  cases x with
  | nan => exact isNumeral_of_all (by decide)
  | infinite negative => cases negative <;> exact isNumeral_of_all (by decide)
  | finite negative units _ => exact isNumeral_finiteText negative units

end Numbers

/-! ## Layouts -/

theorem quote_not_mem_gap {gap : List Char} (h : ∀ c ∈ gap, isGap c = true) : '"' ∉ gap := fun hmem =>
  absurd (h _ hmem) (by decide)

theorem quote_not_mem_lineBreak (layout : JsonLayout) (level : Nat) :
    '"' ∉ lineBreak layout level :=
  quote_not_mem_gap (isGap_lineBreak layout level)

theorem quote_not_mem_itemMark (layout : JsonLayout) (level : Nat) :
    '"' ∉ itemMark layout level := by
  obtain ⟨gap, hmark, hgap⟩ := itemMark_eq layout level
  rw [hmark, List.mem_cons, not_or]
  exact ⟨by decide, quote_not_mem_gap hgap⟩

end Gamebook.Json
