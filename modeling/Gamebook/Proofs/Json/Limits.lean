import Gamebook.Proofs.Json.Grammar

/-!
# Texts that meet a limit of the reader

A text meets a limit where a value is awaited in it that the reader does not take on: a list or an object
when no level of nesting is left, or a whole number of too many digits.  Everything in front of the place is
read; what stands behind it does not matter.

* `Awaits`           : a value is awaited inside a part, everything in front of it being read.
* `AtLimit`          : a value that is not taken on.
* `meetsGiven`       : where reading stops at a limit, such a value is awaited.
* `Awaits.stops`     : where such a value is awaited, reading stops at it.
* `MeetsLimit`       : the whole texts that meet a limit.
* `MeetsLimit.read_eq`, `read_cases` : they are not read for that reason; all others are read, or depart from
  the grammar.
-/

set_option autoImplicit false

namespace Gamebook.Json

/-- While a part of a kind is read in front of a text, with some levels of nesting left, a value is awaited in
front of a later text, with some levels left there; all that stands between has been read. -/
inductive Awaits : Nat → PartKind → List Char → Nat → List Char → Prop
  | here (depth : Nat) (cs : List Char) : Awaits depth .value cs depth cs
  | list {depth left : Nat} {cs ds : List Char} (hopen : ∀ more, skipGap cs ≠ ']' :: more)
    (h : Awaits depth .items (skipGap cs) left ds) : Awaits (depth + 1) .value ('[' :: cs) left ds
  | object {depth left : Nat} {cs ds : List Char} (h : Awaits depth .fields (skipGap cs) left ds) :
    Awaits (depth + 1) .value ('\x7b' :: cs) left ds
  | item {depth left : Nat} {cs ds : List Char} (h : Awaits depth .value cs left ds) :
    Awaits depth .items cs left ds
  | laterItem {depth left : Nat} {cs behind more ds : List Char} {v : Json}
    (hread : Reads depth cs (.value v) behind) (hcomma : skipGap behind = ',' :: more)
    (h : Awaits depth .items (skipGap more) left ds) : Awaits depth .items cs left ds
  | field {depth left : Nat} {cs afterKey inside ds : List Char} {key : String}
    (hkey : stringBody cs = .ok (key, afterKey)) (hcolon : skipGap afterKey = ':' :: inside)
    (h : Awaits depth .value (skipGap inside) left ds) : Awaits depth .fields ('"' :: cs) left ds
  | laterField {depth left : Nat} {cs afterKey inside behind more ds : List Char} {key : String} {v : Json}
    (hkey : stringBody cs = .ok (key, afterKey)) (hcolon : skipGap afterKey = ':' :: inside)
    (hread : Reads depth (skipGap inside) (.value v) behind) (hcomma : skipGap behind = ',' :: more)
    (h : Awaits depth .fields (skipGap more) left ds) : Awaits depth .fields ('"' :: cs) left ds

/-- What follows the digits of a whole number: no digit, no fraction and no exponent. -/
structure EndsWhole (rest : List Char) : Prop where
  digit : NoDigit rest
  fraction : ∀ more, rest = '.' :: more → NoDigit more
  exponent : ∀ e sign more, rest = e :: (sign ++ more) → (e = 'e' ∨ e = 'E') →
    (sign = [] ∨ sign = ['+'] ∨ sign = ['-']) → NoDigit more

/-- A value is not taken on: a list or an object when no level of nesting is left, or a whole number of too
many digits. -/
inductive AtLimit : Nat → List Char → Stop → Prop
  | list (cs : List Char) : AtLimit 0 ('[' :: cs) (.nestingLimit false)
  | object (cs : List Char) : AtLimit 0 ('\x7b' :: cs) (.nestingLimit true)
  | digits (depth : Nat) (negative : Bool) {ds rest : List Char} (hds : ∀ d ∈ ds, d.isDigit = true)
    (hzero : ds.head? ≠ some '0') (hlong : digitLimit < ds.length) (hend : EndsWhole rest) :
    AtLimit depth (signChars negative ++ (ds ++ rest)) (.digitLimit ds.length)

/-- The reading stops at a limit, and not at a fault of the text. -/
def Stop.isLimit : Stop → Bool
  | .fault .. => false
  | _ => true

/-- A value that is not taken on is awaited while a part of a kind is read. -/
def Meets (depth : Nat) (kind : PartKind) (cs : List Char) (stop : Stop) : Prop :=
  ∃ left ds, Awaits depth kind cs left ds ∧ AtLimit left ds stop

/-! ## Numbers of too many digits -/

variable {cs rest : List Char}

theorem takeWhile_isEmpty_iff : (rest.takeWhile Char.isDigit).isEmpty = true ↔ NoDigit rest := by
  cases rest with
  | nil => exact iff_of_true rfl fun c hc => nomatch hc
  | cons c rest =>
    cases hc : c.isDigit with
    | true =>
      refine iff_of_false (by simp [hc]) fun h => ?_
      rw [h c rfl] at hc
      cases hc
    | false => exact iff_of_true (by simp [hc]) (noDigit_cons rest hc)

/-- There is no fraction where no digit stands behind a point. -/
theorem fractionDigits_of_none (h : ∀ more, rest = '.' :: more → NoDigit more) :
    fractionDigits rest = ([], rest) := by
  unfold fractionDigits
  split
  · dsimp only
    rw [if_pos (takeWhile_isEmpty_iff.2 (h _ rfl))]
  · rfl

theorem noDigit_of_fractionDigits {more : List Char} (h : (fractionDigits ('.' :: more)).1 = []) :
    NoDigit more := by
  simp only [fractionDigits] at h
  split at h
  · rename_i hempty
    exact takeWhile_isEmpty_iff.1 hempty
  · rename_i hne
    rw [List.isEmpty_iff] at hne
    exact absurd h hne

/-- There is no exponent where no digit stands behind its letter and sign. -/
theorem exponentOf_of_none (h : ∀ e sign more, rest = e :: (sign ++ more) → (e = 'e' ∨ e = 'E') →
    (sign = [] ∨ sign = ['+'] ∨ sign = ['-']) → NoDigit more) : exponentOf rest = (none, rest) := by
  unfold exponentOf
  split
  · rename_i e rest
    split
    · rename_i hletter
      simp only [Bool.or_eq_true, beq_iff_eq] at hletter
      split
      rename_i negative digits hsign
      have hnone : NoDigit digits := by
        split at hsign
        all_goals
          cases hsign
        · exact h e ['-'] _ rfl hletter (by simp)
        · exact h e ['+'] _ rfl hletter (by simp)
        · exact h e [] _ rfl hletter (by simp)
      dsimp only
      rw [if_pos (takeWhile_isEmpty_iff.2 hnone)]
    · rfl
  · rfl

theorem noDigit_of_exponentOf {e : Char} {sign more : List Char}
    (h : (exponentOf (e :: (sign ++ more))).1 = none) (he : e = 'e' ∨ e = 'E')
    (hsign : sign = [] ∨ sign = ['+'] ∨ sign = ['-']) : NoDigit more := by
  have hletter : (e == 'e' || e == 'E') = true := by simpa using he
  have hempty {ds : List Char} {n : Int} {left right : List Char}
      (hnone : (if (ds.takeWhile Char.isDigit).isEmpty = true then (none, left) else (some n, right)).1 =
        none) : NoDigit ds := by
    split at hnone
    · rename_i hds
      exact takeWhile_isEmpty_iff.1 hds
    · cases hnone
  unfold exponentOf at h
  dsimp only at h
  rw [if_pos hletter] at h
  split at h
  -- A sign in front of the digits is no digit itself.
  · rename_i digits heq
    have hdigits := hempty h
    rcases hsign with rfl | rfl | rfl
    · rw [List.nil_append] at heq
      rw [heq]
      exact noDigit_cons _ (by decide)
    · cases heq
    · cases heq
      exact hdigits
  · rename_i digits heq
    have hdigits := hempty h
    rcases hsign with rfl | rfl | rfl
    · rw [List.nil_append] at heq
      rw [heq]
      exact noDigit_cons _ (by decide)
    · cases heq
      exact hdigits
    · cases heq
  · rename_i hminus hplus
    have hdigits := hempty h
    rcases hsign with rfl | rfl | rfl
    · exact hdigits
    · exact absurd rfl (hplus more)
    · exact absurd rfl (hminus more)

theorem endsWhole_iff : EndsWhole rest ↔
    NoDigit rest ∧ fractionDigits rest = ([], rest) ∧ exponentOf rest = (none, rest) := by
  constructor
  · rintro ⟨hdigit, hfraction, hexponent⟩
    exact ⟨hdigit, fractionDigits_of_none hfraction, exponentOf_of_none hexponent⟩
  · rintro ⟨hdigit, hfraction, hexponent⟩
    refine ⟨hdigit, ?_, ?_⟩
    · rintro more rfl
      exact noDigit_of_fractionDigits (congrArg Prod.fst hfraction)
    · rintro e sign more rfl he hsign
      exact noDigit_of_exponentOf (congrArg Prod.fst hexponent) he hsign

theorem Bounded.endsWhole (h : Bounded rest) : EndsWhole rest :=
  endsWhole_iff.2 ⟨h.noDigit, fractionDigits_none fun c hc => (h c hc).2.1, exponentOf_none h⟩

/-- A whole number of too many digits stops the reader. -/
theorem number_of_long (negative : Bool) {ds : List Char} (hds : ∀ d ∈ ds, d.isDigit = true)
    (hzero : ds.head? ≠ some '0') (hlong : digitLimit < ds.length) (hend : EndsWhole rest) :
    number (signChars negative ++ (ds ++ rest)) = .error (.digitLimit ds.length) := by
  obtain ⟨hdigit, hfraction, hexponent⟩ := endsWhole_iff.1 hend
  cases ds with
  | nil => exact absurd hlong (Nat.not_lt_zero _)
  | cons d ds =>
    rw [List.forall_mem_cons] at hds
    have hd : d ≠ '0' := fun h => hzero (congrArg some h)
    rw [List.cons_append, number_signed negative (wholePart?_digits hds.1 hd hds.2 hdigit), hfraction]
    dsimp only
    rw [hexponent]
    dsimp only
    simp only [List.isEmpty_nil, Option.isNone_none, Bool.and_self, if_true]
    rw [if_pos hlong]

/-- A whole part of more than one digit has all the digits in front of a text, and no zero in front. -/
theorem wholePart?_long {whole : List Char} (h : wholePart? cs = some (whole, rest))
    (hlong : 1 < whole.length) : cs = whole ++ rest ∧ (∀ d ∈ whole, d.isDigit = true) ∧
      whole.head? ≠ some '0' ∧ NoDigit rest := by
  have hdigits := wholePart?_all h
  unfold wholePart? at h
  split at h
  · cases h
    exact absurd hlong (Nat.lt_irrefl _)
  · rename_i c more hzero
    split at h
    · cases h
      refine ⟨by simp, hdigits, ?_, ?_⟩
      · intro hc
        cases hc
        exact hzero rfl
      · intro d hd
        have hnot := List.head?_dropWhile_not Char.isDigit more
        rw [hd] at hnot
        exact Bool.eq_false_iff.2 (by simpa using hnot)
    · cases h
  · cases h

/-- Only a whole number of too many digits stops the reading of a number at a limit. -/
theorem long_of_number {stop : Stop} (h : number cs = .error stop) (hlimit : stop.isLimit = true)
    (depth : Nat) : AtLimit depth cs stop := by
  rcases number_cases cs with hnone | ⟨negative, body, whole, tail, rfl, hwhole⟩
  · rw [hnone] at h
    cases h
    cases hlimit
  · rw [number_signed negative hwhole] at h
    dsimp only at h
    split at h
    · rename_i hplain
      rw [Bool.and_eq_true, List.isEmpty_iff, Option.isNone_iff_eq_none] at hplain
      obtain ⟨hfraction, hexponent⟩ := hplain
      split at h
      · rename_i hlong
        cases h
        obtain ⟨rfl, hds, hzero, hdigit⟩ := wholePart?_long hwhole (Nat.lt_trans (by decide) hlong)
        have hnoFraction : fractionDigits tail = ([], tail) := fractionDigits_of_none fun more htail =>
          noDigit_of_fractionDigits (htail ▸ hfraction)
        rw [hnoFraction] at hexponent
        refine .digits depth negative hds hzero hlong ⟨hdigit, ?_, ?_⟩
        · rintro more rfl
          exact noDigit_of_fractionDigits hfraction
        · rintro e sign more rfl he hsign
          exact noDigit_of_exponentOf hexponent he hsign
      · cases h
    · cases h

/-! ## Where the reader stops -/

/-- The reader stops while it reads a part of a kind with this fuel. -/
def PartKind.Stopped (fuel depth : Nat) (cs : List Char) (stop : Stop) : PartKind → Prop
  | .value => Json.value fuel depth cs = .error stop
  | .items => Json.items fuel depth cs = .error stop
  | .fields => Json.fields fuel depth cs = .error stop

/-- With this fuel the reader stops at a limit only where the text meets it. -/
def MeetsGiven (fuel : Nat) : Prop :=
  ∀ (kind : PartKind) (depth : Nat) (cs : List Char) (stop : Stop), stop.isLimit = true →
    kind.Stopped fuel depth cs stop → Meets depth kind cs stop

theorem Meets.imp {depth outer : Nat} {kind whole : PartKind} {ds : List Char} {stop : Stop}
    (h : Meets depth kind cs stop)
    (hstep : ∀ left es, Awaits depth kind cs left es → Awaits outer whole ds left es) :
    Meets outer whole ds stop :=
  let ⟨left, es, hawaits, hat⟩ := h
  ⟨left, es, hstep left es hawaits, hat⟩

/-- Reading all the pieces stops where reading the pieces behind the first one does. -/
theorem error_of_pieces {outcome : Except Stop (List Piece × List Char)} {first : Piece} {stop : Stop}
    (h : (do let (ps, after) ← outcome; return (first :: ps, after)) = Except.error stop) :
    outcome = .error stop := by
  cases outcome with
  | error found =>
    cases h
    rfl
  | ok behind => cases h

theorem isLimit_of_pieces {body : List Char} {stop : Stop} (h : pieces body cs = .error stop) :
    stop.isLimit = false := by
  fun_induction pieces body cs generalizing stop with
  | case2 => cases h
  | case4 a b c d n next more hunit ih => exact ih (error_of_pieces h)
  | case7 e rest _ _ c hescape ih => exact ih (error_of_pieces h)
  | case10 c rest _ _ _ _ _ hcontrol ih => exact ih (error_of_pieces h)
  | _ =>
    cases h
    rfl

theorem isLimit_of_stringBody {stop : Stop} (h : stringBody cs = .error stop) : stop.isLimit = false := by
  unfold stringBody at h
  cases hpieces : pieces cs cs with
  | error found =>
    rw [hpieces] at h
    cases h
    exact isLimit_of_pieces hpieces
  | ok found =>
    rw [hpieces] at h
    cases h

variable {fuel depth : Nat} {stop : Stop}

theorem meets_value_step (ih : MeetsGiven fuel) (hlimit : stop.isLimit = true)
    (h : value (fuel + 1) depth cs = .error stop) : Meets depth .value cs stop := by
  rw [value.eq_def] at h
  dsimp only at h
  split at h
  · cases h
    cases hlimit
  · rename_i cs
    cases hbody : stringBody cs with
    | error found =>
      rw [hbody] at h
      cases h
      rw [isLimit_of_stringBody hbody] at hlimit
      cases hlimit
    | ok found =>
      rw [hbody] at h
      cases h
  · rename_i cs
    cases depth with
    | zero =>
      cases h
      exact ⟨_, _, .here 0 _, .list cs⟩
    | succ depth =>
      dsimp only at h
      split at h
      · cases h
      · rename_i hopen
        simp only [bind, Except.bind] at h
        split at h
        · rename_i hitems
          cases h
          exact (ih .items depth _ stop hlimit hitems).imp fun _ _ => .list fun more => hopen more
        · cases h
  · rename_i cs
    cases depth with
    | zero =>
      cases h
      exact ⟨_, _, .here 0 _, .object cs⟩
    | succ depth =>
      dsimp only at h
      split at h
      · cases h
      · simp only [bind, Except.bind] at h
        split at h
        · rename_i hfields
          cases h
          exact (ih .fields depth _ stop hlimit hfields).imp fun _ _ => .object
        · cases h
  · split at h
    · cases h
    · exact ⟨_, _, .here depth cs, long_of_number h hlimit depth⟩

theorem meets_items_step (ih : MeetsGiven fuel) (hlimit : stop.isLimit = true)
    (h : items (fuel + 1) depth cs = .error stop) : Meets depth .items cs stop := by
  rw [items] at h
  simp only [bind, Except.bind] at h
  split at h
  · rename_i hvalue
    cases h
    exact (ih .value depth _ stop hlimit hvalue).imp fun _ _ => .item
  · rename_i hvalue
    have hread := reads_of_value hvalue
    split at h
    · cases h
    · rename_i more hcomma
      split at h
      · rename_i hitems
        cases h
        exact (ih .items depth _ stop hlimit hitems).imp fun _ _ => .laterItem hread hcomma
      · cases h
    · cases h
      cases hlimit

theorem meets_fields_step (ih : MeetsGiven fuel) (hlimit : stop.isLimit = true)
    (h : fields (fuel + 1) depth cs = .error stop) : Meets depth .fields cs stop := by
  rw [fields.eq_def] at h
  dsimp only at h
  split at h
  · simp only [bind, Except.bind] at h
    split at h
    · rename_i hbody
      cases h
      rw [isLimit_of_stringBody hbody] at hlimit
      cases hlimit
    · rename_i hkey
      split at h
      · rename_i inside hcolon
        split at h
        · rename_i hvalue
          cases h
          exact (ih .value depth _ stop hlimit hvalue).imp fun _ _ => .field hkey hcolon
        · rename_i hvalue
          have hread := reads_of_value hvalue
          split at h
          · cases h
          · rename_i more hcomma
            split at h
            · rename_i hfields
              cases h
              exact (ih .fields depth _ stop hlimit hfields).imp fun _ _ =>
                .laterField hkey hcolon hread hcomma
            · cases h
          · cases h
            cases hlimit
      · cases h
        cases hlimit
  · cases h
    cases hlimit

theorem meetsGiven (fuel : Nat) : MeetsGiven fuel := by
  induction fuel with
  | zero =>
    intro kind depth cs stop hlimit h
    cases kind
    all_goals
      cases h
      cases hlimit
  | succ fuel ih =>
    intro kind depth cs stop hlimit h
    cases kind with
    | value => exact meets_value_step ih hlimit h
    | items => exact meets_items_step ih hlimit h
    | fields => exact meets_fields_step ih hlimit h

/-- A value that is not taken on stops the reader. -/
theorem AtLimit.stops (h : AtLimit depth cs stop) (fuel : Nat) : value (fuel + 1) depth cs = .error stop := by
  cases h with
  | list cs => rfl
  | object cs => rfl
  | @digits _ negative ds rest hds hzero hlong hend =>
    have hnumber := number_of_long negative hds hzero hlong hend
    cases ds with
    | nil => exact absurd hlong (Nat.not_lt_zero _)
    | cons d ds =>
      rw [← hnumber]
      exact value_eq_number negative (hds d List.mem_cons_self) _ fuel depth

/-- Where such a value is awaited, the reader stops at it, with fuel for all of the text. -/
theorem Awaits.stops {kind : PartKind} {left : Nat} {ds : List Char} (h : Awaits depth kind cs left ds)
    (hat : AtLimit left ds stop) {fuel : Nat} (hfuel : kind.fuelBehind cs ≤ fuel) :
    kind.Stopped (fuel + 1) depth cs stop := by
  induction h generalizing fuel with
  | here depth cs => exact hat.stops fuel
  | @list depth left cs ds hopen h ih =>
    have hskip := skipGap_length_le cs
    simp only [PartKind.fuelBehind, List.length_cons] at hfuel ih
    obtain ⟨fuel, rfl⟩ : ∃ n, fuel = n + 1 := Nat.exists_eq_add_of_le' (by omega)
    have hitems : items (fuel + 1) depth (skipGap cs) = .error stop := ih hat (by omega)
    show value (fuel + 2) _ _ = _
    rw [value_list hopen, hitems]
    rfl
  | @object depth left cs ds h ih =>
    have hskip := skipGap_length_le cs
    simp only [PartKind.fuelBehind, List.length_cons] at hfuel ih
    obtain ⟨fuel, rfl⟩ : ∃ n, fuel = n + 1 := Nat.exists_eq_add_of_le' (by omega)
    have hfields : fields (fuel + 1) depth (skipGap cs) = .error stop := ih hat (by omega)
    show value (fuel + 2) _ _ = _
    rw [value_object, hfields]
    · rfl
    · intro more hclose
      rw [hclose] at h
      cases h
  | @item depth left cs ds h ih =>
    simp only [PartKind.fuelBehind] at hfuel ih
    obtain ⟨fuel, rfl⟩ : ∃ n, fuel = n + 1 := Nat.exists_eq_add_of_le' (by omega)
    exact items_stopped (ih hat (by omega))
  | @laterItem depth left cs behind more ds v hread hcomma h ih =>
    have hmore := (skipGap_length_lt hcomma).trans hread.length_lt
    simp only [PartKind.fuelBehind] at hfuel ih
    obtain ⟨fuel, rfl⟩ : ∃ n, fuel = n + 1 := Nat.exists_eq_add_of_le' (by omega)
    have hvalue : value (fuel + 1) depth cs = .ok (v, behind) :=
      hread.given (by simp only [Part.kind, PartKind.fuelBehind]; omega)
    have hitems : items (fuel + 1) depth (skipGap more) = .error stop := ih hat (by omega)
    show items (fuel + 2) _ _ = _
    rw [items_more hvalue hcomma, hitems]
    rfl
  | @field depth left cs afterKey inside ds key hkey hcolon h ih =>
    have hinside := (skipGap_length_lt hcolon).trans (stringBody_length_lt hkey)
    simp only [PartKind.fuelBehind, List.length_cons] at hfuel ih
    obtain ⟨fuel, rfl⟩ : ∃ n, fuel = n + 1 := Nat.exists_eq_add_of_le' (by omega)
    exact fields_stopped hkey hcolon (ih hat (by omega))
  | @laterField depth left cs afterKey inside behind more ds key v hkey hcolon hread hcomma h ih =>
    have hinside := (skipGap_length_lt hcolon).trans (stringBody_length_lt hkey)
    have hmore := (skipGap_length_lt hcomma).trans hread.length_lt
    simp only [PartKind.fuelBehind, List.length_cons] at hfuel ih
    obtain ⟨fuel, rfl⟩ : ∃ n, fuel = n + 1 := Nat.exists_eq_add_of_le' (by omega)
    have hvalue : value (fuel + 1) depth (skipGap inside) = .ok (v, behind) :=
      hread.given (by simp only [Part.kind, PartKind.fuelBehind]; omega)
    have hfields : fields (fuel + 1) depth (skipGap more) = .error stop := ih hat (by omega)
    show fields (fuel + 2) _ _ = _
    rw [fields_more hkey hcolon hvalue hcomma, hfields]
    rfl

/-! ## Whole texts -/

theorem isGap_of_isDigit {c : Char} (h : c.isDigit = true) : isGap c = false := by
  have hblank := digit_ne h (show Char.isDigit ' ' = false from rfl)
  have hfeed := digit_ne h (show Char.isDigit '\n' = false from rfl)
  have htab := digit_ne h (show Char.isDigit '\t' = false from rfl)
  have hreturn := digit_ne h (show Char.isDigit '\r' = false from rfl)
  simp [isGap, hblank, hfeed, htab, hreturn]

theorem AtLimit.isLimit (h : AtLimit depth cs stop) : stop.isLimit = true := by
  cases h <;> rfl

theorem Meets.not_marked {more : List Char} : ¬ Meets depth .value ('\ufeff' :: more) stop := by
  rintro ⟨left, ds, hawaits, hat⟩
  have hstopped : value _ depth ('\ufeff' :: more) = .error stop := hawaits.stops hat (Nat.le_refl _)
  have hlimit := hat.isLimit
  cases hstopped
  cases hlimit

/-- A whole text is not read, because it meets a limit. -/
theorem readChars_eq_error_iff (hlimit : stop.isLimit = true) :
    readChars cs = .error stop ↔ Meets nestingLimit .value (skipGap cs) stop := by
  by_cases hmark : cs.head? = some '\ufeff'
  · obtain ⟨more, rfl⟩ := List.head?_eq_some_iff.1 hmark
    have hskip : skipGap ('\ufeff' :: more) = '\ufeff' :: more := skipGap_cons (by decide) more
    rw [readChars_marked, hskip]
    refine iff_of_false (fun h => ?_) Meets.not_marked
    cases h
    cases hlimit
  · rw [readChars_eq hmark]
    constructor
    · intro h
      cases hvalue : value (2 * (skipGap cs).length + 2) nestingLimit (skipGap cs) with
      | error found =>
        rw [hvalue] at h
        cases h
        exact meetsGiven _ .value _ _ _ hlimit hvalue
      | ok found =>
        rw [hvalue] at h
        simp only [Except.bind] at h
        split at h
        · cases h
        · cases h
          cases hlimit
    · rintro ⟨left, ds, hawaits, hat⟩
      have hvalue : value (2 * (skipGap cs).length + 2) nestingLimit (skipGap cs) = .error stop :=
        hawaits.stops hat (Nat.le_succ _)
      rw [hvalue]
      rfl

/-- The text of a document meets a limit of the reader: inside it a value is awaited that the reader does not
take on. -/
def MeetsLimit (text : String) (stop : Stop) : Prop :=
  Meets nestingLimit .value (skipGap text.toList) stop

theorem MeetsLimit.isLimit {text : String} (h : MeetsLimit text stop) : stop.isLimit = true :=
  let ⟨_, _, _, hat⟩ := h
  hat.isLimit

theorem MeetsLimit.read_eq {text : String} (h : MeetsLimit text stop) :
    read text = .error (locate text.toList stop) := by
  unfold read
  rw [(readChars_eq_error_iff h.isLimit).2 h]

/-- A text is read, or it departs from the grammar, or it meets a limit. -/
theorem read_cases (text : String) : (∃ v, read text = .ok v) ∨
    (∃ fault position line column, read text = .error (.syntaxFault fault position line column)) ∨
      ∃ stop, MeetsLimit text stop := by
  cases hchars : readChars text.toList with
  | ok v =>
    have hread : read text = .ok v := by rw [read, hchars]
    exact .inl ⟨v, hread⟩
  | error stop =>
    have hread : read text = .error (locate text.toList stop) := by rw [read, hchars]
    cases hlimit : stop.isLimit with
    | true => exact .inr (.inr ⟨stop, (readChars_eq_error_iff hlimit).1 hchars⟩)
    | false =>
      cases stop with
      | fault fault left => exact .inr (.inl ⟨_, _, _, _, hread⟩)
      | digitLimit digits => cases hlimit
      | nestingLimit inObject => cases hlimit

end Gamebook.Json
