import Gamebook.Proofs.Json.ReadBack

/-!
# The grammar that is read

The reader is told by its fuel when to stop.  The grammar that it reads does not know about fuel: a part of
a document stands in front of a text when its marks and its parts do.

* `Part`                  : what is read in one go.
* `Reads`                 : a part stands in front of a text.
* `reads_of_value`        : what is read as a value stands in front of the text.
* `Reads.length_lt`       : every part has characters of its own.
* `Reads.given`           : a part that stands in front of a text is read, with fuel for all of the text.
* `Reads.isWithin`         : no list or object of it is nested deeper than levels are left.
* `read_eq_ok_iff`        : the values that whole texts denote.
* `read_compact_of_read`  : a value that was read is read from its own text.
-/

set_option autoImplicit false

namespace Gamebook.Json

/-- What is read in one go: a value, the items of a list up to its bracket, or the fields of an object up to
its brace. -/
inductive Part where
  | value (v : Json)
  | items (vs : List Json)
  | fields (fs : List (String × Json))

inductive PartKind where
  | value
  | items
  | fields

def Part.kind : Part → PartKind
  | .value _ => .value
  | .items _ => .items
  | .fields _ => .fields

/-- A part stands in front of a text, inside lists and objects that leave some levels of nesting; what
follows it is given too. -/
inductive Reads : Nat → List Char → Part → List Char → Prop
  | string {depth : Nat} {cs rest : List Char} {s : String} (h : stringBody cs = .ok (s, rest)) :
    Reads depth ('"' :: cs) (.value (.str s)) rest
  | word {depth : Nat} {cs rest : List Char} {v : Json} (h : word? cs = some (v, rest)) :
    Reads depth cs (.value v) rest
  | number {depth : Nat} {cs rest : List Char} {v : Json} (h : number cs = .ok (v, rest)) :
    Reads depth cs (.value v) rest
  | emptyList {depth : Nat} {cs rest : List Char} (h : skipGap cs = ']' :: rest) :
    Reads (depth + 1) ('[' :: cs) (.value (.arr [])) rest
  | list {depth : Nat} {cs rest : List Char} {vs : List Json}
    (h : Reads depth (skipGap cs) (.items vs) rest) : Reads (depth + 1) ('[' :: cs) (.value (.arr vs)) rest
  | emptyObject {depth : Nat} {cs rest : List Char} (h : skipGap cs = '\x7d' :: rest) :
    Reads (depth + 1) ('\x7b' :: cs) (.value (.obj [])) rest
  | object {depth : Nat} {cs rest : List Char} {fs : List (String × Json)}
    (h : Reads depth (skipGap cs) (.fields fs) rest) :
    Reads (depth + 1) ('\x7b' :: cs) (.value (.obj (Table.ofList fs))) rest
  | lastItem {depth : Nat} {cs behind rest : List Char} {v : Json} (h : Reads depth cs (.value v) behind)
    (hclose : skipGap behind = ']' :: rest) : Reads depth cs (.items [v]) rest
  | item {depth : Nat} {cs behind more rest : List Char} {v : Json} {vs : List Json}
    (h : Reads depth cs (.value v) behind) (hcomma : skipGap behind = ',' :: more)
    (hmore : Reads depth (skipGap more) (.items vs) rest) : Reads depth cs (.items (v :: vs)) rest
  | lastField {depth : Nat} {cs afterKey inside behind rest : List Char} {key : String} {v : Json}
    (hkey : stringBody cs = .ok (key, afterKey)) (hcolon : skipGap afterKey = ':' :: inside)
    (h : Reads depth (skipGap inside) (.value v) behind) (hclose : skipGap behind = '\x7d' :: rest) :
    Reads depth ('"' :: cs) (.fields [(key, v)]) rest
  | field {depth : Nat} {cs afterKey inside behind more rest : List Char} {key : String} {v : Json}
    {fs : List (String × Json)} (hkey : stringBody cs = .ok (key, afterKey))
    (hcolon : skipGap afterKey = ':' :: inside) (h : Reads depth (skipGap inside) (.value v) behind)
    (hcomma : skipGap behind = ',' :: more) (hmore : Reads depth (skipGap more) (.fields fs) rest) :
    Reads depth ('"' :: cs) (.fields ((key, v) :: fs)) rest

/-! ## What is read stands in front -/

/-- With this fuel what is read stands in front of the text. -/
def ReadsGiven (fuel : Nat) : Prop :=
  (∀ depth cs v rest, value fuel depth cs = .ok (v, rest) → Reads depth cs (.value v) rest) ∧
    (∀ depth cs vs rest, items fuel depth cs = .ok (vs, rest) → Reads depth cs (.items vs) rest) ∧
    ∀ depth cs fs rest, fields fuel depth cs = .ok (fs, rest) → Reads depth cs (.fields fs) rest

variable {fuel depth : Nat} {cs rest : List Char} {v : Json}

theorem reads_value_step (ih : ReadsGiven fuel) (h : value (fuel + 1) depth cs = .ok (v, rest)) :
    Reads depth cs (.value v) rest := by
  obtain ⟨-, hitems, hfields⟩ := ih
  rw [value.eq_def] at h
  dsimp only at h
  split at h
  · cases h
  · simp only [bind, Except.bind] at h
    split at h
    · cases h
    · rename_i hbody
      cases h
      exact .string hbody
  · split at h
    · cases h
    · split at h
      · rename_i hskip
        cases h
        exact .emptyList hskip
      · simp only [bind, Except.bind] at h
        split at h
        · cases h
        · rename_i hread
          cases h
          exact .list (hitems _ _ _ _ hread)
  · split at h
    · cases h
    · split at h
      · rename_i hskip
        cases h
        exact .emptyObject hskip
      · simp only [bind, Except.bind] at h
        split at h
        · cases h
        · rename_i hread
          cases h
          exact .object (hfields _ _ _ _ hread)
  · split at h
    · rename_i hword
      cases h
      exact .word hword
    · exact .number h

theorem reads_items_step (ih : ReadsGiven fuel) {vs : List Json}
    (h : items (fuel + 1) depth cs = .ok (vs, rest)) : Reads depth cs (.items vs) rest := by
  obtain ⟨hvalues, hitems, -⟩ := ih
  rw [items] at h
  simp only [bind, Except.bind] at h
  split at h
  · cases h
  · rename_i hfirst
    have hreads := hvalues _ _ _ _ hfirst
    split at h
    · rename_i hclose
      cases h
      exact .lastItem hreads hclose
    · rename_i hcomma
      split at h
      · cases h
      · rename_i hrest
        cases h
        exact .item hreads hcomma (hitems _ _ _ _ hrest)
    · cases h

theorem reads_fields_step (ih : ReadsGiven fuel) {fs : List (String × Json)}
    (h : fields (fuel + 1) depth cs = .ok (fs, rest)) : Reads depth cs (.fields fs) rest := by
  obtain ⟨hvalues, -, hfields⟩ := ih
  rw [fields.eq_def] at h
  dsimp only at h
  split at h
  · simp only [bind, Except.bind] at h
    split at h
    · cases h
    · rename_i hkey
      split at h
      · rename_i hcolon
        split at h
        · cases h
        · rename_i hfirst
          have hreads := hvalues _ _ _ _ hfirst
          split at h
          · rename_i hclose
            cases h
            exact .lastField hkey hcolon hreads hclose
          · rename_i hcomma
            split at h
            · cases h
            · rename_i hrest
              cases h
              exact .field hkey hcolon hreads hcomma (hfields _ _ _ _ hrest)
          · cases h
      · cases h
  · cases h

theorem readsGiven (fuel : Nat) : ReadsGiven fuel := by
  induction fuel with
  | zero =>
    refine ⟨?_, ?_, ?_⟩
    all_goals
      intro depth cs p rest h
      cases h
  | succ fuel ih =>
    exact ⟨fun _ _ _ _ h => reads_value_step ih h, fun _ _ _ _ h => reads_items_step ih h,
      fun _ _ _ _ h => reads_fields_step ih h⟩

/-- What is read as a value stands in front of the text. -/
theorem reads_of_value (h : value fuel depth cs = .ok (v, rest)) : Reads depth cs (.value v) rest :=
  (readsGiven fuel).1 _ _ _ _ h

/-! ## Every part has characters of its own -/

/-- The pieces behind the first one end where all of them do. -/
theorem rest_of_pieces {outcome : Except Stop (List Piece × List Char)} {first : Piece}
    {found : List Piece × List Char}
    (h : (do let (ps, after) ← outcome; return (first :: ps, after)) = Except.ok found) :
    ∃ ps, outcome = .ok (ps, found.2) := by
  cases outcome with
  | error stop => cases h
  | ok behind =>
    cases h
    exact ⟨behind.1, rfl⟩

theorem pieces_length_lt {body : List Char} {found : List Piece × List Char}
    (h : pieces body cs = .ok found) : found.2.length < cs.length := by
  fun_induction pieces body cs generalizing found with
  | case2 rest =>
    cases h
    exact Nat.lt_succ_self _
  | case4 a b c d n next more hunit ih =>
    obtain ⟨ps, hmore⟩ := rest_of_pieces h
    have hlt := ih hmore
    simp only [List.length_cons] at hlt ⊢
    omega
  | case7 e rest _ _ c hescape ih =>
    obtain ⟨ps, hmore⟩ := rest_of_pieces h
    have hlt := ih hmore
    simp only [List.length_cons] at hlt ⊢
    omega
  | case10 c rest _ _ _ _ _ hcontrol ih =>
    obtain ⟨ps, hmore⟩ := rest_of_pieces h
    have hlt := ih hmore
    exact Nat.lt_succ_of_lt hlt
  | _ => cases h

theorem stringBody_length_lt {s : String} (h : stringBody cs = .ok (s, rest)) :
    rest.length < cs.length := by
  unfold stringBody at h
  simp only [bind, Except.bind] at h
  split at h
  · cases h
  · rename_i hpieces
    cases h
    exact pieces_length_lt hpieces

theorem word?_length_lt (h : word? cs = some (v, rest)) : rest.length < cs.length := by
  unfold word? at h
  obtain ⟨⟨w, found⟩, hmem, hv⟩ := List.exists_of_findSome?_eq_some h
  have hne : ∀ e ∈ words, e.1.length ≠ 0 := by decide
  have hw := hne _ hmem
  dsimp only at hv hw
  split at hv
  · rename_i hprefix
    obtain ⟨more, rfl⟩ := List.isPrefixOf_iff_prefix.1 hprefix
    cases hv
    simp only [List.length_drop, List.length_append, String.length_toList]
    omega
  · cases hv

theorem fractionDigits_suffix (cs : List Char) : (fractionDigits cs).2 <:+ cs := by
  unfold fractionDigits
  split
  · dsimp only
    split
    · exact List.suffix_rfl
    · exact (List.dropWhile_suffix _).trans (List.suffix_cons _ _)
  · exact List.suffix_rfl

theorem exponentOf_suffix (cs : List Char) : (exponentOf cs).2 <:+ cs := by
  unfold exponentOf
  split
  · rename_i e rest
    split
    · have hdigits : ∀ {ds : List Char}, ds <:+ rest → ds.dropWhile Char.isDigit <:+ e :: rest :=
        fun hds => ((List.dropWhile_suffix _).trans hds).trans (List.suffix_cons _ _)
      split
      rename_i negative digits hsign
      have hsuffix : digits <:+ rest := by
        split at hsign
        all_goals
          cases hsign
        · exact List.suffix_cons _ _
        · exact List.suffix_cons _ _
        · exact List.suffix_rfl
      dsimp only
      split
      · exact List.suffix_rfl
      · exact hdigits hsuffix
    · exact List.suffix_rfl
  · exact List.suffix_rfl

theorem wholePart?_length_lt {whole : List Char} (h : wholePart? cs = some (whole, rest)) :
    rest.length < cs.length := by
  unfold wholePart? at h
  split at h
  · cases h
    exact Nat.lt_succ_self _
  · split at h
    · cases h
      exact Nat.lt_succ_of_le (List.dropWhile_suffix _).length_le
    · cases h
  · cases h

/-- What is tried as a number has a whole part behind its sign, or is none. -/
theorem number_cases (cs : List Char) :
    number cs = .error (.fault .value cs.length) ∨
      ∃ negative body whole tail, cs = signChars negative ++ body ∧ wholePart? body = some (whole, tail) := by
  unfold number
  split
  rename_i negative body hsign
  have hcs : cs = signChars negative ++ body := by
    split at hsign
    all_goals
      cases hsign
      rfl
  cases hwhole : wholePart? body with
  | some found => exact .inr ⟨negative, body, found.1, found.2, hcs, hwhole⟩
  | none => exact .inl rfl

theorem number_length_lt (h : number cs = .ok (v, rest)) : rest.length < cs.length := by
  rcases number_cases cs with hnone | ⟨negative, body, whole, tail, rfl, hwhole⟩
  · rw [hnone] at h
    cases h
  · have hsuffix : (exponentOf (fractionDigits tail).2).2 <:+ tail :=
      (exponentOf_suffix _).trans (fractionDigits_suffix _)
    have hrest : rest = (exponentOf (fractionDigits tail).2).2 := by
      rw [number_signed negative hwhole] at h
      dsimp only at h
      split at h
      · split at h
        · cases h
        · cases h
          rfl
      · cases h
        rfl
    have htail := wholePart?_length_lt hwhole
    have hle := hsuffix.length_le
    rw [hrest, List.length_append]
    omega

theorem skipGap_length_le (cs : List Char) : (skipGap cs).length ≤ cs.length :=
  (List.dropWhile_suffix _).length_le

/-- What stands behind a mark and the gap in front of it. -/
theorem length_lt_of_skipGap {c : Char} (h : skipGap cs = c :: rest) : rest.length < cs.length := by
  have hle := skipGap_length_le cs
  rw [h] at hle
  exact hle

/-- What stands behind a mark and the gaps around it. -/
theorem skipGap_length_lt {c : Char} (h : skipGap cs = c :: rest) : (skipGap rest).length < cs.length :=
  (skipGap_length_le rest).trans_lt (length_lt_of_skipGap h)

/-- Every part has characters of its own. -/
theorem Reads.length_lt {part : Part} (h : Reads depth cs part rest) : rest.length < cs.length := by
  induction h with
  | string h => exact Nat.lt_succ_of_lt (stringBody_length_lt h)
  | word h => exact word?_length_lt h
  | number h => exact number_length_lt h
  | emptyList h => exact Nat.lt_succ_of_lt (length_lt_of_skipGap h)
  | list h ih => exact Nat.lt_succ_of_le (ih.le.trans (skipGap_length_le _))
  | emptyObject h => exact Nat.lt_succ_of_lt (length_lt_of_skipGap h)
  | object h ih => exact Nat.lt_succ_of_le (ih.le.trans (skipGap_length_le _))
  | lastItem h hclose ih => exact (length_lt_of_skipGap hclose).trans ih
  | item h hcomma hmore ih ihmore => exact ihmore.trans ((skipGap_length_lt hcomma).trans ih)
  | lastField hkey hcolon h hclose ih =>
    have hinside := (skipGap_length_lt hcolon).trans (stringBody_length_lt hkey)
    have hrest := (length_lt_of_skipGap hclose).trans ih
    exact Nat.lt_succ_of_lt (hrest.trans hinside)
  | field hkey hcolon h hcomma hmore ih ihmore =>
    have hinside := (skipGap_length_lt hcolon).trans (stringBody_length_lt hkey)
    have hrest := ihmore.trans ((skipGap_length_lt hcomma).trans ih)
    exact Nat.lt_succ_of_lt (hrest.trans hinside)

/-! ## One step of the reader -/

theorem value_of_word (h : word? cs = some (v, rest)) : value (fuel + 1) depth cs = .ok (v, rest) := by
  have hmarks : ∀ c ∈ ['"', '[', '\x7b'], ∀ more, word? (c :: more) = none := by
    simp [word?, words]
  rw [value.eq_def]
  dsimp only
  split
  · cases h
  · rw [hmarks '"' (by simp)] at h
    cases h
  · rw [hmarks '[' (by simp)] at h
    cases h
  · rw [hmarks '\x7b' (by simp)] at h
    cases h
  · rw [h]

/-- A list is what its items are, one level further in. -/
theorem value_list (hopen : ∀ more, skipGap cs ≠ ']' :: more) : value (fuel + 1) (depth + 1) ('[' :: cs) =
    (items fuel depth (skipGap cs)).map fun found => (.arr found.1, found.2) := by
  rw [value]
  dsimp only
  split
  · rename_i hclose
    exact absurd hclose (hopen _)
  · cases items fuel depth (skipGap cs) <;> rfl

/-- An object is the table of what its fields are, one level further in. -/
theorem value_object (hopen : ∀ more, skipGap cs ≠ '\x7d' :: more) :
    value (fuel + 1) (depth + 1) ('\x7b' :: cs) =
      (fields fuel depth (skipGap cs)).map fun found => (.obj (Table.ofList found.1), found.2) := by
  rw [value]
  dsimp only
  split
  · rename_i hclose
    exact absurd hclose (hopen _)
  · cases fields fuel depth (skipGap cs) <;> rfl

section Steps

variable {afterKey inside behind more : List Char} {key : String}

theorem items_last (h : value fuel depth cs = .ok (v, behind)) (hclose : skipGap behind = ']' :: rest) :
    items (fuel + 1) depth cs = .ok ([v], rest) := by
  rw [items, h]
  simp only [bind, Except.bind]
  rw [hclose]
  rfl

theorem items_more (h : value fuel depth cs = .ok (v, behind)) (hcomma : skipGap behind = ',' :: more) :
    items (fuel + 1) depth cs =
      (items fuel depth (skipGap more)).map fun found => (v :: found.1, found.2) := by
  rw [items, h]
  simp only [bind, Except.bind]
  rw [hcomma]
  cases hrest : items fuel depth (skipGap more) with
  | error stop =>
    simp only [hrest]
    rfl
  | ok found =>
    simp only [hrest]
    rfl

theorem items_stopped {stop : Stop} (h : value fuel depth cs = .error stop) :
    items (fuel + 1) depth cs = .error stop := by
  rw [items, h]
  rfl

variable (hkey : stringBody cs = .ok (key, afterKey)) (hcolon : skipGap afterKey = ':' :: inside)
include hkey hcolon

theorem fields_last (h : value fuel depth (skipGap inside) = .ok (v, behind))
    (hclose : skipGap behind = '\x7d' :: rest) :
    fields (fuel + 1) depth ('"' :: cs) = .ok ([(key, v)], rest) := by
  rw [fields, hkey]
  simp only [bind, Except.bind]
  rw [hcolon]
  simp only [h]
  rw [hclose]
  rfl

theorem fields_more (h : value fuel depth (skipGap inside) = .ok (v, behind))
    (hcomma : skipGap behind = ',' :: more) :
    fields (fuel + 1) depth ('"' :: cs) =
      (fields fuel depth (skipGap more)).map fun found => ((key, v) :: found.1, found.2) := by
  rw [fields, hkey]
  simp only [bind, Except.bind]
  rw [hcolon]
  simp only [h]
  rw [hcomma]
  cases hrest : fields fuel depth (skipGap more) with
  | error stop =>
    simp only [hrest]
    rfl
  | ok found =>
    simp only [hrest]
    rfl

theorem fields_stopped {stop : Stop} (h : value fuel depth (skipGap inside) = .error stop) :
    fields (fuel + 1) depth ('"' :: cs) = .error stop := by
  rw [fields, hkey]
  simp only [bind, Except.bind]
  rw [hcolon]
  simp only [h]

end Steps

/-! ## What stands in front is read -/

/-- The reader finds a part with this fuel. -/
def Part.Given (fuel depth : Nat) (cs rest : List Char) : Part → Prop
  | .value v => Json.value fuel depth cs = .ok (v, rest)
  | .items vs => Json.items fuel depth cs = .ok (vs, rest)
  | .fields fs => Json.fields fuel depth cs = .ok (fs, rest)

/-- The fuel behind the first step of reading a part: a value opens its own characters, and what consists of
values begins with the first of them. -/
def PartKind.fuelBehind (cs : List Char) : PartKind → Nat
  | .value => 2 * cs.length
  | _ => 2 * cs.length + 1

/-- The fuel for all of a text lasts for every part that stands in front of it. -/
theorem Reads.given {part : Part} (h : Reads depth cs part rest) {fuel : Nat}
    (hfuel : part.kind.fuelBehind cs ≤ fuel) : part.Given (fuel + 1) depth cs rest := by
  induction h generalizing fuel with
  | string h =>
    show value (fuel + 1) _ _ = _
    rw [value, h]
    rfl
  | word h => exact value_of_word h
  | number h => exact value_of_number h fuel _
  | emptyList h =>
    show value (fuel + 1) _ _ = _
    rw [value]
    dsimp only
    rw [h]
    rfl
  | @list depth cs rest vs h ih =>
    have hskip := skipGap_length_le cs
    simp only [Part.kind, PartKind.fuelBehind, List.length_cons] at hfuel ih
    obtain ⟨fuel, rfl⟩ : ∃ n, fuel = n + 1 := Nat.exists_eq_add_of_le' (by omega)
    have hitems : items (fuel + 1) depth (skipGap cs) = .ok (vs, rest) := ih (by omega)
    show value (fuel + 2) _ _ = _
    rw [value_list, hitems]
    · rfl
    · obtain ⟨c, more, hhead, -, hbracket⟩ := items_head hitems
      rw [hhead]
      rintro more heq
      cases heq
      exact hbracket rfl
  | emptyObject h =>
    show value (fuel + 1) _ _ = _
    rw [value]
    dsimp only
    rw [h]
    rfl
  | @object depth cs rest fs h ih =>
    have hskip := skipGap_length_le cs
    simp only [Part.kind, PartKind.fuelBehind, List.length_cons] at hfuel ih
    obtain ⟨fuel, rfl⟩ : ∃ n, fuel = n + 1 := Nat.exists_eq_add_of_le' (by omega)
    have hfields : fields (fuel + 1) depth (skipGap cs) = .ok (fs, rest) := ih (by omega)
    show value (fuel + 2) _ _ = _
    rw [value_object, hfields]
    · rfl
    · intro more hclose
      rw [hclose] at h
      cases h
  | @lastItem depth cs behind rest v h hclose ih =>
    simp only [Part.kind, PartKind.fuelBehind] at hfuel ih
    obtain ⟨fuel, rfl⟩ : ∃ n, fuel = n + 1 := Nat.exists_eq_add_of_le' (by omega)
    exact items_last (ih (by omega)) hclose
  | @item depth cs behind more rest v vs h hcomma hmore ih ihmore =>
    have hmoreLength := (skipGap_length_lt hcomma).trans h.length_lt
    simp only [Part.kind, PartKind.fuelBehind] at hfuel ih ihmore
    obtain ⟨fuel, rfl⟩ : ∃ n, fuel = n + 1 := Nat.exists_eq_add_of_le' (by omega)
    have hitems : items (fuel + 1) depth (skipGap more) = .ok (vs, rest) := ihmore (by omega)
    show items (fuel + 2) _ _ = _
    rw [items_more (ih (by omega)) hcomma, hitems]
    rfl
  | @lastField depth cs afterKey inside behind rest key v hkey hcolon h hclose ih =>
    have hinside := (skipGap_length_lt hcolon).trans (stringBody_length_lt hkey)
    simp only [Part.kind, PartKind.fuelBehind, List.length_cons] at hfuel ih
    obtain ⟨fuel, rfl⟩ : ∃ n, fuel = n + 1 := Nat.exists_eq_add_of_le' (by omega)
    exact fields_last hkey hcolon (ih (by omega)) hclose
  | @field depth cs afterKey inside behind more rest key v fs hkey hcolon h hcomma hmore ih ihmore =>
    have hinside := (skipGap_length_lt hcolon).trans (stringBody_length_lt hkey)
    have hmoreLength := (skipGap_length_lt hcomma).trans h.length_lt
    simp only [Part.kind, PartKind.fuelBehind, List.length_cons] at hfuel ih ihmore
    obtain ⟨fuel, rfl⟩ : ∃ n, fuel = n + 1 := Nat.exists_eq_add_of_le' (by omega)
    have hfields : fields (fuel + 1) depth (skipGap more) = .ok (fs, rest) := ihmore (by omega)
    show fields (fuel + 2) _ _ = _
    rw [fields_more hkey hcolon (ih (by omega)) hcomma, hfields]
    rfl

/-! ## Nesting -/

theorem fieldsTooDeep?_eq_none_iff {fs : List (String × Json)} :
    fieldsTooDeep? depth fs = none ↔ ∀ e ∈ fs, e.2.tooDeep? depth = none := by
  induction fs with
  | nil => simp [fieldsTooDeep?]
  | cons e fs ih =>
    obtain ⟨k, v⟩ := e
    rw [fieldsTooDeep?, Option.or_eq_none_iff, List.forall_mem_cons, ih]

theorem tooDeep?_of_word (h : word? cs = some (v, rest)) : v.tooDeep? depth = none := by
  unfold word? at h
  obtain ⟨⟨w, found⟩, hmem, hv⟩ := List.exists_of_findSome?_eq_some h
  have hflat : ∀ e ∈ words, e.2.tooDeep? depth = none := by simp [words, tooDeep?]
  dsimp only at hv
  split at hv
  · cases hv
    exact hflat _ hmem
  · cases hv

theorem tooDeep?_of_number (h : number cs = .ok (v, rest)) : v.tooDeep? depth = none := by
  unfold number at h
  dsimp only at h
  split at h
  · cases h
  · split at h
    · split at h
      · cases h
      · cases h
        rfl
    · cases h
      rfl

/-- Nothing in a part is nested deeper than some levels. -/
def Part.IsWithin (depth : Nat) : Part → Prop
  | .value v => v.tooDeep? depth = none
  | .items vs => itemsTooDeep? depth vs = none
  | .fields fs => fieldsTooDeep? depth fs = none

/-- No list or object of a part is nested deeper than levels are left. -/
theorem Reads.isWithin {part : Part} (h : Reads depth cs part rest) : part.IsWithin depth := by
  induction h with
  | string h => rfl
  | word h => exact tooDeep?_of_word h
  | number h => exact tooDeep?_of_number h
  | emptyList h => rfl
  | list h ih => exact ih
  | emptyObject h => rfl
  | object h ih =>
    rw [Part.IsWithin, fieldsTooDeep?_eq_none_iff] at ih
    exact fieldsTooDeep?_eq_none_iff.2 fun e he => ih e (Table.mem_ofList he)
  | lastItem h hclose ih => exact Option.or_eq_none_iff.2 ⟨ih, rfl⟩
  | item h hcomma hmore ih ihmore => exact Option.or_eq_none_iff.2 ⟨ih, ihmore⟩
  | lastField hkey hcolon h hclose ih => exact Option.or_eq_none_iff.2 ⟨ih, rfl⟩
  | field hkey hcolon h hcomma hmore ih ihmore => exact Option.or_eq_none_iff.2 ⟨ih, ihmore⟩

/-! ## Whole texts -/

/-- A text without a byte order mark is read as the value in front of it, with white space around it. -/
theorem readChars_eq (hmark : cs.head? ≠ some '\ufeff') : readChars cs =
    (value (2 * (skipGap cs).length + 2) nestingLimit (skipGap cs)).bind fun found =>
      match skipGap found.2 with
      | [] => .ok found.1
      | rest => .error (.fault .extraData rest.length) := by
  unfold readChars
  split
  · exact absurd rfl hmark
  · rfl

theorem readChars_marked (more : List Char) :
    readChars ('\ufeff' :: more) = .error (.fault .byteOrderMark (more.length + 1)) := rfl

theorem Reads.not_marked {more : List Char} : ¬ Reads depth ('\ufeff' :: more) (.value v) rest := by
  intro h
  obtain ⟨c, tail, heq, -, -, hmark⟩ := value_head (h.given (Nat.le_refl _))
  cases heq
  exact hmark rfl

/-- The values that whole texts denote. -/
theorem readChars_eq_ok_iff : readChars cs = .ok v ↔
    ∃ rest, Reads nestingLimit (skipGap cs) (.value v) rest ∧ skipGap rest = [] := by
  by_cases hmark : cs.head? = some '\ufeff'
  · obtain ⟨more, rfl⟩ := List.head?_eq_some_iff.1 hmark
    have hskip : skipGap ('\ufeff' :: more) = '\ufeff' :: more := skipGap_cons (by decide) more
    rw [readChars_marked, hskip]
    refine iff_of_false (fun h => nomatch h) ?_
    rintro ⟨rest, hreads, -⟩
    exact hreads.not_marked
  · rw [readChars_eq hmark]
    constructor
    · intro h
      cases hvalue : value (2 * (skipGap cs).length + 2) nestingLimit (skipGap cs) with
      | error stop =>
        rw [hvalue] at h
        cases h
      | ok found =>
        rw [hvalue] at h
        simp only [Except.bind] at h
        split at h
        · rename_i hend
          cases h
          exact ⟨found.2, reads_of_value hvalue, hend⟩
        · cases h
    · rintro ⟨rest, hreads, hend⟩
      have hvalue : value (2 * (skipGap cs).length + 2) nestingLimit (skipGap cs) = .ok (v, rest) :=
        hreads.given (Nat.le_succ _)
      simp only [hvalue, Except.bind, hend]

theorem read_eq_ok_iff {text : String} : read text = .ok v ↔
    ∃ rest, Reads nestingLimit (skipGap text.toList) (.value v) rest ∧ skipGap rest = [] := by
  rw [← readChars_eq_ok_iff]
  unfold read
  cases readChars text.toList <;> simp

theorem read_compact_of_read {text : String} (h : read text = .ok v) : read v.compact = .ok v := by
  have hproper := proper_of_read h
  obtain ⟨rest, hreads, -⟩ := read_eq_ok_iff.1 h
  rw [compact, read_opened _ (short_of_proper v hproper) hreads.isWithin, merged_of_proper v hproper]

end Gamebook.Json
