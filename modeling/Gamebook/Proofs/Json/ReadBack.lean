import Gamebook.Proofs.Json.Depth
import Gamebook.Proofs.Json.Number
import Gamebook.Proofs.Json.Proper

/-!
# JSON texts read back

* `stringBody_stringChars` : the characters of a text are read as the text.
* `readsValues`           : the characters of a value, in any layout and at any level, are read as the
  value, its repeated keys merged.
* `read_opened`           : so is its text, when the reader can open all of it.
* `read_write`            : the text of a value without repeated keys is read as the value.

The induction is on the value.  What follows a value in its text never continues a number, and a value
never begins with white space or a closing bracket, so that the reader meets the same marks that were
written.
-/

set_option autoImplicit false

namespace Gamebook.Json

/-! ## Strings -/

section Strings

attribute [local simp] pieces joinPieces

theorem radixDigit?_digitChar : ∀ d, d < 16 → Text.radixDigit? 16 d.digitChar = some d := by
  decide

theorem hexUnit?_digits {n : Nat} (hn : n < 65536) :
    hexUnit? (Nat.digitChar (n / 4096 % 16)) (Nat.digitChar (n / 256 % 16))
      (Nat.digitChar (n / 16 % 16)) (Nat.digitChar (n % 16)) = some n := by
  unfold hexUnit?
  rw [radixDigit?_digitChar _ (Nat.mod_lt _ (by omega)),
    radixDigit?_digitChar _ (Nat.mod_lt _ (by omega)),
    radixDigit?_digitChar _ (Nat.mod_lt _ (by omega)),
    radixDigit?_digitChar _ (Nat.mod_lt _ (by omega))]
  simp only [bind, Option.bind, pure, Option.some.injEq]
  omega

theorem pieces_unitEscape {body tail rest : List Char} {ps : List Piece} {n : Nat}
    (hn : n < 65536) (htail : tail ≠ []) (h : pieces body tail = .ok (ps, rest)) :
    pieces body (unitEscape n ++ tail) = .ok (.unit n :: ps, rest) := by
  obtain ⟨next, more, rfl⟩ := List.exists_cons_of_ne_nil htail
  unfold unitEscape
  simp only [List.cons_append, List.nil_append]
  rw [pieces]
  · rw [h]
    rfl
  · exact hexUnit?_digits hn

theorem joinPieces_unit {n : Nat} (hn : n < 0xd800 ∨ 0xe000 ≤ n) (ps : List Piece) :
    joinPieces (.unit n :: ps) = Char.ofNat n :: joinPieces ps := by
  cases ps with
  | nil =>
    simp only [joinPieces]
    rw [if_neg (by omega)]
  | cons p ps =>
    cases p with
    | char c =>
      simp only [joinPieces]
      rw [if_neg (by omega)]
    | unit low =>
      simp only [joinPieces]
      rw [if_neg (by omega), if_neg (by omega)]

theorem joinPieces_pair {high low : Nat} (hhigh : 0xd800 ≤ high ∧ high < 0xdc00)
    (hlow : 0xdc00 ≤ low ∧ low < 0xe000) (ps : List Piece) :
    joinPieces (.unit high :: .unit low :: ps) =
      Char.ofNat (0x10000 + (high - 0xd800) * 0x400 + (low - 0xdc00)) :: joinPieces ps := by
  simp only [joinPieces]
  rw [if_pos ⟨hhigh.1, hhigh.2, hlow.1, hlow.2⟩]

theorem pieces_plain {body tail rest : List Char} {ps : List Piece} {c : Char} (hquote : c ≠ '"')
    (hmark : c ≠ '\\') (hcontrol : ¬ c.toNat < 0x20) (h : pieces body tail = .ok (ps, rest)) :
    pieces body (c :: tail) = .ok (.char c :: ps, rest) := by
  rw [pieces]
  · rw [if_neg hcontrol, h]
    rfl
  all_goals grind

/-- A character that is written by a letter behind the escape mark. -/
theorem pieces_shortEscape {body tail rest : List Char} {ps : List Piece} {e c : Char}
    (he : shortEscape? e = some c) (h : pieces body tail = .ok (ps, rest)) :
    pieces body ('\\' :: e :: tail) = .ok (.char c :: ps, rest) := by
  have hu : e ≠ 'u' := by
    rintro rfl
    cases he
  rw [pieces]
  · rw [he, h]
    rfl
  all_goals grind

theorem toNat_bounds (c : Char) : c.toNat < 0xd800 ∨ 0xe000 ≤ c.toNat ∧ c.toNat < 0x110000 := by
  have hvalid := c.valid
  simp only [UInt32.isValidChar, Nat.isValidChar] at hvalid
  simp only [Char.toNat]
  omega

/-- Beyond the first plane a character is a pair of units. -/
theorem pieces_pair {n : Nat} (hlow : 0x10000 ≤ n) (hhigh : n < 0x110000) {body tail rest : List Char}
    {ps : List Piece} (htail : tail ≠ []) (h : pieces body tail = .ok (ps, rest)) :
    ∃ qs, pieces body (unitEscape (0xd800 + (n - 0x10000) / 0x400) ++
        unitEscape (0xdc00 + (n - 0x10000) % 0x400) ++ tail) = .ok (qs, rest) ∧
      joinPieces qs = Char.ofNat n :: joinPieces ps := by
  have hsecond := pieces_unitEscape (n := 0xdc00 + (n - 0x10000) % 0x400) (by omega) htail h
  have hne : unitEscape (0xdc00 + (n - 0x10000) % 0x400) ++ tail ≠ [] := by
    simp [unitEscape]
  have hfirst := pieces_unitEscape (n := 0xd800 + (n - 0x10000) / 0x400) (by omega) hne hsecond
  have hsum : 0x10000 + (0xd800 + (n - 0x10000) / 0x400 - 0xd800) * 0x400 +
      (0xdc00 + (n - 0x10000) % 0x400 - 0xdc00) = n := by omega
  refine ⟨_, by rw [List.append_assoc]; exact hfirst, ?_⟩
  rw [joinPieces_pair (by omega) (by omega), hsum]

theorem pieces_stringChar (asciiOnly : Bool) (c : Char) {body tail rest : List Char}
    {ps : List Piece} (htail : tail ≠ []) (h : pieces body tail = .ok (ps, rest)) :
    ∃ qs, pieces body (stringChar asciiOnly c ++ tail) = .ok (qs, rest) ∧
      joinPieces qs = c :: joinPieces ps := by
  have hbounds := toNat_bounds c
  have hself : Char.ofNat c.toNat = c := Char.ofNat_toNat c
  have hshort (e : Char) (he : shortEscape? e = some c) :
      ∃ qs, pieces body (['\\', e] ++ tail) = .ok (qs, rest) ∧
        joinPieces qs = c :: joinPieces ps :=
    ⟨_, pieces_shortEscape he h, by simp⟩
  unfold stringChar
  simp only [beq_iff_eq]
  by_cases hquote : c = '"'
  · rw [if_pos hquote]
    exact hshort '"' (by rw [hquote]; rfl)
  rw [if_neg hquote]
  by_cases hmark : c = '\\'
  · rw [if_pos hmark]
    exact hshort '\\' (by rw [hmark]; rfl)
  rw [if_neg hmark]
  by_cases hfeed : c = '\n'
  · rw [if_pos hfeed]
    exact hshort 'n' (by rw [hfeed]; rfl)
  rw [if_neg hfeed]
  by_cases hreturn : c = '\r'
  · rw [if_pos hreturn]
    exact hshort 'r' (by rw [hreturn]; rfl)
  rw [if_neg hreturn]
  by_cases htab : c = '\t'
  · rw [if_pos htab]
    exact hshort 't' (by rw [htab]; rfl)
  rw [if_neg htab]
  by_cases hform : c = '\x0c'
  · rw [if_pos hform]
    exact hshort 'f' (by rw [hform]; rfl)
  rw [if_neg hform]
  by_cases hback : c = '\x08'
  · rw [if_pos hback]
    exact hshort 'b' (by rw [hback]; rfl)
  rw [if_neg hback]
  by_cases hcontrol : c.toNat < 0x20
  · rw [if_pos hcontrol]
    refine ⟨_, pieces_unitEscape (by omega) htail h, ?_⟩
    rw [joinPieces_unit (by omega), hself]
  rw [if_neg hcontrol]
  by_cases hascii : (asciiOnly && decide (0x7e < c.toNat)) = true
  · rw [if_pos hascii]
    by_cases hplane : c.toNat < 0x10000
    · rw [if_pos hplane]
      refine ⟨_, pieces_unitEscape (by omega) htail h, ?_⟩
      rw [joinPieces_unit (by omega), hself]
    · rw [if_neg hplane]
      obtain ⟨qs, hqs, hjoin⟩ := pieces_pair (Nat.le_of_not_lt hplane) (by omega) htail h
      exact ⟨qs, hqs, by rw [hjoin, hself]⟩
  · rw [if_neg hascii]
    exact ⟨_, pieces_plain hquote hmark hcontrol h, by simp⟩

/-- The characters of a text are read as the text. -/
theorem stringBody_stringChars (asciiOnly : Bool) (s : String) (rest : List Char) :
    stringBody (s.toList.flatMap (stringChar asciiOnly) ++ '"' :: rest) = .ok (s, rest) := by
  have hpieces (body : List Char) (cs : List Char) :
      ∃ ps, pieces body (cs.flatMap (stringChar asciiOnly) ++ '"' :: rest) = .ok (ps, rest) ∧
        joinPieces ps = cs := by
    induction cs with
    | nil => exact ⟨[], by simp, rfl⟩
    | cons c cs ih =>
      obtain ⟨ps, hps, hjoin⟩ := ih
      obtain ⟨qs, hqs, hcons⟩ := pieces_stringChar asciiOnly c (by simp) hps
      exact ⟨qs, by rw [List.flatMap_cons, List.append_assoc]; exact hqs, by rw [hcons, hjoin]⟩
  obtain ⟨ps, hps, hjoin⟩ := hpieces (s.toList.flatMap (stringChar asciiOnly) ++ '"' :: rest) s.toList
  unfold stringBody
  rw [hps]
  simp only [bind, Except.bind, pure, Except.pure, hjoin, String.ofList_toList]

end Strings

/-! ## The front of a value -/

theorem wholePart?_head {cs : List Char} {p : List Char × List Char} (h : wholePart? cs = some p) :
    ∃ c more, c.isDigit = true ∧ cs = c :: more := by
  unfold wholePart? at h
  split at h
  · exact ⟨'0', _, rfl, rfl⟩
  · split at h
    · rename_i hdigit
      exact ⟨_, _, hdigit, rfl⟩
    · cases h
  · cases h

/-- What is read as a number begins with a digit, perhaps behind a sign. -/
theorem number_head {cs : List Char} {p : Json × List Char} (h : number cs = .ok p) :
    ∃ negative c more, c.isDigit = true ∧ cs = signChars negative ++ c :: more := by
  cases cs with
  | nil => cases h
  | cons c cs =>
    by_cases hminus : c = '-'
    · subst hminus
      cases hwhole : wholePart? cs with
      | none =>
        unfold number at h
        simp only [hwhole] at h
        cases h
      | some found =>
        obtain ⟨d, more, hdigit, rfl⟩ := wholePart?_head hwhole
        exact ⟨true, d, more, hdigit, rfl⟩
    · cases hwhole : wholePart? (c :: cs) with
      | none =>
        unfold number at h
        dsimp only at h
        split at h
        · cases h
        · rename_i hsome
          split at hsome
          · rename_i heq
            cases heq
            exact absurd rfl hminus
          · rw [hwhole] at hsome
            cases hsome
      | some found =>
        obtain ⟨d, more, hdigit, heq⟩ := wholePart?_head hwhole
        exact ⟨false, d, more, hdigit, heq⟩

theorem digit_ne {c d : Char} (hc : c.isDigit = true) (hd : d.isDigit = false) : c ≠ d := by
  rintro rfl
  rw [hc] at hd
  cases hd

theorem word?_number (negative : Bool) {c : Char} (hc : c.isDigit = true) (more : List Char) :
    word? (signChars negative ++ c :: more) = none := by
  have hn := digit_ne hc (show Char.isDigit 'n' = false from rfl)
  have ht := digit_ne hc (show Char.isDigit 't' = false from rfl)
  have hf := digit_ne hc (show Char.isDigit 'f' = false from rfl)
  have hN := digit_ne hc (show Char.isDigit 'N' = false from rfl)
  have hI := digit_ne hc (show Char.isDigit 'I' = false from rfl)
  have hminus := digit_ne hc (show Char.isDigit '-' = false from rfl)
  cases negative <;>
    simp [word?, words, signChars, hn.symm, ht.symm, hf.symm, hN.symm, hI.symm, hminus.symm]

/-- What begins as a number, perhaps behind a sign, is read as a number. -/
theorem value_eq_number (negative : Bool) {c : Char} (hc : c.isDigit = true) (more : List Char)
    (fuel depth : Nat) :
    value (fuel + 1) depth (signChars negative ++ c :: more) = number (signChars negative ++ c :: more) := by
  have hquote := digit_ne hc (show Char.isDigit '"' = false from rfl)
  have hbracket := digit_ne hc (show Char.isDigit '[' = false from rfl)
  have hbrace := digit_ne hc (show Char.isDigit '\x7b' = false from rfl)
  have hword := word?_number negative hc more
  cases negative with
  | true =>
    simp only [signChars, if_true, List.singleton_append] at hword ⊢
    rw [value]
    · simp only [hword]
    all_goals grind
  | false =>
    simp only [signChars, Bool.false_eq_true, if_false, List.nil_append] at hword ⊢
    rw [value]
    · simp only [hword]
    all_goals grind

theorem value_of_number {cs : List Char} {p : Json × List Char} (h : number cs = .ok p)
    (fuel depth : Nat) : value (fuel + 1) depth cs = .ok p := by
  obtain ⟨negative, c, more, hc, rfl⟩ := number_head h
  rw [value_eq_number negative hc, h]

theorem skipGap_cons {c : Char} (h : isGap c = false) (cs : List Char) :
    skipGap (c :: cs) = c :: cs := by
  unfold skipGap
  rw [List.dropWhile_cons, if_neg (by rw [h]; decide)]

theorem skipGap_append {gap : List Char} (h : ∀ c ∈ gap, isGap c = true) (cs : List Char) :
    skipGap (gap ++ cs) = skipGap cs := List.dropWhile_append_of_pos h

/-- What is read as a value begins with neither white space nor a closing bracket nor a byte order
mark. -/
theorem value_head {fuel depth : Nat} {cs : List Char} {p : Json × List Char}
    (h : value fuel depth cs = .ok p) :
    ∃ c more, cs = c :: more ∧ isGap c = false ∧ c ≠ ']' ∧ c ≠ '\ufeff' := by
  cases fuel with
  | zero => cases h
  | succ fuel =>
    cases cs with
    | nil => cases h
    | cons c more =>
      refine ⟨c, more, rfl, ?_, ?_, ?_⟩
      · cases hgap : isGap c with
        | false => rfl
        | true =>
          simp only [isGap, Bool.or_eq_true, beq_iff_eq] at hgap
          rcases hgap with ((rfl | rfl) | rfl) | rfl <;> cases h
      · rintro rfl
        cases h
      · rintro rfl
        cases h

/-- What is read as items begins with neither white space nor a closing bracket. -/
theorem items_head {fuel depth : Nat} {cs : List Char} {p : List Json × List Char}
    (h : items fuel depth cs = .ok p) : ∃ c more, cs = c :: more ∧ isGap c = false ∧ c ≠ ']' := by
  cases fuel with
  | zero => cases h
  | succ fuel =>
    cases hvalue : value fuel depth cs with
    | error stop =>
      rw [items, hvalue] at h
      cases h
    | ok found =>
      obtain ⟨c, more, hcs, hgap, hbracket, -⟩ := value_head hvalue
      exact ⟨c, more, hcs, hgap, hbracket⟩

/-! ## Layouts -/

theorem isGap_lineBreak (layout : JsonLayout) (level : Nat) :
    ∀ c ∈ lineBreak layout level, isGap c = true := by
  intro c hc
  unfold lineBreak at hc
  split at hc
  · cases hc
  · rcases List.mem_cons.1 hc with rfl | hc
    · rfl
    · rw [List.eq_of_mem_replicate hc]
      rfl

/-- The mark between items is a comma and white space. -/
theorem itemMark_eq (layout : JsonLayout) (level : Nat) :
    ∃ gap, itemMark layout level = ',' :: gap ∧ ∀ c ∈ gap, isGap c = true := by
  unfold itemMark
  split
  · exact ⟨[' '], rfl, by simp [isGap]⟩
  · exact ⟨lineBreak layout level, rfl, isGap_lineBreak layout level⟩

theorem bounded_gap {gap : List Char} (h : ∀ c ∈ gap, isGap c = true) {cs : List Char}
    (hcs : Bounded cs) : Bounded (gap ++ cs) := by
  cases gap with
  | nil => exact hcs
  | cons c gap =>
    have hc := h c List.mem_cons_self
    simp only [isGap, Bool.or_eq_true, beq_iff_eq] at hc
    rcases hc with ((rfl | rfl) | rfl) | rfl <;> exact bounded_cons (by decide)

theorem bounded_items (layout : JsonLayout) (level : Nat) (vs : List Json) {cs : List Char}
    (hcs : Bounded cs) : Bounded (itemsChars layout level vs ++ cs) := by
  cases vs with
  | nil => exact hcs
  | cons v vs =>
    obtain ⟨gap, hmark, -⟩ := itemMark_eq layout level
    rw [itemsChars, hmark]
    exact bounded_cons (by decide)

theorem bounded_fields (layout : JsonLayout) (level : Nat) (fields : List (String × Json))
    {cs : List Char} (hcs : Bounded cs) : Bounded (fieldsChars layout level fields ++ cs) := by
  cases fields with
  | nil => exact hcs
  | cons e fields =>
    obtain ⟨gap, hmark, -⟩ := itemMark_eq layout level
    rw [fieldsChars, hmark]
    exact bounded_cons (by decide)

/-! ## Repeated keys -/

mutual
/-- No whole number has more digits than are read. -/
def Short : Json → Prop
  | .int n => (Nat.repr n.natAbs).length ≤ digitLimit
  | .arr items => ShortItems items
  | .obj fields => ShortFields fields
  | _ => True

def ShortItems : List Json → Prop
  | [] => True
  | v :: rest => Short v ∧ ShortItems rest

def ShortFields : List (String × Json) → Prop
  | [] => True
  | (_, v) :: rest => Short v ∧ ShortFields rest
end

mutual
/-- The value in which a repeated key has its first place and its last value. -/
def merged : Json → Json
  | .arr items => .arr (mergedItems items)
  | .obj fields => .obj (Table.ofList (mergedFields fields))
  | v => v

def mergedItems : List Json → List Json
  | [] => []
  | v :: rest => merged v :: mergedItems rest

def mergedFields : List (String × Json) → List (String × Json)
  | [] => []
  | (k, v) :: rest => (k, merged v) :: mergedFields rest
end

@[simp] theorem keys_mergedFields (fields : List (String × Json)) :
    Table.keys (mergedFields fields) = Table.keys fields := by
  induction fields with
  | nil => rfl
  | cons e rest ih => rw [mergedFields, Table.keys_cons, Table.keys_cons, ih]

mutual
theorem short_of_proper : ∀ v : Json, v.Proper → v.Short
  | .null, _ => trivial
  | .bool _, _ => trivial
  | .int _, h => h
  | .float _, _ => trivial
  | .str _, _ => trivial
  | .arr items, h => shortItems_of_proper items h
  | .obj fields, h => shortFields_of_proper fields h.2

theorem shortItems_of_proper : ∀ items : List Json, ProperItems items → ShortItems items
  | [], _ => trivial
  | v :: rest, h => ⟨short_of_proper v h.1, shortItems_of_proper rest h.2⟩

theorem shortFields_of_proper : ∀ fields : List (String × Json),
    ProperFields fields → ShortFields fields
  | [], _ => trivial
  | (_, v) :: rest, h => ⟨short_of_proper v h.1, shortFields_of_proper rest h.2⟩
end

mutual
/-- Without repeated keys there is nothing to merge. -/
theorem merged_of_proper : ∀ v : Json, v.Proper → v.merged = v
  | .null, _ => rfl
  | .bool _, _ => rfl
  | .int _, _ => rfl
  | .float _, _ => rfl
  | .str _, _ => rfl
  | .arr items, h => by rw [merged, mergedItems_of_proper items h]
  | .obj fields, h => by
    rw [merged, mergedFields_of_proper fields h.2, Table.ofList_of_nodup h.1]

theorem mergedItems_of_proper : ∀ items : List Json, ProperItems items → mergedItems items = items
  | [], _ => rfl
  | v :: rest, h => by rw [mergedItems, merged_of_proper v h.1, mergedItems_of_proper rest h.2]

theorem mergedFields_of_proper : ∀ fields : List (String × Json),
    ProperFields fields → mergedFields fields = fields
  | [], _ => rfl
  | (k, v) :: rest, h => by
    rw [mergedFields, merged_of_proper v h.1, mergedFields_of_proper rest h.2]
end

/-! ## Values -/

mutual
/-- The fuel that reading a value takes. -/
def fuelFor : Json → Nat
  | .arr items => 1 + fuelForItems items
  | .obj fields => 1 + fuelForFields fields
  | _ => 1

/-- The fuel that reading the items of a list takes. -/
def fuelForItems : List Json → Nat
  | [] => 0
  | v :: rest => 1 + fuelFor v + fuelForItems rest

/-- The fuel that reading the fields of an object takes. -/
def fuelForFields : List (String × Json) → Nat
  | [] => 0
  | (_, v) :: rest => 1 + fuelFor v + fuelForFields rest
end

/-- White space in front of a value is skipped, and nothing of the value. -/
theorem skipGap_value {gap cs : List Char} (hgap : ∀ c ∈ gap, isGap c = true) {fuel depth : Nat}
    {p : Json × List Char} (h : value fuel depth cs = .ok p) : skipGap (gap ++ cs) = cs := by
  obtain ⟨c, more, rfl, hc, -⟩ := value_head h
  rw [skipGap_append hgap, skipGap_cons hc]

section Reading

variable (layout : JsonLayout)

/-- With this fuel every value is read from its characters, its repeated keys merged. -/
def ReadsValues (fuel : Nat) : Prop :=
  ∀ (v : Json) (depth level : Nat) (rest : List Char), fuelFor v ≤ fuel → v.Short →
    v.tooDeep? depth = none → Bounded rest →
      value fuel depth (chars layout level v ++ rest) = .ok (v.merged, rest)

/-- With this fuel the items of every list are read up to its closing bracket. -/
def ReadsItems (fuel : Nat) : Prop :=
  ∀ (v : Json) (vs : List Json) (depth level : Nat) (gap rest : List Char),
    fuelForItems (v :: vs) ≤ fuel → ShortItems (v :: vs) → itemsTooDeep? depth (v :: vs) = none →
    (∀ c ∈ gap, isGap c = true) →
      items fuel depth
        (chars layout level v ++ (itemsChars layout level vs ++ (gap ++ ']' :: rest))) =
        .ok (mergedItems (v :: vs), rest)

/-- With this fuel the fields of every object are read up to its closing brace. -/
def ReadsFields (fuel : Nat) : Prop :=
  ∀ (k : String) (v : Json) (fs : List (String × Json)) (depth level : Nat) (gap rest : List Char),
    fuelForFields ((k, v) :: fs) ≤ fuel → ShortFields ((k, v) :: fs) →
    fieldsTooDeep? depth ((k, v) :: fs) = none → (∀ c ∈ gap, isGap c = true) →
      fields fuel depth
        (stringChars layout.asciiOnly k ++ (':' :: ' ' :: (chars layout level v ++
          (fieldsChars layout level fs ++ (gap ++ '\x7d' :: rest))))) =
        .ok (mergedFields ((k, v) :: fs), rest)

variable {layout} {fuel : Nat}

theorem readsItems_step (hvalues : ReadsValues layout fuel) (hitems : ReadsItems layout fuel) :
    ReadsItems layout (fuel + 1) := by
  intro v vs depth level gap rest hfuel hv hdepth hgap
  simp only [fuelForItems] at hfuel
  simp only [ShortItems] at hv
  rw [itemsTooDeep?, Option.or_eq_none_iff] at hdepth
  have hclose : Bounded (gap ++ ']' :: rest) := bounded_gap hgap (bounded_cons (by decide))
  have hfirst := hvalues v depth level (itemsChars layout level vs ++ (gap ++ ']' :: rest))
    (by omega) hv.1 hdepth.1 (bounded_items layout level vs hclose)
  rw [items, hfirst]
  simp only [bind, Except.bind]
  cases vs with
  | nil =>
    simp only [itemsChars, List.nil_append]
    rw [skipGap_append hgap, skipGap_cons (by decide)]
    rfl
  | cons w ws =>
    obtain ⟨mark, hmark, hwhite⟩ := itemMark_eq layout level
    have hmore := hitems w ws depth level gap rest (by simp only [fuelForItems] at hfuel ⊢; omega)
      hv.2 hdepth.2 hgap
    have hsecond := hvalues w depth level (itemsChars layout level ws ++ (gap ++ ']' :: rest))
      (by simp only [fuelForItems] at hfuel; omega) hv.2.1
      (Option.or_eq_none_iff.1 hdepth.2).1
      (bounded_items layout level ws hclose)
    simp only [itemsChars, hmark, List.cons_append, List.append_assoc]
    rw [skipGap_cons (by decide)]
    simp only [skipGap_value hwhite hsecond, hmore]
    rfl

theorem readsFields_step (hvalues : ReadsValues layout fuel) (hfields : ReadsFields layout fuel) :
    ReadsFields layout (fuel + 1) := by
  intro k v fs depth level gap rest hfuel hv hdepth hgap
  simp only [fuelForFields] at hfuel
  simp only [ShortFields] at hv
  rw [fieldsTooDeep?, Option.or_eq_none_iff] at hdepth
  have hclose : Bounded (gap ++ '\x7d' :: rest) := bounded_gap hgap (bounded_cons (by decide))
  have hfirst := hvalues v depth level (fieldsChars layout level fs ++ (gap ++ '\x7d' :: rest))
    (by omega) hv.1 hdepth.1 (bounded_fields layout level fs hclose)
  have hblank : ∀ c ∈ [' '], isGap c = true := by simp [isGap]
  rw [stringChars]
  simp only [List.cons_append, List.append_assoc, List.nil_append]
  rw [fields, stringBody_stringChars]
  simp only [bind, Except.bind]
  have hskip := skipGap_value hblank hfirst
  rw [List.singleton_append] at hskip
  rw [skipGap_cons (by decide)]
  simp only [hskip, hfirst]
  cases fs with
  | nil =>
    simp only [fieldsChars, List.nil_append]
    rw [skipGap_append hgap, skipGap_cons (by decide)]
    rfl
  | cons e es =>
    obtain ⟨l, w⟩ := e
    obtain ⟨mark, hmark, hwhite⟩ := itemMark_eq layout level
    have hmore := hfields l w es depth level gap rest
      (by simp only [fuelForFields] at hfuel ⊢; omega) hv.2 hdepth.2 hgap
    simp only [fieldsChars, hmark, List.cons_append, List.append_assoc, List.nil_append] at hmore ⊢
    have hkey : stringChars layout.asciiOnly l =
        '"' :: (l.toList.flatMap (stringChar layout.asciiOnly) ++ ['"']) := rfl
    rw [hkey] at hmore ⊢
    simp only [List.cons_append] at hmore ⊢
    rw [skipGap_cons (by decide)]
    simp only [skipGap_append hwhite, skipGap_cons (show isGap '"' = false from rfl), hmore]
    rfl

/-- A list is read when its items are, one level further in. -/
theorem value_arr (hitems : ReadsItems layout fuel) (vs : List Json) (depth level : Nat)
    (rest : List Char) (hfuel : fuelFor (.arr vs) ≤ fuel + 1) (hv : (Json.arr vs).Short)
    (hdepth : (Json.arr vs).tooDeep? depth = none) :
    value (fuel + 1) depth (chars layout level (.arr vs) ++ rest) =
      .ok ((Json.arr vs).merged, rest) := by
  simp only [fuelFor] at hfuel
  simp only [Short] at hv
  obtain ⟨d, rfl, hdepth⟩ := tooDeep?_arr_eq_none hdepth
  cases vs with
  | nil =>
    rw [chars]
    rfl
  | cons v vs =>
    have hread := hitems v vs d (level + 1) (lineBreak layout level) rest (by omega) hv hdepth
      (isGap_lineBreak layout level)
    obtain ⟨c, more, hhead, hgap, hbracket⟩ := items_head hread
    rw [chars]
    simp only [List.cons_append, List.append_assoc, List.nil_append]
    rw [value]
    dsimp only
    rw [skipGap_append (isGap_lineBreak layout (level + 1))]
    rw [hhead] at hread ⊢
    rw [skipGap_cons hgap]
    split
    · rename_i heq
      cases heq
      exact absurd rfl hbracket
    · rw [hread]
      rfl

/-- An object is read when its fields are, as the table of them. -/
theorem value_obj (hfields : ReadsFields layout fuel) (fs : List (String × Json)) (depth level : Nat)
    (rest : List Char) (hfuel : fuelFor (.obj fs) ≤ fuel + 1) (hv : (Json.obj fs).Short)
    (hdepth : (Json.obj fs).tooDeep? depth = none) :
    value (fuel + 1) depth (chars layout level (.obj fs) ++ rest) =
      .ok ((Json.obj fs).merged, rest) := by
  simp only [fuelFor] at hfuel
  simp only [Short] at hv
  obtain ⟨d, rfl, hdepth⟩ := tooDeep?_obj_eq_none hdepth
  cases fs with
  | nil =>
    rw [chars]
    rfl
  | cons e fs =>
    obtain ⟨k, v⟩ := e
    have hread := hfields k v fs d (level + 1) (lineBreak layout level) rest (by omega) hv
      hdepth (isGap_lineBreak layout level)
    rw [chars]
    simp only [List.cons_append, List.append_assoc, List.nil_append, stringChars] at hread ⊢
    rw [value]
    dsimp only
    rw [skipGap_append (isGap_lineBreak layout (level + 1)), skipGap_cons (by decide)]
    split
    · rename_i heq
      cases heq
    · rw [hread]
      rfl

theorem readsValues_step (hitems : ReadsItems layout fuel) (hfields : ReadsFields layout fuel) :
    ReadsValues layout (fuel + 1) := by
  intro v depth level rest hfuel hv hdepth hrest
  cases v with
  | null =>
    rw [chars]
    rfl
  | bool b =>
    rw [chars]
    cases b <;> rfl
  | int n =>
    rw [chars]
    exact value_of_number (number_int hv hrest) fuel depth
  | float x =>
    rw [chars]
    cases x with
    | nan => rfl
    | infinite negative => cases negative <;> rfl
    | finite negative units hunits =>
      exact value_of_number (number_finiteText negative hunits hrest) fuel depth
  | str s =>
    rw [chars, stringChars]
    simp only [List.cons_append, List.append_assoc, List.nil_append]
    rw [value, stringBody_stringChars]
    rfl
  | arr vs => exact value_arr hitems vs depth level rest hfuel hv hdepth
  | obj fs => exact value_obj hfields fs depth level rest hfuel hv hdepth

/-- With enough fuel every value is read from its characters, its repeated keys merged. -/
theorem readsValues (layout : JsonLayout) (fuel : Nat) :
    ReadsValues layout fuel ∧ ReadsItems layout fuel ∧ ReadsFields layout fuel := by
  induction fuel with
  | zero =>
    refine ⟨?_, ?_, ?_⟩
    · intro v _ _ _ hfuel
      cases v <;> simp [fuelFor] at hfuel
    · intro v vs _ _ _ _ hfuel
      simp [fuelForItems] at hfuel
    · intro k v fs _ _ _ _ hfuel
      simp [fuelForFields] at hfuel
  | succ fuel ih =>
    obtain ⟨hvalues, hitems, hfields⟩ := ih
    exact ⟨readsValues_step hitems hfields, readsItems_step hvalues hitems,
      readsFields_step hvalues hfields⟩

end Reading

/-! ## Whole texts -/

mutual
/-- The text of a value is long enough to bound the fuel of its reading. -/
theorem fuelFor_le (layout : JsonLayout) (level : Nat) :
    ∀ v : Json, fuelFor v ≤ 2 * (chars layout level v).length
  | .null => by simp [fuelFor, chars]
  | .bool b => by cases b <;> simp [fuelFor, chars]
  | .int n => by
    have hpos : 0 < (Nat.repr n.natAbs).length := Nat.length_repr_pos
    simp only [fuelFor, chars, intText_toList, List.length_append, length_toList_repr]
    omega
  | .float x => by
    cases x with
    | nan => simp [fuelFor, chars, numberText]
    | infinite negative => cases negative <;> simp [fuelFor, chars, numberText]
    | finite negative units hunits =>
      have hread := number_finiteText negative hunits bounded_nil
      obtain ⟨sign, c, more, -, heq⟩ := number_head hread
      rw [List.append_nil] at heq
      simp only [fuelFor, chars, numberText, heq, List.length_append, List.length_cons]
      omega
  | .str s => by simp [fuelFor, chars, stringChars]; omega
  | .arr [] => by simp [fuelFor, fuelForItems, chars]
  | .arr (v :: vs) => by
    have hfirst := fuelFor_le layout (level + 1) v
    have hmore := fuelForItems_le layout (level + 1) vs
    simp only [fuelFor, fuelForItems, chars, List.length_append, List.length_cons]
    omega
  | .obj [] => by simp [fuelFor, fuelForFields, chars]
  | .obj ((k, v) :: fs) => by
    have hfirst := fuelFor_le layout (level + 1) v
    have hmore := fuelForFields_le layout (level + 1) fs
    simp only [fuelFor, fuelForFields, chars, List.length_append, List.length_cons]
    omega

theorem fuelForItems_le (layout : JsonLayout) (level : Nat) :
    ∀ vs : List Json, fuelForItems vs ≤ 2 * (itemsChars layout level vs).length
  | [] => by simp [fuelForItems]
  | v :: vs => by
    obtain ⟨gap, hmark, -⟩ := itemMark_eq layout level
    have hfirst := fuelFor_le layout level v
    have hmore := fuelForItems_le layout level vs
    simp only [fuelForItems, itemsChars, hmark, List.length_append, List.length_cons]
    omega

theorem fuelForFields_le (layout : JsonLayout) (level : Nat) :
    ∀ fs : List (String × Json), fuelForFields fs ≤ 2 * (fieldsChars layout level fs).length
  | [] => by simp [fuelForFields]
  | (k, v) :: fs => by
    obtain ⟨gap, hmark, -⟩ := itemMark_eq layout level
    have hfirst := fuelFor_le layout level v
    have hmore := fuelForFields_le layout level fs
    simp only [fuelForFields, fieldsChars, hmark, List.length_append, List.length_cons]
    omega
end

/-- The text of a value that the reader can open, in any layout, is read as the value, its repeated keys
merged. -/
theorem read_opened (layout : JsonLayout) {v : Json} (hshort : v.Short)
    (hdepth : v.tooDeep? nestingLimit = none) : read (write layout v) = .ok v.merged := by
  have hfuel := fuelFor_le layout 0 v
  have hvalue := (readsValues layout (2 * (chars layout 0 v).length + 2)).1 v nestingLimit 0 []
    (Nat.le_succ_of_le (Nat.le_succ_of_le hfuel)) hshort hdepth bounded_nil
  rw [List.append_nil] at hvalue
  obtain ⟨c, more, hcs, hgap, -, hmark⟩ := value_head hvalue
  have hchars : readChars (chars layout 0 v) = .ok v.merged := by
    rw [hcs] at hvalue ⊢
    unfold readChars
    split
    · rename_i heq
      cases heq
      exact absurd rfl hmark
    · simp only [skipGap_cons hgap, hvalue, bind, Except.bind]
      rfl
  unfold read write
  rw [String.toList_ofList, hchars]

theorem read_merged (layout : JsonLayout) {v : Json} (hshort : v.Short)
    (hdepth : v.isWithin nestingLimit = true) : read (write layout v) = .ok v.merged :=
  read_opened layout hshort (tooDeep?_of_isWithin v hdepth)

/-- The text of a value, in any layout, is read as the value. -/
theorem read_write (layout : JsonLayout) {v : Json} (hproper : v.Proper)
    (hdepth : v.isWithin nestingLimit = true) : read (write layout v) = .ok v := by
  rw [read_merged layout (short_of_proper v hproper) hdepth, merged_of_proper v hproper]

end Gamebook.Json
