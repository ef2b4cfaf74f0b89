import Gamebook.Proofs.Table
import Gamebook.Prose
import Mathlib.Data.List.Permutation

/-!
# One scan for the references

A text is gone through once from the left.  Where references to known variables start, the longest of them
is replaced by its value, and the scan goes on behind it; elsewhere a character is copied.  The references
are tried one after another, the longest first, so the first that fits is the longest; and two of one length
that fit at one place are the same.

* `Filled`          : a text and what becomes of it, by the rule.
* `variableToken_injective`, `eq_of_prefixes` : a reference names one variable.
* `firstReference?_eq_some`, `firstReference?_of_longest` : the reference that is replaced is the longest.
* `scan_covered`, `scan_hit`, `scan_miss` : one place of the scan.
* `filled_iff`      : the scan follows the rule, and nothing else does.
* `filledText_iff`  : the same for a text and variables that may be missing, in whatever order these are.
-/

set_option autoImplicit false

namespace Gamebook

/-- What becomes of a text when the longest reference to a known variable is replaced wherever one starts,
from the left; a value is not looked at again. -/
inductive Filled (known : String → Option String) : List Char → List Char → Prop where
  | nothing : Filled known [] []
  | replaced {name value : String} {rest out : List Char} : known name = some value →
    (∀ other, (known other).isSome → variableToken other <+: variableToken name ++ rest →
      (variableToken other).length ≤ (variableToken name).length) →
    Filled known rest out → Filled known (variableToken name ++ rest) (value.toList ++ out)
  | copied {c : Char} {rest out : List Char} :
    (∀ name, (known name).isSome → ¬ variableToken name <+: c :: rest) →
    Filled known rest out → Filled known (c :: rest) (c :: out)

/-! ## References -/

theorem variableToken_injective : Function.Injective variableToken := by
  intro a b h
  unfold variableToken at h
  simp only [List.cons_append, List.cons.injEq, List.append_left_inj, true_and] at h
  exact String.toList_injective h

theorem variableToken_eq_cons (name : String) :
    ∃ more, variableToken name = '$' :: more := ⟨_, rfl⟩

section References

variable {values : Table String} {t : List Char × List Char} {cs : List Char}

theorem mem_references : t ∈ references values ↔
    ∃ e ∈ values, (variableToken e.1, e.2.toList) = t := by
  unfold references
  rw [List.mem_mergeSort, List.mem_map]

/-- The longest reference stands first. -/
theorem pairwise_references (values : Table String) :
    (references values).Pairwise fun a b => b.1.length ≤ a.1.length := by
  refine (List.pairwise_mergeSort ?_ ?_ _).imp of_decide_eq_true
  · intro a b c hab hbc
    exact decide_eq_true (Nat.le_trans (of_decide_eq_true hbc) (of_decide_eq_true hab))
  · intro a b
    rw [Bool.or_eq_true, decide_eq_true_eq, decide_eq_true_eq]
    exact Nat.le_total _ _

theorem firstReference?_eq_none_iff : firstReference? (references values) cs = none ↔
    ∀ t ∈ references values, ¬ t.1 <+: cs := by
  unfold firstReference?
  simp only [List.find?_eq_none, List.isPrefixOf_iff_prefix]

/-- The reference that is replaced is the longest that starts here. -/
theorem firstReference?_eq_some (h : firstReference? (references values) cs = some t) :
    t ∈ references values ∧ t.1 <+: cs ∧
      ∀ u ∈ references values, u.1 <+: cs → u.1.length ≤ t.1.length := by
  have hordered := pairwise_references values
  obtain ⟨hstart, before, after, hsplit, hbefore⟩ := List.find?_eq_some_iff_append.1 h
  rw [hsplit] at hordered ⊢
  refine ⟨List.mem_append_right _ List.mem_cons_self, List.isPrefixOf_iff_prefix.1 hstart,
    fun u hu hstarts => ?_⟩
  rcases List.mem_append.1 hu with hearlier | hlater
  · have hnot := hbefore u hearlier
    rw [List.isPrefixOf_iff_prefix.2 hstarts] at hnot
    cases hnot
  · rcases List.mem_cons.1 hlater with rfl | hlater
    · exact Nat.le_refl _
    · exact List.rel_of_pairwise_cons (List.pairwise_append.1 hordered).2.1 hlater

/-- Of the references that start here the longest is replaced. -/
theorem firstReference?_of_longest (hkeys : values.keys.Nodup) {name value : String} {rest : List Char}
    (hknown : values.get? name = some value)
    (hlongest : ∀ other, (values.get? other).isSome → variableToken other <+: variableToken name ++ rest →
      (variableToken other).length ≤ (variableToken name).length) :
    firstReference? (references values) (variableToken name ++ rest) =
      some (variableToken name, value.toList) := by
  have hmem : (variableToken name, value.toList) ∈ references values :=
    mem_references.2 ⟨(name, value), Table.mem_of_get? hknown, rfl⟩
  cases hfirst : firstReference? (references values) (variableToken name ++ rest) with
  | none => exact absurd (List.prefix_append _ _) (firstReference?_eq_none_iff.1 hfirst _ hmem)
  | some t =>
    obtain ⟨ht, hstarts, hleast⟩ := firstReference?_eq_some hfirst
    obtain ⟨⟨other, found⟩, hother, rfl⟩ := mem_references.1 ht
    dsimp only at hstarts hleast
    have hget := Table.get?_of_mem hkeys hother
    -- the two start at one place and are of one length, so they are the same
    have hlength : (variableToken other).length = (variableToken name).length :=
      Nat.le_antisymm (hlongest other (by rw [hget]; rfl) hstarts) (hleast _ hmem (List.prefix_append _ _))
    have hsame : variableToken other = variableToken name :=
      (List.prefix_of_prefix_length_le hstarts (List.prefix_append _ _) (Nat.le_of_eq hlength)).eq_of_length
        hlength
    obtain rfl := variableToken_injective hsame
    rw [hknown] at hget
    cases hget
    rfl

end References

/-! ## The scan -/

section Scan

variable {tokens : List (List Char × List Char)}

theorem scan_covered (n : Nat) (cs : List Char) : scan tokens n cs = scan tokens 0 (cs.drop n) := by
  induction n generalizing cs with
  | zero => rfl
  | succ n ih =>
    cases cs with
    | nil => rfl
    | cons c cs => exact ih cs

/-- A reference is replaced, and the scan goes on behind it. -/
theorem scan_hit {c : Char} {token value rest : List Char}
    (h : firstReference? tokens (c :: token ++ rest) = some (c :: token, value)) :
    scan tokens 0 (c :: token ++ rest) = value ++ scan tokens 0 rest := by
  rw [List.cons_append] at h ⊢
  rw [scan, h]
  dsimp only
  rw [scan_covered, List.length_cons, Nat.add_sub_cancel, List.drop_left]

theorem scan_miss {c : Char} {rest : List Char} (h : firstReference? tokens (c :: rest) = none) :
    scan tokens 0 (c :: rest) = c :: scan tokens 0 rest := by
  rw [scan, h]

/-- Without references a text stays as it is. -/
theorem scan_nil (cs : List Char) : scan [] 0 cs = cs := by
  induction cs with
  | nil => rfl
  | cons c rest ih => rw [scan_miss rfl, ih]

variable {values : Table String} {cs out : List Char}

/-- What the rule makes of a text is what the scan makes of it. -/
theorem Filled.eq_scan (hkeys : values.keys.Nodup) (h : Filled values.get? cs out) :
    out = scan (references values) 0 cs := by
  induction h with
  | nothing => rfl
  | @replaced name value rest out hknown hlongest _ ih =>
    have hfirst := firstReference?_of_longest hkeys hknown hlongest
    obtain ⟨more, hmore⟩ := variableToken_eq_cons name
    rw [hmore] at hfirst ⊢
    rw [scan_hit hfirst, ih]
  | @copied c rest out hnone _ ih =>
    rw [scan_miss, ih]
    refine firstReference?_eq_none_iff.2 fun t ht hstarts => ?_
    obtain ⟨⟨name, value⟩, hmem, rfl⟩ := mem_references.1 ht
    exact hnone name (by rw [Table.get?_of_mem hkeys hmem]; rfl) hstarts

/-- What the scan makes of a text the rule makes of it, by induction on the length of what is left. -/
theorem filled_scan (hkeys : values.keys.Nodup) (cs : List Char) :
    Filled values.get? cs (scan (references values) 0 cs) := by
  induction hlength : cs.length using Nat.strongRecOn generalizing cs with
  | ind n ih =>
    cases cs with
    | nil => exact .nothing
    | cons c rest =>
      cases hfirst : firstReference? (references values) (c :: rest) with
      | none =>
        have hnone := firstReference?_eq_none_iff.1 hfirst
        rw [scan_miss hfirst]
        have hless : rest.length < n := by
          rw [← hlength]
          exact Nat.lt_succ_self _
        refine .copied (fun name hknown => ?_) (ih rest.length hless rest rfl)
        obtain ⟨value, hvalue⟩ := Option.isSome_iff_exists.1 hknown
        exact hnone _ (mem_references.2 ⟨(name, value), Table.mem_of_get? hvalue, rfl⟩)
      | some t =>
        obtain ⟨ht, ⟨behind, hbehind⟩, hlongest⟩ := firstReference?_eq_some hfirst
        obtain ⟨⟨name, value⟩, hmem, rfl⟩ := mem_references.1 ht
        obtain ⟨more, hmore⟩ := variableToken_eq_cons name
        dsimp only at hbehind hlongest hfirst
        rw [← hbehind] at hlength hlongest hfirst ⊢
        have hscan : scan (references values) 0 (variableToken name ++ behind) =
            value.toList ++ scan (references values) 0 behind := by
          rw [hmore] at hfirst ⊢
          exact scan_hit hfirst
        rw [hscan]
        have hless : behind.length < n := by
          rw [← hlength, hmore, List.length_append, List.length_cons]
          omega
        refine .replaced (Table.get?_of_mem hkeys hmem) (fun other hknown hstarts => ?_)
          (ih behind.length hless behind rfl)
        obtain ⟨found, hfound⟩ := Option.isSome_iff_exists.1 hknown
        exact hlongest _ (mem_references.2 ⟨(other, found), Table.mem_of_get? hfound, rfl⟩) hstarts

theorem filled_iff (hkeys : values.keys.Nodup) :
    Filled values.get? cs out ↔ out = scan (references values) 0 cs :=
  ⟨fun h => h.eq_scan hkeys, fun h => h ▸ filled_scan hkeys cs⟩

end Scan

/-! ## Variables without values -/

theorem keys_knownValues_sublist (entries : Table (Option String)) :
    (knownValues entries).keys.Sublist entries.keys := by
  induction entries with
  | nil => exact List.Sublist.slnil
  | cons e rest ih =>
    obtain ⟨name, value⟩ := e
    cases value with
    | none => exact ih.cons _
    | some known => exact ih.cons_cons _

theorem mem_knownValues {entries : Table (Option String)} {name value : String} :
    (name, value) ∈ knownValues entries ↔ (name, some value) ∈ entries := by
  unfold knownValues
  simp only [List.mem_filterMap, Option.map_eq_some_iff, Prod.mk.injEq]
  constructor
  · rintro ⟨⟨_, _⟩, hmem, _, rfl, rfl, rfl⟩
    exact hmem
  · exact fun hmem => ⟨(name, some value), hmem, value, rfl, rfl, rfl⟩

/-- A variable without a value is as good as none. -/
theorem get?_knownValues {entries : Table (Option String)} (hkeys : entries.keys.Nodup) :
    (knownValues entries).get? = fun name => (entries.get? name).join := by
  funext name
  refine Option.ext fun value => ?_
  rw [Option.join_eq_some_iff]
  constructor
  · exact fun h => Table.get?_of_mem hkeys (mem_knownValues.1 (Table.mem_of_get? h))
  · intro h
    exact Table.get?_of_mem ((keys_knownValues_sublist entries).nodup hkeys)
      (mem_knownValues.2 (Table.mem_of_get? h))

theorem filledText_eq (entries : Option (Table (Option String))) (text : Option String) :
    filledText entries text = interpolate (knownValues (entries.getD [])) (text.getD "") := by
  cases text with
  | none => cases entries <;> rfl
  | some text =>
    cases entries with
    | none =>
      have hreferences : references (knownValues []) = [] := List.mergeSort_nil
      show text = interpolate (knownValues []) text
      rw [interpolate, hreferences, scan_nil, String.ofList_toList]
    | some entries => rfl

/-- A table has the same look-up in every order. -/
theorem get?_of_perm {entries others : Table (Option String)} (hkeys : entries.keys.Nodup)
    (h : others.Perm entries) : others.get? = entries.get? := by
  have hothers : others.keys.Nodup := (h.map Prod.fst).nodup_iff.2 hkeys
  funext name
  refine Option.ext fun value => ⟨fun hget => ?_, fun hget => ?_⟩
  · exact Table.get?_of_mem hkeys (h.mem_iff.1 (Table.mem_of_get? hget))
  · exact Table.get?_of_mem hothers (h.mem_iff.2 (Table.mem_of_get? hget))

/-- The rule makes of a text what is filled in, whichever variables there are and whether they have values. -/
theorem filled_filledText (entries : Option (Table (Option String)))
    (hkeys : (entries.getD []).keys.Nodup) (text : Option String) (out : String) :
    Filled (fun name => ((entries.getD []).get? name).join) (text.getD "").toList out.toList ↔
      out = filledText entries text := by
  rw [filledText_eq, interpolate, ← get?_knownValues hkeys,
    filled_iff ((keys_knownValues_sublist _).nodup hkeys), ← String.toList_inj, String.toList_ofList]

/-- A text is filled in by one scan from the left, in which the longest reference that starts at a place is
replaced, and values are not looked at again; nothing else comes of it, and the order of the variables does
not count. -/
theorem filledText_iff (entries : Option (Table (Option String))) (text : Option String)
    (hkeys : (entries.getD []).keys.Nodup) :
    (∀ out : String,
      Filled (fun name => ((entries.getD []).get? name).join) (text.getD "").toList out.toList ↔
        out = filledText entries text) ∧
    ∀ others : Table (Option String), others.Perm (entries.getD []) →
      filledText (some others) text = filledText entries text := by
  refine ⟨filled_filledText entries hkeys text, fun others hperm => ?_⟩
  have hothers : others.keys.Nodup := (hperm.map Prod.fst).nodup_iff.2 hkeys
  have hfilled := (filled_filledText (some others) hothers text _).2 rfl
  rw [Option.getD_some, get?_of_perm hkeys hperm] at hfilled
  exact (filled_filledText entries hkeys text _).1 hfilled

/-- A value that looks like a reference, a name whose reference begins another one, and a name without a
value. -/
def knottyEntries : Table (Option String) :=
  [("a", some "$\x7bb\x7d"), ("b", some "no"), ("a\x7db", some "long"), ("", none)]

theorem filledText_knotty : knottyEntries.keys.Nodup ∧
    Filled (fun name => (knottyEntries.get? name).join) "$\x7ba\x7db\x7d $\x7ba\x7d $\x7d $\x7b\x7d".toList
      "long $\x7bb\x7d $\x7d $\x7b\x7d".toList := by
  have hkeys : knottyEntries.keys.Nodup := by decide
  have hfilled := filledText_iff (some knottyEntries) (some "$\x7ba\x7db\x7d $\x7ba\x7d $\x7d $\x7b\x7d") hkeys
  exact ⟨hkeys, (hfilled.1 "long $\x7bb\x7d $\x7d $\x7b\x7d").2 (by cbv)⟩

end Gamebook
