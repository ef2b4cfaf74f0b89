import Gamebook.Proofs.Extension.Exchange
import Gamebook.Proofs.Number.Digits

/-!
# Embedded media put back

* `numbered`          : the placeholders that stripping makes, numbered in the order of the sources.
* `bareFields`        : the sections without their embedded sources.
* `stripFields_spec`  : what stripping keeps, and which changes of the texts undo it.
* `restored_iff`      : when the sections are read back as they were.
* `echo_not_restored` : a text that equals a token is taken for a placeholder.
-/

set_option autoImplicit false

namespace Gamebook.Extension

open Json

/-! ## Tokens -/

theorem stringChar_digit {c : Char} (h : c.isDigit = true) : stringChar true c = [c] := by
  have hother {d : Char} (hd : d.isDigit = false) : ¬ (c == d) = true := by
    rw [beq_iff_eq]
    exact digit_ne h hd
  have hbounds : 48 ≤ c.toNat ∧ c.toNat ≤ 57 := by
    simp only [Char.isDigit, Bool.and_eq_true, decide_eq_true_eq, UInt32.le_iff_toNat_le] at h
    exact h
  unfold stringChar
  rw [if_neg (hother (by decide)), if_neg (hother (by decide)), if_neg (hother (by decide)),
    if_neg (hother (by decide)), if_neg (hother (by decide)), if_neg (hother (by decide)),
    if_neg (hother (by decide)), if_neg (by omega), if_neg]
  simp only [Bool.true_and, decide_eq_true_eq]
  omega

theorem toList_token (n : Nat) :
    (token n).toList = "embedded-media://".toList ++ (Nat.repr n).toList := String.toList_append

theorem isToken_token (n : Nat) : IsToken (token n).toList where
  plain := by
    have hscheme : "embedded-media://".toList.all (fun c => stringChar true c == [c]) = true := by
      decide
    intro c hc
    rw [toList_token, List.mem_append] at hc
    rcases hc with hc | hc
    · exact eq_of_beq (List.all_eq_true.1 hscheme c hc)
    · exact stringChar_digit (isDigit_of_mem_repr hc)
  head := by
    rw [toList_token]
    rfl

theorem token_injective {m n : Nat} (h : token m = token n) : m = n := by
  have hdigits := congrArg String.toList h
  rw [toList_token, toList_token, List.append_cancel_left_eq] at hdigits
  rw [← digitsValue_repr m, hdigits, digitsValue_repr]

/-- The placeholders of some sources, numbered behind the ones there are. -/
def numbered : Nat → List String → Placeholders
  | _, [] => []
  | count, source :: rest => (token (count + 1), source) :: numbered (count + 1) rest

theorem mem_numbered {count : Nat} {sources : List String} {e : String × String}
    (h : e ∈ numbered count sources) : (∃ n, count < n ∧ e.1 = token n) ∧ e.2 ∈ sources := by
  induction sources generalizing count with
  | nil => cases h
  | cons source rest ih =>
    rcases List.mem_cons.1 h with rfl | h
    · exact ⟨⟨count + 1, Nat.lt_succ_self _, rfl⟩, List.mem_cons_self⟩
    · obtain ⟨⟨n, hn, htoken⟩, hsource⟩ := ih h
      exact ⟨⟨n, by omega, htoken⟩, List.mem_cons_of_mem _ hsource⟩

theorem nodup_numbered (count : Nat) (sources : List String) :
    (Table.keys (numbered count sources)).Nodup := by
  induction sources generalizing count with
  | nil => exact .nil
  | cons source rest ih =>
    rw [numbered, Table.keys_cons, List.nodup_cons]
    refine ⟨fun h => ?_, ih _⟩
    obtain ⟨e, he, heq⟩ := List.mem_map.1 h
    obtain ⟨⟨n, hn, htoken⟩, -⟩ := mem_numbered he
    have := token_injective (htoken.symm.trans heq)
    omega

/-! ## Sections without their sources -/

/-- A section without its embedded source. -/
def bare (section_ : Json) : Json :=
  match embeddedSource? section_ with
  | some _ => withSource section_ ""
  | none => section_

/-- Sections without their embedded sources. -/
def bareFields (sections : Table Json) : Table Json := sections.mapValues bare

/-- The embedded sources in their order. -/
def sources (sections : Table Json) : List String :=
  sections.filterMap fun e => embeddedSource? e.2

theorem head_of_mem_sources {sections : Table Json} {source : String} (h : source ∈ sources sections) :
    source.toList.head? = some 'd' := by
  obtain ⟨e, -, hsource⟩ := List.mem_filterMap.1 h
  unfold embeddedSource? at hsource
  split at hsource
  · split at hsource
    · rename_i hembedded
      cases hsource
      obtain ⟨rest, hrest⟩ := List.isPrefixOf_iff_prefix.1 hembedded
      rw [← hrest]
      rfl
    · cases hsource
  · cases hsource

/-- A section with a text in the place of its embedded source. -/
def around (before after first last : Table Json) (text : String) : Json :=
  .obj (before ++ ("media", .obj (first ++ ("src", .str text) :: last)) :: after)

theorem exists_around {section_ : Json} {source : String}
    (h : embeddedSource? section_ = some source) :
    ∃ before after first last, section_ = around before after first last source ∧
      ∀ text, withSource section_ text = around before after first last text := by
  have hfield {v : Json} {key : String} {w : Json} (hv : v.field key = w) (hw : w ≠ .null) :
      ∃ fields, v = .obj fields ∧ Table.get? fields key = some w := by
    rw [Json.field] at hv
    cases hget : v.get? key with
    | none => rw [hget] at hv; exact absurd hv.symm hw
    | some u =>
      rw [hget] at hv
      cases v with
      | obj fields => exact ⟨fields, rfl, by rw [← hv]; exact hget⟩
      | _ => cases hget
  have hsource : (section_.field "media").field "src" = .str source := by
    unfold embeddedSource? at h
    split at h
    · rename_i text htext
      split at h
      · cases h
        exact htext
      · cases h
    · cases h
  obtain ⟨inner, hmedia, hsrc⟩ := hfield hsource (by simp)
  obtain ⟨fields, rfl, hget⟩ := hfield hmedia (by simp)
  obtain ⟨before, after, rfl, houter⟩ := Table.exists_modify_eq hget
  obtain ⟨first, last, rfl, hinner⟩ := Table.exists_modify_eq hsrc
  refine ⟨before, after, first, last, rfl, fun text => ?_⟩
  rw [withSource, houter, around]
  dsimp only
  rw [hinner]

section Changes

variable {f : String → String}

/-- A change of the texts turns one value of a field into another and leaves all around it. -/
theorem mapFields_around_iff {before after : Table Json} {key : String} {v w : Json} :
    mapFields f (before ++ (key, v) :: after) = before ++ (key, w) :: after ↔
      v.mapTexts f = w ∧ ∀ s ∈ fieldsTexts (before ++ (key, .null) :: after), f s = s := by
  have hparts : mapFields f (before ++ (key, v) :: after) = before ++ (key, w) :: after ↔
      mapFields f before = before ∧ (f key = key ∧ v.mapTexts f = w) ∧ mapFields f after = after := by
    rw [mapFields_append, mapFields]
    constructor
    · intro h
      obtain ⟨hbefore, hrest⟩ := List.append_inj h (length_mapFields f before)
      rw [List.cons.injEq, Prod.mk.injEq] at hrest
      exact ⟨hbefore, hrest⟩
    · rintro ⟨hbefore, ⟨hkey, hvalue⟩, hafter⟩
      rw [hbefore, hkey, hvalue, hafter]
  simp only [hparts, mapFields_eq_iff, fieldsTexts_append, fieldsTexts, texts,
    List.forall_mem_append, List.forall_mem_cons]
  constructor
  · rintro ⟨hbefore, ⟨hkey, hvalue⟩, hafter⟩
    exact ⟨hvalue, hbefore, ⟨hkey, List.forall_mem_nil _⟩, hafter⟩
  · rintro ⟨hvalue, hbefore, ⟨hkey, -⟩, hafter⟩
    exact ⟨hbefore, ⟨hkey, hvalue⟩, hafter⟩

/-- A change of the texts puts a source back when it turns what stands in its place into the source and
leaves everything else. -/
theorem mapTexts_withSource_iff {section_ : Json} {source : String}
    (h : embeddedSource? section_ = some source) (hempty : f "" = "") (text : String) :
    (withSource section_ text).mapTexts f = section_ ↔
      f text = source ∧ ∀ s ∈ (withSource section_ "").texts, f s = s := by
  obtain ⟨before, after, first, last, hsection, haround⟩ := exists_around h
  rw [haround, haround, hsection]
  simp only [around, mapTexts, texts, Json.obj.injEq, mapFields_around_iff, Json.str.injEq,
    fieldsTexts_append, fieldsTexts, List.forall_mem_append, List.forall_mem_cons,
    hempty, true_and]
  constructor
  · rintro ⟨⟨hsource, hfirst, hsrc, hlast⟩, hbefore, ⟨hmedia, -⟩, hafter⟩
    exact ⟨hsource, hbefore, ⟨hmedia, hfirst, hsrc, hlast⟩, hafter⟩
  · rintro ⟨hsource, hbefore, ⟨hmedia, hfirst, hsrc, hlast⟩, hafter⟩
    exact ⟨⟨hsource, hfirst, hsrc, hlast⟩, hbefore, ⟨hmedia, List.forall_mem_nil _⟩, hafter⟩

theorem outline_withSource {section_ : Json} {source : String}
    (h : embeddedSource? section_ = some source) (text : String) :
    (withSource section_ text).outline = section_.outline := by
  obtain ⟨before, after, first, last, hsection, haround⟩ := exists_around h
  rw [haround, hsection]
  simp only [around, outline, mapTexts, mapFields_append, mapFields]

/-! ## Stripping -/

/-- Stripping numbers the sources behind the placeholders there are, keeps the outline of the sections,
and is undone by the changes of the texts that turn each token into its source and leave what is not an
embedded source. -/
theorem stripFields_spec (hempty : f "" = "") (sections : Table Json) (found : Placeholders) :
    (stripFields sections found).2 = found ++ numbered found.length (sources sections) ∧
      mapFields (fun _ => "") (stripFields sections found).1 = mapFields (fun _ => "") sections ∧
      (mapFields f (stripFields sections found).1 = sections ↔
        (∀ e ∈ numbered found.length (sources sections), f e.1 = e.2) ∧
          ∀ s ∈ fieldsTexts (bareFields sections), f s = s) := by
  induction sections generalizing found with
  | nil => exact ⟨(List.append_nil _).symm, rfl,
      iff_of_true rfl ⟨List.forall_mem_nil _, List.forall_mem_nil _⟩⟩
  | cons e rest ih =>
    obtain ⟨id, section_⟩ := e
    have hbare : bareFields ((id, section_) :: rest) = (id, bare section_) :: bareFields rest := rfl
    cases hsource : embeddedSource? section_ with
    | none =>
      obtain ⟨hfound, houtline, hundone⟩ := ih found
      have hsources : sources ((id, section_) :: rest) = sources rest :=
        List.filterMap_cons_none hsource
      have hsame : bare section_ = section_ := by rw [bare, hsource]
      have hstrip : stripFields ((id, section_) :: rest) found =
          ((id, section_) :: (stripFields rest found).1, (stripFields rest found).2) := by
        rw [stripFields, hsource]
      rw [hstrip, hsources, hbare, hsame]
      refine ⟨hfound, by rw [mapFields, houtline, mapFields], ?_⟩
      rw [mapFields, List.cons.injEq, Prod.mk.injEq, hundone, mapTexts_eq_iff, fieldsTexts,
        List.forall_mem_append, List.forall_mem_cons]
      exact and_left_comm
    | some source =>
      obtain ⟨hfound, houtline, hundone⟩ := ih (found ++ [(token (found.length + 1), source)])
      have hsources : sources ((id, section_) :: rest) = source :: sources rest :=
        List.filterMap_cons_some hsource
      have hless : bare section_ = withSource section_ "" := by rw [bare, hsource]
      have hstrip : stripFields ((id, section_) :: rest) found =
          ((id, withSource section_ (token (found.length + 1))) ::
              (stripFields rest (found ++ [(token (found.length + 1), source)])).1,
            (stripFields rest (found ++ [(token (found.length + 1), source)])).2) := by
        rw [stripFields, hsource]
      rw [List.length_append, List.length_singleton] at hfound hundone
      rw [hstrip, hsources, hbare, hless, numbered]
      refine ⟨by rw [hfound, List.append_assoc]; rfl, ?_, ?_⟩
      · rw [mapFields, houtline, mapFields]
        exact congrArg (fun v => ("", v) :: _) (outline_withSource hsource _)
      · rw [mapFields, List.cons.injEq, Prod.mk.injEq, hundone, mapTexts_withSource_iff hsource hempty,
          fieldsTexts, List.forall_mem_append, List.forall_mem_cons, List.forall_mem_cons]
        constructor
        · rintro ⟨⟨hid, hfirst, hsection⟩, hmore, hrest⟩
          exact ⟨⟨hfirst, hmore⟩, ⟨hid, hsection⟩, hrest⟩
        · rintro ⟨⟨hfirst, hmore⟩, ⟨hid, hsection⟩, hrest⟩
          exact ⟨⟨hid, hfirst, hsection⟩, hmore, hrest⟩

end Changes

/-! ## Stripped and put back -/

/-- The placeholders that stripping makes. -/
def placeholdersOf (sections : Table Json) : Placeholders := numbered 0 (sources sections)

theorem isPlaceholder_placeholdersOf (sections : Table Json) :
    ∀ e ∈ placeholdersOf sections, IsPlaceholder e := by
  intro e he
  obtain ⟨⟨n, -, htoken⟩, hsource⟩ := mem_numbered he
  exact ⟨htoken ▸ isToken_token n, head_of_mem_sources hsource⟩

theorem nodup_placeholdersOf (sections : Table Json) :
    (Table.keys (placeholdersOf sections)).Nodup := nodup_numbered 0 _

theorem strip_eq (sections : Table Json) :
    strip (.obj sections) = .ok (.obj (stripFields sections []).1, placeholdersOf sections) := by
  have hfound := (stripFields_spec (f := fun _ => "") rfl sections []).1
  rw [List.nil_append] at hfound
  rw [strip]
  dsimp only
  rw [hfound]
  rfl

theorem outline_stripped (sections : Table Json) :
    (Json.obj (stripFields sections []).1).outline = (Json.obj sections).outline := by
  rw [outline, mapTexts, (stripFields_spec (f := fun _ => "") rfl sections []).2.1, outline, mapTexts]

section Sections

variable {sections : Table Json} (hproper : (Json.obj sections).Proper)
  (hdepth : (Json.obj sections).isWithin nestingLimit = true)

include hproper hdepth

/-- The text of the stripped sections, its placeholders put back, always reads: as the stripped sections
with their texts restored and repeated keys merged. -/
theorem read_restore (ps : Placeholders) (hps : ∀ e ∈ ps, IsPlaceholder e) :
    Json.read (restore (Json.obj (stripFields sections []).1).ascii ps) =
      .ok ((Json.obj (stripFields sections []).1).mapTexts (restoreText ps)).merged := by
  have houtline : ((Json.obj (stripFields sections []).1).mapTexts (restoreText ps)).outline =
      (Json.obj sections).outline := by
    rw [outline_mapTexts, outline_stripped]
  rw [restore_ascii hps, ascii]
  exact read_merged _ (short_of_outline houtline (short_of_proper _ hproper))
    (isWithin_of_outline houtline hdepth)

/-- The stripped sections are always read back, and they are the sections there were exactly when no key
and no text but the embedded sources mentions a token, and no source mentions the token of a later
one. -/
theorem restored_iff : ∃ stripped restored,
    strip (.obj sections) = .ok (stripped, placeholdersOf sections) ∧
    Json.read (restore stripped.ascii (placeholdersOf sections)) = .ok restored ∧
    (restored = .obj sections ↔
      (∀ s ∈ fieldsTexts (bareFields sections), ∀ e ∈ placeholdersOf sections, ¬ Mentions e.1 s) ∧
      (placeholdersOf sections).Pairwise fun p q => ¬ Mentions q.1 p.2) := by
  have hps := isPlaceholder_placeholdersOf sections
  have hempty : restoreText (placeholdersOf sections) "" = "" := by
    rw [restoreText_eq_iff hps]
    rintro e he (h | h)
    · exact (hps e he).token.ne_nil (by rw [← h]; rfl)
    · cases h.length_le
  refine ⟨_, _, strip_eq sections, read_restore hproper hdepth _ hps, ?_⟩
  have hmerged : ((Json.obj (stripFields sections []).1).mapTexts
      (restoreText (placeholdersOf sections))).merged = .obj sections ↔
      mapFields (restoreText (placeholdersOf sections)) (stripFields sections []).1 = sections := by
    rw [← Json.obj.injEq, ← mapTexts]
    constructor
    · intro h
      exact eq_of_merged (by rw [outline_mapTexts, outline_stripped]) h
    · intro h
      rw [h, merged_of_proper _ hproper]
  have hspec : mapFields (restoreText (placeholdersOf sections)) (stripFields sections []).1 = sections ↔
      (∀ e ∈ placeholdersOf sections, restoreText (placeholdersOf sections) e.1 = e.2) ∧
        ∀ s ∈ fieldsTexts (bareFields sections), restoreText (placeholdersOf sections) s = s :=
    (stripFields_spec hempty sections []).2.2
  rw [hmerged, hspec, ← restoreText_tokens_iff hps (nodup_placeholdersOf sections), and_comm]
  exact and_congr_left fun _ => forall₂_congr fun s _ => restoreText_eq_iff hps s

end Sections

/-- A section with a text and an embedded picture. -/
def pictured (text : String) : Table Json :=
  [("1", .obj [("id", .str "1"), ("text", .str text),
    ("media", .obj [("type", .str "image"), ("src", .str "data:x")])])]

theorem proper_pictured (text : String) : (Json.obj (pictured text)).Proper := by
  simp [pictured, Json.Proper, Json.ProperFields, Table.keys]

/-- A picture in a section that mentions no token is put back. -/
theorem restored_pictured : ∃ stripped restored,
    strip (.obj (pictured "A picture.")) = .ok (stripped, placeholdersOf (pictured "A picture.")) ∧
    Json.read (restore stripped.ascii (placeholdersOf (pictured "A picture."))) = .ok restored ∧
    restored = .obj (pictured "A picture.") := by
  obtain ⟨stripped, restored, hstrip, hread, hiff⟩ :=
    restored_iff (proper_pictured "A picture.") (by decide)
  exact ⟨stripped, restored, hstrip, hread, hiff.2 ⟨by decide, by decide⟩⟩

/-- A text that equals a token is taken for a placeholder and replaced, too. -/
theorem echo_not_restored : ∃ stripped placeholders,
    strip (.obj (pictured "embedded-media://1")) = .ok (stripped, placeholders) ∧
    Json.read (restore stripped.ascii placeholders) ≠ .ok (.obj (pictured "embedded-media://1")) := by
  refine ⟨_, _, strip_eq _, ?_⟩
  rw [read_restore (proper_pictured _) (by decide) _ (isPlaceholder_placeholdersOf _)]
  intro h
  have htext := congrArg (fun v => ((v.field "1").field "text").asStr?) (Except.ok.inj h)
  revert htext
  decide

end Gamebook.Extension
