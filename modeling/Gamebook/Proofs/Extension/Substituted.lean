import Gamebook.Proofs.Extension.Restored
import Gamebook.Proofs.Json.TooDeep

/-!
# Sources put back into a value

Putting the sources back into the text of a value, by replacing quoted tokens one after another, comes to
the same as putting them into the value itself, text by text.  It takes that nothing in the value and in
the sources looks like a quoted token without being one.

* `Json.names`           : the keys of all objects in a value.
* `mapTexts_eq_restoreIn` : a change of the texts that leaves the keys and puts the sources back.
* `proper_restoreIn`     : the value with its sources is one that can be read.
* `Marked`               : a text with a quote right in front of the beginning of a token.
* `restoreText_eq_getD`  : what becomes of a text without one, in whatever order the tokens are replaced.
* `restore_substitutes`  : the text with the sources is read as the value with the sources.
-/

set_option autoImplicit false

namespace Gamebook

namespace Json

mutual
/-- The keys of all objects in a value. -/
def names : Json → List String
  | .arr items => itemsNames items
  | .obj fields => fieldsNames fields
  | _ => []

def itemsNames : List Json → List String
  | [] => []
  | v :: rest => names v ++ itemsNames rest

def fieldsNames : List (String × Json) → List String
  | [] => []
  | (k, v) :: rest => k :: names v ++ fieldsNames rest
end

end Json

namespace Extension

open Json

/-! ## Values -/

section Values

variable {f : String → String} {ps : Placeholders}

mutual
/-- A change of the texts that leaves the keys, and turns each token among the strings into its source,
puts the sources back. -/
theorem mapTexts_eq_restoreIn : ∀ v : Json, (∀ s ∈ v.texts, f s = (ps.get? s).getD s) →
    (∀ name ∈ v.names, name ∉ ps.keys) → v.mapTexts f = restoreIn ps v
  | .null, _, _ => rfl
  | .bool _, _, _ => rfl
  | .int _, _, _ => rfl
  | .float _, _, _ => rfl
  | .str s, htexts, _ => congrArg Json.str (htexts s (List.mem_singleton.2 rfl))
  | .arr items, htexts, hnames => by
    rw [mapTexts, restoreIn, mapItems_eq_restoreItems items htexts hnames]
  | .obj fields, htexts, hnames => by
    rw [mapTexts, restoreIn, mapFields_eq_restoreFields fields htexts hnames]

theorem mapItems_eq_restoreItems : ∀ items : List Json,
    (∀ s ∈ itemsTexts items, f s = (ps.get? s).getD s) → (∀ name ∈ itemsNames items, name ∉ ps.keys) →
    mapItems f items = restoreItems ps items
  | [], _, _ => rfl
  | v :: rest, htexts, hnames => by
    rw [itemsTexts, List.forall_mem_append] at htexts
    rw [itemsNames, List.forall_mem_append] at hnames
    rw [mapItems, restoreItems, mapTexts_eq_restoreIn v htexts.1 hnames.1,
      mapItems_eq_restoreItems rest htexts.2 hnames.2]

theorem mapFields_eq_restoreFields : ∀ fields : List (String × Json),
    (∀ s ∈ fieldsTexts fields, f s = (ps.get? s).getD s) →
    (∀ name ∈ fieldsNames fields, name ∉ ps.keys) → mapFields f fields = restoreFields ps fields
  | [], _, _ => rfl
  | (k, v) :: rest, htexts, hnames => by
    rw [fieldsTexts, List.forall_mem_append, List.forall_mem_cons] at htexts
    rw [fieldsNames, List.forall_mem_append, List.forall_mem_cons] at hnames
    have hkey : f k = k := by
      rw [htexts.1.1, Table.get?_eq_none_iff.2 hnames.1.1, Option.getD_none]
    rw [mapFields, restoreFields, hkey, mapTexts_eq_restoreIn v htexts.1.2 hnames.1.2,
      mapFields_eq_restoreFields rest htexts.2 hnames.2]
end

theorem keys_restoreFields (fields : List (String × Json)) :
    Table.keys (restoreFields ps fields) = Table.keys fields := by
  induction fields with
  | nil => rfl
  | cons e rest ih => rw [restoreFields, Table.keys_cons, ih, Table.keys_cons]

mutual
/-- Sources are put into strings only, so that no key is repeated and no number is changed. -/
theorem proper_restoreIn : ∀ v : Json, v.Proper → (restoreIn ps v).Proper
  | .null, _ => trivial
  | .bool _, _ => trivial
  | .int _, h => h
  | .float _, _ => trivial
  | .str _, _ => trivial
  | .arr items, h => properItems_restoreItems items h
  | .obj fields, h => by
    rw [restoreIn, Proper, keys_restoreFields]
    exact ⟨h.1, properFields_restoreFields fields h.2⟩

theorem properItems_restoreItems : ∀ items : List Json,
    ProperItems items → ProperItems (restoreItems ps items)
  | [], _ => trivial
  | v :: rest, h => ⟨proper_restoreIn v h.1, properItems_restoreItems rest h.2⟩

theorem properFields_restoreFields : ∀ fields : List (String × Json),
    ProperFields fields → ProperFields (restoreFields ps fields)
  | [], _ => trivial
  | (_, v) :: rest, h => ⟨proper_restoreIn v h.1, properFields_restoreFields rest h.2⟩
end

end Values

/-! ## Texts -/

/-- A quote stands in the text, and right behind it what every token begins with. -/
def Marked (s : String) : Prop := '"' :: "embedded-media://".toList <:+: s.toList

instance (s : String) : Decidable (Marked s) := List.instDecidableIsInfixOfDecidableEq _ _

/-- A text that is not marked mentions a token only when it is the token. -/
theorem mentions_token_iff {s : String} (h : ¬ Marked s) (n : Nat) : Mentions (token n) s ↔ s = token n := by
  refine ⟨?_, .inl⟩
  rintro (hwhole | ⟨front, hfront⟩)
  · exact hwhole
  · refine absurd ⟨front, (Nat.repr n).toList, ?_⟩ h
    rw [← hfront, toList_token, List.append_assoc, List.cons_append]

/-- In whatever order the tokens are replaced, a text that is not marked becomes the source of the token
that it is, or stays as it is. -/
theorem restoreText_eq_getD {sections : Table Json} {order : Placeholders}
    (horder : order.Perm (placeholdersOf sections))
    (hsources : ∀ e ∈ placeholdersOf sections, ¬ Marked e.2) {s : String} (hs : ¬ Marked s) :
    restoreText order s = ((placeholdersOf sections).get? s).getD s := by
  have hps : ∀ e ∈ order, IsPlaceholder e := fun e he =>
    isPlaceholder_placeholdersOf sections e (horder.mem_iff.1 he)
  have hmentions : ∀ e ∈ order, ∀ text, ¬ Marked text → (Mentions e.1 text ↔ text = e.1) := by
    intro e he text htext
    obtain ⟨⟨n, -, htoken⟩, -⟩ := mem_numbered (horder.mem_iff.1 he)
    rw [htoken]
    exact mentions_token_iff htext n
  cases hget : (placeholdersOf sections).get? s with
  | none =>
    have hother := Table.get?_eq_none_iff.1 hget
    rw [Option.getD_none, restoreText_eq_iff hps]
    intro e he
    rw [hmentions e he s hs]
    rintro rfl
    exact hother (List.mem_map_of_mem (horder.mem_iff.1 he))
  | some source =>
    have hnodup : (Table.keys order).Nodup := (horder.map Prod.fst).nodup_iff.2 (nodup_placeholdersOf sections)
    have hapart : order.Pairwise fun p q => ¬ Mentions q.1 p.2 := by
      refine List.pairwise_of_forall_mem_list ?_
      intro p hp q hq
      rw [hmentions q hq p.2 (hsources p (horder.mem_iff.1 hp))]
      intro heq
      have hhead := (hps p hp).source
      rw [heq, (hps q hq).token.head] at hhead
      cases hhead
    exact (restoreText_tokens_iff hps hnodup).2 hapart (s, source)
      (horder.mem_iff.2 (Table.mem_of_get? hget))

/-! ## Values and their texts -/

/-- The text of a value, its tokens replaced by their sources in any order, is read as the value with
every string that is a token replaced by the source, unless the value is nested too deeply to be read.  No
key of the value may be a token, and neither a text of it nor a source may be marked. -/
theorem restore_substitutes {sections stripped v : Json} {placeholders order : Placeholders}
    (hstrip : strip sections = .ok (stripped, placeholders)) (horder : order.Perm placeholders)
    (hproper : v.Proper) (hnames : ∀ name ∈ v.names, name ∉ placeholders.keys)
    (htexts : ∀ s ∈ v.texts, ¬ Marked s) (hsources : ∀ e ∈ placeholders, ¬ Marked e.2) :
    Json.read (restore v.ascii order) =
      match v.tooDeep? nestingLimit with
      | none => .ok (restoreIn placeholders v)
      | some inObject => .error (.nestingLimit inObject) := by
  obtain ⟨fields, rfl⟩ : ∃ fields, sections = .obj fields := by
    cases sections with
    | obj fields => exact ⟨fields, rfl⟩
    | _ => cases hstrip
  rw [strip_eq] at hstrip
  cases hstrip
  have hps : ∀ e ∈ order, IsPlaceholder e := fun e he =>
    isPlaceholder_placeholdersOf fields e (horder.mem_iff.1 he)
  have hvalue : v.mapTexts (restoreText order) = restoreIn (placeholdersOf fields) v :=
    mapTexts_eq_restoreIn v (fun s hs => restoreText_eq_getD horder hsources (htexts s hs)) hnames
  have hdepth : (restoreIn (placeholdersOf fields) v).tooDeep? nestingLimit = v.tooDeep? nestingLimit := by
    rw [← hvalue, tooDeep?_mapTexts]
  rw [restore_ascii hps, hvalue, ← hdepth]
  exact read_eq ⟨none, true⟩ (proper_restoreIn v hproper)

/-- Sections each with an embedded picture. -/
def gallery (count : Nat) : Table Json :=
  (List.range count).map fun n =>
    (Nat.repr n, .obj [("media", .obj [("src", .str ("data:" ++ Nat.repr n))])])

/-- A value with the first and the last of ten tokens, and with one that stands for nothing. -/
def echo : Json :=
  .obj [("first", .str "embedded-media://1"), ("tenth", .str "embedded-media://10"),
    ("eleventh", .str "embedded-media://11")]

/-- The first of ten tokens is what the tenth begins with; they are told apart, also when the last one is
replaced first. -/
theorem restore_substitutes_gallery :
    Json.read (restore echo.ascii (placeholdersOf (gallery 10)).reverse) =
      .ok (.obj [("first", .str "data:0"), ("tenth", .str "data:9"),
        ("eleventh", .str "embedded-media://11")]) := by
  have hproper : echo.Proper := by simp [echo, Json.Proper, Json.ProperFields, Table.keys]
  have hdepth : echo.tooDeep? nestingLimit = none := by decide
  have hfirst : (placeholdersOf (gallery 10)).get? "embedded-media://1" = some "data:0" := by
    decide +kernel
  have htenth : (placeholdersOf (gallery 10)).get? "embedded-media://10" = some "data:9" := by
    decide +kernel
  have hother : (placeholdersOf (gallery 10)).get? "embedded-media://11" = none := by decide +kernel
  rw [restore_substitutes (strip_eq (gallery 10)) (List.reverse_perm _) hproper (by decide +kernel)
    (by decide +kernel) (by decide +kernel), hdepth]
  simp only [echo, restoreIn, restoreFields, hfirst, htenth, hother, Option.getD_some, Option.getD_none]

end Extension

end Gamebook
