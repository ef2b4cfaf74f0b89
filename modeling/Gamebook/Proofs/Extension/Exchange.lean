import Gamebook.Extension.Media
import Gamebook.Proofs.Json.Quotes
import Gamebook.Proofs.Json.Texts

/-!
# Tokens exchanged in the text of a value

In the text of a value a quoted token stands where one of the value's texts ends in the token, behind a
quote or as a whole, and nowhere else: a quote inside a text has an escape mark in front of it, and what
follows the last quote of a text never continues a token.  So replacing the quoted token by a quoted
source is a change of the value's texts.

* `exchange`           : a token at the end of a text exchanged for a source.
* `replaceChars_chars` : replacing the quoted token in the text of a value exchanges it in every text.
* `exchange_of_not`    : a text is left as it is when it does not mention the token.
* `restoreText`, `restore_ascii` : the same for all tokens, one after another.
* `restoreText_eq_iff`  : no exchange is undone by a later one.
-/

set_option autoImplicit false

namespace Gamebook.Extension

open Json

/-! ## Characters of texts -/

/-- The characters of a text between its quotes. -/
abbrev inner (cs : List Char) : List Char := cs.flatMap (stringChar true)

abbrev quoted (cs : List Char) : List Char := '"' :: (inner cs ++ ['"'])

/-- What a token looks like: it is written as it is, and no mark between the texts of a value begins
like it. -/
structure IsToken (t : List Char) : Prop where
  plain : ∀ c ∈ t, stringChar true c = [c]
  head : t.head? = some 'e'

theorem IsToken.ne_nil {t : List Char} (h : IsToken t) : t ≠ [] := by
  rintro rfl
  cases h.head

theorem IsToken.inner_eq {t : List Char} (h : IsToken t) : inner t = t := by
  have hplain := h.plain
  clear h
  induction t with
  | nil => rfl
  | cons c t ih =>
    rw [List.forall_mem_cons] at hplain
    have hrest := ih hplain.2
    change stringChar true c ++ inner t = c :: t
    rw [hplain.1, hrest]
    rfl

theorem IsToken.quote_not_mem {t : List Char} (h : IsToken t) : '"' ∉ t := fun hmem =>
  nomatch h.plain '"' hmem

/-- A text whose characters begin with plain ones and the closing quote consists of the plain ones. -/
theorem eq_of_prefix_inner {t cs rest : List Char} (hplain : ∀ c ∈ t, stringChar true c = [c])
    (h : t ++ ['"'] <+: inner cs ++ '"' :: rest) : cs = t := by
  induction t generalizing cs with
  | nil =>
    cases cs with
    | nil => rfl
    | cons c cs =>
      obtain ⟨more, hmore⟩ := h
      rw [inner, List.flatMap_cons] at hmore
      rcases stringChar_cases c with ⟨hc, hne⟩ | ⟨tail, hc⟩
      · rw [hc] at hmore
        exact absurd (List.cons.inj hmore).1.symm hne
      · rw [hc] at hmore
        cases hmore
  | cons a t ih =>
    rw [List.forall_mem_cons] at hplain
    obtain ⟨ha, hplain⟩ := hplain
    have hquote : a ≠ '"' := by
      rintro rfl
      cases ha
    have hmark : a ≠ '\\' := by
      rintro rfl
      cases ha
    rw [List.cons_append] at h
    cases cs with
    | nil =>
      rw [inner, List.flatMap_nil, List.nil_append, List.cons_prefix_cons] at h
      exact absurd h.1 hquote
    | cons c cs =>
      rw [inner, List.flatMap_cons] at h
      rcases stringChar_cases c with ⟨hc, -⟩ | ⟨tail, hc⟩
      · rw [hc, List.singleton_append, List.cons_append, List.cons_prefix_cons] at h
        rw [h.1, ih hplain h.2]
      · rw [hc, List.cons_append, List.cons_append, List.cons_prefix_cons] at h
        exact absurd h.1 hmark

/-! ## The scan -/

section Scan

variable (old new : List Char)

/-- Where no occurrence begins nothing is replaced. -/
theorem replaceChars_skip {xs : List Char} (h : '"' ∉ xs) (rest : List Char) :
    replaceChars ('"' :: old) new 0 (xs ++ rest) = xs ++ replaceChars ('"' :: old) new 0 rest := by
  induction xs with
  | nil => rfl
  | cons x xs ih =>
    rw [List.mem_cons, not_or] at h
    rw [List.cons_append, replaceChars, if_neg, ih h.2, List.cons_append]
    rw [List.isPrefixOf_iff_prefix, List.cons_prefix_cons]
    exact fun hprefix => h.1 hprefix.1

theorem replaceChars_covered (xs rest : List Char) :
    replaceChars old new xs.length (xs ++ rest) = replaceChars old new 0 rest := by
  induction xs with
  | nil => rfl
  | cons x xs ih => rw [List.cons_append, List.length_cons, replaceChars, ih]

/-- An occurrence is replaced, and the scan goes on behind it. -/
theorem replaceChars_hit (c : Char) (rest : List Char) :
    replaceChars (c :: old) new 0 (c :: old ++ rest) =
      new ++ replaceChars (c :: old) new 0 rest := by
  rw [List.cons_append, replaceChars, if_pos, List.length_cons, Nat.add_sub_cancel,
    replaceChars_covered]
  rw [List.isPrefixOf_iff_prefix, ← List.cons_append]
  exact List.prefix_append _ _

theorem replaceChars_miss {c : Char} {rest : List Char} (h : ¬ old <+: c :: rest) :
    replaceChars old new 0 (c :: rest) = c :: replaceChars old new 0 rest := by
  rw [replaceChars, if_neg (by rwa [List.isPrefixOf_iff_prefix])]

end Scan

/-! ## One token -/

/-- A token exchanged for a source where it is all that is left of a text behind a quote, or the whole
text; the flag tells that nothing or a quote stands in front. -/
def exchangeFrom (t source : List Char) : Bool → List Char → List Char
  | _, [] => []
  | fresh, c :: rest =>
    if fresh = true ∧ c :: rest = t then source
    else c :: exchangeFrom t source (c == '"') rest

/-- A text with the token at its end, behind a quote or as a whole, exchanged for a source. -/
def exchange (t source s : String) : String :=
  String.ofList (exchangeFrom t.toList source.toList true s.toList)

section Exchange

variable {t : List Char} (ht : IsToken t) (source : List Char)

include ht

/-- The closing quote of a text begins no quoted token. -/
theorem not_prefix_close {rest : List Char} (hrest : Bounded rest) :
    ¬ quoted t <+: '"' :: rest := by
  obtain ⟨u, rfl⟩ : ∃ u, t = 'e' :: u := by
    have hhead := ht.head
    cases t with
    | nil => cases hhead
    | cons c u =>
      cases hhead
      exact ⟨u, rfl⟩
  rw [quoted, ht.inner_eq, List.cons_prefix_cons]
  rintro ⟨-, more, hmore⟩
  exact (hrest 'e' (by rw [← hmore]; rfl)).2.2.1 rfl

/-- Replacing the quoted token in the characters of a text exchanges it in the text: from inside the
text, and from a quote in it or its opening quote. -/
theorem replaceChars_inner {rest : List Char} (hrest : Bounded rest) (cs : List Char) :
    replaceChars (quoted t) (quoted source) 0 (inner cs ++ '"' :: rest) =
        inner (exchangeFrom t source false cs) ++
          '"' :: replaceChars (quoted t) (quoted source) 0 rest ∧
      replaceChars (quoted t) (quoted source) 0 ('"' :: inner cs ++ '"' :: rest) =
        '"' :: inner (exchangeFrom t source true cs) ++
          '"' :: replaceChars (quoted t) (quoted source) 0 rest := by
  have hclose : replaceChars (quoted t) (quoted source) 0 ('"' :: rest) =
      '"' :: replaceChars (quoted t) (quoted source) 0 rest :=
    replaceChars_miss _ _ (not_prefix_close ht hrest)
  induction cs with
  | nil =>
    refine ⟨hclose, ?_⟩
    have hopen : ¬ quoted t <+: '"' :: '"' :: rest :=
      not_prefix_close ht (Json.bounded_cons (by decide))
    rw [inner, List.flatMap_nil, List.cons_append, List.nil_append,
      replaceChars_miss _ _ hopen, hclose]
    rfl
  | cons c cs ih =>
    obtain ⟨hinside, hquote⟩ := ih
    have hfirst : replaceChars (quoted t) (quoted source) 0 (inner (c :: cs) ++ '"' :: rest) =
        inner (exchangeFrom t source false (c :: cs)) ++
          '"' :: replaceChars (quoted t) (quoted source) 0 rest := by
      rw [exchangeFrom, if_neg (fun h => nomatch h.1)]
      simp only [inner, List.flatMap_cons, List.append_assoc]
      by_cases hc : c = '"'
      · subst hc
        have hmark : stringChar true '"' = ['\\'] ++ ['"'] := rfl
        rw [hmark, List.append_assoc, replaceChars_skip _ _ (by decide)]
        simp only [List.singleton_append]
        rw [List.cons_append] at hquote
        rw [hquote]
        rfl
      · have hflag : (c == '"') = false := by simpa using hc
        rw [replaceChars_skip _ _ (quote_not_mem_stringChar hc), hinside, hflag]
    refine ⟨hfirst, ?_⟩
    by_cases heq : c :: cs = t
    · -- the text from here on is the token, and its closing quote ends the quoted token
      have hhit := replaceChars_hit (inner t ++ ['"']) (quoted source) '"' rest
      rw [exchangeFrom, if_pos ⟨rfl, heq⟩, heq]
      simp only [quoted, List.cons_append, List.append_assoc, List.nil_append] at hhit ⊢
      exact hhit
    · have hmiss : ¬ quoted t <+: '"' :: (inner (c :: cs) ++ '"' :: rest) := by
        rw [quoted, ht.inner_eq, List.cons_prefix_cons]
        exact fun h => heq (eq_of_prefix_inner ht.plain h.2)
      have hsame : exchangeFrom t source true (c :: cs) = exchangeFrom t source false (c :: cs) := by
        rw [exchangeFrom, exchangeFrom, if_neg (fun h => heq h.2), if_neg (fun h => nomatch h.1)]
      rw [List.cons_append, replaceChars_miss _ _ hmiss, hfirst, hsame]
      rfl

end Exchange

section Values

variable {token : String} (source : String) {layout : JsonLayout}

/-- The scan of a text exchanges the token in it. -/
theorem replaceChars_stringChars (ht : IsToken token.toList) (hlayout : layout.asciiOnly = true)
    (s : String) {rest : List Char} (hrest : Bounded rest) :
    replaceChars (quoted token.toList) (quoted source.toList) 0
        (stringChars layout.asciiOnly s ++ rest) =
      stringChars layout.asciiOnly (exchange token source s) ++
        replaceChars (quoted token.toList) (quoted source.toList) 0 rest := by
  have hscan := (replaceChars_inner ht source.toList hrest s.toList).2
  rw [hlayout, stringChars, stringChars, exchange, String.toList_ofList]
  simp only [List.cons_append, List.append_assoc, List.nil_append] at hscan ⊢
  exact hscan

mutual
/-- Replacing the quoted token in the text of a value exchanges it in every text of the value. -/
theorem replaceChars_chars (ht : IsToken token.toList)
    (hlayout : layout.asciiOnly = true) : ∀ (v : Json) (level : Nat) {rest : List Char}, Bounded rest →
    replaceChars (quoted token.toList) (quoted source.toList) 0 (chars layout level v ++ rest) =
      chars layout level (v.mapTexts (exchange token source)) ++
        replaceChars (quoted token.toList) (quoted source.toList) 0 rest
  | .null, _, rest, _ => replaceChars_skip _ _ (show '"' ∉ "null".toList by decide) rest
  | .bool true, _, rest, _ => replaceChars_skip _ _ (show '"' ∉ "true".toList by decide) rest
  | .bool false, _, rest, _ => replaceChars_skip _ _ (show '"' ∉ "false".toList by decide) rest
  | .int n, _, rest, _ => replaceChars_skip _ _ ((isNumeral_intText n).not_mem rfl) rest
  | .float x, _, rest, _ => replaceChars_skip _ _ ((isNumeral_numberText x).not_mem rfl) rest
  | .str s, _, _, hrest => replaceChars_stringChars source ht hlayout s hrest
  | .arr [], _, rest, _ => replaceChars_skip _ _ (show '"' ∉ ['[', ']'] by decide) rest
  | .arr (v :: items), level, rest, _ => by
    have hclose : Bounded (lineBreak layout level ++ ']' :: rest) :=
      bounded_gap (isGap_lineBreak _ _) (bounded_cons (by decide))
    have hmore := bounded_items layout (level + 1) items hclose
    simp only [chars, mapTexts, mapItems, List.cons_append, List.append_assoc, List.nil_append]
    rw [replaceChars_miss _ _ (by simp), replaceChars_skip _ _ (quote_not_mem_lineBreak _ _),
      replaceChars_chars ht hlayout v _ hmore, replaceChars_itemsChars ht hlayout items _ hclose,
      replaceChars_skip _ _ (quote_not_mem_lineBreak _ _), replaceChars_miss _ _ (by simp)]
  | .obj [], _, rest, _ => replaceChars_skip _ _ (show '"' ∉ ['\x7b', '\x7d'] by decide) rest
  | .obj ((k, v) :: fields), level, rest, _ => by
    have hclose : Bounded (lineBreak layout level ++ '\x7d' :: rest) :=
      bounded_gap (isGap_lineBreak _ _) (bounded_cons (by decide))
    have hmore := bounded_fields layout (level + 1) fields hclose
    simp only [chars, mapTexts, mapFields, List.cons_append, List.append_assoc, List.nil_append]
    rw [replaceChars_miss _ _ (by simp), replaceChars_skip _ _ (quote_not_mem_lineBreak _ _),
      replaceChars_stringChars source ht hlayout k (bounded_cons (by decide)),
      replaceChars_miss _ _ (by simp), replaceChars_miss _ _ (by simp),
      replaceChars_chars ht hlayout v _ hmore, replaceChars_fieldsChars ht hlayout fields _ hclose,
      replaceChars_skip _ _ (quote_not_mem_lineBreak _ _), replaceChars_miss _ _ (by simp)]

theorem replaceChars_itemsChars (ht : IsToken token.toList)
    (hlayout : layout.asciiOnly = true) : ∀ (vs : List Json) (level : Nat) {rest : List Char}, Bounded rest →
    replaceChars (quoted token.toList) (quoted source.toList) 0
        (itemsChars layout level vs ++ rest) =
      itemsChars layout level (mapItems (exchange token source) vs) ++
        replaceChars (quoted token.toList) (quoted source.toList) 0 rest
  | [], _, _, _ => rfl
  | v :: vs, level, _, hrest => by
    have hmore := bounded_items layout level vs hrest
    simp only [itemsChars, mapItems, List.append_assoc]
    rw [replaceChars_skip _ _ (quote_not_mem_itemMark _ _), replaceChars_chars ht hlayout v _ hmore,
      replaceChars_itemsChars ht hlayout vs _ hrest]

theorem replaceChars_fieldsChars (ht : IsToken token.toList)
    (hlayout : layout.asciiOnly = true) : ∀ (fields : List (String × Json)) (level : Nat)
    {rest : List Char}, Bounded rest →
    replaceChars (quoted token.toList) (quoted source.toList) 0
        (fieldsChars layout level fields ++ rest) =
      fieldsChars layout level (mapFields (exchange token source) fields) ++
        replaceChars (quoted token.toList) (quoted source.toList) 0 rest
  | [], _, _, _ => rfl
  | (k, v) :: fields, level, _, hrest => by
    have hmore := bounded_fields layout level fields hrest
    simp only [fieldsChars, mapFields, List.cons_append, List.append_assoc, List.nil_append]
    rw [replaceChars_skip _ _ (quote_not_mem_itemMark _ _),
      replaceChars_stringChars source ht hlayout k (bounded_cons (by decide)),
      replaceChars_miss _ _ (by simp), replaceChars_miss _ _ (by simp),
      replaceChars_chars ht hlayout v _ hmore, replaceChars_fieldsChars ht hlayout fields _ hrest]
end

end Values

/-! ## Which texts change -/

/-- The text is the token, or ends in it behind a quote. -/
def Mentions (token s : String) : Prop :=
  s = token ∨ '"' :: token.toList <:+ s.toList

instance (token s : String) : Decidable (Mentions token s) := by
  unfold Mentions
  infer_instance

/-- Nothing, or something that ends in a quote. -/
def Opens (front : List Char) : Prop := front = [] ∨ ['"'] <:+ front

/-- What stands in front of a token that a text mentions. -/
theorem Mentions.front {token s : String} (h : Mentions token s) :
    ∃ front, Opens front ∧ s.toList = front ++ token.toList := by
  rcases h with rfl | ⟨front, hfront⟩
  · exact ⟨[], .inl rfl, rfl⟩
  · refine ⟨front ++ ['"'], .inr ⟨front, rfl⟩, ?_⟩
    rw [← hfront, List.append_assoc]
    rfl

section Exchange

variable {t : List Char} (source : List Char)

/-- A text that does not end in the token is left. -/
theorem exchangeFrom_of_not : ∀ (cs : List Char) (fresh : Bool), (fresh = true → cs ≠ t) →
    ¬ '"' :: t <:+ cs → exchangeFrom t source fresh cs = cs
  | [], _, _, _ => rfl
  | c :: cs, fresh, hwhole, hbehind => by
    rw [List.suffix_cons_iff, not_or] at hbehind
    have hnext : (c == '"') = true → cs ≠ t := by
      rintro hc rfl
      rw [beq_iff_eq] at hc
      exact hbehind.1 (by rw [hc])
    rw [exchangeFrom, if_neg (fun h => hwhole h.1 h.2), exchangeFrom_of_not cs _ hnext hbehind.2]

/-- The token at the end of a text is exchanged. -/
theorem exchangeFrom_append (hne : t ≠ []) {front : List Char} (hfront : Opens front)
    {fresh : Bool} (hfresh : front = [] → fresh = true) :
    exchangeFrom t source fresh (front ++ t) = front ++ source := by
  induction front generalizing fresh with
  | nil =>
    cases t with
    | nil => exact absurd rfl hne
    | cons c t => exact if_pos ⟨hfresh rfl, rfl⟩
  | cons c front ih =>
    have hlonger : ¬ (fresh = true ∧ c :: (front ++ t) = t) := by
      rintro ⟨-, h⟩
      have hlength := congrArg List.length h
      rw [List.length_cons, List.length_append] at hlength
      omega
    rw [List.cons_append, exchangeFrom, if_neg hlonger, List.cons_append]
    rcases hfront with h | hlast
    · cases h
    · rcases List.suffix_cons_iff.1 hlast with h | h
      · obtain ⟨rfl, rfl⟩ := List.cons.inj h
        exact congrArg ('"' :: ·) (ih (.inl rfl) fun _ => rfl)
      · rw [ih (.inr h) (fun hnil => absurd (hnil ▸ h.length_le) (by decide))]

/-- What stands before a source is left. -/
theorem exchangeFrom_keeps (ht : IsToken t) {front more : List Char} (hfront : Opens front)
    (fresh : Bool) : ∃ after,
    exchangeFrom t source fresh (front ++ 'd' :: more) = front ++ 'd' :: after := by
  induction front generalizing fresh with
  | nil =>
    rw [List.nil_append, exchangeFrom, if_neg]
    · exact ⟨_, rfl⟩
    · rintro ⟨-, rfl⟩
      cases ht.head
  | cons c front ih =>
    rcases hfront with h | hlast
    · cases h
    · have hquote : '"' ∈ c :: front := hlast.mem List.mem_cons_self
      have hother : ¬ (fresh = true ∧ c :: (front ++ 'd' :: more) = t) := by
        rintro ⟨-, rfl⟩
        exact ht.quote_not_mem (List.mem_append_left _ hquote)
      have hopens : Opens front := by
        rcases List.suffix_cons_iff.1 hlast with h | h
        · exact .inl (List.cons.inj h).2.symm
        · exact .inr h
      obtain ⟨after, hafter⟩ := ih hopens (c == '"')
      exact ⟨after, by rw [List.cons_append, exchangeFrom, if_neg hother, hafter, List.cons_append]⟩

end Exchange

section Exchange

variable {token source s : String}

theorem exchange_of_not (h : ¬ Mentions token s) : exchange token source s = s := by
  rw [Mentions, not_or] at h
  rw [exchange, exchangeFrom_of_not _ _ _ (fun _ hs => h.1 (String.toList_inj.1 hs)) h.2,
    String.ofList_toList]

theorem exchange_append (ht : IsToken token.toList) {front : List Char} (hfront : Opens front)
    (hs : s.toList = front ++ token.toList) :
    (exchange token source s).toList = front ++ source.toList := by
  rw [exchange, String.toList_ofList, hs,
    exchangeFrom_append _ ht.ne_nil hfront (fun _ => rfl)]

theorem exchange_self (ht : IsToken token.toList) : exchange token source token = source :=
  String.toList_inj.1 (exchange_append ht (.inl rfl) rfl)

end Exchange

/-! ## All tokens -/

/-- The entry stands for an embedded source under a token. -/
structure IsPlaceholder (e : String × String) : Prop where
  token : IsToken e.1.toList
  source : e.2.toList.head? = some 'd'

theorem IsPlaceholder.source_eq {e : String × String} (h : IsPlaceholder e) :
    ∃ more, e.2.toList = 'd' :: more := by
  have hhead := h.source
  cases hcs : e.2.toList with
  | nil => rw [hcs] at hhead; cases hhead
  | cons c more =>
    rw [hcs] at hhead
    cases hhead
    exact ⟨more, rfl⟩

/-- Replacing one quoted token in the text of a value. -/
theorem replaceChars_ascii {e : String × String} (he : IsPlaceholder e) (v : Json) :
    replaceChars (chars ⟨none, true⟩ 0 (.str e.1)) (chars ⟨none, true⟩ 0 (.str e.2)) 0
        (chars ⟨none, true⟩ 0 v) =
      chars ⟨none, true⟩ 0 (v.mapTexts (exchange e.1 e.2)) := by
  have hlayout : (⟨none, true⟩ : JsonLayout).asciiOnly = true := rfl
  have hscan := replaceChars_chars e.2 he.token hlayout v 0 bounded_nil
  rw [List.append_nil, replaceChars, List.append_nil] at hscan
  exact hscan

/-- A text with all tokens exchanged, one after another. -/
def restoreText (ps : Placeholders) (s : String) : String :=
  ps.foldl (fun s e => exchange e.1 e.2 s) s

section Placeholders

variable {ps : Placeholders} (hps : ∀ e ∈ ps, IsPlaceholder e)

include hps

/-- What stands before a source stays when all tokens are exchanged. -/
theorem restoreText_keeps {front more : List Char} (hfront : Opens front) {s : String}
    (hs : s.toList = front ++ 'd' :: more) :
    ∃ after, (restoreText ps s).toList = front ++ 'd' :: after := by
  induction ps generalizing s more with
  | nil => exact ⟨more, hs⟩
  | cons e ps ih =>
    rw [List.forall_mem_cons] at hps
    obtain ⟨after, hafter⟩ := exchangeFrom_keeps e.2.toList hps.1.token hfront true
    have hnext : (exchange e.1 e.2 s).toList = front ++ 'd' :: after := by
      rw [exchange, String.toList_ofList, hs, hafter]
    exact ih hps.2 hnext

/-- No exchange is undone by the later ones: the texts that are left are those without a token. -/
theorem restoreText_eq_iff (s : String) :
    restoreText ps s = s ↔ ∀ e ∈ ps, ¬ Mentions e.1 s := by
  induction ps generalizing s with
  | nil => exact ⟨fun _ => List.forall_mem_nil _, fun _ => rfl⟩
  | cons e ps ih =>
    rw [List.forall_mem_cons] at hps ⊢
    change restoreText ps (exchange e.1 e.2 s) = s ↔ _
    by_cases hmentions : Mentions e.1 s
    · refine iff_of_false ?_ fun h => h.1 hmentions
      obtain ⟨front, hfront, hs⟩ := hmentions.front
      obtain ⟨more, hsource⟩ := hps.1.source_eq
      obtain ⟨after, hafter⟩ := restoreText_keeps hps.2 hfront (s := exchange e.1 e.2 s)
        (by rw [exchange_append hps.1.token hfront hs, hsource])
      intro heq
      rw [heq, hs] at hafter
      have hhead := hps.1.token.head
      rw [List.append_cancel_left hafter] at hhead
      cases hhead
    · rw [exchange_of_not hmentions, ih hps.2]
      exact ⟨fun h => ⟨hmentions, h⟩, And.right⟩

/-- Every token is replaced by its source when no source mentions a later token. -/
theorem restoreText_tokens_iff (hnodup : (Table.keys ps).Nodup) :
    (∀ e ∈ ps, restoreText ps e.1 = e.2) ↔ ps.Pairwise fun p q => ¬ Mentions q.1 p.2 := by
  induction ps with
  | nil => exact iff_of_true (List.forall_mem_nil _) .nil
  | cons e ps ih =>
    rw [List.forall_mem_cons] at hps
    obtain ⟨hfirst, hrest⟩ := List.nodup_cons.1 hnodup
    have hhead : restoreText (e :: ps) e.1 = restoreText ps e.2 := by
      change restoreText ps (exchange e.1 e.2 e.1) = _
      rw [exchange_self hps.1.token]
    have htail : ∀ f ∈ ps, restoreText (e :: ps) f.1 = restoreText ps f.1 := by
      intro f hf
      have hother : ¬ Mentions e.1 f.1 := by
        rintro (h | h)
        · exact hfirst (h ▸ List.mem_map_of_mem hf)
        · exact (hps.2 f hf).token.quote_not_mem (h.mem List.mem_cons_self)
      change restoreText ps (exchange e.1 e.2 f.1) = _
      rw [exchange_of_not hother]
    rw [List.forall_mem_cons, hhead, restoreText_eq_iff hps.2, List.pairwise_cons,
      ← ih hps.2 hrest]
    exact and_congr_right fun _ => forall₂_congr fun f hf => by rw [htail f hf]

theorem restore_ascii (v : Json) :
    restore v.ascii ps = (v.mapTexts (restoreText ps)).ascii := by
  rw [restore, ascii, write, String.toList_ofList]
  change String.ofList _ = String.ofList _
  congr 1
  induction ps generalizing v with
  | nil =>
    have hsame : v.mapTexts (restoreText []) = v := (mapTexts_eq_iff v).2 fun _ _ => rfl
    rw [hsame]
    rfl
  | cons e ps ih =>
    obtain ⟨token, source⟩ := e
    rw [List.forall_mem_cons] at hps
    rw [List.foldl_cons]
    dsimp only
    rw [replaceChars_ascii hps.1, ih hps.2, mapTexts_mapTexts]
    rfl

end Placeholders

end Gamebook.Extension
