import Gamebook.Extension.Review
import Gamebook.Proofs.Text.Trim

/-!
# Documents in a fence

A fenced text is the mark of a fence, a tag or none, blanks and a line break, the body, and the mark on a
line of its own.  The blanks may end at any of the line breaks in front of the body, so that a text is
fenced in several ways; but they all have the same body between its outer blanks.

* `Fenced`                   : a text is a fence around a body.
* `exists_unfence?`          : what is taken out of a fence.
* `unfence?_eq_none_iff`     : out of what nothing is taken.
* `documentText_of_fenced`, `documentText_of_plain` : the text of a document with and without a fence.
* `readResponse_fenced`      : a fence around a response makes no difference.
-/

set_option autoImplicit false

namespace Gamebook.Extension

open Text

/-! ## Fences -/

/-- A text is a fence around a body. -/
def Fenced (cs body : List Char) : Prop :=
  ∃ tag blanks, (tag = [] ∨ tag = "json".toList) ∧ (∀ c ∈ blanks, isBlank c = true) ∧
    cs = fenceMark ++ (tag ++ (blanks ++ '\n' :: (body ++ '\n' :: fenceMark)))

variable {cs inside body : List Char}

theorem beforeClosing?_eq_some_iff : beforeClosing? cs = some inside ↔ cs = inside ++ '\n' :: fenceMark := by
  have hback : (fenceMark ++ ['\n']).reverse = '\n' :: fenceMark := rfl
  unfold beforeClosing?
  dsimp only
  split
  · rename_i hprefix
    obtain ⟨front, hfront⟩ := List.isPrefixOf_iff_prefix.1 hprefix
    have hcs : cs = front.reverse ++ '\n' :: fenceMark := by
      rw [← cs.reverse_reverse, ← hfront, List.reverse_append, hback]
    rw [← hfront, List.drop_left, Option.some.injEq, hcs, List.append_cancel_right_eq]
  · rename_i hprefix
    refine iff_of_false (fun h => by cases h) ?_
    rintro rfl
    apply hprefix
    rw [List.isPrefixOf_iff_prefix, List.reverse_append, ← hback, List.reverse_reverse]
    exact List.prefix_append _ _

/-- A tag is passed over where there is one. -/
theorem afterTag_spec (cs : List Char) :
    ∃ tag, (tag = [] ∨ tag = "json".toList) ∧ cs = tag ++ afterTag cs := by
  unfold afterTag
  split
  · rename_i htag
    obtain ⟨rest, rfl⟩ := List.isPrefixOf_iff_prefix.1 htag
    exact ⟨_, .inr rfl, rfl⟩
  · exact ⟨[], .inl rfl, rfl⟩

theorem afterTag_append {tag : List Char} (htag : tag = [] ∨ tag = "json".toList) {blanks : List Char}
    (hblanks : ∀ c ∈ blanks, isBlank c = true) (rest : List Char) :
    afterTag (tag ++ (blanks ++ '\n' :: rest)) = blanks ++ '\n' :: rest := by
  rcases htag with rfl | rfl
  · -- What begins with a blank does not begin with the tag.
    cases blanks with
    | nil => rfl
    | cons c blanks =>
      have hc : isBlank c = true := hblanks c List.mem_cons_self
      have hj : c ≠ 'j' := by
        rintro rfl
        exact absurd hc (by decide)
      have hne : ¬ ("json".toList.isPrefixOf (c :: (blanks ++ '\n' :: rest)) = true) := by
        rw [List.isPrefixOf_iff_prefix]
        intro hprefix
        exact hj (List.cons_prefix_cons.1 hprefix).1.symm
      exact if_neg hne
  · rfl

/-- The blanks in front of a text hold a line break. -/
theorem newline_mem_takeWhile_iff : '\n' ∈ inside.takeWhile isBlank ↔
    ∃ blanks body, (∀ c ∈ blanks, isBlank c = true) ∧ inside = blanks ++ '\n' :: body := by
  constructor
  · intro h
    obtain ⟨blanks, more, hsplit⟩ := List.append_of_mem h
    have hall : ∀ c ∈ inside.takeWhile isBlank, isBlank c = true := List.all_eq_true.1 List.all_takeWhile
    refine ⟨blanks, more ++ inside.dropWhile isBlank, fun c hc => hall c ?_, ?_⟩
    · rw [hsplit]
      exact List.mem_append_left _ hc
    · have hself := List.takeWhile_append_dropWhile (p := isBlank) (l := inside)
      rw [hsplit, List.append_assoc, List.cons_append] at hself
      exact hself.symm
  · rintro ⟨blanks, body, hblanks, rfl⟩
    rw [List.takeWhile_append_of_pos hblanks, List.takeWhile_cons_of_pos (by decide)]
    exact List.mem_append_right _ List.mem_cons_self

/-- Out of a fence the body is taken, with blanks in front of it. -/
theorem exists_unfence? (h : Fenced cs body) :
    ∃ blanks, (∀ c ∈ blanks, isBlank c = true) ∧ unfence? cs = some (blanks ++ body) := by
  obtain ⟨tag, blanks, htag, hblanks, rfl⟩ := h
  have hopening : fenceMark.isPrefixOf
      (fenceMark ++ (tag ++ (blanks ++ '\n' :: (body ++ '\n' :: fenceMark)))) = true :=
    List.isPrefixOf_iff_prefix.2 (List.prefix_append _ _)
  have hclosing : beforeClosing? (blanks ++ '\n' :: (body ++ '\n' :: fenceMark)) =
      some (blanks ++ '\n' :: body) := by
    rw [beforeClosing?_eq_some_iff, List.append_assoc, List.cons_append]
  have hbreak : ((blanks ++ '\n' :: body).takeWhile isBlank).contains '\n' = true := by
    rw [List.contains_iff_mem, newline_mem_takeWhile_iff]
    exact ⟨blanks, body, hblanks, rfl⟩
  refine ⟨blanks ++ ['\n'], ?_, ?_⟩
  · rw [List.forall_mem_append, List.forall_mem_singleton]
    exact ⟨hblanks, by decide⟩
  · unfold unfence?
    rw [hopening, List.drop_left, afterTag_append htag hblanks, hclosing]
    simp only [Bool.not_true, bind, Option.bind, hbreak]
    rw [List.append_assoc]
    rfl

theorem fenced_of_unfence? (h : unfence? cs = some inside) : ∃ body, Fenced cs body := by
  unfold unfence? at h
  split at h
  · cases h
  · rename_i hmark
    obtain ⟨rest, rfl⟩ : fenceMark <+: cs := List.isPrefixOf_iff_prefix.1 (by simpa using hmark)
    rw [List.drop_left] at h
    obtain ⟨tag, htag, hrest⟩ := afterTag_spec rest
    cases hclosing : beforeClosing? (afterTag rest) with
    | none =>
      rw [hclosing] at h
      cases h
    | some found =>
      rw [hclosing] at h
      have hbreak : '\n' ∈ found.takeWhile isBlank := by
        rw [← List.contains_iff_mem]
        by_contra hne
        rw [Bool.not_eq_true] at hne
        simp only [bind, Option.bind, hne] at h
        cases h
      obtain ⟨blanks, body, hblanks, rfl⟩ := newline_mem_takeWhile_iff.1 hbreak
      refine ⟨body, tag, blanks, htag, hblanks, ?_⟩
      rw [hrest, beforeClosing?_eq_some_iff.1 hclosing, List.append_assoc, List.cons_append]

/-- Nothing is taken out of what is not fenced. -/
theorem unfence?_eq_none_iff : unfence? cs = none ↔ ∀ body, ¬ Fenced cs body := by
  constructor
  · intro h body hbody
    obtain ⟨blanks, -, hinside⟩ := exists_unfence? hbody
    rw [h] at hinside
    cases hinside
  · intro h
    rw [Option.eq_none_iff_forall_ne_some]
    intro inside hinside
    obtain ⟨body, hbody⟩ := fenced_of_unfence? hinside
    exact h body hbody

/-! ## Documents -/

theorem documentText_of_fenced {response : String}
    (h : Fenced (trimList isBlank response.toList) body) :
    documentText response = String.ofList (trimList isBlank body) := by
  obtain ⟨blanks, hblanks, hinside⟩ := exists_unfence? h
  unfold documentText
  dsimp only
  rw [hinside]
  dsimp only
  rw [trimList_append_left hblanks]

theorem documentText_of_plain {response : String}
    (h : ∀ body, ¬ Fenced (trimList isBlank response.toList) body) :
    documentText response = String.ofList (trimList isBlank response.toList) := by
  unfold documentText
  dsimp only
  rw [unfence?_eq_none_iff.2 h]

/-! ## Responses -/

/-- A fence around a text, with blanks around the fence, is a fence without the blanks around it. -/
theorem fenced_trimList {before tag blanks after : List Char}
    (hbefore : ∀ c ∈ before, isBlank c = true) (htag : tag = [] ∨ tag = "json".toList)
    (hblanks : ∀ c ∈ blanks, isBlank c = true) (hafter : ∀ c ∈ after, isBlank c = true)
    (body : List Char) :
    Fenced (trimList isBlank (before ++ ((fenceMark ++ (tag ++ (blanks ++ '\n' :: (body ++ '\n' :: fenceMark))))
      ++ after))) body := by
  have hends : fenceMark ++ (tag ++ (blanks ++ '\n' :: (body ++ '\n' :: fenceMark))) =
      '\x60' :: (('\x60' :: '\x60' :: (tag ++ (blanks ++ '\n' :: (body ++ ['\n', '\x60', '\x60'])))) ++
        ['\x60']) := by
    simp [fenceMark]
  have hmark : isBlank '\x60' = false := by decide
  refine ⟨tag, blanks, htag, hblanks, ?_⟩
  rw [trimList_around hbefore hafter, hends, trimList_of_ends hmark hmark]

/-- A fence around a response makes no difference: with a tag or without one, and with any blanks
behind the tag and around the fence, the same document is read, or the response is rejected with the
same reason. -/
theorem readResponse_fenced {before tag gap after t : String}
    (htag : tag = "" ∨ tag = "json") (hgap : ∀ c ∈ gap.toList, isBlank c = true)
    (hbefore : ∀ c ∈ before.toList, isBlank c = true) (hafter : ∀ c ∈ after.toList, isBlank c = true)
    (ht : ∀ body, ¬ Fenced (trimList isBlank t.toList) body) :
    readResponse (before ++ "\x60\x60\x60" ++ tag ++ gap ++ "\n" ++ t ++ "\n\x60\x60\x60" ++ after) =
      readResponse t := by
  have htagList : tag.toList = [] ∨ tag.toList = "json".toList := htag.imp (congrArg _) (congrArg _)
  have htext : (before ++ "\x60\x60\x60" ++ tag ++ gap ++ "\n" ++ t ++ "\n\x60\x60\x60" ++ after).toList =
      before.toList ++ ((fenceMark ++ (tag.toList ++ (gap.toList ++ '\n' :: (t.toList ++
        '\n' :: fenceMark)))) ++ after.toList) := by
    simp [fenceMark]
  have hdocument : documentText (before ++ "\x60\x60\x60" ++ tag ++ gap ++ "\n" ++ t ++ "\n\x60\x60\x60" ++
      after) = documentText t := by
    rw [documentText_of_plain ht]
    apply documentText_of_fenced
    rw [htext]
    exact fenced_trimList hbefore htagList hgap hafter t.toList
  unfold readResponse
  rw [hdocument]

/-- A response that begins with a blank line, and has a fence within a text. -/
theorem readResponse_fenced_inner :
    readResponse (" \n" ++ "\x60\x60\x60" ++ "json" ++ "\t\n" ++ "\n" ++ "\n[\"\x60\x60\x60json\", 1]\n" ++
        "\n\x60\x60\x60" ++ "\r\n") =
      readResponse "\n[\"\x60\x60\x60json\", 1]\n" := by
  have hbefore : ∀ c ∈ " \n".toList, isBlank c = true := List.all_eq_true.1 rfl
  have hgap : ∀ c ∈ "\t\n".toList, isBlank c = true := List.all_eq_true.1 rfl
  have hafter : ∀ c ∈ "\r\n".toList, isBlank c = true := List.all_eq_true.1 rfl
  refine readResponse_fenced (.inr rfl) hgap hbefore hafter ?_
  rintro body ⟨tag, blanks, -, -, h⟩
  cases h

end Gamebook.Extension
