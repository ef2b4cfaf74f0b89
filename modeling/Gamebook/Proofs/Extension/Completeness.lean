import Gamebook.Proofs.Extension.Content

/-!
# Completeness of the review

The review refuses nothing without a reason: where no check has something against an answer, the story
that is loaded from it is given.

* `checkKept_ok`, `checkUnchanged_ok` and the like : what each check of the review asks for.
* `check_of_loadedFrom`    : a document is loaded when each of its fields is.
* `reviewDocument_of_judged` : an answer that passes every check is adopted.
-/

set_option autoImplicit false

namespace Gamebook.Extension

/-! ## What the checks ask for -/

section Checks

variable {id : String}

theorem checkKept_ok {sections baseline : Table Json}
    (h : ∀ id ∈ baseline.keys, sections.has id = true) : checkKept sections baseline = .ok () := by
  have hnone : baseline.keys.find? (fun id => !sections.has id) = none := by
    rw [List.find?_eq_none]
    intro id hid
    rw [h id hid]
    decide
  unfold checkKept
  rw [hnone]

theorem checkAllUnchanged_ok {sections : Table Json} {baseline : List (String × Json)}
    (h : ∀ e ∈ baseline, checkUnchanged e.1 e.2 ((Json.obj sections).field e.1) = .ok ()) :
    checkAllUnchanged sections baseline = .ok () := by
  induction baseline with
  | nil => rfl
  | cons e rest ih =>
    obtain ⟨key, former⟩ := e
    rw [List.forall_mem_cons] at h
    unfold checkAllUnchanged
    rw [h.1]
    exact ih h.2

theorem checkUnchanged_ok {former : Json} {fields : Table Json} {old new : List Json}
    (hfrozen : ∀ key ∈ frozenFields, (former.field key).same ((Json.obj fields).field key) = true)
    (hold : choiceList id former = .ok old) (hnew : choiceList id (.obj fields) = .ok new)
    (hlength : old.length ≤ new.length) (hchoices : checkChoices id 0 old new = .ok ()) :
    checkUnchanged id former (.obj fields) = .ok () := by
  have hnone : changedField? former (.obj fields) = none := by
    unfold changedField?
    rw [List.find?_eq_none]
    intro key hkey
    rw [hfrozen key hkey]
    decide
  unfold checkUnchanged
  simp only [hnone, hold, hnew, bind, Except.bind, if_neg (Nat.not_lt.2 hlength)]
  exact hchoices

theorem checkExtended_ok {sections baseline : Table Json} {former candidate : Json}
    {old new : List Json} (hformer : baseline.get? id = some former)
    (hcandidate : sections.get? id = some candidate) (hold : choiceList id former = .ok old)
    (hnew : choiceList id candidate = .ok new) (hlength : old.length < new.length) :
    checkExtended sections baseline id = .ok () := by
  unfold checkExtended
  simp only [hformer, hcandidate, hold, hnew, bind, Except.bind, if_neg (Nat.not_le.2 hlength)]
  rfl

theorem checkTargets_ok {sections : Table Json} {choices : List Json}
    (h : ∀ c ∈ choices, ∃ target, choiceTarget id c = .ok target ∧ sections.has target = true) :
    checkTargets sections id choices = .ok () := by
  induction choices with
  | nil => rfl
  | cons c rest ih =>
    rw [List.forall_mem_cons] at h
    obtain ⟨⟨target, htarget, hhas⟩, hrest⟩ := h
    unfold checkTargets
    simp only [htarget, bind, Except.bind, if_pos hhas]
    exact ih hrest

theorem checkGraph_ok {sections : Table Json} {entries : List (String × Json)}
    (h : ∀ e ∈ entries, ∃ fields choices, e.2 = .obj fields ∧ choiceList e.1 e.2 = .ok choices ∧
      ∀ c ∈ choices, ∃ target, choiceTarget e.1 c = .ok target ∧ sections.has target = true) :
    checkGraph sections entries = .ok () := by
  induction entries with
  | nil => rfl
  | cons e rest ih =>
    obtain ⟨key, section_⟩ := e
    rw [List.forall_mem_cons] at h
    obtain ⟨⟨fields, choices, hfields, hchoices, htargets⟩, hrest⟩ := h
    dsimp only at hfields hchoices htargets
    subst hfields
    unfold checkGraph
    simp only [hchoices, bind, Except.bind, checkTargets_ok htargets]
    exact ih hrest

theorem checkNew_ok {former : Story} {entries : List (String × Section)}
    (h : ∀ e ∈ entries, former.hasSection e.1 = false → e.2.id = e.1 ∧ e.2.hasText = true) :
    checkNew former entries = .ok () := by
  induction entries with
  | nil => rfl
  | cons e rest ih =>
    obtain ⟨key, section_⟩ := e
    rw [List.forall_mem_cons] at h
    obtain ⟨hfirst, hrest⟩ := h
    unfold checkNew
    cases hhas : former.hasSection key with
    | true => exact ih hrest
    | false =>
      obtain ⟨hid, htext⟩ := hfirst hhas
      dsimp only at hid htext
      simp only [hid, htext, bne_self_eq_false, Bool.not_true, Bool.false_eq_true, if_false]
      exact ih hrest

/-! ## Choices that are kept -/

theorem sameChoice_ok {a : Choice} (ha : choiceCodec.Proper a) {fields : Table Json}
    (hlabel : choiceLabel (.obj fields) = .str a.label)
    (htarget : choiceTarget id (.obj fields) = .ok a.target) :
    sameChoice id a.toJson (.obj fields) = .ok true := by
  unfold sameChoice
  have hsame : (choiceLabel a.toJson).same (choiceLabel (.obj fields)) = true := by
    rw [choiceLabel_toJson a ha, hlabel, Json.same_str_iff]
  simp only [hsame, if_true, choiceTarget_toJson id a, htarget, bind, Except.bind, pure,
    Except.pure, beq_self_eq_true]

/-- Former choices stand at the front of choices that begin with their labels and targets, whatever
comes behind them. -/
theorem checkChoices_ok {formers cs : List Choice} (hformers : ∀ a ∈ formers, choiceCodec.Proper a)
    (hcs : ∀ c ∈ cs, choiceCodec.Proper c) (h : formers.map pairOf <+: cs.map pairOf)
    (more : List Json) (position : Nat) :
    checkChoices id position (formers.map Choice.toJson) (cs.map Choice.toJson ++ more) = .ok () := by
  induction formers generalizing cs position with
  | nil => rfl
  | cons a formers ih =>
    cases cs with
    | nil => simp at h
    | cons c cs =>
      rw [List.forall_mem_cons] at hformers hcs
      rw [List.map_cons, List.map_cons, List.cons_prefix_cons] at h
      obtain ⟨hpair, hprefix⟩ := h
      have hlabel : a.label = c.label := congrArg Prod.fst hpair
      have htarget : a.target = c.target := congrArg Prod.snd hpair
      obtain ⟨fields, hfields⟩ : ∃ fields, c.toJson = .obj fields := ⟨_, choice_record.write_eq c⟩
      have hsame : sameChoice id a.toJson c.toJson = .ok true := by
        rw [hfields]
        apply sameChoice_ok hformers.1
        · rw [← hfields, choiceLabel_toJson c hcs.1, hlabel]
        · rw [← hfields, choiceTarget_toJson id c, htarget]
      rw [List.map_cons, List.map_cons, List.cons_append, checkChoices]
      simp only [hsame, bind, Except.bind, if_true]
      exact ih hformers.2 hcs.2 hprefix (position + 1)

end Checks

/-! ## The document that is loaded -/

theorem unknown_dropping (t : Table Json) {dropped : List String} (hdropped : dropped ⊆ Story.declared) :
    Check.unknown (t.filterKeys fun key => !dropped.contains key) Story.declared =
      Check.unknown t Story.declared :=
  Check.unknown_filterKeys t fun key hkey => by simpa using fun hdrop => hkey (hdropped hdrop)

/-- The undeclared fields of the document that is loaded: the answer's, and the former ones over them. -/
theorem unknown_adopted {former : Story} (hformer : former.Proper) (response : Table Json) :
    Check.unknown (adopted former response) Story.declared =
      Table.merge (Check.unknown response Story.declared) former.settled.extra := by
  have hformerEq : Check.unknown (fieldsOf former) Story.declared = former.settled.extra :=
    hformer.extra.unknown_written former.slots rfl
  have hmerge : Check.unknown
      (Table.merge (response.filterKeys fun key => !notTheWriters.contains key)
        ((fieldsOf former).filterKeys fun key => !notKept.contains key)) Story.declared =
      Table.merge (Check.unknown response Story.declared) former.settled.extra := by
    have hsplit := Table.filterKeys_merge
      (response.filterKeys fun key => !notTheWriters.contains key)
      ((fieldsOf former).filterKeys fun key => !notKept.contains key)
      fun key => !Story.declared.contains key
    have hown := unknown_dropping response (by decide : notTheWriters ⊆ Story.declared)
    have hkept := unknown_dropping (fieldsOf former) (by decide : notKept ⊆ Story.declared)
    unfold Check.unknown at hown hkept hformerEq ⊢
    rw [hsplit, hown, hkept, hformerEq]
  unfold adopted adopt
  dsimp only
  split
  · rw [unknown_put _ _ (by decide), hmerge]
  · exact hmerge

theorem grownMeta_plain (former : Story) {characters : Json}
    (h : ∀ e rest, characters = .obj (e :: rest) → False) :
    grownMeta? former characters = former.metadata.get?.map Metadata.toJson := by
  unfold grownMeta?
  split
  · exact absurd rfl (h _ _)
  · rfl

/-! ## The review -/

theorem get?_sectionsJson (s : Story) (id : String) :
    Table.get? s.sectionsJson id = (s.section? id).map Section.toJson :=
  Table.get?_mapValues s.sections Section.toJson id

theorem has_sectionsJson (s : Story) (id : String) :
    Table.has s.sectionsJson id = s.hasSection id := by
  unfold Table.has
  rw [get?_sectionsJson, Option.isSome_map]
  rfl

theorem check_of_loadedFrom {fields : Table Json} {s : Story} (h : LoadedFrom fields s) :
    Story.check (.obj fields) = .ok s := by
  obtain ⟨metadata, state, sections, definitions, extra⟩ := s
  obtain ⟨hmetadata, hstate, hsections, hdefinitions, hextra⟩ := h
  dsimp only at hmetadata hstate hsections hdefinitions hextra
  subst hextra
  exact Checked.seq_of (Checked.seq_of (Checked.seq_of (Checked.map_of hmetadata) hstate) hsections)
    hdefinitions

/-- An answer that passes every check is adopted. -/
theorem reviewDocument_of_judged {former s : Story} {fields sections : Table Json} {x : String}
    (hwritable : former.isWritable = true)
    (hsections : Table.get? fields "sections" = some (.obj sections))
    (h : Judged former sections fields x s) :
    reviewDocument former (.obj fields) x = .ok (.ok s) := by
  have hjudge : judgeSections former (former.toJson.asObj?.getD []) sections fields x = .ok s := by
    unfold judgeSections
    simp only [h.kept, h.unchanged, h.extended, h.graph, h.loaded, h.new, bind, Except.bind, pure,
      Except.pure]
  unfold reviewDocument Story.write
  simp only [Json.field_of_get? hsections, if_pos hwritable, Except.map, hjudge]

end Gamebook.Extension
