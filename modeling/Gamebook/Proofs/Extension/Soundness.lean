import Gamebook.Proofs.Extension.Unchanged
import Gamebook.Proofs.Story.Reload
import Gamebook.Story.Graph

/-!
# Soundness of the review

* `of_checkUnchanged`, `of_checkGraph` and the like : what each check of the review has established.
* `get?_adopt`     : the fields of the document that is loaded.
* `KeepsRest`      : what of the former story is not up to the writer.
* `IsExtension`    : how an adopted story extends the former one.
* `review_sound`   : every story that the review gives is such an extension.
-/

set_option autoImplicit false

namespace Gamebook.Extension

/-! ## What the checks establish -/

section Checks

variable {id : String}

theorem of_checkKept {sections baseline : Table Json} (h : checkKept sections baseline = .ok ()) :
    ∀ id ∈ baseline.keys, sections.has id = true := by
  unfold checkKept at h
  split at h
  · cases h
  · rename_i hnone
    simpa using hnone

theorem of_checkAllUnchanged {sections : Table Json} {baseline : List (String × Json)}
    (h : checkAllUnchanged sections baseline = .ok ()) :
    ∀ e ∈ baseline, checkUnchanged e.1 e.2 ((Json.obj sections).field e.1) = .ok () := by
  induction baseline with
  | nil => exact List.forall_mem_nil _
  | cons e rest ih =>
    obtain ⟨key, former⟩ := e
    unfold checkAllUnchanged at h
    simp only [bind, Except.bind] at h
    split at h
    · cases h
    · rename_i hfirst
      exact List.forall_mem_cons.2 ⟨hfirst, ih h⟩

theorem of_checkUnchanged {former candidate : Json} (h : checkUnchanged id former candidate = .ok ()) :
    (∃ fields, candidate = .obj fields) ∧
      (∀ key ∈ frozenFields, (former.field key).same (candidate.field key) = true) ∧
      ∃ old new, choiceList id former = .ok old ∧ choiceList id candidate = .ok new ∧
        checkChoices id 0 old new = .ok () := by
  unfold checkUnchanged at h
  split at h
  · rename_i fields
    split at h
    · cases h
    · rename_i hnone
      simp only [bind, Except.bind] at h
      split at h
      · cases h
      · rename_i old hold
        split at h
        · cases h
        · rename_i new hnew
          split at h
          · cases h
          · refine ⟨⟨fields, rfl⟩, ?_, old, new, hold, hnew, h⟩
            unfold changedField? at hnone
            simpa using hnone
  · cases h

theorem of_checkExtended {sections baseline : Table Json}
    (h : checkExtended sections baseline id = .ok ()) :
    ∃ former candidate old new, baseline.get? id = some former ∧
      sections.get? id = some candidate ∧ choiceList id former = .ok old ∧
      choiceList id candidate = .ok new ∧ old.length < new.length := by
  unfold checkExtended at h
  split at h
  · rename_i former candidate hformer hcandidate
    simp only [bind, Except.bind] at h
    split at h
    · cases h
    · rename_i old hold
      split at h
      · cases h
      · rename_i new hnew
        split at h
        · cases h
        · rename_i hlength
          exact ⟨former, candidate, old, new, hformer, hcandidate, hold, hnew, Nat.lt_of_not_le hlength⟩
  · cases h

theorem of_checkTargets {sections : Table Json} {choices : List Json}
    (h : checkTargets sections id choices = .ok ()) :
    ∀ c ∈ choices, ∃ target, choiceTarget id c = .ok target ∧ sections.has target = true := by
  induction choices with
  | nil => exact List.forall_mem_nil _
  | cons c rest ih =>
    unfold checkTargets at h
    simp only [bind, Except.bind] at h
    split at h
    · cases h
    · rename_i target htarget
      split at h
      · rename_i hhas
        exact List.forall_mem_cons.2 ⟨⟨target, htarget, hhas⟩, ih h⟩
      · cases h

theorem of_checkGraph {sections : Table Json} {entries : List (String × Json)}
    (h : checkGraph sections entries = .ok ()) :
    ∀ e ∈ entries, ∃ choices, choiceList e.1 e.2 = .ok choices ∧
      ∀ c ∈ choices, ∃ target, choiceTarget e.1 c = .ok target ∧ sections.has target = true := by
  induction entries with
  | nil => exact List.forall_mem_nil _
  | cons e rest ih =>
    obtain ⟨key, section_⟩ := e
    unfold checkGraph at h
    split at h
    · simp only [bind, Except.bind] at h
      split at h
      · cases h
      · rename_i choices hchoices
        split at h
        · cases h
        · rename_i htargets
          exact List.forall_mem_cons.2 ⟨⟨choices, hchoices, of_checkTargets htargets⟩, ih h⟩
    · cases h

theorem of_checkNew {former : Story} {entries : List (String × Section)}
    (h : checkNew former entries = .ok ()) :
    ∀ e ∈ entries, former.hasSection e.1 = false → e.2.id = e.1 ∧ e.2.hasText = true := by
  induction entries with
  | nil => exact List.forall_mem_nil _
  | cons e rest ih =>
    obtain ⟨key, section_⟩ := e
    unfold checkNew at h
    rw [List.forall_mem_cons]
    split at h
    · rename_i hold
      exact ⟨fun hnew => absurd hold (by simp [hnew]), ih h⟩
    · split at h
      · cases h
      · rename_i hid
        split at h
        · cases h
        · rename_i htext
          exact ⟨fun _ => ⟨by simpa using hid, by simpa using htext⟩, ih h⟩

end Checks

/-- What the review of an answer's document has established. -/
structure Judged (former : Story) (sections response : Table Json) (x : String) (s : Story) : Prop where
  kept : checkKept sections former.sectionsJson = .ok ()
  unchanged : checkAllUnchanged sections former.sectionsJson = .ok ()
  extended : checkExtended sections former.sectionsJson x = .ok ()
  graph : checkGraph sections sections = .ok ()
  loaded : Story.check (.obj (adopt (former.toJson.asObj?.getD []) response)) = .ok s
  new : checkNew former s.sections = .ok ()

theorem of_judgeSections {former s : Story} {document sections response : Table Json} {x : String}
    (hdocument : document = former.toJson.asObj?.getD [])
    (h : judgeSections former document sections response x = .ok s) :
    Judged former sections response x s := by
  unfold judgeSections at h
  simp only [bind, Except.bind] at h
  split at h
  · cases h
  · rename_i hkept
    split at h
    · cases h
    · rename_i hunchanged
      split at h
      · cases h
      · rename_i hextended
        split at h
        · cases h
        · rename_i hgraph
          split at h
          · cases h
          · rename_i story hloaded
            split at h
            · cases h
            · rename_i hnew
              cases h
              rw [hdocument] at hloaded
              exact ⟨hkept, hunchanged, hextended, hgraph, hloaded, hnew⟩

theorem review_of_read {text : String} {v : Json} (hread : readResponse text = .ok v) (former : Story)
    (x : String) : review former text x = reviewDocument former v x := by
  unfold review
  rw [hread]

/-- An accepted answer is an object with sections. -/
theorem of_review {former s : Story} {response x : String}
    (h : review former response x = .ok (.ok s)) :
    ∃ fields sections, readResponse response = .ok (.obj fields) ∧
      Table.get? fields "sections" = some (.obj sections) ∧ Judged former sections fields x s := by
  unfold review at h
  split at h
  · cases h
  · rename_i v hread
    unfold reviewDocument at h
    split at h
    · rename_i fields
      split at h
      · rename_i sections hsections
        have hget : Table.get? fields "sections" = some (.obj sections) := by
          rw [Json.field_obj] at hsections
          cases hvalue : Table.get? fields "sections" with
          | none =>
            rw [hvalue] at hsections
            cases hsections
          | some w =>
            rw [hvalue] at hsections
            exact congrArg some hsections
        unfold Story.write at h
        split at h
        · refine ⟨fields, sections, hread, hget, of_judgeSections rfl ?_⟩
          exact Except.ok.inj h
        · cases h
      · cases h
    · cases h

/-! ## The document that is loaded -/

section Adopted

variable {document : Table Json} (h : (Table.keys document).Nodup) (response : Table Json)

include h

/-- Beside the metadata, the former document comes first, then the answer's. -/
theorem get?_adopt {key : String} (hmeta : key ≠ "meta") :
    Table.get? (adopt document response) key =
      (if !notKept.contains key then Table.get? document key else none).or
        (if !notTheWriters.contains key then Table.get? response key else none) := by
  have hkept : (Table.keys (document.filterKeys fun key => !notKept.contains key)).Nodup :=
    h.sublist (List.filter_sublist.map Prod.fst)
  have hmerge := Table.get?_merge (response.filterKeys fun key => !notTheWriters.contains key) hkept key
  rw [Table.get?_filterKeys, Table.get?_filterKeys] at hmerge
  unfold adopt
  dsimp only
  split
  · rw [Table.get?_put, if_neg hmeta, hmerge]
  · exact hmerge

theorem get?_adopt_meta :
    Table.get? (adopt document response) "meta" =
      mergedMetadata? (.obj document) (.obj response) := by
  have hkept : (Table.keys (document.filterKeys fun key => !notKept.contains key)).Nodup :=
    h.sublist (List.filter_sublist.map Prod.fst)
  have hmerge := Table.get?_merge (response.filterKeys fun key => !notTheWriters.contains key) hkept
    "meta"
  rw [Table.get?_filterKeys, Table.get?_filterKeys] at hmerge
  unfold adopt
  dsimp only
  split
  · rename_i hsome
    rw [Table.get?_put, if_pos rfl, hsome]
  · rename_i hnone
    rw [hmerge, hnone]
    rfl

end Adopted

/-- What a loaded document says of each declared field, and that nothing else is lost. -/
structure LoadedFrom (fields : Table Json) (s : Story) : Prop where
  metadata : Check.optional fields "meta" Metadata.check = .ok s.metadata
  state : Check.optional fields "state" PlayState.check = .ok s.state
  sections : Check.required fields "sections" (Check.map Section.check) = .ok s.sections
  definitions : Check.optional fields "variables" (Check.map VariableDefinition.check) =
    .ok s.definitions
  extra : s.extra = Check.unknown fields Story.declared

theorem loadedFrom {fields : Table Json} {s : Story} (h : Story.check (.obj fields) = .ok s) :
    LoadedFrom fields s := by
  obtain ⟨_, definitions, h3, hdefinitions, rfl⟩ := Checked.of_seq h
  obtain ⟨_, sections, h2, hsections, rfl⟩ := Checked.of_seq h3
  obtain ⟨_, state, h1, hstate, rfl⟩ := Checked.of_seq h2
  obtain ⟨metadata, hmetadata, rfl⟩ := Checked.of_map h1
  exact ⟨hmetadata, hstate, hsections, hdefinitions, rfl⟩

/-! ## The document of a story -/

def fieldsOf (s : Story) : Table Json := Json.filled s.slots ++ Json.finiteFields s.extra

theorem toJson_eq (s : Story) : s.toJson = .obj (fieldsOf s) := story_record.write_eq s

theorem get?_fieldsOf {s : Story} (h : ∀ key ∈ Table.keys s.extra, key ∉ Story.declared)
    {key : String} {o : Option Json} (hmem : (key, o) ∈ s.slots) :
    Table.get? (fieldsOf s) key = o := by
  have hnodup : (s.slots.map Prod.fst).Nodup := story_record.nodup
  have hdeclared : key ∈ s.slots.map Prod.fst := List.mem_map_of_mem hmem
  refine Json.get?_filled hnodup hmem ?_
  rw [Json.keys_finiteFields]
  intro hkey
  exact h key hkey hdeclared

/-- An undeclared field of a settled story. -/
theorem get?_extra_settled (s : Story) (key : String) :
    Table.get? s.settled.extra key = (Table.get? s.extra key).map Json.finiteOnly := by
  show Table.get? (Json.finiteFields s.extra) key = _
  rw [Json.finiteFields_eq, Table.get?_mapValues]

/-- An undeclared field of the document is that of the settled story. -/
theorem get?_fieldsOf_extra {s : Story} {key : String} (hkey : key ∉ Story.declared) :
    Table.get? (fieldsOf s) key = Table.get? s.settled.extra key := Json.get?_extra hkey

theorem not_declared_of_loaded {fields : Table Json} {s : Story} (h : LoadedFrom fields s) :
    ∀ key ∈ Table.keys s.extra, key ∉ Story.declared := by
  intro key hkey
  rw [h.extra] at hkey
  obtain ⟨e, he, rfl⟩ := List.mem_map.1 hkey
  simpa using (List.mem_filter.1 he).2

/-! ## What the answer does not decide about -/

section Kept

variable {original s : Story} {sections response : Table Json} {x : String}
  (horiginal : original.Proper) (h : Judged original sections response x s)

/-- The document that the adopted story is loaded from. -/
def adopted (original : Story) (response : Table Json) : Table Json :=
  adopt (fieldsOf original) response

include h in
theorem loaded_of_judged : LoadedFrom (adopted original response) s := by
  have hloaded := loadedFrom h.loaded
  rw [toJson_eq] at hloaded
  exact hloaded

include horiginal in
theorem nodup_fieldsOf : (Table.keys (fieldsOf original)).Nodup := by
  have hdoc : original.toJson.Proper := storyCodec_lawful.proper_write original horiginal
  rw [toJson_eq] at hdoc
  exact hdoc.1

include horiginal

variable (response) in
/-- A top-level field of the former document, metadata and sections aside, is the one that is loaded. -/
theorem get?_adopted {key : String} (hsections : key ≠ "sections") (hmeta : key ≠ "meta") {v : Json}
    (hget : Table.get? (fieldsOf original) key = some v) :
    Table.get? (adopted original response) key = some v := by
  have hkept : (!notKept.contains key) = true := by simp [notKept, hsections, hmeta]
  rw [adopted, get?_adopt (nodup_fieldsOf horiginal) response hmeta, if_pos hkept, hget]
  rfl

variable (response) in
theorem adopted_state : Table.get? (adopted original response) "state" =
    original.state.slot stateCodec.write := by
  rw [adopted, get?_adopt (nodup_fieldsOf horiginal) response (by decide), if_pos (by decide),
    if_neg (by decide), Option.or_none]
  exact get?_fieldsOf horiginal.extra.unknown (.tail _ (.head _))

variable (response) in
theorem adopted_sections : Table.get? (adopted original response) "sections" =
    Table.get? response "sections" := by
  rw [adopted, get?_adopt (nodup_fieldsOf horiginal) response (by decide), if_neg (by decide),
    if_pos (by decide), Option.none_or]

variable (response) in
theorem adopted_definitions : Table.get? (adopted original response) "variables" =
    (original.definitions.slot definitionCodec.table.write).or
      (Table.get? response "variables") := by
  have hslot : Table.get? (fieldsOf original) "variables" =
      original.definitions.slot definitionCodec.table.write :=
    get?_fieldsOf horiginal.extra.unknown (.tail _ (.tail _ (.tail _ (.head _))))
  rw [adopted, get?_adopt (nodup_fieldsOf horiginal) response (by decide), if_pos (by decide),
    if_pos (by decide), hslot]

include h

theorem state_of_judged : s.state = original.settled.state := by
  have hcheck := stateCodec_lawful.optional (adopted_state response horiginal) horiginal.state
  have hloaded := (loaded_of_judged h).state
  have heq : Checked.ok original.settled.state = Checked.ok s.state := hcheck.symm.trans hloaded
  exact (Checked.ok.inj heq).symm

theorem definitions_of_judged (hdefinitions : original.definitions ≠ .absent) :
    s.definitions = original.settled.definitions := by
  have hadopted := adopted_definitions response horiginal
  have hsome : (original.definitions.slot definitionCodec.table.write).or
      (Table.get? response "variables") = original.definitions.slot definitionCodec.table.write := by
    cases hvalue : original.definitions with
    | absent => exact absurd hvalue hdefinitions
    | null => rfl
    | value t => rfl
  rw [hsome] at hadopted
  have hcheck := definitionCodec_lawful.table.optional hadopted horiginal.definitions
  have hloaded := (loaded_of_judged h).definitions
  have heq : Checked.ok original.settled.definitions = Checked.ok s.definitions :=
    hcheck.symm.trans hloaded
  exact (Checked.ok.inj heq).symm

theorem extra_of_judged {key : String} (hkey : key ∉ Story.declared) {v : Json}
    (hget : Table.get? original.settled.extra key = some v) : Table.get? s.extra key = some v := by
  have hformer : Table.get? (fieldsOf original) key = some v := by
    rw [get?_fieldsOf_extra hkey, hget]
  have hsections : key ≠ "sections" := by
    rintro rfl
    exact hkey (by decide)
  have hmeta : key ≠ "meta" := by
    rintro rfl
    exact hkey (by decide)
  have hadopted := get?_adopted response horiginal hsections hmeta hformer
  rw [(loaded_of_judged h).extra, Check.unknown, Table.get?_filterKeys, if_pos (by simpa using hkey)]
  exact hadopted

/-- Every top-level field of the former document, metadata and sections aside, is in the new one. -/
theorem top_of_judged {key : String} (hsections : key ≠ "sections") (hmeta : key ≠ "meta") {v : Json}
    (hget : original.toJson.get? key = some v) : s.toJson.get? key = some v := by
  rw [toJson_eq] at hget ⊢
  have hget : Table.get? (fieldsOf original) key = some v := hget
  show Table.get? (fieldsOf s) key = some v
  have hslot {o : Option Json} (hmem : (key, o) ∈ s.slots) : Table.get? (fieldsOf s) key = o :=
    get?_fieldsOf (not_declared_of_loaded (loaded_of_judged h)) hmem
  have hformer {o : Option Json} (hmem : (key, o) ∈ original.slots) : o = some v := by
    rw [← get?_fieldsOf horiginal.extra.unknown hmem, hget]
  by_cases hdeclared : key ∈ Story.declared
  · simp only [Story.declared, List.mem_cons, List.not_mem_nil, or_false] at hdeclared
    rcases hdeclared with rfl | rfl | rfl | rfl
    · exact absurd rfl hmeta
    · have hmem (t : Story) : ("state", t.state.slot stateCodec.write) ∈ t.slots := .tail _ (.head _)
      rw [hslot (hmem s), state_of_judged horiginal h, ← hformer (hmem original)]
      exact stateCodec_lawful.slot_settled original.state
    · exact absurd rfl hsections
    · have hmem (t : Story) :
          ("variables", t.definitions.slot definitionCodec.table.write) ∈ t.slots :=
        .tail _ (.tail _ (.tail _ (.head _)))
      have hwritten := hformer (hmem original)
      have hdefinitions : original.definitions ≠ .absent := by
        intro habsent
        rw [habsent] at hwritten
        cases hwritten
      rw [hslot (hmem s), definitions_of_judged horiginal h hdefinitions, ← hwritten]
      exact definitionCodec_lawful.table.slot_settled original.definitions
  · rw [get?_fieldsOf_extra hdeclared] at hget ⊢
    rw [get?_extra_settled, extra_of_judged horiginal h hdeclared hget, Option.map_some]
    rw [get?_extra_settled] at hget
    obtain ⟨w, -, rfl⟩ := Option.map_eq_some_iff.1 hget
    rw [Json.finiteOnly_idem]

end Kept

/-! ## Metadata -/

/-- Metadata that say nothing. -/
def emptyMetadata : Metadata := ⟨.absent, .absent, .absent, .absent, .absent, .absent, []⟩

/-- The metadata of a story, which say nothing when it has none. -/
def metadataOf (s : Story) : Metadata := s.metadata.get?.getD emptyMetadata

def charactersOf (s : Story) : Table String := (metadataOf s).characters.get?.getD []

def metaFields (m : Metadata) : Table Json := Json.filled m.slots ++ Json.finiteFields m.extra

theorem toJson_metadata (m : Metadata) : m.toJson = .obj (metaFields m) := metadata_record.write_eq m

theorem proper_metadataOf {s : Story} (h : s.Proper) : (metadataOf s).Proper := by
  unfold metadataOf
  cases hs : s.metadata with
  | value m => exact h.metadata m hs
  | absent =>
    exact ⟨fun _ h => (nomatch h), fun _ h => (nomatch h), fun _ h => (nomatch h),
      fun _ h => (nomatch h), fun _ h => (nomatch h), ProperExtra.nil _⟩
  | null =>
    exact ⟨fun _ h => (nomatch h), fun _ h => (nomatch h), fun _ h => (nomatch h),
      fun _ h => (nomatch h), fun _ h => (nomatch h), ProperExtra.nil _⟩

theorem get?_metaFields {m : Metadata} (h : m.Proper) {key : String} {o : Option Json}
    (hmem : (key, o) ∈ m.slots) : Table.get? (metaFields m) key = o :=
  h.extra.get?_slot m.slots rfl metadata_record.nodup hmem

/-- Putting a declared field leaves the others. -/
theorem unknown_put (fields : Table Json) {key : String} (v : Json) {declared : List String}
    (hkey : key ∈ declared) :
    Check.unknown (fields.put key v) declared = Check.unknown fields declared := by
  unfold Check.unknown
  rw [Table.filterKeys_put, if_neg (by simpa using hkey)]

/-- Texts that are read from a table are its values. -/
theorem mapValues_of_map {fields : Table Json} {t : Table String}
    (h : Check.map Check.text (.obj fields) = .ok t) : t.mapValues .str = fields := by
  obtain ⟨others, heq, hall⟩ := Check.of_map h
  cases heq
  clear h
  induction hall with
  | nil => rfl
  | @cons e f _ _ hfirst _ ih =>
    obtain ⟨k, x⟩ := e
    obtain ⟨k', y⟩ := f
    obtain ⟨hk, hx⟩ := hfirst
    dsimp only at hk hx
    have hvalue : x = .str y := by
      cases x <;> cases hx
      rfl
    rw [Table.mapValues, List.map_cons]
    dsimp only
    rw [hk, hvalue]
    exact congrArg _ ih

theorem metadata_of_put {m n : Metadata} (h : m.Proper) {characters : Table Json}
    (hcheck : Metadata.check (.obj ((metaFields m).put "characters" (.obj characters))) = .ok n) :
    ∃ known, n = { m.settled with characters := .value known } ∧ known.mapValues .str = characters := by
  have hget {key : String} {o : Option Json} (hkey : key ≠ "characters") (hmem : (key, o) ∈ m.slots) :
      Table.get? ((metaFields m).put "characters" (.obj characters)) key = o := by
    rw [Table.get?_put, if_neg hkey]
    exact get?_metaFields h hmem
  obtain ⟨_, found, h5, hfound, rfl⟩ := Checked.of_seq hcheck
  obtain ⟨_, lookAhead, h4, hahead, rfl⟩ := Checked.of_seq h5
  obtain ⟨_, license, h3, hlicense, rfl⟩ := Checked.of_seq h4
  obtain ⟨_, year, h2, hyear, rfl⟩ := Checked.of_seq h3
  obtain ⟨_, author, h1, hauthor, rfl⟩ := Checked.of_seq h2
  obtain ⟨title, htitle, rfl⟩ := Checked.of_map h1
  have htitleEq := htitle.symm.trans
    (textCodec_lawful.plain_optional (hget (by decide) (.head _)) fun _ _ => trivial)
  have hauthorEq := hauthor.symm.trans
    ((attributionCodec_lawful "Author").optional (hget (by decide) (.tail _ (.head _))) h.author)
  have hyearEq := hyear.symm.trans
    (targetCodec_lawful.plain_optional (hget (by decide) (.tail _ (.tail _ (.head _)))) h.year)
  have hlicenseEq := hlicense.symm.trans
    ((attributionCodec_lawful "License").optional
      (hget (by decide) (.tail _ (.tail _ (.tail _ (.head _))))) h.license)
  have haheadEq := hahead.symm.trans
    (wholeCodec_lawful.plain_optional
      (hget (by decide) (.tail _ (.tail _ (.tail _ (.tail _ (.head _)))))) h.lookAhead)
  have hextra : Check.unknown ((metaFields m).put "characters" (.obj characters)) Metadata.declared =
      Json.finiteFields m.extra := by
    rw [unknown_put _ _ (by decide)]
    exact h.extra.unknown_written m.slots rfl
  have hcharacters :
      Table.get? ((metaFields m).put "characters" (.obj characters)) "characters" =
        some (.obj characters) := by
    rw [Table.get?_put, if_pos rfl]
  rcases Check.of_optional hfound with ⟨-, hnone⟩ | ⟨-, hnull⟩ | ⟨v, known, rfl, hsome, -, hknown⟩
  · rw [hcharacters] at hnone
    cases hnone
  · rw [hcharacters] at hnull
    cases hnull
  · rw [hcharacters] at hsome
    cases hsome
    refine ⟨known, ?_, mapValues_of_map hknown⟩
    rw [Checked.ok.inj htitleEq, Checked.ok.inj hauthorEq, Checked.ok.inj hyearEq,
      Checked.ok.inj hlicenseEq, Checked.ok.inj haheadEq, hextra]
    rfl

theorem field_meta {s : Story} (h : s.Proper) :
    ((Json.obj (fieldsOf s)).field "meta").asObj? = s.metadata.get?.map metaFields := by
  have hget : Table.get? (fieldsOf s) "meta" = s.metadata.slot metadataCodec.write :=
    get?_fieldsOf h.extra.unknown (.head _)
  rw [Json.field_obj, hget]
  cases s.metadata with
  | value m =>
    show m.toJson.asObj? = _
    rw [toJson_metadata]
    rfl
  | absent => rfl
  | null => rfl

theorem metaFields_metadataOf (s : Story) :
    (s.metadata.get?.map metaFields).getD [] = metaFields (metadataOf s) := by
  unfold metadataOf
  cases s.metadata <;> rfl

theorem field_characters {m : Metadata} (h : m.Proper) :
    ((Json.obj (metaFields m)).field "characters").asObj?.getD [] =
      (m.characters.get?.getD []).mapValues .str := by
  have hget := get?_metaFields h
    (.tail _ (.tail _ (.tail _ (.tail _ (.tail _ (.head _))))) :
      ("characters", m.characters.slot Json.ofTextTable) ∈ m.slots)
  rw [Json.field_obj, hget]
  cases m.characters <;> rfl

theorem metadataOf_settled (s : Story) : metadataOf s.settled = (metadataOf s).settled := by
  unfold metadataOf Story.settled
  cases s.metadata <;> rfl

theorem charactersOf_settled (s : Story) : charactersOf s.settled = charactersOf s := by
  unfold charactersOf
  rw [metadataOf_settled]
  rfl

/-- The document of the metadata of an extended story, from the characters of the answer. -/
def grownMeta? (former : Story) (characters : Json) : Option Json :=
  match characters with
  | .obj (e :: rest) =>
    some (.obj ((metaFields (metadataOf former)).put "characters"
      (.obj (Table.merge ((charactersOf former).mapValues .str) (e :: rest)))))
  | _ => former.metadata.get?.map Metadata.toJson

theorem adopted_meta {original : Story} (horiginal : original.Proper) (response : Table Json) :
    Table.get? (adopted original response) "meta" =
      grownMeta? original (((Json.obj response).field "meta").field "characters") := by
  have hplain : (original.metadata.get?.map metaFields).map Json.obj =
      original.metadata.get?.map Metadata.toJson := by
    rw [Option.map_map]
    exact congrArg (Option.map · original.metadata.get?) (funext fun m => (toJson_metadata m).symm)
  rw [adopted, get?_adopt_meta (nodup_fieldsOf horiginal) response]
  unfold mergedMetadata? grownMeta?
  rw [field_meta horiginal]
  dsimp only
  rw [hplain, metaFields_metadataOf, field_characters (proper_metadataOf horiginal)]
  generalize ((Json.obj response).field "meta").field "characters" = characters
  cases characters with
  | obj fields => cases fields <;> rfl
  | _ => rfl

/-- The metadata of an extended story are the former ones, with the answer's characters merged over the
former characters. -/
def MetadataExtended (former : Story) (characters : Json) (s : Story) : Prop :=
  match characters with
  | .obj (e :: rest) =>
    ∃ known, s.metadata = .value { metadataOf former with characters := .value known } ∧
      known.mapValues .str = Table.merge ((charactersOf former).mapValues .str) (e :: rest)
  | _ => s.metadata.get? = former.metadata.get?

section Judged

variable {original s : Story} {sections response : Table Json} {x : String}
  (horiginal : original.Proper) (h : Judged original sections response x s)

include horiginal h

/-- Without characters in the answer the former metadata are loaded. -/
theorem metadata_of_plain (hmerged : Table.get? (adopted original response) "meta" =
      original.metadata.get?.map Metadata.toJson) :
    s.metadata.get? = original.settled.metadata.get? := by
  have hloaded := (loaded_of_judged h).metadata
  have hnone (hget : Table.get? (adopted original response) "meta" = none) : s.metadata = .absent := by
    unfold Check.optional at hloaded
    rw [hget] at hloaded
    exact (Checked.ok.inj hloaded).symm
  unfold Story.settled
  cases hmetadata : original.metadata with
  | value m =>
    rw [hmetadata] at hmerged
    have hall : (Field.value m).All metadataCodec.Proper := hmetadata ▸ horiginal.metadata
    have hcheck := metadataCodec_lawful.optional (f := .value m) hmerged hall
    have heq : Checked.ok ((Field.value m).map Metadata.settled) = Checked.ok s.metadata :=
      hcheck.symm.trans hloaded
    exact congrArg Field.get? (Checked.ok.inj heq).symm
  | absent =>
    rw [hmetadata] at hmerged
    rw [hnone hmerged]
    rfl
  | null =>
    rw [hmetadata] at hmerged
    rw [hnone hmerged]
    rfl

theorem metadata_of_judged :
    MetadataExtended original.settled (((Json.obj response).field "meta").field "characters") s := by
  have hget := adopted_meta horiginal response
  have hloaded := (loaded_of_judged h).metadata
  unfold grownMeta? at hget
  unfold MetadataExtended
  split
  · rename_i characters e rest hcharacters
    rw [hcharacters] at hget
    rw [metadataOf_settled, charactersOf_settled]
    rcases Check.of_optional hloaded with ⟨-, hnone⟩ | ⟨-, hnull⟩ | ⟨v, m, hm, hsome, -, hcheck⟩
    · rw [hget] at hnone
      cases hnone
    · rw [hget] at hnull
      cases hnull
    · rw [hget] at hsome
      rw [← Option.some.inj hsome] at hcheck
      obtain ⟨known, rfl, hknown⟩ := metadata_of_put (proper_metadataOf horiginal) hcheck
      exact ⟨known, hm, hknown⟩
  · rename_i characters hcharacters
    apply metadata_of_plain horiginal h
    rw [hget]
    split
    · rename_i e rest heq
      exact absurd heq (hcharacters e rest)
    · rfl

end Judged

/-! ## Sections -/

section Sections

variable {original s : Story} {sections response : Table Json} {x : String}

/-- The loaded sections are those of the answer, in its order. -/
theorem sections_of_judged (horiginal : original.Proper)
    (hsections : Table.get? response "sections" = some (.obj sections))
    (h : Judged original sections response x s) :
    List.Forall₂ (fun e f => e.1 = f.1 ∧ Section.check e.2 = .ok f.2) sections s.sections := by
  obtain ⟨v, hget, hcheck⟩ := Check.of_required (loaded_of_judged h).sections
  rw [adopted_sections response horiginal, hsections] at hget
  cases hget
  obtain ⟨fields, heq, hall⟩ := Check.of_map hcheck
  cases heq
  exact hall

/-- Each item of the second list has a partner in the first. -/
theorem partner_of_forall₂ {α β : Type} {R : α → β → Prop} {xs : List α} {ys : List β}
    (h : List.Forall₂ R xs ys) {y : β} (hy : y ∈ ys) : ∃ x ∈ xs, R x y := by
  induction h with
  | nil => cases hy
  | cons hfirst _ ih =>
    rcases List.mem_cons.1 hy with rfl | hy
    · exact ⟨_, List.mem_cons_self, hfirst⟩
    · obtain ⟨x, hx, hxy⟩ := ih hy
      exact ⟨x, List.mem_cons_of_mem _ hx, hxy⟩

/-- A section that the former story has, in the former document and in the answer's. -/
theorem unchanged_of_judged
    (h : Judged original sections response x s)
    (hall : List.Forall₂ (fun e f => e.1 = f.1 ∧ Section.check e.2 = .ok f.2) sections s.sections)
    {id : String} {a b : Section} (ha : original.section? id = some a)
    (hb : s.section? id = some b) :
    ∃ fields, Table.get? sections id = some (.obj fields) ∧ Section.check (.obj fields) = .ok b ∧
      checkUnchanged id a.toJson (.obj fields) = .ok () := by
  obtain ⟨v, hv, -, hcheck⟩ := Table.get?_of_forall₂ And.left hall hb
  obtain ⟨fields, rfl, -⟩ := Check.of_model hcheck
  have hmem : (id, a.toJson) ∈ original.sectionsJson := by
    have hget := Table.get?_mapValues original.sections Section.toJson id
    rw [Story.section?] at ha
    rw [ha] at hget
    exact Table.mem_of_get? hget
  have hunchanged := of_checkAllUnchanged h.unchanged _ hmem
  rw [Json.field_of_get? hv] at hunchanged
  exact ⟨fields, hv, hcheck, hunchanged⟩

theorem proper_section {s : Story} (h : s.Proper) {id : String} {a : Section}
    (ha : s.section? id = some a) : a.Proper := h.sections.2 _ (Table.mem_of_get? ha)

theorem kept_of_judged (h : Judged original sections response x s)
    (hall : List.Forall₂ (fun e f => e.1 = f.1 ∧ Section.check e.2 = .ok f.2) sections s.sections)
    {id : String} (hid : original.hasSection id = true) : s.hasSection id = true := by
  rw [Story.hasSection, Table.has_of_forall₂ And.left hall]
  apply of_checkKept h.kept id
  rw [Story.sectionsJson, Table.keys_mapValues, ← Table.has_iff]
  exact hid

/-- The choices of a section begin with the former ones. -/
theorem choices_of_judged (horiginal : original.Proper) (h : Judged original sections response x s)
    (hall : List.Forall₂ (fun e f => e.1 = f.1 ∧ Section.check e.2 = .ok f.2) sections s.sections)
    {id : String} {a b : Section} (ha : original.section? id = some a)
    (hb : s.section? id = some b) : a.choices.map pairOf <+: b.choices.map pairOf := by
  obtain ⟨fields, -, hcheck, hunchanged⟩ := unchanged_of_judged h hall ha hb
  obtain ⟨-, -, old, new, hold, hnew, hchoices⟩ := of_checkUnchanged hunchanged
  have hproper := proper_section horiginal ha
  rw [choiceList_toJson id a hproper] at hold
  cases hold
  exact pairs_prefix (Story.proper_choices hproper) hchoices (choices_of_check hcheck hnew)

/-- The section to extend has more choices than before. -/
theorem extended_of_judged (horiginal : original.Proper) (h : Judged original sections response x s)
    (hall : List.Forall₂ (fun e f => e.1 = f.1 ∧ Section.check e.2 = .ok f.2) sections s.sections) :
    ∃ a b, original.section? x = some a ∧ s.section? x = some b ∧
      a.choices.length < b.choices.length := by
  obtain ⟨former, candidate, old, new, hformer, hcandidate, hold, hnew, hlength⟩ :=
    of_checkExtended h.extended
  have hget := Table.get?_mapValues original.sections Section.toJson x
  rw [Story.sectionsJson, hget, Option.map_eq_some_iff] at hformer
  obtain ⟨a, ha, rfl⟩ := hformer
  have hhas : s.hasSection x = true := by
    rw [Story.hasSection, Table.has_of_forall₂ And.left hall]
    exact Option.isSome_of_eq_some hcandidate
  obtain ⟨b, hb⟩ := Option.isSome_iff_exists.1 hhas
  obtain ⟨v, hv, -, hcheck⟩ := Table.get?_of_forall₂ And.left hall hb
  rw [hcandidate] at hv
  cases hv
  rw [choiceList_toJson x a (proper_section horiginal ha)] at hold
  cases hold
  rw [List.length_map, (choices_of_check hcheck hnew).length_eq] at hlength
  exact ⟨a, b, ha, hb, hlength⟩

/-- No choice of an adopted story leads nowhere. -/
theorem dangling_of_judged (h : Judged original sections response x s)
    (hall : List.Forall₂ (fun e f => e.1 = f.1 ∧ Section.check e.2 = .ok f.2) sections s.sections) :
    s.dangling = [] := by
  have hgraph := of_checkGraph h.graph
  have hhas := Table.has_of_forall₂ And.left hall
  unfold Story.dangling
  rw [List.flatMap_eq_nil_iff]
  intro e he
  rw [List.map_eq_nil_iff, List.filter_eq_nil_iff]
  intro c hc
  obtain ⟨d, hd, -, hcheck⟩ := partner_of_forall₂ hall he
  obtain ⟨docs, hdocs, htargets⟩ := hgraph d hd
  obtain ⟨doc, hdoc, hchoice⟩ := partner_of_forall₂ (choices_of_check hcheck hdocs) hc
  obtain ⟨target, htarget, hfound⟩ := htargets doc hdoc
  have hc : c.target = target := target_of_check hchoice htarget
  have hsection : s.hasSection c.target = true := by
    rw [hc, Story.hasSection, hhas]
    exact hfound
  simp [hsection]

end Sections

/-! ## The extension -/

/-- What is not up to the writer: the play state, the top-level values beside sections and metadata, and
the metadata beside the characters. -/
structure KeepsRest (former : Story) (characters : Json) (s : Story) : Prop where
  state : s.state = former.state
  definitions : former.definitions ≠ .absent → s.definitions = former.definitions
  extra : ∀ key ∉ Story.declared, ∀ v, former.extra.get? key = some v → s.extra.get? key = some v
  metadata : MetadataExtended former characters s

/-- How an adopted story extends the former one, for the section to extend and the answer's document. -/
structure IsExtension (original : Story) (response : Json) (x : String) (s : Story) : Prop where
  /-- Every section is still there. -/
  kept : ∀ id, original.hasSection id = true → s.hasSection id = true
  /-- Its frozen fields are the same in both documents. -/
  frozen : ∀ id a b, original.section? id = some a → s.section? id = some b →
    ∀ key ∈ frozenFields, (a.toJson.field key).same (b.toJson.field key) = true
  /-- Its choices begin with the former ones. -/
  choices : ∀ id a b, original.section? id = some a → s.section? id = some b →
    a.choices.map pairOf <+: b.choices.map pairOf
  /-- The section to extend is there and has more choices than before. -/
  extended : ∃ a b, original.section? x = some a ∧ s.section? x = some b ∧
    a.choices.length < b.choices.length
  /-- No choice leads nowhere. -/
  dangling : s.dangling = []
  graph : s.checkGraph = .ok ()
  /-- A new section is named by its key and has text. -/
  new : ∀ e ∈ s.sections, original.hasSection e.1 = false → e.2.id = e.1 ∧ e.2.hasText = true
  /-- The other top-level values of the former document are in the new one. -/
  top : ∀ key, key ≠ "sections" → key ≠ "meta" → ∀ v,
    original.toJson.get? key = some v → s.toJson.get? key = some v
  /-- The rest of the former story is kept as it is written. -/
  rest : KeepsRest original.settled ((response.field "meta").field "characters") s
  /-- It is kept as it is when the numbers in its unknown fields are finite. -/
  rest_finite : (∀ v ∈ original.unknownValues, v.isFinite = true) →
    KeepsRest original ((response.field "meta").field "characters") s

theorem keepsRest_of_judged {original s : Story} {sections response : Table Json} {x : String}
    (horiginal : original.Proper) (h : Judged original sections response x s) :
    KeepsRest original.settled (((Json.obj response).field "meta").field "characters") s where
  state := state_of_judged horiginal h
  definitions := by
    intro hsettled
    apply definitions_of_judged horiginal h
    intro habsent
    apply hsettled
    unfold Story.settled
    rw [habsent]
    rfl
  extra := fun _ hkey _ hget => extra_of_judged horiginal h hkey hget
  metadata := metadata_of_judged horiginal h

/-- Whatever the writer answers, a story that the review gives extends the former one. -/
theorem review_sound {original s : Story} {response x : String} (h : original.Reached)
    (hreview : review original response x = .ok (.ok s)) :
    ∃ v, readResponse response = .ok v ∧ IsExtension original v x s := by
  have horiginal := h.proper
  obtain ⟨fields, sections, hread, hsections, hjudged⟩ := of_review hreview
  have hall := sections_of_judged horiginal hsections hjudged
  have hresponse : (Json.obj fields).Proper := Json.proper_of_read hread
  have hproper : (Json.obj sections).Proper :=
    (Json.properFields_iff fields).1 hresponse.2 _ (Table.mem_of_get? hsections)
  have hdangling := dangling_of_judged hjudged hall
  have hrest := keepsRest_of_judged horiginal hjudged
  refine ⟨_, hread, ?_⟩
  constructor
  case kept =>
    intro id hid
    exact kept_of_judged hjudged hall hid
  case frozen =>
    intro id a b ha hb
    obtain ⟨doc, hget, hcheck, hunchanged⟩ := unchanged_of_judged hjudged hall ha hb
    have hdoc : (Json.obj doc).Proper := (Json.properFields_iff _).1 hproper.2 _ (Table.mem_of_get? hget)
    exact frozen_section (proper_section horiginal ha) hdoc hcheck (of_checkUnchanged hunchanged).2.1
  case choices =>
    intro id a b ha hb
    exact choices_of_judged horiginal hjudged hall ha hb
  case extended => exact extended_of_judged horiginal hjudged hall
  case dangling => exact hdangling
  case graph =>
    unfold Story.checkGraph
    rw [hdangling]
    rfl
  case new => exact of_checkNew hjudged.new
  case top =>
    intro key hne hmeta v hget
    exact top_of_judged horiginal hjudged hne hmeta hget
  case rest => exact hrest
  case rest_finite =>
    intro hfinite
    rw [original.settled_eq_iff.2 hfinite] at hrest
    exact hrest

/-- An answer about the fresh story, with a choice and a section more. -/
def grownAnswer : String :=
  "\x7b\"sections\":\x7b\"1\":\x7b\"id\":\"1\",\"text_lines\":[\"\"],\"next\":[\x7b\"next\":\"2\"\x7d]\x7d,\"2\":\x7b\"id\":\"2\",\"text\":\"End\"\x7d\x7d\x7d"

def grownDocument : Json :=
  .obj [("sections", .obj [
    ("1", .obj [("id", .str "1"), ("text_lines", .arr [.str ""]), ("next", .arr [.obj [("next", .str "2")]])]),
    ("2", .obj [("id", .str "2"), ("text", .str "End")])])]

/-- The story that it makes of the fresh one. -/
def grownStory : Story :=
  ⟨.absent, .absent,
    [("1", ⟨"1", .value [""], .absent, .absent, .value [⟨none, .name "2", []⟩], .absent, .absent, .absent, []⟩),
     ("2", ⟨"2", .absent, .value "End", .absent, .absent, .absent, .absent, .absent, []⟩)], .absent, []⟩

def grownChars : List Char :=
  ['\x7b', '"', 's', 'e', 'c', 't', 'i', 'o', 'n', 's', '"', ':', '\x7b', '"', '1', '"', ':', '\x7b', '"', 'i',
   'd', '"', ':', '"', '1', '"', ',', '"', 't', 'e', 'x', 't', '_', 'l', 'i', 'n', 'e', 's', '"', ':', '[', '"',
   '"', ']', ',', '"', 'n', 'e', 'x', 't', '"', ':', '[', '\x7b', '"', 'n', 'e', 'x', 't', '"', ':', '"', '2',
   '"', '\x7d', ']', '\x7d', ',', '"', '2', '"', ':', '\x7b', '"', 'i', 'd', '"', ':', '"', '2', '"', ',', '"',
   't', 'e', 'x', 't', '"', ':', '"', 'E', 'n', 'd', '"', '\x7d', '\x7d', '\x7d']

theorem grownAnswer_toList : grownAnswer.toList = grownChars := String.toList_ofList

theorem trimList_grownChars : Text.trimList Text.isBlank grownChars = grownChars := rfl

theorem unfence?_grownChars : unfence? grownChars = none := rfl

theorem readChars_grownChars : Json.readChars grownChars = .ok grownDocument := rfl

/-- An answer without a fence, with no blanks around it, is read as it is. -/
theorem readResponse_of_plain {response : String} {v : Json}
    (htrim : Text.trimList Text.isBlank response.toList = response.toList)
    (hplain : unfence? response.toList = none) (hread : Json.readChars response.toList = .ok v) :
    readResponse response = .ok v := by
  unfold readResponse documentText Json.read
  dsimp only
  rw [htrim, hplain]
  dsimp only
  rw [String.ofList_toList, hread]

theorem readResponse_grown : readResponse grownAnswer = .ok grownDocument := by
  apply readResponse_of_plain
  · rw [grownAnswer_toList, trimList_grownChars]
  · rw [grownAnswer_toList, unfence?_grownChars]
  · rw [grownAnswer_toList, readChars_grownChars]

theorem review_grown : ∃ s, review .fresh grownAnswer "1" = .ok (.ok s) ∧ s.ids = ["1", "2"] := by
  have hreview : reviewDocument .fresh grownDocument "1" = .ok (.ok grownStory) := rfl
  exact ⟨grownStory, (review_of_read readResponse_grown _ _).trans hreview, rfl⟩

theorem review_sound_grown : ∃ v s, readResponse grownAnswer = .ok v ∧
    review .fresh grownAnswer "1" = .ok (.ok s) ∧ s.ids = ["1", "2"] ∧
      IsExtension .fresh v "1" s := by
  obtain ⟨s, hreview, hids⟩ := review_grown
  obtain ⟨v, hread, hextension⟩ := review_sound .fresh hreview
  exact ⟨v, s, hread, hreview, hids, hextension⟩

end Gamebook.Extension
