import Gamebook.Proofs.Extension.Answer
import Gamebook.Proofs.Extension.Completeness

/-!
# A review of its own outcome

The second review of an extended story sees its document, not the answer it came from: the values are
read and written by then, and the metadata are merged.  Neither makes a difference.

* `checkUnchanged_written`, `checkGraph_written` : the checks of sections that were written.
* `grownMeta_again`, `loaded_again` : merging the metadata, and loading, a second time.
* `review_again` : an extended story passes the review again, and nothing of it changes.
-/

set_option autoImplicit false

namespace Gamebook.Extension

/-! ## Sections that were written -/

/-- A section with the same content, and with choices at most appended, is unchanged. -/
theorem checkUnchanged_written {id : String} {a b : Section} (ha : a.Proper) (hb : b.Proper)
    (hcontent : a.SameContent b) (hpairs : a.choices.map pairOf <+: b.choices.map pairOf) :
    checkUnchanged id a.toJson b.toJson = .ok () := by
  have hold := choiceList_toJson id a ha
  have hnew := choiceList_toJson id b hb
  have hchoices : checkChoices id 0 (a.choices.map Choice.toJson)
      (b.choices.map Choice.toJson ++ []) = .ok () :=
    checkChoices_ok (Story.proper_choices ha) (Story.proper_choices hb) hpairs [] 0
  have hlength := hpairs.length_le
  rw [List.append_nil] at hchoices
  rw [List.length_map, List.length_map] at hlength
  obtain ⟨fields, hfields⟩ : ∃ fields, b.toJson = .obj fields := ⟨_, section_record.write_eq b⟩
  unfold Section.SameContent at hcontent
  rw [hfields] at hnew hcontent ⊢
  exact checkUnchanged_ok hcontent hold hnew (by simpa using hlength) hchoices

/-- A story in which no choice leads nowhere is written with sections of which the same holds. -/
theorem checkGraph_written {s : Story} (hs : s.Proper) (h : s.dangling = []) :
    checkGraph s.sectionsJson s.sectionsJson = .ok () := by
  apply checkGraph_ok
  intro e he
  obtain ⟨⟨id, b⟩, hmem, rfl⟩ := List.mem_map.1 he
  have hb : b.Proper := hs.sections.2 _ hmem
  refine ⟨_, _, section_record.write_eq b, choiceList_toJson id b hb, ?_⟩
  intro doc hdoc
  obtain ⟨c, hc, rfl⟩ := List.mem_map.1 hdoc
  refine ⟨c.target, choiceTarget_toJson id c, ?_⟩
  unfold Story.dangling at h
  rw [List.flatMap_eq_nil_iff] at h
  have hnone := h _ hmem
  rw [List.map_eq_nil_iff, List.filter_eq_nil_iff] at hnone
  rw [has_sectionsJson]
  simpa using hnone c hc

/-! ## Loading a second time -/

theorem field_meta_characters {s : Story} (h : s.Proper) :
    ((Json.obj (fieldsOf s)).field "meta").field "characters" =
      s.metadata.get?.elim .null fun m => (m.characters.slot Json.ofTextTable).getD .null := by
  have hget : Table.get? (fieldsOf s) "meta" = s.metadata.slot metadataCodec.write :=
    get?_fieldsOf h.extra.unknown (.head _)
  rw [Json.field_obj (fieldsOf s), hget]
  cases hmetadata : s.metadata with
  | value m =>
    have hcharacters := get?_metaFields (h.metadata m hmetadata)
      (.tail _ (.tail _ (.tail _ (.tail _ (.tail _ (.head _))))) :
        ("characters", m.characters.slot Json.ofTextTable) ∈ m.slots)
    show m.toJson.field "characters" = _
    rw [toJson_metadata, Json.field_obj, hcharacters]
    rfl
  | absent => rfl
  | null => rfl

theorem grownMeta_obj (former : Story) {characters : Table Json} (h : characters ≠ []) :
    grownMeta? former (.obj characters) =
      some (.obj ((metaFields (metadataOf former)).put "characters"
        (.obj (Table.merge ((charactersOf former).mapValues .str) characters)))) := by
  cases characters with
  | nil => exact absurd rfl h
  | cons e rest => rfl

/-- The former characters put in give the former metadata. -/
theorem grownMeta_own {former : Story} (hformer : former.Proper) :
    grownMeta? former (former.metadata.get?.elim .null fun m =>
      (m.characters.slot Json.ofTextTable).getD .null) =
        former.metadata.get?.map Metadata.toJson := by
  have hnull : grownMeta? former .null = former.metadata.get?.map Metadata.toJson :=
    grownMeta_plain former fun _ _ h => nomatch h
  cases hmetadata : former.metadata with
  | absent => exact hnull.trans (by rw [hmetadata])
  | null => exact hnull.trans (by rw [hmetadata])
  | value m =>
    have hm : m.Proper := hformer.metadata m hmetadata
    have hof : metadataOf former = m := by rw [metadataOf, hmetadata]; rfl
    show grownMeta? former ((m.characters.slot Json.ofTextTable).getD .null) = some m.toJson
    have hplain : former.metadata.get?.map Metadata.toJson = some m.toJson := by rw [hmetadata]; rfl
    rw [← hplain]
    cases hcharacters : m.characters with
    | absent => exact hnull
    | null => exact hnull
    | value known =>
      cases known with
      | nil => exact grownMeta_plain former fun _ _ h => nomatch h
      | cons e rest =>
        have hget := get?_metaFields hm
          (.tail _ (.tail _ (.tail _ (.tail _ (.tail _ (.head _))))) :
            ("characters", m.characters.slot Json.ofTextTable) ∈ m.slots)
        rw [hcharacters] at hget
        have hknown : charactersOf former = e :: rest := by
          rw [charactersOf, hof, hcharacters]
          rfl
        have hnodup : (Table.keys (Table.mapValues (e :: rest) Json.str)).Nodup := by
          rw [Table.keys_mapValues]
          exact hm.characters _ hcharacters
        have hself := Table.merge_of_get? fun _ he => Table.get?_of_mem hnodup he
        show grownMeta? former (.obj (Table.mapValues (e :: rest) Json.str)) = _
        rw [grownMeta_obj former (by simp [Table.mapValues]), hof, hknown, hself, hplain,
          toJson_metadata]
        exact congrArg (fun t => some (Json.obj t)) (Table.put_of_get? hget)

theorem settled_metadata {former s : Story} {characters : Json} (h : MetadataExtended former.settled characters s) :
    s.settled.metadata = s.metadata := by
  have hidem (m : Metadata) : m.settled.settled = m.settled := metadataCodec_lawful.settled_settled m
  show s.metadata.map Metadata.settled = s.metadata
  unfold MetadataExtended at h
  split at h
  · obtain ⟨known, hmetadata, -⟩ := h
    rw [hmetadata, metadataOf_settled]
    show Field.value { (metadataOf former).settled.settled with characters := .value known } = _
    rw [hidem]
  · cases hmetadata : s.metadata with
    | absent => rfl
    | null => rfl
    | value m =>
      have hfound : (former.metadata.map Metadata.settled).get? = some m := by
        rw [hmetadata] at h
        exact h.symm
      cases hformerMetadata : former.metadata with
      | absent => rw [hformerMetadata] at hfound; cases hfound
      | null => rw [hformerMetadata] at hfound; cases hfound
      | value n =>
        rw [hformerMetadata] at hfound
        cases hfound
        exact congrArg Field.value (hidem n)

section Again

variable {former s : Story} (hformer : former.Proper)

include hformer

/-- The metadata that an extended story is written with are merged into the same document as the ones
it comes from. -/
theorem grownMeta_again (hs : s.Proper) {characters : Json} (hcharacters : characters.Proper)
    (h : MetadataExtended former.settled characters s) :
    grownMeta? former (((Json.obj (fieldsOf s)).field "meta").field "characters") =
      grownMeta? former characters := by
  rw [field_meta_characters hs]
  unfold MetadataExtended at h
  split at h
  · -- the characters of the answer are among those of the story, which are merged once more
    rename_i e rest
    obtain ⟨known, hmetadata, hvalues⟩ := h
    rw [charactersOf_settled] at hvalues
    have hnodup : (Table.keys ((charactersOf former).mapValues Json.str)).Nodup := by
      rw [Table.keys_mapValues]
      have hproper := (proper_metadataOf hformer).characters
      unfold charactersOf
      cases hvalue : (metadataOf former).characters with
      | value t => exact hproper t hvalue
      | absent => exact List.nodup_nil
      | null => exact List.nodup_nil
    have hfield : s.metadata.get?.elim Json.null
        (fun m => (m.characters.slot Json.ofTextTable).getD .null) =
          .obj (Table.merge ((charactersOf former).mapValues .str) (e :: rest)) := by
      rw [hmetadata, ← hvalues]
      rfl
    have hne : Table.merge ((charactersOf former).mapValues .str) (e :: rest) ≠ [] := by
      intro hnil
      have hfound := Table.get?_merge ((charactersOf former).mapValues Json.str) hcharacters.1 e.1
      rw [hnil, Table.get?_cons, if_pos (beq_self_eq_true _)] at hfound
      cases hfound
    rw [hfield, grownMeta_obj former hne, grownMeta_obj former (List.cons_ne_nil _ _),
      Table.merge_merge hnodup hcharacters.1]
  · rename_i hplain
    have hsettled : s.metadata.get?.elim Json.null
        (fun m => (m.characters.slot Json.ofTextTable).getD .null) =
          former.metadata.get?.elim Json.null
            fun m => (m.characters.slot Json.ofTextTable).getD .null := by
      rw [h]
      unfold Story.settled
      cases former.metadata <;> rfl
    rw [hsettled, grownMeta_own hformer, grownMeta_plain former hplain]

/-- The document of an extended story is loaded as that story. -/
theorem loaded_again {sections response : Table Json} {x : String}
    (hresponse : (Json.obj response).Proper) (hs : s.Proper)
    (h : Judged former sections response x s) :
    LoadedFrom (adopted former (fieldsOf s)) s.settled := by
  have hloaded := loaded_of_judged h
  have hextended := metadata_of_judged hformer h
  have hcharacters : (((Json.obj response).field "meta").field "characters").Proper :=
    Json.proper_field (Json.proper_field hresponse "meta") "characters"
  have hformerSettled := storyCodec_lawful.settled_settled former
  constructor
  case metadata =>
    have hsame : Table.get? (adopted former (fieldsOf s)) "meta" =
        Table.get? (adopted former response) "meta" := by
      rw [adopted_meta hformer, adopted_meta hformer, grownMeta_again hformer hs hcharacters hextended]
    rw [Check.optional_congr hsame, settled_metadata hextended]
    exact hloaded.metadata
  case state =>
    have hcheck := stateCodec_lawful.optional (adopted_state (fieldsOf s) hformer) hformer.state
    have hsettled : s.settled.state = former.settled.state := by
      show s.state.map PlayState.settled = _
      rw [state_of_judged hformer h]
      exact congrArg Story.state hformerSettled
    rw [hsettled]
    exact hcheck
  case sections =>
    have hslot : Table.get? (fieldsOf s) "sections" = some (sectionCodec.table.write s.sections) :=
      get?_fieldsOf hs.extra.unknown (.tail _ (.tail _ (.head _)))
    exact sectionCodec_lawful.table.required ((adopted_sections _ hformer).trans hslot) hs.sections
  case definitions =>
    have hslot : Table.get? (fieldsOf s) "variables" =
        s.definitions.slot definitionCodec.table.write :=
      get?_fieldsOf hs.extra.unknown (.tail _ (.tail _ (.tail _ (.head _))))
    have hadopted := adopted_definitions (fieldsOf s) hformer
    rw [hslot] at hadopted
    have hwritten : (former.definitions.slot definitionCodec.table.write).or
        (s.definitions.slot definitionCodec.table.write) =
          s.definitions.slot definitionCodec.table.write := by
      by_cases habsent : former.definitions = .absent
      · rw [habsent]
        rfl
      · rw [definitions_of_judged hformer h habsent]
        have hsame := definitionCodec_lawful.table.slot_settled former.definitions
        show _ = (former.definitions.map definitionCodec.table.settled).slot _
        rw [hsame]
        show (former.definitions.slot _).or
          ((former.definitions.map definitionCodec.table.settled).slot _) = _
        rw [hsame]
        cases former.definitions.slot definitionCodec.table.write <;> rfl
    exact definitionCodec_lawful.table.optional (hadopted.trans hwritten) hs.definitions
  case extra =>
    have hwritten : Check.unknown (fieldsOf s) Story.declared = s.settled.extra :=
      hs.extra.unknown_written s.slots rfl
    have hformerExtra := hformer.extra.finite
    rw [unknown_adopted hformer, hwritten]
    refine (Table.merge_of_get? ?_).symm
    intro e he
    have hkey := hformerExtra.unknown e.1 (List.mem_map_of_mem he)
    have hget : Table.get? former.settled.extra e.1 = some e.2 :=
      Table.get?_of_mem hformerExtra.nodup he
    rw [get?_extra_settled, extra_of_judged hformer h hkey hget]
    have hfinite : e.2.finiteOnly = e.2 := by
      have hsettled := get?_extra_settled former e.1
      rw [hget] at hsettled
      obtain ⟨v, -, hv⟩ := Option.map_eq_some_iff.1 hsettled.symm
      rw [← hv, Json.finiteOnly_idem]
    rw [Option.map_some, hfinite]

end Again

/-! ## The review -/

/-- A review gives a story only when the former one can be written. -/
theorem writable_of_review {former s : Story} {response x : String}
    (h : review former response x = .ok (.ok s)) : former.isWritable = true := by
  unfold review at h
  split at h
  · cases h
  · unfold reviewDocument at h
    split at h
    · split at h
      · unfold Story.write at h
        split at h
        · rename_i hwritable
          exact hwritable
        · cases h
      · cases h
    · cases h

/-- An extended story that can be written passes the review again, and is given as it is written. -/
theorem review_again {former s : Story} {response x : String} (hformer : former.Proper)
    (h : review former response x = .ok (.ok s)) (hwritable : s.isWritable = true) :
    review former s.compactText x = .ok (.ok s.settled) := by
  have hs := proper_of_review hformer h
  obtain ⟨fields, sections, hread, hsections, hjudged⟩ := of_review h
  have hall := sections_of_judged hformer hsections hjudged
  have hslot : Table.get? (fieldsOf s) "sections" = some (.obj s.sectionsJson) :=
    get?_fieldsOf hs.extra.unknown (.tail _ (.tail _ (.head _)))
  rw [review_written hs hwritable, toJson_eq]
  refine reviewDocument_of_judged (writable_of_review h) hslot ?_
  constructor
  case kept =>
    apply checkKept_ok
    intro id hid
    rw [Story.sectionsJson, Table.keys_mapValues, ← Table.has_iff] at hid
    rw [has_sectionsJson]
    exact kept_of_judged hjudged hall hid
  case unchanged =>
    apply checkAllUnchanged_ok
    intro e he
    obtain ⟨⟨id, a⟩, hmem, rfl⟩ := List.mem_map.1 he
    have ha : former.section? id = some a := Table.get?_of_mem hformer.sections.1 hmem
    obtain ⟨b, hb, hcontent⟩ := keptIn_of_review hformer h id a ha
    have hfield : (Json.obj s.sectionsJson).field id = b.toJson := by
      have hget := get?_sectionsJson s id
      rw [hb] at hget
      exact Json.field_of_get? hget
    dsimp only
    rw [hfield]
    exact checkUnchanged_written (proper_section hformer ha) (proper_section hs hb) hcontent
      (choices_of_review hformer h ha hb)
  case extended =>
    obtain ⟨a, b, ha, hb, hlength⟩ := extended_of_judged hformer hjudged hall
    refine checkExtended_ok (get?_sectionsJson former x ▸ congrArg (Option.map _) ha)
      (get?_sectionsJson s x ▸ congrArg (Option.map _) hb)
      (choiceList_toJson x a (proper_section hformer ha))
      (choiceList_toJson x b (proper_section hs hb)) ?_
    rw [List.length_map, List.length_map]
    exact hlength
  case graph => exact checkGraph_written hs (dangling_of_judged hjudged hall)
  case loaded =>
    rw [toJson_eq]
    exact check_of_loadedFrom (loaded_again hformer (Json.proper_of_read hread) hs hjudged)
  case new =>
    apply checkNew_ok
    intro e he hnew
    obtain ⟨⟨id, b⟩, hmem, rfl⟩ := List.mem_map.1 he
    exact of_checkNew hjudged.new (id, b) hmem hnew

end Gamebook.Extension
