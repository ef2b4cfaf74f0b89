import Gamebook.Proofs.Extension.Answer
import Gamebook.Proofs.Extension.Completeness

/-!
# What reaches a verdict from an answer

Of the top-level fields of an answer the play state and the metadata beside the characters are dropped, and
the definitions of variables are replaced by the former story's.  So two answers that agree in the rest should
get one verdict.  They do, when the former story has a field of definitions.  When it has none, the answer's
definitions get through: into the story, or with their issues into the reason for refusing it.

* `Agree`             : two answers agree in what is up to the writer.
* `withoutVariables`  : an answer that says nothing of variables.
* `Verdict.define`    : a verdict, once it is known what the answer says of variables.
* `Rejection.isEarly` : the reason is found before the document is loaded.
* `review_influence`  : what two answers that agree have in common, and how their verdicts differ.
* `variables_get_through` : two answers that agree, with different verdicts.
-/

set_option autoImplicit false

namespace Gamebook

/-! ## What an answer says of variables -/

theorem VariableDefinition.reports_check (v : Json) : (VariableDefinition.check v).Reports := by
  cases v with
  | obj fields =>
    exact Checked.reports_seq
      (Checked.reports_map _ (Check.reports_defaulted Check.reports_scalarText fields "default"))
      (Check.reports_optional Check.reports_text fields "description")
  | _ => exact Checked.reports_fail _ _

namespace Extension

/-- What a document says of variables. -/
def definitionsIn (fields : Table Json) : Checked (Field (Table VariableDefinition)) :=
  Check.optional fields "variables" (Check.map VariableDefinition.check)

/-- A document that says nothing of variables. -/
def withoutVariables (fields : Table Json) : Table Json := fields.filterKeys fun key => key != "variables"

theorem reports_definitionsIn (fields : Table Json) : (definitionsIn fields).Reports :=
  Check.reports_optional (Check.reports_mapOf VariableDefinition.reports_check) fields "variables"

theorem get?_withoutVariables (fields : Table Json) {key : String} (h : key ≠ "variables") :
    Table.get? (withoutVariables fields) key = Table.get? fields key := by
  rw [withoutVariables, Table.get?_filterKeys, if_pos (by simpa using h)]

theorem get?_variables (fields : Table Json) : Table.get? (withoutVariables fields) "variables" = none := by
  rw [withoutVariables, Table.get?_filterKeys, if_neg (by decide)]

theorem definitionsIn_withoutVariables (fields : Table Json) :
    definitionsIn (withoutVariables fields) = .ok .absent := by
  rw [definitionsIn, Check.optional, get?_variables]

/-! ## Reasons by the time they are found -/

/-- The reason is found before the document is loaded. -/
def Rejection.isEarly : Rejection → Bool
  | .mismatch _ | .mismatchedId .. | .missingText _ => false
  | _ => true

/-- A check refuses, if it does, for an early reason. -/
def Verdict.Early {α : Type} (v : Verdict α) : Prop := ∀ reason, v = .error reason → reason.isEarly = true

namespace Verdict

variable {α β : Type}

theorem early_ok (a : α) : Verdict.Early (.ok a) := nofun

theorem early_error {reason : Rejection} (h : reason.isEarly = true) : Verdict.Early (.error reason : Verdict α) := by
  intro _ heq
  cases heq
  exact h

theorem early_bind {v : Verdict α} {f : α → Verdict β} (hv : Verdict.Early v) (hf : ∀ a, Verdict.Early (f a)) :
    Verdict.Early (v >>= f) := by
  cases v with
  | ok a => exact hf a
  | error reason => exact early_error (hv reason rfl)

end Verdict

section Stages

open Verdict

theorem early_choiceList (id : String) (section_ : Json) : Verdict.Early (choiceList id section_) := by
  unfold choiceList
  split
  · exact early_ok _
  · exact early_ok _
  · exact early_error rfl

theorem early_choiceTarget (id : String) (choice : Json) : Verdict.Early (choiceTarget id choice) := by
  unfold choiceTarget
  split
  · split
    · exact early_ok _
    · exact early_ok _
    · exact early_error rfl
  · exact early_error rfl

theorem early_sameChoice (id : String) (former candidate : Json) :
    Verdict.Early (sameChoice id former candidate) := by
  unfold sameChoice
  split
  · split
    · exact early_bind (early_choiceTarget id former) fun _ => early_bind (early_choiceTarget id _) fun _ => early_ok _
    · exact early_ok _
  · exact early_ok _

theorem early_checkChoices (id : String) (position : Nat) (formers candidates : List Json) :
    Verdict.Early (checkChoices id position formers candidates) := by
  induction formers generalizing position candidates with
  | nil => exact early_ok _
  | cons former rest ih =>
    cases candidates with
    | nil => exact early_error rfl
    | cons candidate more =>
      refine early_bind (early_sameChoice id former candidate) fun same => ?_
      split
      · exact ih (position + 1) more
      · exact early_error rfl

theorem early_checkUnchanged (id : String) (former candidate : Json) :
    Verdict.Early (checkUnchanged id former candidate) := by
  unfold checkUnchanged
  split
  · split
    · exact early_error rfl
    · refine early_bind (early_choiceList id former) fun old => early_bind (early_choiceList id _) fun new => ?_
      show Verdict.Early (if new.length < old.length then .error (.choicesRemoved id)
        else checkChoices id 0 old new)
      split
      · exact early_error rfl
      · exact early_checkChoices id 0 old new
  · exact early_error rfl

theorem early_checkTargets (sections : Table Json) (id : String) (choices : List Json) :
    Verdict.Early (checkTargets sections id choices) := by
  induction choices with
  | nil => exact early_ok _
  | cons choice rest ih =>
    refine early_bind (early_choiceTarget id choice) fun target => ?_
    split
    · exact ih
    · exact early_error rfl

theorem early_checkGraph (sections : Table Json) (entries : List (String × Json)) :
    Verdict.Early (checkGraph sections entries) := by
  induction entries with
  | nil => exact early_ok _
  | cons e rest ih =>
    obtain ⟨id, section_⟩ := e
    unfold checkGraph
    split
    · exact early_bind (early_choiceList id _) fun choices => early_bind (early_checkTargets sections id choices) fun _ => ih
    · exact early_error rfl

theorem early_checkKept (sections baseline : Table Json) : Verdict.Early (checkKept sections baseline) := by
  unfold checkKept
  split
  · exact early_error rfl
  · exact early_ok _

theorem early_checkAllUnchanged (sections : Table Json) (baseline : List (String × Json)) :
    Verdict.Early (checkAllUnchanged sections baseline) := by
  induction baseline with
  | nil => exact early_ok _
  | cons e rest ih =>
    obtain ⟨id, former⟩ := e
    exact early_bind (early_checkUnchanged id former _) fun _ => ih

theorem early_checkExtended (sections baseline : Table Json) (id : String) :
    Verdict.Early (checkExtended sections baseline id) := by
  unfold checkExtended
  split
  · refine early_bind (early_choiceList id _) fun old => early_bind (early_choiceList id _) fun new => ?_
    split
    · exact early_error rfl
    · exact early_ok _
  · exact early_error rfl

/-- What is checked before the document is loaded. -/
def checkSections (former : Story) (sections : Table Json) (x : String) : Verdict Unit := do
  checkKept sections former.sectionsJson
  checkAllUnchanged sections former.sectionsJson
  checkExtended sections former.sectionsJson x
  checkGraph sections sections

theorem early_checkSections (former : Story) (sections : Table Json) (x : String) :
    Verdict.Early (checkSections former sections x) :=
  early_bind (early_checkKept _ _) fun _ => early_bind (early_checkAllUnchanged _ _) fun _ =>
    early_bind (early_checkExtended _ _ _) fun _ => early_checkGraph _ _

end Stages

/-- A new section is refused for its id or for want of text. -/
theorem reason_of_checkNew {former : Story} {entries : List (String × Section)} {reason : Rejection}
    (h : checkNew former entries = .error reason) :
    (∃ key id, reason = .mismatchedId key id) ∨ ∃ id, reason = .missingText id := by
  induction entries with
  | nil => cases h
  | cons e rest ih =>
    obtain ⟨id, section_⟩ := e
    unfold checkNew at h
    split at h
    · exact ih h
    · split at h
      · cases h
        exact .inl ⟨_, _, rfl⟩
      · split at h
        · cases h
          exact .inr ⟨_, rfl⟩
        · exact ih h

/-- What becomes of a document that is loaded, or is not. -/
def settle (former : Story) (loaded : Checked Story) : Verdict Story :=
  match loaded with
  | .bad issues => .error (.mismatch issues)
  | .ok s => checkNew former s.sections >>= fun _ => .ok s

theorem judgeSections_eq (former : Story) (document sections response : Table Json) (x : String) :
    judgeSections former document sections response x =
      checkSections former sections x >>= fun _ =>
        settle former (Story.check (.obj (adopt document response))) := by
  unfold judgeSections checkSections settle
  simp only [bind_assoc]
  rfl

/-! ## Loading with and without definitions -/

/-- A loaded story with what a document says of variables. -/
def withDefinitions (loaded : Checked Story) (definitions : Checked (Field (Table VariableDefinition))) :
    Checked Story :=
  .seq (.map (fun s d => { s with definitions := d }) loaded) definitions

/-- A verdict on an answer that says nothing of variables, once it says something: what it says is taken over,
and the issues with it come behind those with the rest, before the new sections are looked at. -/
def Verdict.define (v : Verdict Story) (definitions : Checked (Field (Table VariableDefinition))) :
    Verdict Story :=
  match v, definitions with
  | .ok s, .ok d => .ok { s with definitions := d }
  | .ok _, .bad issues => .error (.mismatch issues)
  | .error (.mismatch found), .bad issues => .error (.mismatch (found ++ issues))
  | .error (.mismatchedId ..), .bad issues => .error (.mismatch issues)
  | .error (.missingText _), .bad issues => .error (.mismatch issues)
  | .error reason, _ => .error reason

variable {former : Story} {x : String} {f g : Table Json}

theorem define_early {reason : Rejection} (h : reason.isEarly = true)
    (definitions : Checked (Field (Table VariableDefinition))) :
    Verdict.define (.error reason) definitions = .error reason := by
  cases reason <;> first | rfl | cases h

/-- The definitions are taken over at the end as well as at once. -/
theorem settle_withDefinitions (loaded : Checked Story)
    (definitions : Checked (Field (Table VariableDefinition))) :
    settle former (withDefinitions loaded definitions) =
      (settle former (withDefinitions loaded (.ok .absent))).define definitions := by
  cases loaded with
  | bad found => cases definitions <;> rfl
  | ok s =>
    have hsettle (d : Field (Table VariableDefinition)) :
        settle former (withDefinitions (.ok s) (.ok d)) =
          checkNew former s.sections >>= fun _ => .ok { s with definitions := d } := rfl
    rw [hsettle]
    cases hnew : checkNew former s.sections with
    | ok _ =>
      cases definitions with
      | ok d =>
        rw [hsettle, hnew]
        rfl
      | bad issues => rfl
    | error reason =>
      cases definitions with
      | ok d =>
        rw [hsettle, hnew]
        cases reason <;> rfl
      -- the issues are found before the new sections are looked at
      | bad issues => rcases reason_of_checkNew hnew with ⟨_, _, rfl⟩ | ⟨_, rfl⟩ <;> rfl

/-- Documents with the same declared fields and the same unknown ones load alike.  Sections must be there: an
issue with a field that is missing tells something of the whole document. -/
theorem check_congr {v : Json} (hmeta : Table.get? f "meta" = Table.get? g "meta")
    (hstate : Table.get? f "state" = Table.get? g "state")
    (hf : Table.get? f "sections" = some v) (hg : Table.get? g "sections" = some v)
    (hvariables : Table.get? f "variables" = Table.get? g "variables")
    (hunknown : Check.unknown f Story.declared = Check.unknown g Story.declared) :
    Story.check (.obj f) = Story.check (.obj g) := by
  unfold Story.check Check.model
  dsimp only
  rw [Check.required, Check.required, hf, hg, Check.optional_congr hmeta, Check.optional_congr hstate,
    Check.optional_congr hvariables, hunknown]

theorem unknown_withoutVariables (f : Table Json) :
    Check.unknown (withoutVariables f) Story.declared = Check.unknown f Story.declared :=
  Check.unknown_filterKeys f fun key hkey => by
    rw [bne_iff_ne]
    rintro rfl
    exact hkey (by decide)

/-- The definitions are loaded beside the rest. -/
theorem check_withDefinitions {v : Json} (h : Table.get? f "sections" = some v) :
    Story.check (.obj f) =
      withDefinitions (Story.check (.obj (withoutVariables f))) (definitionsIn f) := by
  have hnone := definitionsIn_withoutVariables f
  have hsections : Check.required (withoutVariables f) "sections" (Check.map Section.check) =
      Check.required f "sections" (Check.map Section.check) := by
    rw [Check.required, Check.required, get?_withoutVariables f (by decide), h]
  unfold definitionsIn at hnone ⊢
  unfold Story.check Check.model
  dsimp only
  rw [hnone, hsections, unknown_withoutVariables,
    Check.optional_congr (get?_withoutVariables f (by decide)) Metadata.check,
    Check.optional_congr (get?_withoutVariables f (by decide)) PlayState.check]
  generalize Check.optional f "meta" Metadata.check = metadata
  generalize Check.optional f "state" PlayState.check = state
  generalize Check.required f "sections" (Check.map Section.check) = sections
  generalize Check.optional f "variables" (Check.map VariableDefinition.check) = definitions
  cases metadata <;> cases state <;> cases sections <;> cases definitions <;> rfl

/-! ## Answers that agree -/

/-- Two answers agree in what is up to the writer: in all fields but the play state, the metadata and the
variables, and in the characters of the metadata. -/
structure Agree (f g : Table Json) : Prop where
  fields : (f.filterKeys fun key => !("variables" :: notTheWriters).contains key) =
    g.filterKeys fun key => !("variables" :: notTheWriters).contains key
  characters : ((Json.obj f).field "meta").field "characters" = ((Json.obj g).field "meta").field "characters"

namespace Agree

theorem symm (h : Agree f g) : Agree g f := ⟨h.fields.symm, h.characters.symm⟩

theorem get?_eq (h : Agree f g) {key : String} (hkey : key ∉ "variables" :: notTheWriters) :
    Table.get? f key = Table.get? g key := by
  have hget := congrArg (Table.get? · key) h.fields
  rwa [Table.get?_filterKeys, Table.get?_filterKeys, if_pos (by simpa using hkey),
    if_pos (by simpa using hkey)] at hget

/-- What is not declared is up to the writer. -/
theorem unknown_eq (h : Agree f g) : Check.unknown f Story.declared = Check.unknown g Story.declared := by
  have hdropped : "variables" :: notTheWriters ⊆ Story.declared := by decide
  rw [← unknown_dropping f hdropped, h.fields, unknown_dropping g hdropped]

theorem withoutVariables (f : Table Json) : Agree f (withoutVariables f) where
  fields := by
    refine (Table.filterKeys_filterKeys f fun key hkey => ?_).symm
    simp only [List.contains_eq_mem] at hkey
    grind
  characters := by
    rw [Json.field_obj, Json.field_obj, get?_withoutVariables f (by decide)]

theorem trans {h : Table Json} (hfg : Agree f g) (hgh : Agree g h) : Agree f h :=
  ⟨hfg.fields.trans hgh.fields, hfg.characters.trans hgh.characters⟩

end Agree

section Former

variable (hformer : former.Proper)

include hformer

/-- Answers that agree load as the same story, variables aside. -/
theorem check_adopted_congr (h : Agree f g) {v : Json} (hsections : Table.get? f "sections" = some v) :
    Story.check (.obj (withoutVariables (adopted former f))) =
      Story.check (.obj (withoutVariables (adopted former g))) := by
  have hadopted (answer : Table Json) {key : String} (hkey : key ≠ "variables") :
      Table.get? (withoutVariables (adopted former answer)) key =
        Table.get? (adopted former answer) key := get?_withoutVariables _ hkey
  refine check_congr (v := v) ?_ ?_ ?_ ?_ ?_ ?_
  · rw [hadopted f (by decide), hadopted g (by decide), adopted_meta hformer, adopted_meta hformer,
      h.characters]
  · rw [hadopted f (by decide), hadopted g (by decide), adopted_state f hformer, adopted_state g hformer]
  · rw [hadopted f (by decide), adopted_sections f hformer, hsections]
  · rw [hadopted g (by decide), adopted_sections g hformer, ← h.get?_eq (by decide), hsections]
  · rw [get?_variables, get?_variables]
  · rw [unknown_withoutVariables, unknown_withoutVariables, unknown_adopted hformer,
      unknown_adopted hformer, h.unknown_eq]

/-- A former story that has definitions decides about them. -/
theorem definitionsIn_adopted_kept (h : former.definitions ≠ .absent) (f g : Table Json) :
    definitionsIn (adopted former f) = definitionsIn (adopted former g) := by
  apply Check.optional_congr
  rw [adopted_definitions f hformer, adopted_definitions g hformer]
  cases hvalue : former.definitions with
  | absent => exact absurd hvalue h
  | null => rfl
  | value t => rfl

/-- When the former story has none, the answer decides. -/
theorem definitionsIn_adopted_absent (h : former.definitions = .absent) (f : Table Json) :
    definitionsIn (adopted former f) = definitionsIn f := by
  apply Check.optional_congr
  rw [adopted_definitions f hformer, h]
  rfl

theorem reviewDocument_sections {sections : Table Json}
    (h : Table.get? f "sections" = some (.obj sections)) :
    reviewDocument former (.obj f) x = former.write.map fun _ =>
      checkSections former sections x >>= fun _ =>
        settle former (withDefinitions (Story.check (.obj (withoutVariables (adopted former f))))
          (definitionsIn (adopted former f))) := by
  have hfields : former.toJson.asObj?.getD [] = fieldsOf former := by
    rw [toJson_eq]
    rfl
  have hsections : Table.get? (adopted former f) "sections" = some (.obj sections) := by
    rw [adopted_sections f hformer, h]
  rw [← check_withDefinitions hsections]
  unfold reviewDocument Story.write
  simp only [Json.field_of_get? h]
  split
  · simp only [Except.map, judgeSections_eq, hfields]
    rfl
  · rfl

omit hformer in
/-- The review of an answer without sections. -/
theorem reviewDocument_noSections (h : ∀ sections, Table.get? f "sections" ≠ some (.obj sections)) :
    reviewDocument former (.obj f) x = .ok (.error .noSections) := by
  unfold reviewDocument
  dsimp only
  split
  · rename_i sections hsections
    rw [Json.field_obj] at hsections
    cases hget : Table.get? f "sections" with
    | none =>
      rw [hget] at hsections
      cases hsections
    | some v =>
      rw [hget] at hsections
      exact absurd (hget.trans (congrArg some hsections)) (h sections)
  · rfl

/-- A former story with definitions is extended alike by answers that agree. -/
theorem reviewDocument_congr (h : Agree f g) (hkept : former.definitions ≠ .absent) :
    reviewDocument former (.obj f) x = reviewDocument former (.obj g) x := by
  have hget := h.get?_eq (show "sections" ∉ _ by decide)
  by_cases hsections : ∃ sections, Table.get? f "sections" = some (.obj sections)
  · obtain ⟨sections, hf⟩ := hsections
    have hg := hget.symm.trans hf
    rw [reviewDocument_sections hformer hf, reviewDocument_sections hformer hg,
      check_adopted_congr hformer h hf, definitionsIn_adopted_kept hformer hkept f g]
  · rw [not_exists] at hsections
    rw [reviewDocument_noSections hsections, reviewDocument_noSections fun sections => hget ▸ hsections sections]

/-- A former story without definitions is extended as by an answer that says nothing of variables, and what the
answer says of them is put in at the end. -/
theorem reviewDocument_define (h : Agree f g) (habsent : former.definitions = .absent) :
    reviewDocument former (.obj f) x =
      (reviewDocument former (.obj (withoutVariables g)) x).map (·.define (definitionsIn f)) := by
  have hbare := h.trans (Agree.withoutVariables g)
  have hget := hbare.get?_eq (show "sections" ∉ _ by decide)
  by_cases hsections : ∃ sections, Table.get? f "sections" = some (.obj sections)
  · obtain ⟨sections, hf⟩ := hsections
    rw [reviewDocument_sections hformer hf, reviewDocument_sections hformer (hget.symm.trans hf),
      check_adopted_congr hformer hbare hf, definitionsIn_adopted_absent hformer habsent,
      definitionsIn_adopted_absent hformer habsent, definitionsIn_withoutVariables,
      settle_withDefinitions]
    cases former.write with
    | error fault => rfl
    | ok document =>
      refine congrArg Except.ok ?_
      cases hchecked : checkSections former sections x with
      | ok _ => rfl
      | error reason => exact (define_early (early_checkSections _ _ _ _ hchecked) _).symm
  · rw [not_exists] at hsections
    rw [reviewDocument_noSections hsections, reviewDocument_noSections fun sections => hget ▸ hsections sections]
    rfl

end Former

/-! ## The verdicts on answers that agree -/

/-- What is said of variables makes no difference: the review breaks off or refuses before it gets there, or
both can be read and it refuses anyway. -/
def Indifferent (outcome : Except WriteFault (Verdict Story))
    (d e : Checked (Field (Table VariableDefinition))) : Prop :=
  match outcome with
  | .error _ => True
  | .ok (.ok _) => False
  | .ok (.error reason) => reason.isEarly = true ∨ ∃ a b, d = .ok a ∧ e = .ok b

theorem define_ok (reason : Rejection) (d : Field (Table VariableDefinition)) :
    Verdict.define (.error reason) (.ok d) = .error reason := by
  cases reason <;> rfl

/-- Issues with the definitions take the place of a late reason, unless they come behind issues. -/
theorem define_late {reason : Rejection} (h : reason.isEarly = false) :
    ∃ found, (∀ issues, Verdict.define (.error reason) (.bad issues) = .error (.mismatch (found ++ issues))) ∧
      ∀ issues, reason = .mismatch issues → issues = found := by
  cases reason with
  | mismatch found => exact ⟨found, fun _ => rfl, fun _ heq => (Rejection.mismatch.inj heq).symm⟩
  | mismatchedId key id => exact ⟨[], fun _ => rfl, nofun⟩
  | missingText id => exact ⟨[], fun _ => rfl, nofun⟩
  | _ => cases h

/-- With issues to report, the definitions change a refusal for a late reason. -/
theorem define_bad_ne {reason : Rejection} {issues : List Issue} (h : reason.isEarly = false)
    (hissues : (Checked.bad issues : Checked (Field (Table VariableDefinition))).Reports) :
    Verdict.define (.error reason) (.bad issues) ≠ .error reason := by
  obtain ⟨found, hdefine, hfound⟩ := define_late h
  rw [hdefine]
  intro heq
  have hnil : found ++ issues = found := hfound _ (Except.error.inj heq).symm
  exact hissues (congrArg Checked.bad (List.append_right_eq_self.1 hnil))

/-- The definitions make no difference to a refusal just when they are the same, or the reason is early, or there
is nothing against either. -/
theorem define_error_eq_iff (reason : Rejection) {d e : Checked (Field (Table VariableDefinition))}
    (hd : d.Reports) (he : e.Reports) :
    Verdict.define (.error reason) d = Verdict.define (.error reason) e ↔
      d = e ∨ reason.isEarly = true ∨ ∃ a b, d = .ok a ∧ e = .ok b := by
  constructor
  · intro heq
    cases hearly : reason.isEarly with
    | true => exact .inr (.inl rfl)
    | false =>
      cases d with
      | ok a =>
        cases e with
        | ok b => exact .inr (.inr ⟨a, b, rfl, rfl⟩)
        | bad issues =>
          rw [define_ok] at heq
          exact absurd heq.symm (define_bad_ne hearly he)
      | bad issues =>
        cases e with
        | ok b =>
          rw [define_ok] at heq
          exact absurd heq (define_bad_ne hearly hd)
        | bad more =>
          obtain ⟨found, hdefine, -⟩ := define_late hearly
          rw [hdefine, hdefine] at heq
          have happend := Rejection.mismatch.inj (Except.error.inj heq)
          exact .inl (congrArg Checked.bad (List.append_cancel_left happend))
  · rintro (rfl | hearly | ⟨a, b, rfl, rfl⟩)
    · rfl
    · rw [define_early hearly, define_early hearly]
    · rw [define_ok, define_ok]

/-- The definitions make a difference to an accepted story unless they are the same. -/
theorem define_ok_eq_iff (s : Story) {d e : Checked (Field (Table VariableDefinition))} :
    Verdict.define (.ok s) d = Verdict.define (.ok s) e ↔ d = e := by
  constructor
  · intro heq
    cases d <;> cases e <;> cases heq <;> rfl
  · rintro rfl
    rfl

/-- Definitions make no difference just when they are the same or the outcome is indifferent to them. -/
theorem define_eq_iff (outcome : Except WriteFault (Verdict Story))
    {d e : Checked (Field (Table VariableDefinition))} (hd : d.Reports) (he : e.Reports) :
    outcome.map (·.define d) = outcome.map (·.define e) ↔ d = e ∨ Indifferent outcome d e := by
  cases outcome with
  | error fault => exact iff_of_true rfl (.inr trivial)
  | ok v =>
    have hmap : Except.ok (v.define d) = (Except.ok (v.define e) : Except WriteFault _) ↔
        v.define d = v.define e := ⟨Except.ok.inj, congrArg _⟩
    refine hmap.trans ?_
    cases v with
    | ok s => rw [define_ok_eq_iff, Indifferent, or_false]
    | error reason => exact define_error_eq_iff reason hd he

/-- Two answers that agree in what is up to the writer.  When the former story has a field of definitions they
get the same verdict.  When it has none, each gets the verdict of the answer without variables, with what it
says of variables put in; so the verdicts are the same just when this is the same, or makes no difference.  An
extended story keeps the rest of the former one, and has the answer's definitions when the former one has
none. -/
theorem review_influence {t u : String} (h : former.Reached) (ht : readResponse t = .ok (.obj f))
    (hu : readResponse u = .ok (.obj g)) (hagree : Agree f g) :
    (former.definitions ≠ .absent → review former t x = review former u x) ∧
    (former.definitions = .absent →
      review former t x =
        (reviewDocument former (.obj (withoutVariables f)) x).map (·.define (definitionsIn f)) ∧
      review former u x =
        (reviewDocument former (.obj (withoutVariables f)) x).map (·.define (definitionsIn g)) ∧
      (review former t x = review former u x ↔ definitionsIn f = definitionsIn g ∨
        Indifferent (reviewDocument former (.obj (withoutVariables f)) x)
          (definitionsIn f) (definitionsIn g))) ∧
    ∀ s, review former t x = .ok (.ok s) →
      KeepsRest former.settled (((Json.obj f).field "meta").field "characters") s ∧
      (former.definitions = .absent → definitionsIn f = .ok s.definitions) := by
  have hformer := h.proper
  refine ⟨fun hkept => ?kept, fun habsent => ?absent, fun s hs => ?adopted⟩
  case kept =>
    rw [review_of_read ht, review_of_read hu]
    exact reviewDocument_congr hformer hagree hkept
  case absent =>
    have hfirst := reviewDocument_define (x := x) hformer ⟨rfl, rfl⟩ habsent (f := f) (g := f)
    have hsecond := reviewDocument_define (x := x) hformer hagree.symm habsent
    rw [review_of_read ht, review_of_read hu]
    refine ⟨hfirst, hsecond, ?_⟩
    rw [hfirst, hsecond]
    exact define_eq_iff _ (reports_definitionsIn f) (reports_definitionsIn g)
  case adopted =>
    obtain ⟨fields, sections, hread, -, hjudged⟩ := of_review hs
    rw [ht] at hread
    cases hread
    refine ⟨keepsRest_of_judged hformer hjudged, fun habsent => ?_⟩
    rw [← definitionsIn_adopted_absent hformer habsent]
    exact (loaded_of_judged hjudged).definitions

/-! ## Definitions that get through -/

/-- An answer about the fresh story that adds a choice, with other fields. -/
def strollAnswer (more : Table Json) : Table Json :=
  ("sections", .obj [("1", .obj [("id", .str "1"), ("text_lines", .arr [.str ""]),
    ("next", .arr [.obj [("text", .str "Stay"), ("next", .str "1")]])])]) :: more

/-- Fields that are not up to the writer, variables aside. -/
def meddling : Table Json :=
  [("state", .obj [("current_section", .str "1")]), ("meta", .obj [("title", .str "Mine")])]

def nameDefined : Table Json := [("variables", .obj [("name", .obj [("default", .str "Ada")])])]

theorem readResponse_stroll (more : Table Json) (hproper : (Json.obj (strollAnswer more)).Proper)
    (hdepth : (Json.obj (strollAnswer more)).isWithin nestingLimit = true) :
    readResponse (Json.obj (strollAnswer more)).compact = .ok (.obj (strollAnswer more)) :=
  readResponse_write hproper hdepth ⟨none, false⟩

theorem review_influence_stroll : Story.fresh.Reached ∧ Agree (strollAnswer meddling) (strollAnswer []) ∧
    review .fresh (Json.obj (strollAnswer meddling)).compact "1" =
      review .fresh (Json.obj (strollAnswer [])).compact "1" := by
  have hagree : Agree (strollAnswer meddling) (strollAnswer []) := ⟨rfl, rfl⟩
  have hmeddling := readResponse_stroll meddling
    (by simp [strollAnswer, meddling, Json.Proper, Json.ProperFields, Json.ProperItems]) rfl
  have hplain := readResponse_stroll []
    (by simp [strollAnswer, Json.Proper, Json.ProperFields, Json.ProperItems]) rfl
  have hinfluence := review_influence (x := "1") .fresh hmeddling hplain hagree
  exact ⟨.fresh, hagree, (hinfluence.2.1 rfl).2.2.2 (.inl rfl)⟩

/-- Two answers that agree, and of the extended stories only one has definitions of variables, although the fresh
story has none. -/
theorem variables_get_through : Story.fresh.Reached ∧ Story.fresh.definitions = .absent ∧
    ∃ t u, readResponse t = .ok (.obj (strollAnswer nameDefined)) ∧
      readResponse u = .ok (.obj (strollAnswer [])) ∧
      Agree (strollAnswer nameDefined) (strollAnswer []) ∧
      ∃ s s', review .fresh t "1" = .ok (.ok s) ∧ review .fresh u "1" = .ok (.ok s') ∧
        s.definitions = .value [("name", ⟨some "Ada", .absent, []⟩)] ∧ s'.definitions = .absent := by
  have hdefined := readResponse_stroll nameDefined
    (by simp [strollAnswer, nameDefined, Json.Proper, Json.ProperFields, Json.ProperItems]) rfl
  have hplain := readResponse_stroll []
    (by simp [strollAnswer, Json.Proper, Json.ProperFields, Json.ProperItems]) rfl
  exact ⟨.fresh, rfl, _, _, hdefined, hplain, ⟨rfl, rfl⟩, _, _, review_of_read hdefined .fresh "1",
    review_of_read hplain .fresh "1", rfl, rfl⟩

end Extension

end Gamebook
