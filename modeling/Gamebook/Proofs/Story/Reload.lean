import Gamebook.Proofs.Json.ReadBack
import Gamebook.Proofs.Player.Kept

/-!
# Writing a story and loading it again

* `Story.Reached`        : fresh and loaded stories, and those after any play and any scripts.
* `Story.Reached.proper` : each of them is one that is written and loaded.
* `Story.reload`         : what is written is loaded as the settled story.
* `Story.reloads_iff`    : when a reached story is loaded as it was.
* `Story.nan_not_reloaded` : a number in an unknown field that is lost.
-/

set_option autoImplicit false

namespace Gamebook.Story

/-- Stories that come from a fresh one or a loaded one by play and by scripts, refused steps and
interrupted scripts included. -/
inductive Reached : Story → Prop
  | fresh : Reached .fresh
  | loaded {text : String} {s : Story} (h : ofText text = .ok s) : Reached s
  | started {σ : Type} {p : Player σ} {s t : Story} (hs : Reached s)
      (h : (p.load (some s)).1.story = some t) : Reached t
  | entered {σ : Type} {prompter : Option (Prompter σ)} {p : Player σ} {id : String} {remember : Bool}
      {s t : Story} (hs : Reached s) (hp : p.story = some s)
      (h : (p.enter prompter id remember).1.story = some t) : Reached t
  | moved {σ : Type} {prompter : Option (Prompter σ)} {p : Player σ} {m : Move} {s t : Story}
      (hs : Reached s) (hp : p.story = some s) (h : (p.move prompter m).1.story = some t) : Reached t
  | scripted {σ : Type} {prompter : Option (Prompter σ)} {lines : List Line} {index : Nat}
      {scene : Scene σ} (hs : Reached scene.story) :
      Reached (runLines prompter index lines scene).1.story

theorem proper_fresh : fresh.Proper where
  metadata := fun _ h => nomatch h
  state := fun _ h => nomatch h
  sections := by
    refine ⟨by decide, ?_⟩
    intro e he
    rw [List.mem_singleton.1 he]
    exact ⟨fun _ h => (nomatch h), fun _ h => (nomatch h), fun _ h => (nomatch h),
      fun _ h => (nomatch h), ProperExtra.nil _⟩
  definitions := fun _ h => nomatch h
  extra := ProperExtra.nil _

/-- A loaded story comes from a proper document. -/
theorem proper_of_text {text : String} {s : Story} (h : ofText text = .ok s) : s.Proper := by
  unfold ofText at h
  split at h
  · rename_i v hread
    unfold ofJson at h
    split at h
    · split at h
      · rename_i hcheck
        cases h
        exact storyCodec_lawful.proper_check _ _ (Json.proper_of_read hread) hcheck
      · cases h
    · cases h
  · cases h

theorem proper_load {σ : Type} {p : Player σ} {s t : Story} (hs : s.Proper)
    (h : (p.load (some s)).1.story = some t) : t.Proper := by
  unfold Player.load at h
  dsimp only at h
  split at h
  · cases h
  · cases h
    exact proper_started hs

theorem Reached.proper {s : Story} (h : Reached s) : s.Proper := by
  induction h with
  | fresh => exact proper_fresh
  | loaded h => exact proper_of_text h
  | started _ h ih => exact proper_load ih h
  | entered _ hp h ih =>
    refine invariant_proper.enter _ ?_ _ _ _ h
    intro s hs
    rw [hp] at hs
    cases hs
    exact ih
  | moved _ hp h ih =>
    refine invariant_proper.move _ ?_ _ _ h
    intro s hs
    rw [hp] at hs
    cases hs
    exact ih
  | scripted _ ih => exact invariant_proper.runLines _ _ _ ih

/-! ## Loading what was written -/

theorem ofText_of_read {text : String} {v : Json} {s : Story} (hread : Json.read text = .ok v)
    (hstory : ofJson v = .ok s) : ofText text = .ok s := by
  unfold ofText
  rw [hread]
  exact hstory

theorem isWritable_iff (s : Story) :
    s.isWritable = true ↔ ∀ v ∈ s.unknownValues, v.isWithin unknownDepth = true :=
  List.all_eq_true

/-- The text of a story, in any layout, is loaded as the settled story. -/
theorem reload {s : Story} (hproper : s.Proper) (hwritable : s.isWritable = true)
    (layout : JsonLayout) : ofText (s.toJson.write layout) = .ok s.settled := by
  have hdoc : s.toJson.Proper := storyCodec_lawful.proper_write s hproper
  have hwithin := storyCodec_lawful.within_write s (s.isWritable_iff.1 hwritable)
  have hdepth : s.toJson.isWithin nestingLimit = true :=
    Json.isWithin_mono _ (by decide) hwithin
  have hcheck : check s.toJson = .ok s.settled := storyCodec_lawful.check_write s hproper
  have hobj := story_record.write_eq s
  simp only [storyCodec] at hobj
  refine ofText_of_read (Json.read_write layout hdoc hdepth) ?_
  unfold ofJson
  rw [hobj] at hcheck ⊢
  simp only [hcheck]

theorem toJson_settled (s : Story) : s.settled.toJson = s.toJson := storyCodec_lawful.write_settled s

/-- A story is settled when its unknown fields have finite numbers only. -/
theorem settled_eq_iff (s : Story) : s.settled = s ↔ ∀ v ∈ s.unknownValues, v.isFinite = true := by
  constructor
  · intro h v hv
    have hvalues := s.unknownValues_settled
    rw [h] at hvalues
    have hall : ∀ values : List Json, values = values.map Json.finiteOnly →
        ∀ v ∈ values, v.finiteOnly = v := by
      intro values heq
      induction values with
      | nil => exact List.forall_mem_nil _
      | cons first rest ih =>
        rw [List.map_cons, List.cons.injEq] at heq
        exact List.forall_mem_cons.2 ⟨heq.1.symm, ih heq.2⟩
    exact (Json.finiteOnly_eq_iff v).1 (hall _ hvalues v hv)
  · intro h
    exact storyCodec_lawful.settled_eq s fun v hv => (Json.finiteOnly_eq_iff v).2 (h v hv)

/-- The two texts of a story. -/
theorem written_eq {s : Story} {outcome : Except WriteFault String}
    (h : outcome ∈ [s.writeCompact, s.writePretty]) :
    ∃ layout : JsonLayout, outcome =
      if s.isWritable then .ok (s.toJson.write layout) else .error .tooDeep := by
  have hwrite : ∀ layout, s.write.map (Json.write layout) =
      if s.isWritable then .ok (s.toJson.write layout) else .error .tooDeep := by
    intro layout
    unfold write
    split <;> rfl
  rcases List.mem_cons.1 h with rfl | h
  · exact ⟨_, hwrite _⟩
  · rw [List.mem_singleton.1 h]
    exact ⟨_, hwrite _⟩

/-- Every text that is written of a reached story is loaded as the settled story, which has the same
document.  It is the story itself, and there is a text at all, exactly when the unknown fields are not
nested too deeply and all their numbers are finite. -/
theorem reloads_iff {s : Story} (h : s.Reached) :
    ∀ outcome ∈ [s.writeCompact, s.writePretty],
      (∀ text, outcome = .ok text → ofText text = .ok s.settled ∧ s.settled.toJson = s.toJson) ∧
        ((∃ text, outcome = .ok text ∧ ofText text = .ok s) ↔
          s.isWritable = true ∧ ∀ v ∈ s.unknownValues, v.isFinite = true) := by
  intro outcome houtcome
  obtain ⟨layout, rfl⟩ := written_eq houtcome
  by_cases hwritable : s.isWritable = true
  · have hload := reload h.proper hwritable layout
    simp only [if_pos hwritable, Except.ok.injEq]
    refine ⟨?_, ?_⟩
    · rintro text rfl
      exact ⟨hload, s.toJson_settled⟩
    · rw [← s.settled_eq_iff]
      constructor
      · rintro ⟨text, rfl, hsame⟩
        rw [hload] at hsame
        exact ⟨hwritable, Except.ok.inj hsame⟩
      · rintro ⟨-, hsettled⟩
        exact ⟨_, rfl, by rw [hload, hsettled]⟩
  · simp only [if_neg hwritable]
    refine ⟨fun text htext => (nomatch htext), ?_⟩
    constructor
    · rintro ⟨text, htext, -⟩
      cases htext
    · rintro ⟨hyes, -⟩
      exact absurd hyes hwritable

/-- A ferry, whose ferryman asks for a name, notes the passenger and offers the way back.  Of the weather the
story knows nothing. -/
def ferryDocument : Json :=
  .obj [("sections", .obj
    [("1", .obj [("id", .str "1"), ("text", .str "The near bank."),
      ("next", .arr [.obj [("text", .str "Cross"), ("next", .str "2")]])]),
     ("2", .obj [("id", .str "2"), ("text", .str "Welcome aboard, $name."),
      ("script", .arr [.obj [("action", .str "INPUT"), ("parameters", .arr [.str "name", .str "Who goes"])],
        .obj [("action", .str "SET"), ("parameters", .arr [.str "seat", .str "taken"])],
        .obj [("action", .str "IF_SET_DO"),
          ("parameters", .arr [.str "name", .str "ADD_CHOICE", .str "1", .str "Return"])]])])]),
    ("weather", .obj [("wind", .float (.zero true)), ("rain", .bool false)])]

def ferry : Story where
  metadata := .absent
  state := .absent
  sections :=
    [("1", ⟨"1", .absent, .value "The near bank.", .absent, .value [.added "2" "Cross"], .absent, .absent,
       .absent, []⟩),
     ("2", ⟨"2", .absent, .value "Welcome aboard, $name.", .absent, .absent,
       .value [⟨"INPUT", some ["name", "Who goes"], []⟩, ⟨"SET", some ["seat", "taken"], []⟩,
         ⟨"IF_SET_DO", some ["name", "ADD_CHOICE", "1", "Return"], []⟩], .absent, .absent, []⟩)]
  definitions := .absent
  extra := [("weather", .obj [("wind", .float (.zero true)), ("rain", .bool false)])]

/-- The ferry after Ada crossed it and came back, with three coins. -/
def ferried : Story :=
  ({ ferry with state := .value ⟨.value "1",
      .value [("coins", "3"), ("name", "Ada"), ("seat", "taken")], .value ["1", "2"], []⟩ } : Story).modifySection
    "2" fun s => { s with next := .value [.added "1" "Return"] }

theorem proper_ferryDocument : ferryDocument.Proper := by
  simp [ferryDocument, Json.Proper, Json.ProperFields, Json.ProperItems, Table.keys]

theorem ofText_ferry : ofText ferryDocument.compact = .ok ferry :=
  ofText_of_read (Json.read_write _ proper_ferryDocument (by decide)) rfl

/-- Ada at the ferry, with three coins and her name ready. -/
def passenger : Player (List (Option String)) :=
  ⟨some (ferry.started.setVariable "coins" "3"), [some "Ada"], [], []⟩

theorem reached_passenger : (ferry.started.setVariable "coins" "3").Reached := by
  have hstarted : ferry.started.Reached := .started (p := Player.idle ()) (.loaded ofText_ferry) rfl
  exact @Reached.scripted Unit none [⟨.str "SET", .ok ["coins", "3"]⟩] 0 ⟨ferry.started, (), [], []⟩ hstarted

theorem reached_ferried : ferried.Reached := by
  have haboard : ∀ s : Story, (passenger.enter (some .ofAnswers) "2" true).1.story = some s → s.Reached :=
    fun s h => @Reached.entered _ (some .ofAnswers) passenger "2" true _ s reached_passenger rfl h
  exact @Reached.moved _ (some .ofAnswers) (passenger.enter (some .ofAnswers) "2" true).1 .forward _ ferried
    (haboard _ rfl) rfl rfl

theorem reloads_ferried : ferried.Reached ∧ ∀ outcome ∈ [ferried.writeCompact, ferried.writePretty],
    ∃ text, outcome = .ok text ∧ ofText text = .ok ferried :=
  ⟨reached_ferried, fun outcome h =>
    (reloads_iff reached_ferried outcome h).2.2 ⟨by decide, by decide⟩⟩

/-- A document with a number in an unknown field that is not finite. -/
theorem ofText_nan : ofText "\x7b\"sections\": \x7b\x7d, \"x\": NaN\x7d" =
    .ok ⟨.absent, .absent, [], .absent, [("x", .float .nan)]⟩ := by
  have hchars : "\x7b\"sections\": \x7b\x7d, \"x\": NaN\x7d".toList =
      ['\x7b', '"', 's', 'e', 'c', 't', 'i', 'o', 'n', 's', '"', ':', ' ', '\x7b', '\x7d', ',', ' ',
        '"', 'x', '"', ':', ' ', 'N', 'a', 'N', '\x7d'] := by decide +kernel
  have hread : Json.read "\x7b\"sections\": \x7b\x7d, \"x\": NaN\x7d" =
      .ok (.obj [("sections", .obj []), ("x", .float .nan)]) := by
    unfold Json.read
    rw [hchars]
    rfl
  exact ofText_of_read hread rfl

/-- Such a number is lost: it is written, and loaded, as null. -/
theorem nan_not_reloaded :
    ∃ s text, ofText "\x7b\"sections\": \x7b\x7d, \"x\": NaN\x7d" = .ok s ∧ s.writeCompact = .ok text ∧
      ofText text ≠ .ok s := by
  refine ⟨_, _, ofText_nan, rfl, ?_⟩
  intro h
  have hload := reload (proper_of_text ofText_nan) rfl ⟨none, false⟩
  rw [Json.compact, hload] at h
  cases h

end Gamebook.Story
