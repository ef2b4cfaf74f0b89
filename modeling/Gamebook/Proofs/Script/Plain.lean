import Gamebook.Proofs.Script.Grammar
import Gamebook.Proofs.Story.Codec
import Gamebook.Script.Run

/-!
# Scripts given as plain objects

A script is run as it stands in a document, object by object, or as the actions that the check makes of
the objects.  Either way brings the parameters to texts by a rule of its own: null becomes the empty
text, a text stays, and a number is written in one and the same way.  Only a truth value is not; it is
the word `true` or `false` in an action, and `True` or `False` in a plain object.  A plain script so
does what the actions of a respelled script do, and what its own actions do when no line is read from a
truth value.

* `Json.isTruth`, `Json.worded`     : truth values among parameters, and the words that stand for them.
* `checkParameter_eq_iff`, `checkParameter_worded` : the two rules, for one parameter.
* `Line.given`, `Line.worded`       : the parameters of a plain line, and the line with words for them.
* `Action.check_eq_ok_iff`, `Line.ofJson_of_check` : a line that is accepted, as an action and as it stands.
* `Line.check_worded`               : a plain line is the action of the respelled line.
* `Line.reading`, `Line.heeded`     : what a line is read as, and the parameters that it is read from.
* `Line.reading_ofAction_iff`       : when a line is read alike from both forms.
* `runPlain_agrees`                 : the two forms of a script.
* `runPlain_truth_apart`            : a script on which they differ.
-/

set_option autoImplicit false

namespace Gamebook

/-! ## Parameters -/

/-- The value is a truth value. -/
def Json.isTruth : Json → Bool
  | .bool _ => true
  | _ => false

/-- The value, a truth value as the word that a plain line has for it. -/
def Json.worded : Json → Json
  | .bool b => .str (if b then "True" else "False")
  | v => v

/-- The text of an accepted parameter is that of the plain one just when it is no truth value. -/
theorem checkParameter_eq_iff {p : Json} {text : String} (h : Action.checkParameter p = .ok text) :
    Line.parameterText p = text ↔ p.isTruth = false := by
  cases p with
  | bool b =>
    cases h
    cases b <;> decide
  | null | int n | float x | str s =>
    cases h
    exact iff_of_true rfl rfl
  | arr items | obj fields => cases h

/-- With words for truth values, the text of an accepted parameter is that of the plain one. -/
theorem checkParameter_worded {p : Json} {text : String} (h : Action.checkParameter p = .ok text) :
    Action.checkParameter p.worded = .ok (Line.parameterText p) := by
  cases p with
  | arr items | obj fields => cases h
  | _ => rfl

theorem checkParameters_eq_iff {ps : List Json} {texts : List String}
    (h : List.Forall₂ (fun p text => Action.checkParameter p = .ok text) ps texts) :
    ps.map Line.parameterText = texts ↔ ∀ p ∈ ps, p.isTruth = false := by
  induction h with
  | nil => exact iff_of_true rfl (List.forall_mem_nil _)
  | cons hfirst _ ih =>
    rw [List.map_cons, List.cons.injEq, checkParameter_eq_iff hfirst, ih, List.forall_mem_cons]

/-- All parameters of a line together, with words for truth values. -/
theorem checkParameters_worded {ps : List Json} {texts : List String}
    (h : List.Forall₂ (fun p text => Action.checkParameter p = .ok text) ps texts) :
    List.Forall₂ (fun p text => Action.checkParameter p = .ok text) (ps.map Json.worded)
      (ps.map Line.parameterText) := by
  induction h with
  | nil => exact .nil
  | cons hfirst _ ih => exact .cons (checkParameter_worded hfirst) ih

/-! ## Lines -/

namespace Line

/-- The parameters that a plain line gives in a list. -/
def given (item : Json) : List Json := ((item.field "parameters").asArr?).getD []

/-- A list of parameters with words for the truth values in it. -/
def wordedList : Json → Json
  | .arr ps => .arr (ps.map Json.worded)
  | v => v

/-- The plain line with words for the truth values among its parameters. -/
def worded : Json → Json
  | .obj fields => .obj (Table.modify fields "parameters" wordedList)
  | v => v

end Line

/-- An object is accepted as an action when its tag is a text and its parameters are accepted. -/
theorem Action.check_eq_ok_iff {item : Json} {a : Action} : Action.check item = .ok a ↔
    ∃ fields : Table Json, item = .obj fields ∧ fields.get? "action" = some (.str a.tag) ∧
      Check.defaulted fields "parameters" Action.checkParameters = .ok a.parameters ∧
      Check.unknown fields ["action", "parameters"] = a.extra := by
  constructor
  · intro h
    obtain ⟨fields, rfl, hcheck⟩ := Check.of_model h
    obtain ⟨g, parameters, hg, hparameters, rfl⟩ := Checked.of_seq hcheck
    obtain ⟨tag, htag, rfl⟩ := Checked.of_map hg
    obtain ⟨v, hv, htext⟩ := Check.of_required htag
    cases v with
    | str s =>
      cases htext
      exact ⟨fields, rfl, hv, hparameters, rfl⟩
    | _ => cases htext
  · rintro ⟨fields, rfl, htag, hparameters, hextra⟩
    obtain ⟨tag, parameters, extra⟩ := a
    cases hextra
    have htext : Check.required fields "action" Check.text = .ok tag := Check.required_ok htag rfl
    exact Checked.seq_of (Checked.map_of htext) hparameters

namespace Line

theorem ofJson_obj (fields : Table Json) : ofJson (.obj fields) = ⟨(Json.obj fields).field "action",
    (itemsOf ((Json.obj fields).field "parameters")).map (·.map parameterText)⟩ := rfl

/-- An accepted line: the parameters that are given for the arguments of the action, and the line that
is run as it stands. -/
theorem ofJson_of_check {item : Json} {a : Action} (h : Action.check item = .ok a) :
    List.Forall₂ (fun p text => Action.checkParameter p = .ok text) (given item) a.arguments ∧
      ofJson item = ⟨.str a.tag, .ok ((given item).map parameterText)⟩ := by
  obtain ⟨fields, rfl, htag, hparameters, -⟩ := Action.check_eq_ok_iff.1 h
  rw [ofJson_obj, Json.field_of_get? htag, given, Json.field_obj fields "parameters", Action.arguments]
  obtain ⟨hnone, hget⟩ | ⟨v, texts, hsome, hget, hcheck⟩ := Check.of_defaulted hparameters
  · rw [hnone, hget]
    exact ⟨.nil, rfl⟩
  · rw [hsome, hget]
    obtain ⟨rfl, rfl⟩ | ⟨ps, rfl, hps⟩ := Action.of_checkParameters hcheck
    · exact ⟨.nil, rfl⟩
    · refine ⟨hps, ?_⟩
      cases ps <;> rfl

/-- With words for truth values, the parameters of an accepted line are accepted and are those of the
plain one. -/
theorem defaulted_worded {fields : Table Json} {o : Option (List String)}
    (h : Check.defaulted fields "parameters" Action.checkParameters = .ok o) :
    ∃ o', Check.defaulted (Table.modify fields "parameters" wordedList) "parameters"
        Action.checkParameters = .ok o' ∧ o'.getD [] = (given (.obj fields)).map parameterText := by
  rw [Check.defaulted, Table.get?_modify, if_pos rfl, given, Json.field_obj]
  obtain ⟨-, hget⟩ | ⟨v, texts, -, hget, hcheck⟩ := Check.of_defaulted h
  · rw [hget]
    exact ⟨none, rfl, rfl⟩
  · rw [hget]
    dsimp only [Option.map_some]
    obtain ⟨rfl, rfl⟩ | ⟨ps, rfl, hps⟩ := Action.of_checkParameters hcheck
    · exact ⟨some [], rfl, rfl⟩
    · have hworded : Action.checkParameters (wordedList (.arr ps)) = .ok (ps.map parameterText) :=
        Check.list_of_items (checkParameters_worded hps)
      refine ⟨some (ps.map parameterText), ?_, rfl⟩
      rw [hworded]
      rfl

/-- An accepted line is run as the action of the respelled line, which is accepted. -/
theorem check_worded {item : Json} {a : Action} (h : Action.check item = .ok a) :
    ∃ b, Action.check (worded item) = .ok b ∧ ofJson item = ofAction b := by
  have hline := (ofJson_of_check h).2
  obtain ⟨fields, rfl, htag, hparameters, -⟩ := Action.check_eq_ok_iff.1 h
  obtain ⟨o, ho, htexts⟩ := defaulted_worded hparameters
  have hkeep : Table.get? (Table.modify fields "parameters" wordedList) "action" = some (.str a.tag) := by
    rw [Table.get?_modify, if_neg (by decide), htag]
  refine ⟨⟨a.tag, o, _⟩, Action.check_eq_ok_iff.2 ⟨_, rfl, hkeep, ho, rfl⟩, ?_⟩
  rw [hline, ofAction, Action.arguments, htexts]

/-! ## Reading a line -/

/-- A line is read as an instruction when the instruction is of the grammar, has its tag, and is what
its parameters begin with. -/
theorem parse_eq_ok_iff_flat {tag : String} {ps : List String} {i : Instruction String} :
    Instruction.parse tag ps = .ok i ↔ i.tree.WellFormed ∧ i.tag.word = tag ∧ i.flat <+: ps := by
  rw [← map_tree_eq_iff, parse_eq_tree_iff, Instruction.tag_tree, Instruction.flat_tree]

/-- What a line is read as. -/
def reading (line : Line) : Except Interruption (Except InvalidAction (Instruction String)) :=
  line.parameters.map line.parse

/-- The parameters that a plain line is read from: those that the instruction takes, or all of them when
the line is refused. -/
def heeded (item : Json) : List Json :=
  match (ofJson item).reading with
  | .ok (.ok i) => (given item).take i.flat.length
  | _ => given item

theorem reading_ofJson {item : Json} {a : Action} (h : Action.check item = .ok a) :
    (ofJson item).reading = .ok (Instruction.parse a.tag ((given item).map parameterText)) := by
  rw [(ofJson_of_check h).2]
  rfl

/-- A line that is read as an instruction is read as it from the action just when no parameter that the
instruction takes is a truth value. -/
theorem reading_ofAction_iff {item : Json} {a : Action} (h : Action.check item = .ok a)
    {i : Instruction String} (hi : (ofJson item).reading = .ok (.ok i)) :
    (ofAction a).reading = (ofJson item).reading ↔ ∀ p ∈ heeded item, p.isTruth = false := by
  have hgiven := (ofJson_of_check h).1
  have hplain : Instruction.parse a.tag ((given item).map parameterText) = .ok i :=
    Except.ok.inj ((reading_ofJson h).symm.trans hi)
  obtain ⟨hformed, htag, hprefix⟩ := parse_eq_ok_iff_flat.1 hplain
  have hflat : ((given item).take i.flat.length).map parameterText = i.flat := by
    rw [List.map_take, ← List.prefix_iff_eq_take.1 hprefix]
  have hheeded : heeded item = (given item).take i.flat.length := by
    rw [heeded, hi]
  have hreading : (ofAction a).reading = .ok (Instruction.parse a.tag a.arguments) := rfl
  -- Reading goes by what the parameters begin with, so both lists are compared up to there.
  rw [hi, hreading, Except.ok.injEq, parse_eq_ok_iff_flat, hheeded,
    ← checkParameters_eq_iff (List.forall₂_take _ hgiven), hflat, ← List.prefix_iff_eq_take]
  exact and_iff_right hformed |>.trans (and_iff_right htag)

/-- A line that is read from no truth value is read from the action as it is from the plain object. -/
theorem reading_eq_of_heeded {item : Json} {a : Action} (h : Action.check item = .ok a)
    (hfree : ∀ p ∈ heeded item, p.isTruth = false) : (ofAction a).reading = (ofJson item).reading := by
  cases hi : (ofJson item).reading with
  | error cause =>
    rw [reading_ofJson h] at hi
    cases hi
  | ok result =>
    cases result with
    | ok i =>
      rw [← hi]
      exact (reading_ofAction_iff h hi).2 hfree
    | error e =>
      -- A refusal may show any of the parameters.
      have hheeded : heeded item = given item := by rw [heeded, hi]
      have hgiven := (ofJson_of_check h).1
      rw [hheeded, ← checkParameters_eq_iff hgiven] at hfree
      rw [← hi, reading_ofJson h, hfree]
      rfl

/-- Lines of the same tag that are read alike do the same. -/
theorem run_eq_of_reading {σ : Type} (prompter : Option (Prompter σ)) (index : Nat) {line line' : Line}
    (htag : line.tag = line'.tag) (h : line.reading = line'.reading) (scene : Scene σ) :
    line.run prompter index scene = line'.run prompter index scene := by
  have hrun : ∀ l : Line, l.run prompter index scene = match l.reading with
      | .error interruption => (scene, some interruption)
      | .ok (.error e) => (scene.skip index l.tag.spoken (.unparsed e), none)
      | .ok (.ok instruction) => instruction.run prompter index l.tag.spoken scene := by
    intro l
    unfold run reading
    cases l.parameters with
    | error interruption => rfl
    | ok parameters =>
      dsimp only [Except.map]
      cases l.parse parameters <;> rfl
  rw [hrun, hrun, htag, h]

end Line

/-! ## Scripts -/

section Scripts

variable {items : List Json} {script : List Action}

/-- An accepted script is run as the actions of the respelled script, which is accepted. -/
theorem forall₂_check_worded
    (h : List.Forall₂ (fun item a => Action.check item = .ok a) items script) :
    ∃ respelled,
      List.Forall₂ (fun item b => Action.check item = .ok b) (items.map Line.worded) respelled ∧
        items.map Line.ofJson = respelled.map Line.ofAction := by
  induction h with
  | nil => exact ⟨[], .nil, rfl⟩
  | cons hfirst _ ih =>
    obtain ⟨b, hb, hline⟩ := Line.check_worded hfirst
    obtain ⟨respelled, hrest, hlines⟩ := ih
    refine ⟨b :: respelled, .cons hb hrest, ?_⟩
    rw [List.map_cons, List.map_cons, hline, hlines]

/-- A script that is read from no truth value does line by line what its actions do. -/
theorem runLines_ofJson_of_heeded {σ : Type} (prompter : Option (Prompter σ))
    (h : List.Forall₂ (fun item a => Action.check item = .ok a) items script)
    (hfree : ∀ item ∈ items, ∀ p ∈ Line.heeded item, p.isTruth = false) (index : Nat)
    (scene : Scene σ) :
    runLines prompter index (items.map Line.ofJson) scene =
      runLines prompter index (script.map Line.ofAction) scene := by
  induction h generalizing index scene with
  | nil => rfl
  | @cons item a _ _ hfirst _ ih =>
    obtain ⟨hitem, hrest⟩ := List.forall_mem_cons.1 hfree
    have htag : (Line.ofJson item).tag = (Line.ofAction a).tag := by
      rw [(Line.ofJson_of_check hfirst).2, Line.ofAction]
    have hreading := Line.reading_eq_of_heeded hfirst hitem
    have hrun := Line.run_eq_of_reading prompter index htag hreading.symm scene
    rw [List.map_cons, List.map_cons, runLines, runLines, hrun]
    split
    · exact ih hrest _ _
    · rfl

theorem runPlain_arr {σ : Type} (prompter : Option (Prompter σ)) (items : List Json) (scene : Scene σ) :
    runPlain prompter (.arr items) scene = runLines prompter 0 (items.map Line.ofJson) scene := by
  have hlines : Line.linesOf (.arr items) = .ok (items.map Line.ofJson) := by cases items <;> rfl
  rw [runPlain, hlines]

/-- A plain script that is accepted does what the actions of the respelled script do, on every story and
whoever is asked.  It does what its own actions do when no line is read from a truth value; and a line
that is read as an instruction is read as that from its action just when it is read from no truth
value. -/
theorem runPlain_agrees (h : List.Forall₂ (fun item a => Action.check item = .ok a) items script) :
    (∃ respelled,
      List.Forall₂ (fun item b => Action.check item = .ok b) (items.map Line.worded) respelled ∧
      ∀ (σ : Type) (prompter : Option (Prompter σ)) (scene : Scene σ),
        runPlain prompter (.arr items) scene = runScript prompter respelled scene) ∧
    ((∀ item ∈ items, ∀ p ∈ Line.heeded item, p.isTruth = false) →
      ∀ (σ : Type) (prompter : Option (Prompter σ)) (scene : Scene σ),
        runPlain prompter (.arr items) scene = runScript prompter script scene) ∧
    List.Forall₂ (fun item a => ∀ i, (Line.ofJson item).reading = .ok (.ok i) →
      ((Line.ofAction a).reading = .ok (.ok i) ↔ ∀ p ∈ Line.heeded item, p.isTruth = false))
      items script := by
  refine ⟨?_, fun hfree σ prompter scene => ?_, h.imp fun item a hitem i hi => ?_⟩
  · obtain ⟨respelled, hrespelled, hlines⟩ := forall₂_check_worded h
    refine ⟨respelled, hrespelled, fun σ prompter scene => ?_⟩
    rw [runPlain_arr, hlines, runScript]
  · rw [runPlain_arr, runScript]
    exact runLines_ofJson_of_heeded prompter h hfree 0 scene
  · rw [← hi]
    exact Line.reading_ofAction_iff hitem hi

end Scripts

/-- A script with every kind of parameter: a number, a nested line, a truth value behind what a line takes,
a null that a line is refused for, and a line without any. -/
def mixedScript : List Json :=
  [.obj [("action", .str "SET"), ("parameters", .arr [.str "x", .float (.zero true)])],
    .obj [("action", .str "COMPARE_DO"), ("parameters",
      .arr [.str "x", .str ">", .int 1, .str "SET", .str "y", .int (-2), .bool true])],
    .obj [("parameters", .arr [.str "z", .null]), ("action", .str "INPUT")],
    .obj [("action", .str "NONE"), ("parameters", .null)]]

def mixedActions : List Action :=
  [⟨"SET", some ["x", "-0.0"], []⟩,
    ⟨"COMPARE_DO", some ["x", ">", "1", "SET", "y", "-2", "true"], []⟩,
    ⟨"INPUT", some ["z", ""], []⟩, ⟨"NONE", some [], []⟩]

/-- The script does what its actions do. -/
theorem runPlain_mixedScript :
    List.Forall₂ (fun item a => Action.check item = .ok a) mixedScript mixedActions ∧
      ∀ (σ : Type) (prompter : Option (Prompter σ)) (scene : Scene σ),
        runPlain prompter (.arr mixedScript) scene = runScript prompter mixedActions scene := by
  have h : List.Forall₂ (fun item a => Action.check item = .ok a) mixedScript mixedActions :=
    .cons rfl (.cons rfl (.cons rfl (.cons rfl .nil)))
  exact ⟨h, (runPlain_agrees h).2.1 (by decide +kernel)⟩

/-- A truth value that is set to a variable is another text in a plain line than in its action. -/
theorem runPlain_truth_apart :
    Action.check (.obj [("action", .str "SET"), ("parameters", .arr [.str "x", .bool true])]) =
      .ok ⟨"SET", some ["x", "true"], []⟩ ∧
    (runPlain (none : Option (Prompter Unit))
      (.arr [.obj [("action", .str "SET"), ("parameters", .arr [.str "x", .bool true])]])
      ⟨.fresh, (), [], []⟩).1.story.variableValues = [("x", "True")] ∧
    (runScript (none : Option (Prompter Unit)) [⟨"SET", some ["x", "true"], []⟩]
      ⟨.fresh, (), [], []⟩).1.story.variableValues = [("x", "true")] :=
  ⟨rfl, by decide +kernel, by decide +kernel⟩

end Gamebook
