import Gamebook.Script.Instruction
import Mathlib.Data.List.Forall2

/-!
# The grammar of script lines

Every tag has a signature, the slots that its parameters fill from the left.  A line is a tree: a tag,
the arguments of its own, and the line nested in it where the signature has a slot for one.  Written
flat, a tree is its arguments, then the tag of the nested line and what that one is written as; nothing
marks where a line ends, the signatures tell.

* `Slot`, `Tag.signature`  : what stands where behind a tag.
* `Tree`, `Tree.WellFormed`, `Tree.flat` : lines in general form, those of the grammar, and their flat form.
* `Instruction.tree`       : an instruction in general form; `tree_injective`, `flat_tree`.
* `fill`                   : parameters read slot by slot, up to the nested line.
* `fill_signature_leaf_iff`, `fill_signature_guard_iff` : what is read so.
* `parse_tree`             : reading a line is filling the signature of its tag.
* `parse_grammar`          : a line is read as the tree whose flat form it begins with.
-/

set_option autoImplicit false

namespace Gamebook

/-! ## Signatures -/

/-- What a parameter stands for. -/
inductive Slot where
  | variableName
  | text
  | operator
  | target
  /-- The tag of a nested line, whose parameters follow. -/
  | line
  deriving DecidableEq, Repr

/-- The slots behind a tag, in their order. -/
def Tag.signature : Tag → List Slot
  | .none => []
  | .input => [.variableName, .text]
  | .set => [.variableName, .text]
  | .addToVariable => [.variableName, .text]
  | .compareDo => [.variableName, .operator, .text, .line]
  | .ifSetDo => [.variableName, .line]
  | .ifNotSetDo => [.variableName, .line]
  | .addChoice => [.target, .text]
  | .removeChoice => [.target]
  | .ifSetAddChoice => [.variableName, .target, .text]
  | .ifSetRemoveChoice => [.variableName, .target]

/-- The slots in front of that of a nested line. -/
def ownSlots (slots : List Slot) : List Slot := slots.takeWhile (· ≠ .line)

/-- An argument fits a slot: it is not empty, and it is the spelling of an operator where one is
asked for. -/
def Slot.Admits (slot : Slot) (argument : String) : Prop :=
  argument ≠ "" ∧ (slot = .operator → ∃ c : Comparison, c.word = argument)

/-! ## Trees -/

/-- A line in general form: its tag, its own arguments, and the line nested in it if there is one. -/
inductive Tree where
  | leaf (tag : Tag) (arguments : List String)
  | guard (tag : Tag) (arguments : List String) (nested : Tree)
  deriving DecidableEq, Repr

namespace Tree

def tag : Tree → Tag
  | leaf tag _ => tag
  | guard tag _ _ => tag

/-- The trees of the grammar: the arguments fit the slots of the tag, and a line is nested exactly where
the signature has a slot for one. -/
def WellFormed : Tree → Prop
  | leaf tag arguments =>
    .line ∉ tag.signature ∧ List.Forall₂ Slot.Admits (ownSlots tag.signature) arguments
  | guard tag arguments nested =>
    .line ∈ tag.signature ∧ List.Forall₂ Slot.Admits (ownSlots tag.signature) arguments ∧
      nested.WellFormed

/-- The parameters of a tree: its arguments, then the nested tag and the nested parameters. -/
def flat : Tree → List String
  | leaf _ arguments => arguments
  | guard _ arguments nested => arguments ++ nested.tag.word :: nested.flat

end Tree

namespace Instruction

/-- An instruction in general form. -/
def tree (i : Instruction String) : Tree :=
  match i with
  | .compareDo _ _ _ guarded | .ifSetDo _ guarded | .ifNotSetDo _ guarded =>
    .guard i.tag i.arguments guarded.tree
  | _ => .leaf i.tag i.arguments

theorem tag_tree (i : Instruction String) : i.tree.tag = i.tag := by cases i <;> rfl

/-- An instruction is written flat as its general form is. -/
theorem flat_tree (i : Instruction String) : i.tree.flat = i.flat := by
  induction i with
  | compareDo name operator target guarded ih | ifSetDo name guarded ih | ifNotSetDo name guarded ih =>
    rw [tree, Tree.flat, tag_tree, ih]
    rfl
  | _ => rfl

/-- An instruction is determined by its general form. -/
theorem tree_injective : Function.Injective tree := by
  intro i
  induction i with
  | compareDo name operator target guarded ih =>
    intro j h
    cases j <;> simp only [tree, tag, arguments, Tree.guard.injEq, reduceCtorEq, false_and] at h
    obtain ⟨-, hown, hnested⟩ := h
    injection hown with hname hown
    injection hown with hoperator hown
    injection hown with htarget
    have hsome := (Comparison.ofWord?_word operator).symm.trans
      ((congrArg Comparison.ofWord? hoperator).trans (Comparison.ofWord?_word _))
    rw [hname, Option.some.inj hsome, htarget, ih hnested]
  | ifSetDo name guarded ih | ifNotSetDo name guarded ih =>
    intro j h
    cases j <;> simp only [tree, tag, arguments, Tree.guard.injEq, reduceCtorEq, false_and] at h
    obtain ⟨-, hown, hnested⟩ := h
    rw [List.singleton_inj.1 hown, ih hnested]
  | _ =>
    intro j h
    cases j <;> simp_all [tree, tag, arguments]

end Instruction

/-! ## Reading slot by slot -/

/-- Parameters read into slots, behind the arguments read before.  The tag and all parameters are there
for the result and for the messages, and a nested line is read in the way that is given. -/
def fill (nested : String → List String → Except InvalidAction Tree) (tag : Tag) (all : List String) :
    List String → List Slot → List String → Except InvalidAction Tree
  | arguments, [], _ => .ok (.leaf tag arguments)
  | _, _ :: _, [] => Instruction.tooFew tag all
  | arguments, slot :: slots, p :: ps =>
    if p.isEmpty then Instruction.tooFew tag all
    else if slot = .line then (nested p ps).map (.guard tag arguments)
    else if slot = .operator ∧ Comparison.ofWord? p = none then
      .error (.badOperator (Text.quoted p) tag)
    else fill nested tag all (arguments ++ [p]) slots ps
termination_by structural _ slots => slots

section Reading

/-- Parameters are judged one after another. -/
theorem ite_filled {α : Type} (p : String) (ps : List String) (x y : α) :
    (if Instruction.filled (p :: ps) then x else y) =
      if p.isEmpty then y else if Instruction.filled ps then x else y := by
  unfold Instruction.filled
  rw [List.all_cons]
  cases hp : p.isEmpty <;> simp [Parameter.isEmpty, hp]

theorem ite_filled_nil {α : Type} (x y : α) :
    (if Instruction.filled ([] : List String) then x else y) = x := if_pos rfl

theorem map_tree_ite (c : Prop) [Decidable c] (x y : Except InvalidAction (Instruction String)) :
    (if c then x else y).map Instruction.tree =
      if c then x.map Instruction.tree else y.map Instruction.tree := apply_ite ..

theorem map_tree_ok (i : Instruction String) :
    (Except.ok i : Except InvalidAction (Instruction String)).map Instruction.tree = .ok i.tree := rfl

theorem map_tree_error (e : InvalidAction) :
    (Except.error e : Except InvalidAction (Instruction String)).map Instruction.tree = .error e := rfl

theorem map_tree_tooFew (tag : Tag) (ps : List String) :
    (Instruction.tooFew tag ps : Except InvalidAction (Instruction String)).map Instruction.tree =
      Instruction.tooFew tag ps := rfl

/-- A nested line has the same tree under whatever guards it. -/
theorem map_tree_guard (wrap : Instruction String → Instruction String) {tag : Tag}
    {arguments : List String} (h : ∀ i, (wrap i).tree = .guard tag arguments i.tree)
    (x : Except InvalidAction (Instruction String)) :
    (x.map wrap).map Instruction.tree = (x.map Instruction.tree).map (.guard tag arguments) := by
  cases x with
  | error e => rfl
  | ok i => exact congrArg Except.ok (h i)

attribute [local simp] Tag.signature fill ite_filled ite_filled_nil map_tree_ite map_tree_ok map_tree_error
  map_tree_tooFew Instruction.tree Instruction.tag Instruction.arguments

/-- A line is read by the signature of its tag. -/
theorem parse_tree (tag : String) (ps : List String) :
    (Instruction.parse tag ps).map Instruction.tree =
      match Tag.ofWord? tag with
      | none => .error (.unknownTag (Text.quoted tag))
      | some t =>
        fill (fun tag ps => (Instruction.parse tag ps).map Instruction.tree) t ps [] t.signature ps := by
  conv_lhs => unfold Instruction.parse
  simp only [Parameter.text?, Option.bind_some]
  cases Tag.ofWord? tag with
  | none => rfl
  | some t =>
    cases t with
    | none => rfl
    | compareDo =>
      rcases ps with _ | ⟨a, _ | ⟨b, more⟩⟩
      · simp
      · simp
      · cases hb : Comparison.ofWord? b with
        | none =>
          simp [hb, Parameter.shown]
        | some c =>
          rcases more with _ | ⟨x, _ | ⟨t, rest⟩⟩
          · simp [hb]
          · simp [hb]
          · simp [hb, map_tree_guard (.compareDo a c x) (fun i => rfl), Parameter.ofText,
              Comparison.word_of_ofWord? hb]
    | ifSetDo =>
      rcases ps with _ | ⟨a, _ | ⟨b, more⟩⟩
      · simp
      · simp
      · simp [map_tree_guard (.ifSetDo a) (fun i => rfl)]
    | ifNotSetDo =>
      rcases ps with _ | ⟨a, _ | ⟨b, more⟩⟩
      · simp
      · simp
      · simp [map_tree_guard (.ifNotSetDo a) (fun i => rfl)]
    | removeChoice => rcases ps with _ | ⟨a, more⟩ <;> simp
    | ifSetAddChoice => rcases ps with _ | ⟨a, _ | ⟨b, _ | ⟨c, more⟩⟩⟩ <;> simp
    | input | set | addToVariable | addChoice | ifSetRemoveChoice =>
      rcases ps with _ | ⟨a, _ | ⟨b, more⟩⟩ <;> simp

end Reading

/-! ## What is read -/

/-- A nested line comes last. -/
theorem signature_eq (tag : Tag) :
    tag.signature = ownSlots tag.signature ++ if .line ∈ tag.signature then [.line] else [] := by
  cases tag <;> rfl

theorem admits_iff {slot : Slot} {p : String} :
    slot.Admits p ↔ ¬ p.isEmpty = true ∧ ¬ (slot = .operator ∧ Comparison.ofWord? p = none) := by
  have hoperator : (∃ c : Comparison, c.word = p) ↔ Comparison.ofWord? p ≠ none := by
    rw [Option.ne_none_iff_exists']
    exact ⟨fun ⟨c, hc⟩ => ⟨c, hc ▸ Comparison.ofWord?_word c⟩,
      fun ⟨c, hc⟩ => ⟨c, Comparison.word_of_ofWord? hc⟩⟩
  rw [Slot.Admits, hoperator, String.isEmpty_iff, not_and]

section Filled

variable {nested : String → List String → Except InvalidAction Tree} {tag : Tag} {all : List String} {t : Tree}

/-- One slot takes one argument. -/
theorem fill_cons_iff {slot : Slot} (hslot : slot ≠ .line) (front : List String) (slots : List Slot)
    (ps : List String) :
    fill nested tag all front (slot :: slots) ps = .ok t ↔
      ∃ p rest, slot.Admits p ∧ ps = p :: rest ∧ fill nested tag all (front ++ [p]) slots rest = .ok t := by
  cases ps with
  | nil =>
    refine iff_of_false (fun h => by cases h) ?_
    rintro ⟨_, _, -, hps, -⟩
    cases hps
  | cons p ps =>
    rw [fill, if_neg hslot]
    simp only [List.cons.injEq, admits_iff]
    split_ifs with hempty hoperator
    · refine iff_of_false (fun h => by cases h) ?_
      rintro ⟨_, _, hadmits, ⟨rfl, rfl⟩, -⟩
      exact hadmits.1 hempty
    · refine iff_of_false (fun h => by cases h) ?_
      rintro ⟨_, _, hadmits, ⟨rfl, rfl⟩, -⟩
      exact hadmits.2 hoperator
    · constructor
      · exact fun h => ⟨p, ps, ⟨hempty, hoperator⟩, ⟨rfl, rfl⟩, h⟩
      · rintro ⟨_, _, -, ⟨rfl, rfl⟩, h⟩
        exact h

theorem fill_append_iff {own : List Slot} (hown : .line ∉ own) (front : List String) (slots : List Slot)
    (ps : List String) :
    fill nested tag all front (own ++ slots) ps = .ok t ↔
      ∃ arguments rest, List.Forall₂ Slot.Admits own arguments ∧ ps = arguments ++ rest ∧
        fill nested tag all (front ++ arguments) slots rest = .ok t := by
  induction own generalizing front ps with
  | nil => simp
  | cons slot own ih =>
    rw [List.mem_cons, not_or] at hown
    rw [List.cons_append, fill_cons_iff (Ne.symm hown.1)]
    constructor
    · rintro ⟨p, rest, hp, rfl, h⟩
      obtain ⟨arguments, rest, hall, rfl, hrest⟩ := (ih hown.2 _ _).1 h
      rw [List.append_assoc] at hrest
      exact ⟨p :: arguments, rest, .cons hp hall, rfl, hrest⟩
    · rintro ⟨_, rest, hall, rfl, h⟩
      cases hall with
      | cons hp hall =>
        rename_i p arguments
        refine ⟨p, arguments ++ rest, hp, rfl, (ih hown.2 _ _).2 ⟨arguments, rest, hall, rfl, ?_⟩⟩
        rw [List.append_assoc]
        exact h

/-- The slot of a nested line takes its tag, and what follows belongs to it. -/
theorem fill_line_iff (arguments ps : List String) :
    fill nested tag all arguments [.line] ps = .ok t ↔
      ∃ w rest inner, ps = w :: rest ∧ w ≠ "" ∧ nested w rest = .ok inner ∧
        t = .guard tag arguments inner := by
  cases ps with
  | nil =>
    refine iff_of_false (fun h => by cases h) ?_
    rintro ⟨_, _, _, hps, -⟩
    cases hps
  | cons w rest =>
    simp only [fill, if_true, List.cons.injEq, String.isEmpty_iff]
    split_ifs with hempty
    · refine iff_of_false (fun h => by cases h) ?_
      rintro ⟨_, _, _, ⟨rfl, rfl⟩, hne, -⟩
      exact hne hempty
    · cases hinner : nested w rest with
      | error e =>
        refine iff_of_false (fun h => by cases h) ?_
        rintro ⟨_, _, _, ⟨rfl, rfl⟩, -, h, -⟩
        rw [hinner] at h
        cases h
      | ok inner =>
        constructor
        · intro h
          cases h
          exact ⟨w, rest, inner, ⟨rfl, rfl⟩, hempty, hinner, rfl⟩
        · rintro ⟨_, _, _, ⟨rfl, rfl⟩, -, h, rfl⟩
          rw [hinner] at h
          cases h
          rfl

theorem line_not_mem_ownSlots (slots : List Slot) : .line ∉ ownSlots slots := fun h =>
  absurd (List.all_eq_true.1 List.all_takeWhile _ h) (by decide)

/-- A tag without a nested line is followed by its arguments. -/
theorem fill_signature_leaf_iff {own : Tag} {arguments ps : List String} :
    fill nested tag all [] tag.signature ps = .ok (.leaf own arguments) ↔
      own = tag ∧ .line ∉ tag.signature ∧
        List.Forall₂ Slot.Admits (ownSlots tag.signature) arguments ∧ arguments <+: ps := by
  rw [signature_eq tag, fill_append_iff (line_not_mem_ownSlots _), ← signature_eq tag]
  split_ifs with hline
  · refine iff_of_false ?_ fun h => h.2.1 hline
    rintro ⟨_, _, -, -, h⟩
    obtain ⟨_, _, _, -, -, -, h⟩ := (fill_line_iff _ _).1 h
    cases h
  · constructor
    · rintro ⟨arguments, rest, hall, rfl, h⟩
      cases h
      exact ⟨rfl, hline, hall, List.prefix_append _ _⟩
    · rintro ⟨rfl, -, hall, rest, rfl⟩
      exact ⟨arguments, rest, hall, rfl, rfl⟩

/-- A tag with a nested line is followed by its arguments, the nested tag, and what belongs to that. -/
theorem fill_signature_guard_iff {own : Tag} {arguments ps : List String} {inner : Tree} :
    fill nested tag all [] tag.signature ps = .ok (.guard own arguments inner) ↔
      own = tag ∧ .line ∈ tag.signature ∧
        List.Forall₂ Slot.Admits (ownSlots tag.signature) arguments ∧
        ∃ w rest, ps = arguments ++ w :: rest ∧ w ≠ "" ∧ nested w rest = .ok inner := by
  rw [signature_eq tag, fill_append_iff (line_not_mem_ownSlots _), ← signature_eq tag]
  split_ifs with hline
  · simp only [fill_line_iff]
    constructor
    · rintro ⟨arguments, _, hall, rfl, w, rest, inner, rfl, hw, hinner, h⟩
      cases h
      exact ⟨rfl, hline, hall, w, rest, rfl, hw, hinner⟩
    · rintro ⟨rfl, -, hall, w, rest, rfl, hw, hinner⟩
      exact ⟨arguments, w :: rest, hall, rfl, w, rest, inner, rfl, hw, hinner, rfl⟩
  · refine iff_of_false ?_ fun h => hline h.2.1
    rintro ⟨_, _, -, -, h⟩
    cases h

end Filled

/-! ## Lines -/

/-- A line is read when its tag is one of the tags and its parameters fill the signature. -/
theorem parse_eq_ok_iff {tag : String} {ps : List String} {t : Tree} :
    (Instruction.parse tag ps).map Instruction.tree = .ok t ↔
      ∃ own : Tag, own.word = tag ∧
        fill (fun tag ps => (Instruction.parse tag ps).map Instruction.tree) own ps [] own.signature ps =
          .ok t := by
  rw [parse_tree]
  constructor
  · intro h
    cases htag : Tag.ofWord? tag with
    | none =>
      rw [htag] at h
      cases h
    | some own =>
      rw [htag] at h
      exact ⟨own, Tag.word_of_ofWord? htag, h⟩
  · rintro ⟨own, rfl, h⟩
    rw [Tag.ofWord?_word]
    exact h

theorem word_ne_empty (tag : Tag) : tag.word ≠ "" := by cases tag <;> decide

/-- The tree that a line is read as is of the grammar, has the tag of the line, and is what the
parameters begin with in flat form. -/
theorem parse_eq_tree_iff (t : Tree) (tag : String) (ps : List String) :
    (Instruction.parse tag ps).map Instruction.tree = .ok t ↔
      t.WellFormed ∧ t.tag.word = tag ∧ t.flat <+: ps := by
  rw [parse_eq_ok_iff]
  induction t generalizing tag ps with
  | leaf own arguments =>
    simp only [fill_signature_leaf_iff, Tree.WellFormed, Tree.tag, Tree.flat]
    constructor
    · rintro ⟨_, hword, rfl, hline, hall, hps⟩
      exact ⟨⟨hline, hall⟩, hword, hps⟩
    · rintro ⟨⟨hline, hall⟩, hword, hps⟩
      exact ⟨own, hword, rfl, hline, hall, hps⟩
  | guard own arguments nested ih =>
    simp only [fill_signature_guard_iff, Tree.WellFormed, Tree.tag, Tree.flat, parse_eq_ok_iff, ih]
    constructor
    · rintro ⟨_, hword, rfl, hline, hall, w, rest, rfl, -, hnested, rfl, hrest⟩
      refine ⟨⟨hline, hall, hnested⟩, hword, ?_⟩
      rw [List.prefix_append_right_inj, List.cons_prefix_cons]
      exact ⟨rfl, hrest⟩
    · rintro ⟨⟨hline, hall, hnested⟩, hword, more, rfl⟩
      refine ⟨own, hword, rfl, hline, hall, nested.tag.word, nested.flat ++ more, ?_, word_ne_empty _,
        hnested, rfl, List.prefix_append _ _⟩
      exact List.append_assoc arguments (nested.tag.word :: nested.flat) more

/-- A line is read as an instruction exactly when that has the general form read. -/
theorem map_tree_eq_iff (x : Except InvalidAction (Instruction String)) (i : Instruction String) :
    x.map Instruction.tree = .ok i.tree ↔ x = .ok i := by
  cases x with
  | error e => exact iff_of_false (fun h => by cases h) (fun h => by cases h)
  | ok j =>
    rw [map_tree_ok, Except.ok.injEq, Except.ok.injEq]
    exact Instruction.tree_injective.eq_iff

/-- A line is read as a tree exactly when the tree is of the grammar, has the tag of the line, and is in
flat form what the parameters begin with, and so it is with instructions; every other line is refused. -/
theorem parse_grammar (tag : String) (ps : List String) :
    (∀ t, (Instruction.parse tag ps).map Instruction.tree = .ok t ↔
      t.WellFormed ∧ t.tag.word = tag ∧ t.flat <+: ps) ∧
    (∀ i, Instruction.parse tag ps = .ok i ↔
      i.tree.WellFormed ∧ i.tag.word = tag ∧ i.flat <+: ps) ∧
    ((∃ e, Instruction.parse tag ps = .error e) ↔
      ¬ ∃ t : Tree, t.WellFormed ∧ t.tag.word = tag ∧ t.flat <+: ps) := by
  refine ⟨fun t => parse_eq_tree_iff t tag ps, fun i => ?_, ?_⟩
  · rw [← map_tree_eq_iff, parse_eq_tree_iff, Instruction.tag_tree, Instruction.flat_tree]
  · simp only [← parse_eq_tree_iff]
    cases Instruction.parse tag ps with
    | error e =>
      refine iff_of_true ⟨e, rfl⟩ ?_
      rintro ⟨t, h⟩
      cases h
    | ok i =>
      refine iff_of_false (fun ⟨_, h⟩ => by cases h) fun h => h ⟨i.tree, rfl⟩

end Gamebook
