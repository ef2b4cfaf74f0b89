import Gamebook.Json.Shown

/-!
# Instructions of a section's script

A script line is a tag with a flat list of parameters; a conditional line is followed, in the same
list, by the tag and the parameters of the line it guards.

* `Tag`, `Comparison` : the tags and the comparison operators with their spellings.
* `Instruction`       : a parsed line, guarded lines nested.
* `InvalidAction`     : why a line is no instruction, and the wording.
* `Instruction.parse` : reads a tag and its parameters; surplus parameters are ignored.
* `Instruction.tag`, `Instruction.flat` : the way back to a line.

Parameters are texts in a story, but any value may stand in a line that comes from outside; the
class `Parameter` says what parsing needs of them.

Models `parse_action`, with `ActionType` for the tags and `InvalidActionError` for the refusals.
-/

set_option autoImplicit false

namespace Gamebook

/-- The tags of script lines. -/
inductive Tag where
  | none
  | input
  | set
  | addToVariable
  | compareDo
  | ifSetDo
  | ifNotSetDo
  | addChoice
  | removeChoice
  | ifSetAddChoice
  | ifSetRemoveChoice
  deriving DecidableEq, Repr

namespace Tag

def word : Tag → String
  | .none => "NONE"
  | .input => "INPUT"
  | .set => "SET"
  | .addToVariable => "ADD_TO_VARIABLE"
  | .compareDo => "COMPARE_DO"
  | .ifSetDo => "IF_SET_DO"
  | .ifNotSetDo => "IF_NOT_SET_DO"
  | .addChoice => "ADD_CHOICE"
  | .removeChoice => "REMOVE_CHOICE"
  | .ifSetAddChoice => "IF_SET_ADD_CHOICE"
  | .ifSetRemoveChoice => "IF_SET_REMOVE_CHOICE"

def every : List Tag :=
  [.none, .input, .set, .addToVariable, .compareDo, .ifSetDo, .ifNotSetDo, .addChoice,
   .removeChoice, .ifSetAddChoice, .ifSetRemoveChoice]

def ofWord? (s : String) : Option Tag := every.find? fun t => t.word == s

@[simp] theorem ofWord?_word (t : Tag) : ofWord? t.word = some t := by cases t <;> decide

/-- Only a tag's own spelling is read as the tag. -/
theorem word_of_ofWord? {s : String} {t : Tag} (h : ofWord? s = some t) : t.word = s := by
  simpa using List.find?_some h

end Tag

inductive Comparison where
  | equal
  | notEqual
  | greater
  | greaterEqual
  | lessEqual
  | less
  deriving DecidableEq, Repr

namespace Comparison

/-- The spelling of an operator. -/
def word : Comparison → String
  | .equal => "="
  | .notEqual => "!="
  | .greater => ">"
  | .greaterEqual => ">="
  | .lessEqual => "<="
  | .less => "<"

def every : List Comparison := [.equal, .notEqual, .greater, .greaterEqual, .lessEqual, .less]

/-- The operator of a spelling. -/
def ofWord? (s : String) : Option Comparison := every.find? fun c => c.word == s

@[simp] theorem ofWord?_word (c : Comparison) : ofWord? c.word = some c := by cases c <;> decide

/-- Only an operator's own spelling is read as the operator. -/
theorem word_of_ofWord? {s : String} {c : Comparison} (h : ofWord? s = some c) : c.word = s := by
  simpa using List.find?_some h

end Comparison

/-! ## Parameters -/

/-- What parsing needs of a parameter. -/
class Parameter (α : Type) where
  /-- The parameter of a text. -/
  ofText : String → α
  /-- The text that a parameter is. -/
  text? : α → Option String
  /-- The parameter counts as missing. -/
  isEmpty : α → Bool
  /-- The parameter as messages show it. -/
  shown : α → String

instance : Parameter String where
  ofText s := s
  text? := some
  isEmpty := String.isEmpty
  shown := Text.quoted

instance : Parameter Json where
  ofText := .str
  text? := Json.asStr?
  isEmpty := Json.isEmpty
  shown := Json.shown

/-- A parsed line. -/
inductive Instruction (α : Type) where
  | none
  | input (name message : α)
  | set (name value : α)
  | addToVariable (name amount : α)
  | compareDo (name : α) (operator : Comparison) (target : α) (guarded : Instruction α)
  | ifSetDo (name : α) (guarded : Instruction α)
  | ifNotSetDo (name : α) (guarded : Instruction α)
  | addChoice (target label : α)
  | removeChoice (target : α)
  | ifSetAddChoice (name target label : α)
  | ifSetRemoveChoice (name target : α)
  deriving DecidableEq, Repr

/-- Why a line is no instruction. -/
inductive InvalidAction where
  /-- No tag is spelled so. -/
  | unknownTag (shown : String)
  /-- A parameter is missing or empty; the list of all of them is shown. -/
  | tooFew (tag : Tag) (shown : String)
  /-- No operator is spelled so. -/
  | badOperator (shown : String) (tag : Tag)
  deriving DecidableEq, Repr

def InvalidAction.message : InvalidAction → String
  | .unknownTag shown => "Unknown action type " ++ shown
  | .tooFew tag shown => "Too few parameters for " ++ tag.word ++ " action: " ++ shown
  | .badOperator shown tag => "Bad operator " ++ shown ++ " for " ++ tag.word ++ " action"

namespace Instruction

variable {α : Type} [Parameter α]

open Parameter

/-- A list of parameters as messages show it. -/
def shownList (ps : List α) : String := "[" ++ ", ".intercalate (ps.map shown) ++ "]"

/-- The refusal of a line for want of parameters. -/
def tooFew {β : Type} (tag : Tag) (ps : List α) : Except InvalidAction β :=
  .error (.tooFew tag (shownList ps))

/-- None of the parameters is empty. -/
def filled (ps : List α) : Bool := ps.all fun p => !isEmpty p

/-- Reads a tag and its parameters.  Parameters are judged from the left.

Lines may guard each other to any depth.  This is an idealisation: a reader that calls itself for the guarded
line, as this one does, ends with its call stack, at a depth that depends on its caller. -/
def parse (tag : α) (ps : List α) : Except InvalidAction (Instruction α) :=
  match (text? tag).bind Tag.ofWord? with
  | Option.none => .error (.unknownTag (shown tag))
  | some .none => .ok .none
  | some .input =>
    match ps with
    | v :: m :: _ => if filled [v, m] then .ok (.input v m) else tooFew .input ps
    | _ => tooFew .input ps
  | some .set =>
    match ps with
    | v :: x :: _ => if filled [v, x] then .ok (.set v x) else tooFew .set ps
    | _ => tooFew .set ps
  | some .addToVariable =>
    match ps with
    | v :: x :: _ => if filled [v, x] then .ok (.addToVariable v x) else tooFew .addToVariable ps
    | _ => tooFew .addToVariable ps
  | some .compareDo =>
    match ps with
    | v :: o :: more =>
      if filled [v, o] then
        match (text? o).bind Comparison.ofWord? with
        | Option.none => .error (.badOperator (shown o) .compareDo)
        | some c =>
          match more with
          | x :: t :: rest =>
            if filled [x, t] then (parse t rest).map (.compareDo v c x)
            else tooFew .compareDo ps
          | _ => tooFew .compareDo ps
      else tooFew .compareDo ps
    | _ => tooFew .compareDo ps
  | some .ifSetDo =>
    match ps with
    | v :: t :: rest =>
      if filled [v, t] then (parse t rest).map (.ifSetDo v) else tooFew .ifSetDo ps
    | _ => tooFew .ifSetDo ps
  | some .ifNotSetDo =>
    match ps with
    | v :: t :: rest =>
      if filled [v, t] then (parse t rest).map (.ifNotSetDo v) else tooFew .ifNotSetDo ps
    | _ => tooFew .ifNotSetDo ps
  | some .addChoice =>
    match ps with
    | s :: l :: _ => if filled [s, l] then .ok (.addChoice s l) else tooFew .addChoice ps
    | _ => tooFew .addChoice ps
  | some .removeChoice =>
    match ps with
    | s :: _ => if filled [s] then .ok (.removeChoice s) else tooFew .removeChoice ps
    | _ => tooFew .removeChoice ps
  | some .ifSetAddChoice =>
    match ps with
    | v :: s :: l :: _ =>
      if filled [v, s, l] then .ok (.ifSetAddChoice v s l) else tooFew .ifSetAddChoice ps
    | _ => tooFew .ifSetAddChoice ps
  | some .ifSetRemoveChoice =>
    match ps with
    | v :: s :: _ =>
      if filled [v, s] then .ok (.ifSetRemoveChoice v s) else tooFew .ifSetRemoveChoice ps
    | _ => tooFew .ifSetRemoveChoice ps
termination_by structural ps

def tag : Instruction α → Tag
  | .none => .none
  | .input .. => .input
  | .set .. => .set
  | .addToVariable .. => .addToVariable
  | .compareDo .. => .compareDo
  | .ifSetDo .. => .ifSetDo
  | .ifNotSetDo .. => .ifNotSetDo
  | .addChoice .. => .addChoice
  | .removeChoice .. => .removeChoice
  | .ifSetAddChoice .. => .ifSetAddChoice
  | .ifSetRemoveChoice .. => .ifSetRemoveChoice

/-- The parameters of an instruction itself, without those of a guarded one. -/
def arguments : Instruction α → List α
  | .none => []
  | .input v m => [v, m]
  | .set v x => [v, x]
  | .addToVariable v x => [v, x]
  | .compareDo v c x _ => [v, ofText c.word, x]
  | .ifSetDo v _ => [v]
  | .ifNotSetDo v _ => [v]
  | .addChoice s l => [s, l]
  | .removeChoice s => [s]
  | .ifSetAddChoice v s l => [v, s, l]
  | .ifSetRemoveChoice v s => [v, s]

/-- All parameters of the line that an instruction comes from. -/
def flat : Instruction α → List α
  | .compareDo v c x i => [v, ofText c.word, x, ofText i.tag.word] ++ flat i
  | .ifSetDo v i => [v, ofText i.tag.word] ++ flat i
  | .ifNotSetDo v i => [v, ofText i.tag.word] ++ flat i
  | .none => []
  | .input v m => [v, m]
  | .set v x => [v, x]
  | .addToVariable v x => [v, x]
  | .addChoice s l => [s, l]
  | .removeChoice s => [s]
  | .ifSetAddChoice v s l => [v, s, l]
  | .ifSetRemoveChoice v s => [v, s]

end Instruction

end Gamebook
