import Gamebook.Json.Shown
import Gamebook.Number.Whole
import Gamebook.Text.Lines

/-!
# Checking values against a schema

* `IssueKind`, `Issue` : what a value at a path should have been, and how reports say it.
* `Checked`            : a value, or all issues found; combining keeps the issues of both sides.
* `Field`              : what a document says about an optional field: nothing, null, or a value.
* `Check`              : the checks of single values: texts, whole numbers, truth values, lists, maps,
  and the fields of an object.

These are the checks behind `from_json_dict` and the bodies of requests, with `_as_text` for what is
kept as text.
-/

set_option autoImplicit false

namespace Gamebook

/-- What is wrong with a value. -/
inductive IssueKind where
  | missing
  | notText
  | notList
  | notMap
  | notModel
  | notAttributes
  | notLiteral
  | notBool
  | unreadableBool
  | notInt
  | unreadableInt
  | fractionalInt
  | oversizedInt
  | notFinite
  deriving DecidableEq, Repr

/-- The word that reports show for a kind of issue. -/
def IssueKind.word : IssueKind → String
  | .missing => "missing"
  | .notText => "string_type"
  | .notList => "list_type"
  | .notMap => "dict_type"
  | .notModel => "model_type"
  | .notAttributes => "model_attributes_type"
  | .notLiteral => "literal_error"
  | .notBool => "bool_type"
  | .unreadableBool => "bool_parsing"
  | .notInt => "int_type"
  | .unreadableInt => "int_parsing"
  | .fractionalInt => "int_from_float"
  | .oversizedInt => "int_parsing_size"
  | .notFinite => "finite_number"

/-- A field that may be shown to a client: its name does not start with the mark of internal ones. -/
def isPublicName (name : String) : Bool := !("_sa".toList.isPrefixOf name.toList)

/-- An issue with the value at a path, or with the object that lacks a field of that path; and
whether all numbers that may be shown of this value or object are finite. -/
structure Issue where
  path : List String
  kind : IssueKind
  isFinite : Bool
  deriving DecidableEq, Repr

/-- A part of a path in a report; one with a point in it stands between marks. -/
def Issue.part (part : String) : String :=
  if part.toList.contains '.' then "\x60" ++ part ++ "\x60" else part

/-- An issue in a report: the path, its parts joined by points, and the kind.  A report has one line
for an issue: of a path with line feeds in it, the last line. -/
def Issue.report (i : Issue) : String :=
  Text.lastLine (".".intercalate (i.path.map Issue.part)) ++ " " ++ i.kind.word

def Issue.reports (issues : List Issue) : String := ", ".intercalate (issues.map Issue.report)

/-- A checked value, or every issue found. -/
inductive Checked (α : Type) where
  | ok (value : α)
  | bad (issues : List Issue)

namespace Checked

variable {α β : Type}

/-- Changes a good value. -/
def map (f : α → β) : Checked α → Checked β
  | .ok a => .ok (f a)
  | .bad is => .bad is

/-- Applies a checked function to a checked argument; the issues of both count. -/
def seq (f : Checked (α → β)) (x : Checked α) : Checked β :=
  match f, x with
  | .ok f, .ok a => .ok (f a)
  | .ok _, .bad is => .bad is
  | .bad is, .ok _ => .bad is
  | .bad is, .bad js => .bad (is ++ js)

instance : Applicative Checked where
  pure := .ok
  map := map
  seq f x := seq f (x ())

/-- A single issue with a value itself. -/
def fail (kind : IssueKind) (v : Json) : Checked α := .bad [⟨[], kind, v.allFinite isPublicName⟩]

/-- Places the issues under a part of a path. -/
def under (part : String) : Checked α → Checked α
  | .ok a => .ok a
  | .bad is => .bad (is.map fun i => { i with path := part :: i.path })

/-- The value, if there is no issue. -/
def toOption : Checked α → Option α
  | .ok a => some a
  | .bad _ => none

/-- All of several checked values, or all their issues in order. -/
def all : List (Checked α) → Checked (List α)
  | [] => .ok []
  | x :: rest => seq (map List.cons x) (all rest)

end Checked

/-- What a document says about an optional field. -/
inductive Field (α : Type) where
  | absent
  | null
  | value (a : α)
  deriving DecidableEq, Repr

namespace Field

variable {α β : Type}

instance : Inhabited (Field α) := ⟨.absent⟩

/-- The value; absent and null have none. -/
def get? : Field α → Option α
  | .value a => some a
  | _ => none

def map (f : α → β) : Field α → Field β
  | .absent => .absent
  | .null => .null
  | .value a => .value (f a)

/-- What an object says about a field, for a writer of values. -/
def entry (key : String) (write : α → Json) : Field α → List (String × Json)
  | .absent => []
  | .null => [(key, .null)]
  | .value a => [(key, write a)]

end Field

/-! ## Single values -/

namespace Check

def text : Json → Checked String
  | .str s => .ok s
  | v => .fail .notText v

/-- A text, a number or a truth value, kept as text. -/
def scalarText : Json → Checked String
  | .bool b => .ok (if b then "true" else "false")
  | .int n => .ok (Json.intText n)
  | .float x => .ok (Json.shownNumber x)
  | v => text v

/-- What is wrong with a text that is no whole number. -/
def wholeIssue : WholeFault → IssueKind
  | .unreadable => .unreadableInt
  | .oversized => .oversizedInt

/-- The bound on whole numbers read from binary64 numbers: they fit a signed 64-bit word. -/
def wordBound : Int := 9223372036854775808

/-- A whole number, also from a truth value, a text or a binary64 number without fraction. -/
def int (v : Json) : Checked Int :=
  match v with
  | .int n => .ok n
  | .bool b => .ok (if b then 1 else 0)
  | .str s =>
    match wholeOfText s with
    | .ok n => .ok n
    | .error fault => .fail (wholeIssue fault) v
  | .float x =>
    match x, x.toInt? with
    | .finite .., some n =>
      if -wordBound < n ∧ n < wordBound then .ok n else .fail .oversizedInt v
    | .finite .., none => .fail .fractionalInt v
    | _, _ => .fail .notFinite v
  | _ => .fail .notInt v

/-- The texts of the truth values, in lower case. -/
def boolWords : List (String × Bool) :=
  [("0", false), ("off", false), ("f", false), ("false", false), ("n", false), ("no", false),
   ("1", true), ("on", true), ("t", true), ("true", true), ("y", true), ("yes", true)]

/-- A truth value, also from zero, one or a word in any case. -/
def bool (v : Json) : Checked Bool :=
  match v with
  | .bool b => .ok b
  | .str s =>
    match boolWords.lookup s.toLower with
    | some b => .ok b
    | none => .fail .unreadableBool v
  | .int n =>
    if n = 0 then .ok false
    else if n = 1 then .ok true
    else if -wordBound ≤ n ∧ n < wordBound then .fail .unreadableBool v
    else .fail .notBool v
  | .float x =>
    match x.toInt? with
    | some n =>
      if n = 0 then .ok false
      else if n = 1 then .ok true
      else if -wordBound < n ∧ n < wordBound then .fail .unreadableBool v
      else .fail .notBool v
    | none => .fail .notBool v
  | _ => .fail .notBool v

/-! ## Lists, maps and objects -/

variable {α : Type}

/-- Checks the items of a list in order, from a given index on. -/
def listItems (check : Json → Checked α) (index : Nat) : List Json → Checked (List α)
  | [] => .ok []
  | v :: rest =>
    .seq (.map List.cons ((check v).under (Nat.repr index))) (listItems check (index + 1) rest)

def list (check : Json → Checked α) : Json → Checked (List α)
  | .arr items => listItems check 0 items
  | v => .fail .notList v

/-- Checks the values of a map in order. -/
def mapEntries (check : Json → Checked α) : List (String × Json) → Checked (Table α)
  | [] => .ok []
  | (key, v) :: rest =>
    .seq (.map (fun a more => (key, a) :: more) ((check v).under key)) (mapEntries check rest)

def map (check : Json → Checked α) : Json → Checked (Table α)
  | .obj fields => mapEntries check fields
  | v => .fail .notMap v

/-- An object of declared fields. -/
def model (check : Table Json → Checked α) : Json → Checked α
  | .obj fields => check fields
  | v => .fail .notModel v

/-- A field that must be there. -/
def required (fields : Table Json) (key : String) (check : Json → Checked α) : Checked α :=
  match fields.get? key with
  | some v => (check v).under key
  | none => (Checked.fail .missing (.obj fields)).under key

/-- A field that may be absent or null. -/
def optional (fields : Table Json) (key : String) (check : Json → Checked α) :
    Checked (Field α) :=
  match fields.get? key with
  | none => .ok .absent
  | some .null => .ok .null
  | some v => .map .value ((check v).under key)

/-- A field with a default, which may be absent but not null. -/
def defaulted (fields : Table Json) (key : String) (check : Json → Checked α) :
    Checked (Option α) :=
  match fields.get? key with
  | none => .ok none
  | some v => .map some ((check v).under key)

def unknown (fields : Table Json) (declared : List String) : Table Json :=
  fields.filterKeys fun key => !declared.contains key

end Check

end Gamebook
