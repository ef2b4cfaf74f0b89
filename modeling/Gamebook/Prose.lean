import Gamebook.Story.Basic

/-!
# The text of a section

* `variableToken` : how a text refers to a variable.
* `references`    : the references to all variables with their values, the longest first.
* `interpolate`   : one scan from the left; at each place the first of the references that starts there is
  replaced by its value, which is not scanned again.
* `filledText`    : the same for a text that may be missing, and variables of which some have no value.
* `sectionText`   : the lines or the text of a section with its references replaced.

Models `interpolate` and `section_text`.
-/

set_option autoImplicit false

namespace Gamebook

/-- A reference to a variable: its name between `$\x7b` and a closing brace. -/
def variableToken (name : String) : List Char := '$' :: '\x7b' :: name.toList ++ ['\x7d']

/-- The references to variables with the values they stand for, the longest first; those of one length in
the order of the variables. -/
def references (values : Table String) : List (List Char × List Char) :=
  (values.map fun (name, value) => (variableToken name, value.toList)).mergeSort
    fun a b => decide (b.1.length ≤ a.1.length)

/-- The first of the references that a text starts with, and the value it stands for. -/
def firstReference? (tokens : List (List Char × List Char)) (cs : List Char) :
    Option (List Char × List Char) := tokens.find? fun t => t.1.isPrefixOf cs

/-- Scans a text; the given number of characters belong to a reference already replaced. -/
def scan (tokens : List (List Char × List Char)) : Nat → List Char → List Char
  | _, [] => []
  | covered + 1, _ :: rest => scan tokens covered rest
  | 0, c :: rest =>
    match firstReference? tokens (c :: rest) with
    | some (token, value) => value ++ scan tokens (token.length - 1) rest
    | none => c :: scan tokens 0 rest

/-- A text with the references to variables replaced by their values. -/
def interpolate (values : Table String) (text : String) : String :=
  String.ofList (scan (references values) 0 text.toList)

def knownValues (entries : Table (Option String)) : Table String :=
  entries.filterMap fun (name, value) => value.map fun known => (name, known)

/-- A text with the references to the variables that have a value replaced; a missing text is empty, and
missing variables leave a text as it is. -/
def filledText (entries : Option (Table (Option String))) (text : Option String) : String :=
  match entries, text with
  | some entries, some text => interpolate (knownValues entries) text
  | _, text => text.getD ""

/-- The text of a section; its lines win over its text, even when there are none. -/
def Section.plainText (s : Section) : String :=
  match s.textLines.get? with
  | some lines => "\n".intercalate lines
  | none => s.text.get?.getD ""

/-- The text of a section, none for no section, with the references replaced. -/
def sectionText (s? : Option Section) (values : Table String) : String :=
  match s? with
  | some s => interpolate values s.plainText
  | none => ""

end Gamebook
