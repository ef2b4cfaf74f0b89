import Gamebook.Json.Printer
import Gamebook.Text.Quoted

/-!
# Values shown in messages

* `Json.shown`    : a value inside a message: texts between quotes, lists and objects in brackets,
  `None`, `True` and `False` for null and the truth values.
* `Json.spoken`   : the same, but a text by itself without quotes.
* `Json.kindName` : the name of the kind of a value.

Values are shown as in the messages of `parse_action`, `format_sse` and the reviews.
-/

set_option autoImplicit false

namespace Gamebook.Json

/-- A binary64 number in a message. -/
def shownNumber : Binary64 → String
  | .nan => "nan"
  | .infinite negative => if negative then "-inf" else "inf"
  | .finite negative units _ => finiteText negative units

mutual
/-- A value inside a message. -/
def shown : Json → String
  | .null => "None"
  | .bool b => if b then "True" else "False"
  | .int n => intText n
  | .float x => shownNumber x
  | .str s => Text.quoted s
  | .arr items => "[" ++ ", ".intercalate (shownItems items) ++ "]"
  | .obj fields => "\x7b" ++ ", ".intercalate (shownFields fields) ++ "\x7d"

def shownItems : List Json → List String
  | [] => []
  | v :: rest => shown v :: shownItems rest

def shownFields : List (String × Json) → List String
  | [] => []
  | (k, v) :: rest => (Text.quoted k ++ ": " ++ shown v) :: shownFields rest
end

/-- A value as a text of its own. -/
def spoken : Json → String
  | .str s => s
  | v => shown v

def kindName : Json → String
  | .null => "NoneType"
  | .bool _ => "bool"
  | .int _ => "int"
  | .float _ => "float"
  | .str _ => "str"
  | .arr _ => "list"
  | .obj _ => "dict"

end Gamebook.Json
