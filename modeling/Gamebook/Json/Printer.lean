import Gamebook.Json.Basic
import Gamebook.Number.Shortest

/-!
# Writing JSON text

* `JsonLayout`      : on one line or indented, and whether characters beyond ASCII are escaped.
* `Json.numberText` : a binary64 number with the fewest digits that read back.
* `Json.chars`      : the characters of a value in a layout.
* `Json.compact`, `Json.pretty`, `Json.ascii` : the layouts in use.

The layouts are those of `to_json_text`, `build_user_prompt` and `format_sse`.
-/

set_option autoImplicit false

namespace Gamebook

/-- How a value is laid out. -/
structure JsonLayout where
  /-- Blanks per level; `none` keeps everything on one line. -/
  indent : Option Nat
  /-- Escape every character beyond ASCII. -/
  asciiOnly : Bool
  deriving DecidableEq, Repr

namespace Json

/-- The style of numbers in documents and messages: positional from `1e-4` to below `1e16`, whole
numbers marked by `.0`, exponents of at least two digits. -/
def numberStyle : DecimalStyle := ⟨-4, 16, true, 2⟩

/-- The digits of a finite number. -/
def finiteText (negative : Bool) (units : Nat) : String :=
  (if negative then "-" else "") ++
    (if units = 0 then "0.0" else (shortest units).render numberStyle)

/-- A binary64 number in a document. -/
def numberText : Binary64 → String
  | .nan => "NaN"
  | .infinite negative => if negative then "-Infinity" else "Infinity"
  | .finite negative units _ => finiteText negative units

/-- A whole number. -/
def intText (n : Int) : String :=
  if n < 0 then "-" ++ Nat.repr n.natAbs else Nat.repr n.natAbs

/-- Four hexadecimal digits behind an escape mark. -/
def unitEscape (n : Nat) : List Char :=
  ['\\', 'u', Nat.digitChar (n / 4096 % 16), Nat.digitChar (n / 256 % 16),
    Nat.digitChar (n / 16 % 16), Nat.digitChar (n % 16)]

def stringChar (asciiOnly : Bool) (c : Char) : List Char :=
  if c == '"' then ['\\', '"']
  else if c == '\\' then ['\\', '\\']
  else if c == '\n' then ['\\', 'n']
  else if c == '\r' then ['\\', 'r']
  else if c == '\t' then ['\\', 't']
  else if c == '\x0c' then ['\\', 'f']
  else if c == '\x08' then ['\\', 'b']
  else if c.toNat < 0x20 then unitEscape c.toNat
  else if asciiOnly && 0x7e < c.toNat then
    if c.toNat < 0x10000 then unitEscape c.toNat
    else
      let n := c.toNat - 0x10000
      unitEscape (0xd800 + n / 0x400) ++ unitEscape (0xdc00 + n % 0x400)
  else [c]

/-- A string between double quotes. -/
def stringChars (asciiOnly : Bool) (s : String) : List Char :=
  '"' :: s.toList.flatMap (stringChar asciiOnly) ++ ['"']

/-- The break before an item or a closing bracket at a level of an indented layout. -/
def lineBreak (layout : JsonLayout) (level : Nat) : List Char :=
  match layout.indent with
  | none => []
  | some width => '\n' :: List.replicate (width * level) ' '

def itemMark (layout : JsonLayout) (level : Nat) : List Char :=
  match layout.indent with
  | none => [',', ' ']
  | some _ => ',' :: lineBreak layout level

mutual
/-- The characters of a value at a level of nesting. -/
def chars (layout : JsonLayout) (level : Nat) : Json → List Char
  | .null => "null".toList
  | .bool b => if b then "true".toList else "false".toList
  | .int n => (intText n).toList
  | .float x => (numberText x).toList
  | .str s => stringChars layout.asciiOnly s
  | .arr [] => ['[', ']']
  | .arr (v :: rest) =>
    '[' :: lineBreak layout (level + 1) ++ chars layout (level + 1) v ++
      itemsChars layout (level + 1) rest ++ lineBreak layout level ++ [']']
  | .obj [] => ['\x7b', '\x7d']
  | .obj ((k, v) :: rest) =>
    '\x7b' :: lineBreak layout (level + 1) ++ stringChars layout.asciiOnly k ++ [':', ' '] ++
      chars layout (level + 1) v ++ fieldsChars layout (level + 1) rest ++
      lineBreak layout level ++ ['\x7d']

/-- Further items, each behind its mark. -/
def itemsChars (layout : JsonLayout) (level : Nat) : List Json → List Char
  | [] => []
  | v :: rest => itemMark layout level ++ chars layout level v ++ itemsChars layout level rest

/-- Further fields, each behind its mark. -/
def fieldsChars (layout : JsonLayout) (level : Nat) : List (String × Json) → List Char
  | [] => []
  | (k, v) :: rest =>
    itemMark layout level ++ stringChars layout.asciiOnly k ++ [':', ' '] ++
      chars layout level v ++ fieldsChars layout level rest
end

/-- The text of a value in a layout. -/
def write (layout : JsonLayout) (v : Json) : String := String.ofList (chars layout 0 v)

/-- One line, every character as it is. -/
def compact : Json → String := write ⟨none, false⟩

/-- Two blanks per level, every character as it is. -/
def pretty : Json → String := write ⟨some 2, false⟩

/-- One line, characters beyond ASCII escaped. -/
def ascii : Json → String := write ⟨none, true⟩

end Json

end Gamebook
