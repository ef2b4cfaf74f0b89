/-!
# Blanks

* `isWhiteSpace` : the White_Space property of the Unicode character database.
* `isBlank`      : white space and the four information separators U+001C to U+001F; what the
  number reader, the fence reader and the command reader skip at both ends of a text.
* `trim`         : a text without the blanks at its ends.

They are the characters that `to_number`, `extract_json` and `play` strip off.
-/

namespace Gamebook.Text

/-- White space in the sense of the Unicode character database. -/
def isWhiteSpace (c : Char) : Bool :=
  let n := c.toNat
  (9 ≤ n && n ≤ 13) || n == 0x20 || n == 0x85 || n == 0xa0 || n == 0x1680 ||
    (0x2000 ≤ n && n ≤ 0x200a) || n == 0x2028 || n == 0x2029 || n == 0x202f || n == 0x205f ||
    n == 0x3000

/-- White space or an information separator. -/
def isBlank (c : Char) : Bool :=
  isWhiteSpace c || (0x1c ≤ c.toNat && c.toNat ≤ 0x1f)

/-- Drops the characters of a class at both ends of a list. -/
def trimList (skip : Char → Bool) (cs : List Char) : List Char :=
  ((cs.dropWhile skip).reverse.dropWhile skip).reverse

/-- Drops the blanks at both ends of a text. -/
def trim (s : String) : String := String.ofList (trimList isBlank s.toList)

end Gamebook.Text
