import Gamebook.Json.Reader
import Gamebook.Text.Blank

/-!
# The document in a response

A response may wrap its document in a code fence: three backquotes, an optional tag, blanks with a
line break, the document, and three backquotes on a line of their own at the end.

* `unfence?`        : the characters inside the fence, if the text is fenced.
* `documentText`    : the text of the document, without fence and blanks around it.
* `readResponse`    : the document that a response holds.

Models `extract_json`.
-/

set_option autoImplicit false

namespace Gamebook.Extension

open Text

def fenceMark : List Char := ['\x60', '\x60', '\x60']

/-- The text behind the opening mark and its tag. -/
def afterTag (cs : List Char) : List Char :=
  if "json".toList.isPrefixOf cs then cs.drop 4 else cs

/-- The text without the closing mark and the line break before it. -/
def beforeClosing? (cs : List Char) : Option (List Char) :=
  let back := fenceMark ++ ['\n']
  if back.isPrefixOf cs.reverse then some (cs.reverse.drop back.length).reverse else none

/-- The characters inside a fence.  The blanks behind the tag must hold a line break before the
closing line; what follows the tag is given with them. -/
def unfence? (cs : List Char) : Option (List Char) := do
  if !fenceMark.isPrefixOf cs then none
  let inside ← beforeClosing? (afterTag (cs.drop fenceMark.length))
  if (inside.takeWhile isBlank).contains '\n' then some inside else none

def documentText (response : String) : String :=
  let cs := trimList isBlank response.toList
  match unfence? cs with
  | some inside => String.ofList (trimList isBlank inside)
  | none => String.ofList cs

/-- The document that a response holds. -/
def readResponse (response : String) : Except JsonError Json := Json.read (documentText response)

end Gamebook.Extension
