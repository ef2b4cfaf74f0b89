/-!
# Lines of text

* `lineFeeds`      : a text whose line ends are line feeds, as text files are read.
* `lines`          : the lines of a text, without their ends.
* `lastLine`       : what is behind the last line feed of a text.
* `joinedReturns`  : a text without the carriage returns in front of line feeds.
* `plain`          : a text without the control sequences that colour a terminal.
-/

set_option autoImplicit false

namespace Gamebook.Text

/-- Every carriage return becomes a line feed, together with the line feed behind it. -/
def lineFeedChars : List Char → List Char
  | '\r' :: '\n' :: rest => '\n' :: lineFeedChars rest
  | '\r' :: rest => '\n' :: lineFeedChars rest
  | c :: rest => c :: lineFeedChars rest
  | [] => []

/-- A text whose line ends are line feeds. -/
def lineFeeds (s : String) : String := String.ofList (lineFeedChars s.toList)

/-- The lines of characters: each ends with a line feed, save perhaps the last. -/
def lineChars : List Char → List (List Char)
  | [] => []
  | '\n' :: rest => [] :: lineChars rest
  | c :: rest =>
    match lineChars rest, rest with
    | line :: more, _ :: _ => (c :: line) :: more
    | more, _ => [c] :: more

/-- The lines of a text, without their ends. -/
def lines (s : String) : List String := (lineChars (lineFeedChars s.toList)).map String.ofList

/-- What is behind the last line feed of a text. -/
def lastLine (s : String) : String :=
  String.ofList (s.toList.reverse.takeWhile (· != '\n')).reverse

/-- The characters without the carriage returns in front of line feeds. -/
def joinedReturnChars : List Char → List Char
  | '\r' :: '\n' :: rest => '\n' :: joinedReturnChars rest
  | c :: rest => c :: joinedReturnChars rest
  | [] => []

/-- A text without the carriage returns in front of line feeds. -/
def joinedReturns (s : String) : String := String.ofList (joinedReturnChars s.toList)

/-- What is behind the control sequence whose parameters begin here: digits, semicolons and question
marks, and then one letter. -/
def behindSequence? : List Char → Option (List Char)
  | [] => none
  | c :: rest =>
    if c.isDigit || c == ';' || c == '?' then behindSequence? rest
    else if c.isAlpha then some rest
    else none

theorem behindSequence?_length {cs rest : List Char} (h : behindSequence? cs = some rest) :
    rest.length < cs.length := by
  induction cs with
  | nil => cases h
  | cons c cs ih =>
    simp only [behindSequence?] at h
    split at h
    · exact Nat.lt_succ_of_lt (ih h)
    · split at h
      · cases h; exact Nat.lt_succ_self _
      · cases h

/-- The characters without control sequences. -/
def plainChars (cs : List Char) : List Char :=
  match cs with
  | [] => []
  | '\x1b' :: '[' :: rest =>
    match h : behindSequence? rest with
    | some behind =>
      have := behindSequence?_length h
      plainChars behind
    | none => '\x1b' :: plainChars ('[' :: rest)
  | c :: rest => c :: plainChars rest
termination_by cs.length
decreasing_by all_goals simp_all <;> omega

/-- A text without control sequences. -/
def plain (s : String) : String := String.ofList (plainChars s.toList)

end Gamebook.Text
