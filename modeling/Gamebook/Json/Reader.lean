import Gamebook.Json.Basic
import Gamebook.Text.Digit

/-!
# Reading JSON text

The reader goes once through the characters.  A failure carries how many characters were left, from
which the position, line and column follow.

* `JsonFault`, `JsonError` : what is wrong with a text, and its message.
* `Json.read`              : the value that a whole text denotes.

Beyond the standard grammar the words `NaN`, `Infinity` and `-Infinity` are numbers.  A repeated key
keeps its first place and its last value.  A whole number of more than 4300 digits and a value nested
deeper than `nestingLimit` are refused.

This is how `from_json_text`, `extract_json` and `format_sse` read.
-/

set_option autoImplicit false

namespace Gamebook

/-- Departures from the grammar. -/
inductive JsonFault where
  | value
  | propertyName
  | colon
  | comma
  | unterminatedString
  | controlCharacter
  | escape
  | unicodeEscape
  | extraData
  | byteOrderMark
  deriving DecidableEq, Repr

def JsonFault.message : JsonFault → String
  | .value => "Expecting value"
  | .propertyName => "Expecting property name enclosed in double quotes"
  | .colon => "Expecting ':' delimiter"
  | .comma => "Expecting ',' delimiter"
  | .unterminatedString => "Unterminated string starting at"
  | .controlCharacter => "Invalid control character at"
  | .escape => "Invalid \\escape"
  | .unicodeEscape => "Invalid \\uXXXX escape"
  | .extraData => "Extra data"
  | .byteOrderMark => "Unexpected UTF-8 BOM (decode using utf-8-sig)"

/-- Why a text is not read. -/
inductive JsonError where
  /-- The text departs from the grammar at a position, which lies on a line at a column. -/
  | syntaxFault (fault : JsonFault) (position line column : Nat)
  /-- A whole number has too many digits. -/
  | digitLimit (digits : Nat)
  /-- The value is nested too deeply; the flag tells an object from a list. -/
  | nestingLimit (inObject : Bool)
  deriving DecidableEq, Repr

/-- The most digits of a whole number. -/
def digitLimit : Nat := 4300

/-- The deepest nesting of lists and objects that is read.

This is an idealisation.  Where the bound is what is left of a call stack, it shrinks with the depth of the
call that reads, and a value near it may be read in one place and refused in another; here it is one number
for all places. -/
def nestingLimit : Nat := 990

def JsonError.message : JsonError → String
  | .syntaxFault fault position line column =>
    fault.message ++ ": line " ++ Nat.repr line ++ " column " ++ Nat.repr column ++
      " (char " ++ Nat.repr position ++ ")"
  | .digitLimit digits =>
    "Exceeds the limit (4300 digits) for integer string conversion: value has " ++
      Nat.repr digits ++ " digits; use sys.set_int_max_str_digits() to increase the limit"
  | .nestingLimit inObject =>
    "maximum recursion depth exceeded while decoding a JSON " ++
      (if inObject then "object" else "array") ++ " from a unicode string"

namespace Json

/-- A failure inside a text, with the number of characters from its position to the end. -/
inductive Stop where
  | fault (fault : JsonFault) (left : Nat)
  | digitLimit (digits : Nat)
  | nestingLimit (inObject : Bool)
  deriving DecidableEq, Repr

/-- The white space of the grammar. -/
def isGap (c : Char) : Bool := c == ' ' || c == '\n' || c == '\t' || c == '\r'

/-- Skips white space. -/
def skipGap (cs : List Char) : List Char := cs.dropWhile isGap

/-! ## Strings -/

/-- A piece of a string: a character, or a unit written by number. -/
inductive Piece where
  | char (c : Char)
  | unit (n : Nat)
  deriving DecidableEq, Repr

/-- The number that four hexadecimal digits spell. -/
def hexUnit? (a b c d : Char) : Option Nat := do
  let a ← Text.radixDigit? 16 a
  let b ← Text.radixDigit? 16 b
  let c ← Text.radixDigit? 16 c
  let d ← Text.radixDigit? 16 d
  return ((a * 16 + b) * 16 + c) * 16 + d

/-- The character behind a one-letter escape. -/
def shortEscape? : Char → Option Char
  | '"' => some '"'
  | '\\' => some '\\'
  | '/' => some '/'
  | 'b' => some '\x08'
  | 'f' => some '\x0c'
  | 'n' => some '\n'
  | 'r' => some '\r'
  | 't' => some '\t'
  | _ => none

/-- The failure of a string without a closing quote; it is placed at the opening quote. -/
def unterminated (body : List Char) : Stop := .fault .unterminatedString (body.length + 1)

/-- The pieces up to the closing quote, and what follows it.  `body` is the whole text behind the
opening quote. -/
def pieces (body : List Char) : List Char → Except Stop (List Piece × List Char)
  | [] => .error (unterminated body)
  | '"' :: rest => .ok ([], rest)
  | ['\\'] => .error (unterminated body)
  | '\\' :: 'u' :: a :: b :: c :: d :: rest =>
    match hexUnit? a b c d, rest with
    | some n, next :: more => do
      let (ps, after) ← pieces body (next :: more)
      return (.unit n :: ps, after)
    | _, _ => .error (.fault .unicodeEscape (rest.length + 5))
  | '\\' :: 'u' :: rest => .error (.fault .unicodeEscape (rest.length + 1))
  | '\\' :: e :: rest =>
    match shortEscape? e with
    | some c => do
      let (ps, after) ← pieces body rest
      return (.char c :: ps, after)
    | none => .error (.fault .escape (rest.length + 2))
  | c :: rest =>
    if c.toNat < 0x20 then .error (.fault .controlCharacter (rest.length + 1))
    else do
      let (ps, after) ← pieces body rest
      return (.char c :: ps, after)

/-- Joins pieces: two units that form a surrogate pair are one character, and a surrogate without
its partner becomes the replacement character.

This departs from readers that keep such a surrogate in the text.  It is no character, so a `String` cannot
hold it; texts that differ in lone surrogates only are read alike here. -/
def joinPieces : List Piece → List Char
  | [] => []
  | .char c :: rest => c :: joinPieces rest
  | .unit high :: .unit low :: rest =>
    if 0xd800 ≤ high ∧ high < 0xdc00 ∧ 0xdc00 ≤ low ∧ low < 0xe000 then
      Char.ofNat (0x10000 + (high - 0xd800) * 0x400 + (low - 0xdc00)) :: joinPieces rest
    else if 0xd800 ≤ high ∧ high < 0xe000 then '\ufffd' :: joinPieces (.unit low :: rest)
    else Char.ofNat high :: joinPieces (.unit low :: rest)
  | .unit n :: rest =>
    (if 0xd800 ≤ n ∧ n < 0xe000 then '\ufffd' else Char.ofNat n) :: joinPieces rest

/-- Reads a string behind its opening quote. -/
def stringBody (cs : List Char) : Except Stop (String × List Char) := do
  let (ps, rest) ← pieces cs cs
  return (String.ofList (joinPieces ps), rest)

/-! ## Numbers -/

/-- The number that a run of ASCII digits spells. -/
def digitsValue (ds : List Char) : Nat := ds.foldl (fun acc c => acc * 10 + (c.toNat - '0'.toNat)) 0

/-- The whole part of a number: a zero, or digits that start with another one. -/
def wholePart? : List Char → Option (List Char × List Char)
  | '0' :: rest => some (['0'], rest)
  | c :: rest =>
    if c.isDigit then some (c :: rest.takeWhile Char.isDigit, rest.dropWhile Char.isDigit) else none
  | [] => none

def fractionDigits : List Char → List Char × List Char
  | '.' :: rest =>
    let ds := rest.takeWhile Char.isDigit
    if ds.isEmpty then ([], '.' :: rest) else (ds, rest.dropWhile Char.isDigit)
  | cs => ([], cs)

def exponentOf (cs : List Char) : Option Int × List Char :=
  match cs with
  | e :: rest =>
    if e == 'e' || e == 'E' then
      let (negative, digits) := match rest with
        | '-' :: more => (true, more)
        | '+' :: more => (false, more)
        | more => (false, more)
      let ds := digits.takeWhile Char.isDigit
      if ds.isEmpty then (none, cs)
      else
        let n : Int := digitsValue ds
        (some (if negative then -n else n), digits.dropWhile Char.isDigit)
    else (none, cs)
  | [] => (none, cs)

def number (cs : List Char) : Except Stop (Json × List Char) :=
  let (negative, body) := match cs with
    | '-' :: rest => (true, rest)
    | _ => (false, cs)
  match wholePart? body with
  | none => .error (.fault .value cs.length)
  | some (whole, rest) =>
    let (fraction, rest) := fractionDigits rest
    let (exponent, rest) := exponentOf rest
    if fraction.isEmpty && exponent.isNone then
      if digitLimit < whole.length then .error (.digitLimit whole.length)
      else
        let n : Int := digitsValue whole
        .ok (.int (if negative then -n else n), rest)
    else
      let e := exponent.getD 0 - fraction.length
      .ok (.float (.ofDecimal negative (digitsValue (whole ++ fraction)) e), rest)

/-! ## Values -/

/-- The words that stand for values. -/
def words : List (String × Json) :=
  [("null", .null), ("true", .bool true), ("false", .bool false), ("NaN", .float .nan),
   ("Infinity", .float (.infinite false)), ("-Infinity", .float (.infinite true))]

/-- A word at the front of the text. -/
def word? (cs : List Char) : Option (Json × List Char) :=
  words.findSome? fun (w, v) =>
    if w.toList.isPrefixOf cs then some (v, cs.drop w.length) else none

mutual
/-- Reads one value at the front of the text.  `depth` levels of nesting are left. -/
def value (fuel depth : Nat) (cs : List Char) : Except Stop (Json × List Char) :=
  match fuel with
  | 0 => .error (.fault .value cs.length)
  | fuel + 1 =>
    match cs with
    | [] => .error (.fault .value 0)
    | '"' :: rest => do
      let (s, rest) ← stringBody rest
      return (.str s, rest)
    | '[' :: rest =>
      match depth with
      | 0 => .error (.nestingLimit false)
      | depth + 1 =>
        match skipGap rest with
        | ']' :: rest => .ok (.arr [], rest)
        | rest => do
          let (items, rest) ← items fuel depth rest
          return (.arr items, rest)
    | '\x7b' :: rest =>
      match depth with
      | 0 => .error (.nestingLimit true)
      | depth + 1 =>
        match skipGap rest with
        | '\x7d' :: rest => .ok (.obj [], rest)
        | rest => do
          let (fields, rest) ← fields fuel depth rest
          return (.obj (Table.ofList fields), rest)
    | cs =>
      match word? cs with
      | some found => .ok found
      | none => number cs

/-- Reads the items of a list up to its closing bracket. -/
def items (fuel depth : Nat) (cs : List Char) : Except Stop (List Json × List Char) :=
  match fuel with
  | 0 => .error (.fault .value cs.length)
  | fuel + 1 => do
    let (v, rest) ← value fuel depth cs
    match skipGap rest with
    | ']' :: rest => return ([v], rest)
    | ',' :: rest =>
      let (vs, rest) ← items fuel depth (skipGap rest)
      return (v :: vs, rest)
    | rest => .error (.fault .comma rest.length)

/-- Reads the fields of an object up to its closing brace. -/
def fields (fuel depth : Nat) (cs : List Char) : Except Stop (List (String × Json) × List Char) :=
  match fuel with
  | 0 => .error (.fault .value cs.length)
  | fuel + 1 =>
    match cs with
    | '"' :: rest => do
      let (key, rest) ← stringBody rest
      match skipGap rest with
      | ':' :: rest =>
        let (v, rest) ← value fuel depth (skipGap rest)
        match skipGap rest with
        | '\x7d' :: rest => return ([(key, v)], rest)
        | ',' :: rest =>
          let (more, rest) ← fields fuel depth (skipGap rest)
          return ((key, v) :: more, rest)
        | rest => .error (.fault .comma rest.length)
      | rest => .error (.fault .colon rest.length)
    | cs => .error (.fault .propertyName cs.length)
end

/-- Line and column of the position that a number of characters precede, both counted from one. -/
def lineColumn (before : List Char) : Nat × Nat :=
  (before.count '\n' + 1, (before.reverse.takeWhile (· != '\n')).length + 1)

/-- Places a failure in its text. -/
def locate (cs : List Char) : Stop → JsonError
  | .fault fault left =>
    let position := cs.length - left
    let (line, column) := lineColumn (cs.take position)
    .syntaxFault fault position line column
  | .digitLimit digits => .digitLimit digits
  | .nestingLimit inObject => .nestingLimit inObject

/-- Reads a whole text from its characters. -/
def readChars (cs : List Char) : Except Stop Json :=
  match cs with
  | '\ufeff' :: _ => .error (.fault .byteOrderMark cs.length)
  | _ => do
    let start := skipGap cs
    let (v, rest) ← value (2 * start.length + 2) nestingLimit start
    match skipGap rest with
    | [] => return v
    | rest => .error (.fault .extraData rest.length)

/-- The value that a text denotes. -/
def read (text : String) : Except JsonError Json :=
  match readChars text.toList with
  | .ok v => .ok v
  | .error stop => .error (locate text.toList stop)

end Json

end Gamebook
