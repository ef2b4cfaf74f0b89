import Gamebook.Text.Percent

/-!
# Encodings of JSON octets

A JSON text starts with a character below U+0080, so that the zeros among its first four octets show
how its octets stand for characters.

* `Encoding`, `Encoding.ofOctets` : the encodings, and the one that the first octets show.
* `readUtf16?`, `readUtf32?`      : the text of octets; `none` when they break off inside a character or
  go beyond the last one.
* `ofJsonOctets?`                 : a text out of the octets of another, read as those of a JSON text.

The bodies that the endpoints take are read so.
-/

set_option autoImplicit false

namespace Gamebook.Text

/-- How octets stand for characters; the wider units come with either octet first. -/
inductive Encoding where
  | utf8
  | utf16 (mostFirst : Bool)
  | utf32 (mostFirst : Bool)
  deriving DecidableEq, Repr

/-- The encoding that the first octets of a JSON text show. -/
def Encoding.ofOctets : List Nat → Encoding
  | [0, _] => .utf16 true
  | [_, 0] => .utf16 false
  | 0 :: 0 :: _ :: _ :: _ => .utf32 true
  | 0 :: _ :: _ :: _ :: _ => .utf16 true
  | _ :: 0 :: 0 :: 0 :: _ => .utf32 false
  | _ :: 0 :: _ :: _ :: _ => .utf16 false
  | _ => .utf8

/-- The character of a number; half of a surrogate pair by itself has none. -/
def charOrMark (n : Nat) : Char := if 0xd800 ≤ n ∧ n < 0xe000 then replacement else Char.ofNat n

/-- The units of two octets each. -/
def units16? (mostFirst : Bool) : List Nat → Option (List Nat)
  | [] => some []
  | a :: b :: rest =>
    (units16? mostFirst rest).map ((if mostFirst then a * 256 + b else b * 256 + a) :: ·)
  | [_] => none

/-- The characters of units of two octets; two units that form a surrogate pair are one character. -/
def joinUnits : List Nat → List Char
  | high :: low :: rest =>
    if 0xd800 ≤ high ∧ high < 0xdc00 ∧ 0xdc00 ≤ low ∧ low < 0xe000 then
      Char.ofNat (0x10000 + (high - 0xd800) * 0x400 + (low - 0xdc00)) :: joinUnits rest
    else charOrMark high :: joinUnits (low :: rest)
  | [n] => [charOrMark n]
  | [] => []

/-- The text of octets in units of two. -/
def readUtf16? (mostFirst : Bool) (octets : List Nat) : Option String :=
  (units16? mostFirst octets).map fun units => String.ofList (joinUnits units)

/-- The number of four octets, the most significant first. -/
def unit32 (a b c d : Nat) : Nat := ((a * 256 + b) * 256 + c) * 256 + d

/-- The characters of units of four octets. -/
def chars32? (mostFirst : Bool) : List Nat → Option (List Char)
  | [] => some []
  | a :: b :: c :: d :: rest =>
    let n := if mostFirst then unit32 a b c d else unit32 d c b a
    if n ≤ 0x10ffff then (chars32? mostFirst rest).map (charOrMark n :: ·) else none
  | _ => none

/-- The text of octets in units of four. -/
def readUtf32? (mostFirst : Bool) (octets : List Nat) : Option String :=
  (chars32? mostFirst octets).map String.ofList

/-- A text without a byte-order mark in front. -/
def withoutMark (s : String) : String :=
  match s.toList with
  | '\ufeff' :: rest => String.ofList rest
  | _ => s

/-- The text that the octets of a text stand for as those of a JSON text. -/
def ofJsonOctets? (s : String) : Option String :=
  match Encoding.ofOctets ((s.toList.take 4).flatMap charOctets) with
  | .utf8 => some (withoutMark s)
  | .utf16 mostFirst => readUtf16? mostFirst (s.toList.flatMap charOctets)
  | .utf32 mostFirst => readUtf32? mostFirst (s.toList.flatMap charOctets)

end Gamebook.Text
