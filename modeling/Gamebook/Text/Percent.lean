import Gamebook.Text.Digit

/-!
# Percent-encoded texts

* `readUtf8`       : a text out of octets; octets that no character can have become U+FFFD, one for
  each longest beginning of a character.
* `percentOctets`  : the octets of a text in which `%XX` stands for the octet of that number.
* `percentDecoded` : the text of those octets.
-/

set_option autoImplicit false

namespace Gamebook.Text

/-- A character of which some octets are still owed: how many, the bounds of the next one, and the
number read so far. -/
structure Owed where
  count : Nat
  low : Nat
  high : Nat
  value : Nat

/-- What the first octet of a character says. -/
def Owed.ofLead? (b : Nat) : Option Owed :=
  if b < 0x80 then some ⟨0, 0, 0, b⟩
  else if b < 0xc2 then none
  else if b < 0xe0 then some ⟨1, 0x80, 0xbf, b - 0xc0⟩
  else if b < 0xf0 then
    some ⟨2, if b = 0xe0 then 0xa0 else 0x80, if b = 0xed then 0x9f else 0xbf, b - 0xe0⟩
  else if b < 0xf5 then
    some ⟨3, if b = 0xf0 then 0x90 else 0x80, if b = 0xf4 then 0x8f else 0xbf, b - 0xf0⟩
  else none

/-- The mark in place of octets that no character can have. -/
def replacement : Char := '\ufffd'

/-- Takes an octet; gives the characters it completes, and the character it begins or goes on. -/
def takeOctet (owed? : Option Owed) (b : Nat) : List Char × Option Owed :=
  match owed? with
  | none => ofLead b
  | some o =>
    if o.low ≤ b ∧ b ≤ o.high then
      let value := o.value * 64 + (b - 0x80)
      if o.count = 1 then ([Char.ofNat value], none)
      else ([], some ⟨o.count - 1, 0x80, 0xbf, value⟩)
    else
      let (cs, next) := ofLead b
      (replacement :: cs, next)
where
  /-- An octet where a character begins. -/
  ofLead (b : Nat) : List Char × Option Owed :=
    match Owed.ofLead? b with
    | none => ([replacement], none)
    | some o => if o.count = 0 then ([Char.ofNat o.value], none) else ([], some o)

/-- The characters of octets, behind a character that may be owed some. -/
def readOctets (owed? : Option Owed) : List Nat → List Char
  | [] => if owed?.isSome then [replacement] else []
  | b :: rest =>
    let (cs, next) := takeOctet owed? b
    cs ++ readOctets next rest

def readUtf8 (octets : List Nat) : String := String.ofList (readOctets none octets)

def charOctets (c : Char) : List Nat := (String.utf8EncodeChar c).map UInt8.toNat

/-- The octets of a text in which `%XX` stands for an octet. -/
def percentOctets : List Char → List Nat
  | '%' :: a :: b :: rest =>
    match radixDigit? 16 a, radixDigit? 16 b with
    | some x, some y => (x * 16 + y) :: percentOctets rest
    | _, _ => charOctets '%' ++ percentOctets (a :: b :: rest)
  | c :: rest => charOctets c ++ percentOctets rest
  | [] => []

/-- The text that a percent-encoded text stands for. -/
def percentDecoded (s : String) : String := readUtf8 (percentOctets s.toList)

end Gamebook.Text
