import Gamebook.Text.Blank
import Gamebook.Text.Percent
import Gamebook.Text.Quoted

/-!
# Targets of requests

A request is sent to a target: a path, perhaps with a scheme and an authority in front, and a query
and a fragment behind.  A target with a scheme and a host stands for itself; of any other target only
the path counts, and it is taken from the root of the service.

* `TargetFault`   : why a target cannot be sent, and the wording.
* `Address`       : a target in its pieces.
* `Address.check` : refuses pieces that cannot be sent.
* `withoutDots`   : the parts of a path without those that stay in place or go up.
* `targetParts`   : the parts of the path that a target means.

Targets are read here as they are in front of the routes of the endpoints.
-/

set_option autoImplicit false

namespace Gamebook.Service

/-- Why a target cannot be sent. -/
inductive TargetFault where
  | tooLong
  /-- The first character that is not printable, and its position. -/
  | unprintable (c : Char) (position : Nat)
  /-- A host of four numbers that are no octets. -/
  | badHost (host : String)
  /-- What stands behind the host is no number. -/
  | badSocket (socket : String)
  /-- A path without a scheme and an authority starts with two slashes. -/
  | doubleSlash
  /-- A path without a scheme and an authority starts with a colon. -/
  | leadingColon
  /-- A piece is too long once its characters are written in octets. -/
  | pieceTooLong (piece : String)
  deriving DecidableEq, Repr

def TargetFault.message : TargetFault → String
  | .tooLong => "URL too long"
  | .unprintable c position =>
    "Invalid non-printable ASCII character in URL, " ++ Text.quoted (String.singleton c) ++
      " at position " ++ Nat.repr position ++ "."
  | .badHost host => "Invalid IPv4 address: " ++ Text.quoted host
  | .badSocket socket => "Invalid port: " ++ Text.quoted socket
  | .doubleSlash => "Relative URLs cannot have a path starting with '//'"
  | .leadingColon => "Relative URLs cannot have a path starting with ':'"
  | .pieceTooLong piece => "URL component '" ++ piece ++ "' too long"

/-- The most characters of a target, and of a piece of it. -/
def targetLimit : Nat := 65536

/-- A character of ASCII that is not printable. -/
def isControl (c : Char) : Bool := c.toNat < 0x20 || c.toNat == 0x7f

/-! ## Pieces -/

/-- A target in its pieces. -/
structure Address where
  scheme : List Char
  user : List Char
  host : List Char
  /-- The number behind the host. -/
  socket : List Char
  path : List Char
  query : List Char
  deriving DecidableEq, Repr

def isSchemeChar (c : Char) : Bool := c.isAlphanum || c == '+' || c == '.' || c == '-'

/-- The scheme in front of a colon, and what is behind the colon; a scheme may be empty. -/
def splitScheme (cs : List Char) : List Char × List Char :=
  let scheme := cs.takeWhile isSchemeChar
  match cs.dropWhile isSchemeChar with
  | ':' :: rest => if scheme.isEmpty || scheme.head?.any Char.isAlpha then (scheme, rest) else ([], cs)
  | _ => ([], cs)

def endsAuthority (c : Char) : Bool := c == '/' || c == '?' || c == '#'

/-- The authority behind two slashes, and what is behind it. -/
def splitAuthority : List Char → List Char × List Char
  | '/' :: '/' :: rest =>
    (rest.takeWhile fun c => !endsAuthority c, rest.dropWhile fun c => !endsAuthority c)
  | cs => ([], cs)

/-- What is in front of the last mark, and what is behind it; nothing in front without a mark. -/
def splitLast (mark : Char) (cs : List Char) : List Char × List Char :=
  if cs.contains mark then
    ((cs.reverse.dropWhile (· != mark)).tail.reverse, (cs.reverse.takeWhile (· != mark)).reverse)
  else ([], cs)

/-- The host at the front of an authority without a user, and what is behind it.  A host in brackets
may hold colons. -/
def splitHost (cs : List Char) : List Char × List Char :=
  if cs.head? = some '[' ∧ ']' ∈ cs then
    let (inside, behind) := splitLast ']' cs
    (inside ++ [']'], behind)
  else (cs.takeWhile (· != ':'), cs.dropWhile (· != ':'))

/-- A target taken apart. -/
def Address.ofTarget (target : List Char) : Address :=
  let (scheme, rest) := splitScheme target
  let (authority, rest) := splitAuthority rest
  let (user, place) := splitLast '@' authority
  let (host, behind) := splitHost place
  let query := (rest.takeWhile (· != '#')).dropWhile (· != '?')
  { scheme, user, host
    socket := if behind.head? = some ':' then behind.tail else behind
    path := rest.takeWhile fun c => c != '?' && c != '#'
    query := query.tail }

namespace Address

/-- The target names a host to send to. -/
def isAbsolute (a : Address) : Bool := !a.scheme.isEmpty && !a.host.isEmpty

/-- Only the path of the target says something. -/
def isBare (a : Address) : Bool :=
  a.scheme.isEmpty && a.user.isEmpty && a.host.isEmpty && a.socket.isEmpty

/-- A number from 0 to 255 without a zero in front. -/
def isOctet (part : List Char) : Bool :=
  decide (part.length ≤ 3) && (part.length == 1 || part.head? != some '0') &&
    (Text.decimalValue? part).any (· ≤ 255)

/-- The host is four numbers, but not all of them are octets. -/
def isBadHost (host : List Char) : Bool :=
  let parts := ((String.ofList host).splitOn ".").map String.toList
  parts.length == 4 && parts.all (fun p => !p.isEmpty && p.all Char.isDigit) && !parts.all isOctet

/-- A whole number, perhaps with a sign and with single underscores between its digits. -/
def isSocket (socket : List Char) : Bool :=
  let trimmed := Text.trimList Text.isBlank socket
  let unsigned :=
    if trimmed.head? = some '+' ∨ trimmed.head? = some '-' then trimmed.tail else trimmed
  ((String.ofList unsigned).splitOn "_").all fun part =>
    !part.isEmpty && part.toList.all Text.isDecimalDigit

/-- Refuses pieces that cannot be sent. -/
def check (a : Address) : Except TargetFault Unit :=
  if isBadHost a.host then .error (.badHost (String.ofList a.host))
  else if !a.socket.isEmpty && !isSocket a.socket then
    .error (.badSocket (String.ofList a.socket))
  else if a.isBare && ['/', '/'].isPrefixOf a.path then .error .doubleSlash
  else if a.isBare && a.path.head? == some ':' then .error .leadingColon
  else .ok ()

end Address

/-! ## Paths -/

/-- The parts of a path without those that stay in place or go up, behind the parts kept so far, the
last of them first.  A step up from the beginning leads nowhere. -/
def withoutDots (kept : List String) : List String → List String
  | [] => kept.reverse
  | part :: rest =>
    if part = "." then withoutDots kept rest
    else if part = ".." then
      withoutDots (if kept = [""] then kept else kept.drop 1) rest
    else withoutDots (part :: kept) rest

/-- A path with its steps taken. -/
def stepped (path : List Char) : List Char :=
  ("/".intercalate (withoutDots [] ((String.ofList path).splitOn "/"))).toList

def isPathChar (c : Char) : Bool :=
  decide (0x20 < c.toNat ∧ c.toNat < 0x7f) && !("\"#<>?\x60\x7b\x7d".toList.contains c)

def isQueryChar (c : Char) : Bool :=
  decide (0x20 < c.toNat ∧ c.toNat < 0x7f) && !("\"#<>".toList.contains c)

/-- The length of a piece in which the characters that it does not hold as they are stand as octets,
each of them three characters long. -/
def sentLength (isHeld : Char → Bool) (cs : List Char) : Nat :=
  cs.foldl (fun n c => n + if isHeld c then 1 else 3 * c.utf8Size) 0

/-- The path that an address means from the root of the service. -/
def Address.fromRoot (a : Address) : Except TargetFault (List Char) :=
  let path := '/' :: (if a.isBare then a.path else stepped a.path).dropWhile (· == '/')
  if targetLimit < sentLength isPathChar path then .error (.pieceTooLong "path")
  else if targetLimit < sentLength isQueryChar a.query then .error (.pieceTooLong "query")
  else .ok (stepped path)

def targetPath (target : String) : Except TargetFault (List Char) := do
  let cs := target.toList
  if targetLimit < cs.length then throw .tooLong
  if let (some position, some c) := (cs.findIdx? isControl, cs.find? isControl) then
    throw (.unprintable c position)
  let address := Address.ofTarget cs
  address.check
  if address.isAbsolute then return stepped address.path else address.fromRoot

/-- The parts of the path that a target means; what stands for characters by number is read only
after the steps of the path were taken. -/
def targetParts (target : String) : Except TargetFault (List String) := do
  return (Text.percentDecoded (String.ofList (← targetPath target))).splitOn "/"

end Gamebook.Service
