import Gamebook.Table
import Gamebook.Text.Lines
import Gamebook.Text.Quoted

/-!
# The working directory

* `normalPath`   : a path in its normal form.
* `Place`        : where a path leads: down from the root, or from the working directory or a directory
  above it.
* `Folder`       : the files and directories around the working directory, by place.
* `FileFault`    : why a path cannot be used, and the wording.
* `Folder.find`, `Folder.read`, `Folder.write` : one path.

A path is followed part by part: what it goes through must be a directory, also in front of a step
up.  The working directory and all directories above it are there.

What `_read_story` reads and the commands write stands here.
-/

set_option autoImplicit false

namespace Gamebook.Terminal

/-- The parts of a path, without those that stay in place. -/
def pathParts (path : String) : List String :=
  (path.splitOn "/").filter fun part => part != "" && part != "."

/-- A path without empty parts and parts that stay in place; slashes at its beginning are kept, as
one or, if there are just two, as two. -/
def normalPath (path : String) : String :=
  let leading := (path.toList.takeWhile (· == '/')).length
  let root := if leading = 0 then "" else if leading = 2 then "//" else "/"
  let parts := pathParts path
  if leading = 0 ∧ parts.isEmpty then "." else root ++ "/".intercalate parts

/-! ## Places -/

/-- Where places are counted from. -/
inductive Anchor where
  | root
  /-- The working directory, or the directory some levels above it. -/
  | above (levels : Nat)
  deriving DecidableEq, Repr

/-- The place that some parts lead to from an anchor. -/
structure Place where
  anchor : Anchor
  parts : List String
  deriving DecidableEq, Repr

namespace Place

/-- The working directory. -/
def here : Place := ⟨.above 0, []⟩

/-- The place where the parts of a path are followed from. -/
def start (path : String) : Place := if path.toList.head? = some '/' then ⟨.root, []⟩ else here

/-- The directory that holds a place; the root holds itself. -/
def parent (p : Place) : Place :=
  match p.parts, p.anchor with
  | [], .root => p
  | [], .above levels => ⟨.above (levels + 1), []⟩
  | parts, anchor => ⟨anchor, parts.dropLast⟩

/-- The place one part of a path further. -/
def step (p : Place) (part : String) : Place :=
  if part = ".." then p.parent else ⟨p.anchor, p.parts ++ [part]⟩

/-- The places on the way along some parts, the last of them where they lead. -/
def along (p : Place) : List String → List Place
  | [] => [p]
  | part :: rest => p :: along (p.step part) rest

def path (p : Place) : String :=
  match p.anchor, p.parts with
  | .root, parts => "/" ++ "/".intercalate parts
  | .above 0, [] => "."
  | .above levels, parts => "/".intercalate (List.replicate levels ".." ++ parts)

/-- The place lies in the working directory. -/
def isInside (p : Place) : Bool := p.anchor = .above 0

end Place

/-! ## Files and directories -/

/-- What a file holds. -/
inductive Content where
  | text (s : String)
  /-- No text: the octet at a position starts no character. -/
  | binary (octet position : Nat)
  deriving DecidableEq, Repr

/-- What stands at a place. -/
inductive Entry where
  | file (content : Content)
  /-- A file that is always empty: what is written to it is lost. -/
  | sink
  | directory
  deriving DecidableEq, Repr

/-- The files and directories around the working directory. -/
structure Folder where
  entries : List (Place × Entry)
  deriving DecidableEq, Repr

/-- What is wrong with a path. -/
inductive FileTrouble where
  | missing
  | notDirectory
  | isDirectory
  | nameTooLong
  /-- The file holds no text: the octet at a position starts no character. -/
  | notText (octet position : Nat)
  deriving DecidableEq, Repr

/-- Why a path cannot be used. -/
structure FileFault where
  trouble : FileTrouble
  path : String
  deriving DecidableEq, Repr

def FileTrouble.message : FileTrouble → String
  | .missing => "[Errno 2] No such file or directory"
  | .notDirectory => "[Errno 20] Not a directory"
  | .isDirectory => "[Errno 21] Is a directory"
  | .nameTooLong => "[Errno 36] File name too long"
  | .notText octet position =>
    "'utf-8' codec can't decode byte 0x" ++ String.ofList (Text.hexDigits 2 octet) ++ " in position " ++
      Nat.repr position ++ ": invalid start byte"

/-- The trouble is with what a file holds, and not with the path to it. -/
def FileTrouble.isContent : FileTrouble → Bool
  | .notText .. => true
  | _ => false

def FileFault.message (f : FileFault) : String :=
  if f.trouble.isContent then f.trouble.message
  else f.trouble.message ++ ": " ++ Text.quoted f.path

/-- The longest name of a file, in octets. -/
def nameLimit : Nat := 255

/-- Paths are shorter than this, in octets. -/
def pathLimit : Nat := 4096

namespace Folder

def entry? (f : Folder) (p : Place) : Option Entry :=
  if p.parts.isEmpty then some .directory else f.entries.lookup p

def put (f : Folder) (p : Place) (entry : Entry) : Folder :=
  if (f.entries.lookup p).isSome then
    ⟨f.entries.map fun e => if e.1 = p then (p, entry) else e⟩
  else ⟨f.entries ++ [(p, entry)]⟩

/-- The folder with a file, and the directories above it. -/
def withFile (f : Folder) (path : String) (content : Content) : Folder :=
  let way := (Place.start path).along (pathParts path)
  let above := (way.drop 1).dropLast.foldl (fun (f : Folder) p => f.put p .directory) f
  way.getLast?.elim above fun p => above.put p (.file content)

def ofTexts (texts : Table String) : Folder :=
  texts.foldl (fun f e => f.withFile e.1 (.text e.2)) ⟨[]⟩

def files (f : Folder) : List (Place × Content) :=
  f.entries.filterMap fun (p, entry) =>
    match entry with
    | .file content => some (p, content)
    | _ => none

/-- The files in the working directory by their paths, in order. -/
def ownFiles (f : Folder) : Table Content :=
  (f.files.filter fun e => e.1.isInside).map fun e => (e.1.path, e.2)

/-- Follows some parts of a path from a place on. -/
def follow (f : Folder) (p : Place) : List String → Except FileTrouble Place
  | [] => .ok p
  | part :: rest =>
    match f.entry? p with
    | none => .error .missing
    | some .directory =>
      if nameLimit < part.utf8ByteSize then .error .nameTooLong else follow f (p.step part) rest
    | some _ => .error .notDirectory

def place (f : Folder) (path : String) : Except FileFault Place :=
  if pathLimit ≤ path.utf8ByteSize then .error ⟨.nameTooLong, path⟩
  else (f.follow (.start path) (pathParts path)).mapError (⟨·, path⟩)

/-- What stands where a path leads to. -/
def find (f : Folder) (path : String) : Except FileFault (Option Entry) :=
  (f.place path).map f.entry?

def read (f : Folder) (path : String) : Except FileFault String := do
  match ← f.find path with
  | none => throw ⟨.missing, path⟩
  | some .directory => throw ⟨.isDirectory, path⟩
  | some .sink => return ""
  | some (.file (.binary octet position)) => throw ⟨.notText octet position, path⟩
  | some (.file (.text s)) => return Text.lineFeeds s

def write (f : Folder) (path text : String) : Except FileFault Folder := do
  let p ← f.place path
  match f.entry? p with
  | some .directory => throw ⟨.isDirectory, path⟩
  | some .sink => return f
  | _ => return f.put p (.file (.text text))

/-- Something stands where a path leads to. -/
def has (f : Folder) (path : String) : Except FileFault Bool :=
  match f.find path with
  | .ok entry => .ok entry.isSome
  | .error fault => if fault.trouble = .nameTooLong then .error fault else .ok false

end Folder

end Gamebook.Terminal
