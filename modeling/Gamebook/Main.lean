import Gamebook.Terminal.Session

/-!
# The program

Reads the files that a command names, runs the session as far as the lines typed so far allow, shows
what is new, and asks for another line until the session ends; then writes the files that changed.
-/

set_option autoImplicit false

namespace Gamebook.Terminal

/-- What stands under a path on disk; what is no text is known by its first octet beyond ASCII. -/
def look (path : String) : IO (Option Entry) := do
  try
    let real ← IO.FS.realPath path
    if ← real.isDir then return some .directory
    let octets ← IO.FS.readBinFile real
    match String.fromUTF8? octets with
    | some text => return some (.file (.text text))
    | none =>
      let position := (octets.toList.findIdx? (0x80 ≤ ·)).getD 0
      return some (.file (.binary (octets.toList.getD position 0).toNat position))
  catch _ => return none

/-- The part of the disk that lies on the way to some paths. -/
def lookAround (paths : List String) : IO Folder := do
  let mut folder : Folder := ⟨[]⟩
  for path in paths do
    for p in (Place.start path).along (pathParts path) do
      if let some entry ← look p.path then
        folder := folder.put p entry
  return folder

/-- Shows a piece; what the player typed is on the screen already. -/
def present : Shown → IO Unit
  | .out s => do
    (← IO.getStdout).putStr s
    (← IO.getStdout).flush
  | .err s => IO.eprint s
  | .typed _ => return

/-- Runs a session with the lines typed so far, and on with another line when it waits for one;
the first pieces of it have been shown before. -/
partial def converse (folder : Folder) (invocation : Invocation) (typed : List String)
    (before : Nat) : IO Session := do
  let session := invocation.run folder typed
  if session.ending = .aborted then
    let known := session.shown.dropLast
    (known.drop before).forM present
    let line ← (← IO.getStdin).getLine
    if line.isEmpty then
      session.shown.getLast?.forM present
      return session
    else converse folder invocation (typed ++ Text.lines line) known.length
  else
    (session.shown.drop before).forM present
    return session

/-- Writes the files that a session changed. -/
def writeChanges (before after : Folder) : IO Unit := do
  for (p, content) in after.files do
    if before.entry? p ≠ some (.file content) then
      match content with
      | .text s => IO.FS.writeFile p.path s
      | .binary .. => IO.FS.writeBinFile p.path .empty

end Gamebook.Terminal

open Gamebook.Terminal in
/-- Runs the command of a command line; gives the exit code. -/
def main (words : List String) : IO UInt32 := do
  let invocation := Invocation.ofWords words
  let paths := match invocation with
    | .command c => c.paths
    | _ => []
  let folder ← lookAround paths
  let session ← converse folder invocation [] 0
  writeChanges folder session.folder
  if let .crashed c := session.ending then IO.eprintln c.message
  return session.ending.code.toUInt32
