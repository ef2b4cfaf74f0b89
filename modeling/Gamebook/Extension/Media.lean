import Gamebook.Json.Shown

/-!
# Embedded media

A picture embedded in a document is far longer than the rest of it.  Before the sections go to the
writer each embedded source is replaced by a short token, and in the answer the tokens are replaced
back.

* `Placeholders`        : tokens with the sources they stand for, in the order of the tokens.
* `strip`               : the sections with tokens, and the placeholders.
* `restore`             : a text with the quoted tokens replaced by the quoted sources.
* `restoreIn`           : the same on a value: every text that equals a token becomes its source.

Models `strip_embedded_media` and `restore_embedded_media`.
-/

set_option autoImplicit false

namespace Gamebook.Extension

/-- Tokens with the sources they stand for. -/
abbrev Placeholders := Table String

def token (n : Nat) : String := "embedded-media://" ++ Nat.repr n

def isEmbedded (source : String) : Bool := "data:".toList.isPrefixOf source.toList

/-- The embedded source of a section's media. -/
def embeddedSource? (section_ : Json) : Option String :=
  match (section_.field "media").field "src" with
  | .str source => if isEmbedded source then some source else none
  | _ => none

/-- A section with another source of its media. -/
def withSource (section_ : Json) (source : String) : Json :=
  match section_ with
  | .obj fields =>
    .obj (Table.modify fields "media" fun media =>
      match media with
      | .obj inner => .obj (Table.modify inner "src" fun _ => .str source)
      | other => other)
  | other => other

/-- Replaces embedded sources by tokens numbered from the placeholders there are. -/
def stripFields : List (String × Json) → Placeholders → List (String × Json) × Placeholders
  | [], found => ([], found)
  | (id, section_) :: rest, found =>
    match embeddedSource? section_ with
    | some source =>
      let name := token (found.length + 1)
      let (more, found) := stripFields rest (found ++ [(name, source)])
      ((id, withSource section_ name) :: more, found)
    | none =>
      let (more, found) := stripFields rest found
      ((id, section_) :: more, found)

/-- Sections were expected, but the value is no object. -/
structure NotSections where
  kind : String
  deriving DecidableEq, Repr

def NotSections.message (e : NotSections) : String :=
  "'" ++ e.kind ++ "' object has no attribute 'values'"

/-- The sections with tokens in place of embedded sources. -/
def strip (sections : Json) : Except NotSections (Json × Placeholders) :=
  match sections with
  | .obj fields =>
    let (fields, found) := stripFields fields []
    .ok (.obj fields, found)
  | other => .error ⟨other.kindName⟩

/-! ## Putting the sources back -/

/-- Replaces each occurrence of a text, from the left; the given number of characters belong to an
occurrence already replaced. -/
def replaceChars (old new : List Char) : Nat → List Char → List Char
  | _, [] => []
  | covered + 1, _ :: rest => replaceChars old new covered rest
  | 0, c :: rest =>
    if old.isPrefixOf (c :: rest) then new ++ replaceChars old new (old.length - 1) rest
    else c :: replaceChars old new 0 rest

/-- Replaces each quoted token by its quoted source, one token after another. -/
def restore (text : String) (placeholders : Placeholders) : String :=
  String.ofList (placeholders.foldl (fun cs (name, source) =>
    replaceChars (Json.chars ⟨none, true⟩ 0 (.str name)) (Json.chars ⟨none, true⟩ 0 (.str source)) 0
      cs) text.toList)

mutual
/-- The value with every text that equals a token replaced by its source. -/
def restoreIn (placeholders : Placeholders) : Json → Json
  | .str s => .str ((placeholders.get? s).getD s)
  | .arr items => .arr (restoreItems placeholders items)
  | .obj fields => .obj (restoreFields placeholders fields)
  | v => v

def restoreItems (placeholders : Placeholders) : List Json → List Json
  | [] => []
  | v :: rest => restoreIn placeholders v :: restoreItems placeholders rest

def restoreFields (placeholders : Placeholders) : List (String × Json) → List (String × Json)
  | [] => []
  | (k, v) :: rest => (k, restoreIn placeholders v) :: restoreFields placeholders rest
end

end Gamebook.Extension
