import Gamebook.Channel
import Gamebook.Proofs.Json.Quotes

/-!
# Event streams as they are read

A reader of an event stream takes it line by line.  A line gives a field and its value; an empty line
ends a block, which is an event if it had data.

* `EventStream.linesFrom`       : the lines of a stream, ended by LF, CR or both.
* `EventStream.Block`           : the fields of a block that is not ended yet.
* `EventStream.read`            : the events of a stream.
* `IsLine`                      : characters that end no line.
* `read_frameOf`                : a frame is one event, of its name and its data.
* `isLine_compact`              : the text of a value is one line.
* `eventFrame_compact`, `eventStream_ended` : the frames of messages that are texts of values.
-/

set_option autoImplicit false

namespace Gamebook

namespace EventStream

/-! ## Lines -/

/-- The lines of a stream, the first of which has begun.  What is behind the last line end is no line. -/
def linesFrom (begun : List Char) : List Char → List (List Char)
  | [] => []
  | '\r' :: '\n' :: rest => begun :: linesFrom [] rest
  | '\r' :: rest => begun :: linesFrom [] rest
  | '\n' :: rest => begun :: linesFrom [] rest
  | c :: rest => linesFrom (begun ++ [c]) rest

/-- The name of the field that a line gives, and its value: a blank behind the colon is left aside, and a
line without a colon gives the empty value. -/
def fieldOf (line : List Char) : List Char × List Char :=
  (line.takeWhile (· != ':'),
    match line.dropWhile (· != ':') with
    | _ :: ' ' :: value => value
    | _ :: value => value
    | [] => [])

/-! ## Blocks -/

/-- A block that is not ended yet: the name of its event, and the lines of its data. -/
structure Block where
  name : List Char
  data : List (List Char)
  deriving DecidableEq

/-- A block without fields. -/
def Block.empty : Block := ⟨[], []⟩

/-- The block with one more line; comments and other fields say nothing about the event. -/
def Block.take (b : Block) (line : List Char) : Block :=
  match fieldOf line with
  | (['e', 'v', 'e', 'n', 't'], value) => { b with name := value }
  | (['d', 'a', 't', 'a'], value) => { b with data := b.data ++ [value] }
  | _ => b

/-- An event of a stream. -/
structure Event where
  name : String
  data : String
  deriving DecidableEq, Repr

/-- The event of a block that is ended; a block without data is none. -/
def Block.event? (b : Block) : Option Event :=
  if b.data.isEmpty then none
  else
    some ⟨if b.name.isEmpty then "message" else String.ofList b.name,
      String.ofList (['\n'].intercalate b.data)⟩

/-- The events of lines behind a block that is not ended. -/
def eventsFrom (b : Block) : List (List Char) → List Event
  | [] => []
  | [] :: rest => b.event?.toList ++ eventsFrom .empty rest
  | line :: rest => eventsFrom (b.take line) rest

/-- A stream may begin with a byte order mark. -/
def withoutMark : List Char → List Char
  | '\ufeff' :: cs => cs
  | cs => cs

def read (stream : String) : List Event :=
  eventsFrom .empty (linesFrom [] (withoutMark stream.toList))

end EventStream

/-! ## Texts of one line -/

/-- No character ends a line. -/
def IsLine (cs : List Char) : Prop := ∀ c ∈ cs, c ≠ '\n' ∧ c ≠ '\r'

@[simp] theorem isLine_nil : IsLine [] := List.forall_mem_nil _

@[simp] theorem isLine_cons (c : Char) (cs : List Char) :
    IsLine (c :: cs) ↔ (c ≠ '\n' ∧ c ≠ '\r') ∧ IsLine cs := List.forall_mem_cons

@[simp] theorem isLine_append (cs ds : List Char) : IsLine (cs ++ ds) ↔ IsLine cs ∧ IsLine ds :=
  List.forall_mem_append

theorem IsLine.of_subset {cs ds : List Char} (h : IsLine ds) (hsub : cs ⊆ ds) : IsLine cs :=
  fun c hc => h c (hsub hc)

namespace EventStream

/-- What ends no line belongs to the line that has begun. -/
theorem linesFrom_append {line : List Char} (h : IsLine line) (begun rest : List Char) :
    linesFrom begun (line ++ rest) = linesFrom (begun ++ line) rest := by
  induction line generalizing begun with
  | nil => rw [List.nil_append, List.append_nil]
  | cons c line ih =>
    rw [isLine_cons] at h
    rw [List.cons_append, linesFrom, ih h.2, List.append_assoc, List.singleton_append]
    · rintro more rfl
      exact absurd rfl h.1.2
    · exact h.1.2
    · exact h.1.1

theorem linesFrom_line {line : List Char} (h : IsLine line) (begun rest : List Char) :
    linesFrom begun (line ++ '\n' :: rest) = (begun ++ line) :: linesFrom [] rest := by
  rw [linesFrom_append h, linesFrom]

theorem event?_of_line {name data : List Char} (hne : name ≠ []) :
    Block.event? ⟨name, [data]⟩ = some ⟨String.ofList name, String.ofList data⟩ := by
  have hempty : name.isEmpty = false := List.isEmpty_eq_false_iff.2 hne
  simp [Block.event?, hempty]

theorem read_frameOf {name data : String} (hname : IsLine name.toList) (hne : name ≠ "")
    (hdata : IsLine data.toList) : read (frameOf name data) = [⟨name, data⟩] := by
  let first := 'e' :: 'v' :: 'e' :: 'n' :: 't' :: ':' :: ' ' :: name.toList
  let second := 'd' :: 'a' :: 't' :: 'a' :: ':' :: ' ' :: data.toList
  have hchars : (frameOf name data).toList = first ++ '\n' :: (second ++ '\n' :: ['\n']) := by
    simp [frameOf, first, second]
  have hfirst : IsLine first := by simp [first, hname]
  have hsecond : IsLine second := by simp [second, hdata]
  have hlines : linesFrom [] (first ++ '\n' :: (second ++ '\n' :: ['\n'])) = [first, second, []] := by
    rw [linesFrom_line hfirst, linesFrom_line hsecond]
    rfl
  have hblock : eventsFrom .empty [first, second, []] =
      (Block.event? ⟨name.toList, [data.toList]⟩).toList := List.append_nil _
  unfold read
  rw [hchars]
  show eventsFrom .empty (linesFrom [] (first ++ '\n' :: (second ++ '\n' :: ['\n']))) = _
  rw [hlines, hblock, event?_of_line, String.ofList_toList, String.ofList_toList]
  · rfl
  · rwa [ne_eq, String.toList_eq_nil_iff]

end EventStream

/-! ## The text of a value -/

namespace Json

/-- No number is written with a line end. -/
theorem isLine_of_isNumeral {cs : List Char} (h : IsNumeral cs) : IsLine cs := fun _ hc =>
  ⟨fun hfeed => h.not_mem rfl (hfeed ▸ hc), fun hreturn => h.not_mem rfl (hreturn ▸ hc)⟩

theorem isLine_unitEscape (n : Nat) : IsLine (unitEscape n) := by
  have hdigit : ∀ d < 16, Nat.digitChar d ≠ '\n' ∧ Nat.digitChar d ≠ '\r' := by decide
  have hmod (k : Nat) := hdigit (k % 16) (Nat.mod_lt k (by decide))
  simp [unitEscape, hmod]

/-- Line ends are escaped in a string. -/
theorem isLine_stringChar (asciiOnly : Bool) (c : Char) : IsLine (stringChar asciiOnly c) := by
  refine stringChar_elim (P := IsLine) (fun _ hcontrol => ?_) (fun d hd _ => ?_) isLine_unitEscape
    fun m n => ?_
  · rw [isLine_cons]
    refine ⟨⟨?_, ?_⟩, isLine_nil⟩
    all_goals
      rintro rfl
      exact hcontrol (by decide)
  · have hletters : ∀ d ∈ shortEscapes, d ≠ '\n' ∧ d ≠ '\r' := by simp [shortEscapes]
    rw [isLine_cons, isLine_cons]
    exact ⟨by decide, hletters d hd, isLine_nil⟩
  · rw [isLine_append]
    exact ⟨isLine_unitEscape m, isLine_unitEscape n⟩

theorem isLine_stringChars (asciiOnly : Bool) (s : String) : IsLine (stringChars asciiOnly s) := by
  have hbody : IsLine (s.toList.flatMap (stringChar asciiOnly)) := by
    intro d hd
    obtain ⟨c, -, hd⟩ := List.mem_flatMap.1 hd
    exact isLine_stringChar asciiOnly c d hd
  simp [stringChars, hbody]

mutual
/-- On one line of text there are no line breaks between the items either. -/
theorem isLine_chars (asciiOnly : Bool) (level : Nat) : ∀ v : Json,
    IsLine (chars ⟨none, asciiOnly⟩ level v)
  | .null => by simp [chars]
  | .bool b => by cases b <;> simp [chars]
  | .int n => isLine_of_isNumeral (isNumeral_intText n)
  | .float x => isLine_of_isNumeral (isNumeral_numberText x)
  | .str s => by simp [chars, isLine_stringChars]
  | .arr [] => by simp [chars]
  | .arr (v :: rest) => by
    have hfirst := isLine_chars asciiOnly (level + 1) v
    have hrest := isLine_itemsChars asciiOnly (level + 1) rest
    simp [chars, lineBreak, hfirst, hrest]
  | .obj [] => by simp [chars]
  | .obj ((k, v) :: rest) => by
    have hfirst := isLine_chars asciiOnly (level + 1) v
    have hrest := isLine_fieldsChars asciiOnly (level + 1) rest
    simp [chars, lineBreak, isLine_stringChars, hfirst, hrest]

theorem isLine_itemsChars (asciiOnly : Bool) (level : Nat) : ∀ vs : List Json,
    IsLine (itemsChars ⟨none, asciiOnly⟩ level vs)
  | [] => by simp [itemsChars]
  | v :: rest => by
    have hfirst := isLine_chars asciiOnly level v
    have hrest := isLine_itemsChars asciiOnly level rest
    simp [itemsChars, itemMark, hfirst, hrest]

theorem isLine_fieldsChars (asciiOnly : Bool) (level : Nat) : ∀ fs : List (String × Json),
    IsLine (fieldsChars ⟨none, asciiOnly⟩ level fs)
  | [] => by simp [fieldsChars]
  | (k, v) :: rest => by
    have hfirst := isLine_chars asciiOnly level v
    have hrest := isLine_fieldsChars asciiOnly level rest
    simp [fieldsChars, itemMark, isLine_stringChars, hfirst, hrest]
end

theorem isLine_compact (v : Json) : IsLine v.compact.toList := by
  unfold compact write
  rw [String.toList_ofList]
  exact isLine_chars false 0 v

end Json

/-! ## Messages that are texts of values -/

section Messages

variable {v : Json} (hproper : v.Proper) (hdepth : v.isWithin nestingLimit = true)
include hproper hdepth

/-- The text of a value goes into its frame as it is. -/
theorem eventFrame_compact : eventFrame v.compact = .ok (frameOf (eventName v) v.compact) := by
  unfold eventFrame
  rw [Json.compact, Json.read_write _ hproper hdepth]

theorem endsStream_compact :
    endsStream v.compact = ((v.get? "event").bind Json.asStr?).any terminalNames.contains := by
  unfold endsStream
  rw [Json.compact, Json.read_write _ hproper hdepth]

end Messages

/-- Messages up to one that ends the stream, and only up to it, become frames. -/
theorem eventStream_ended {α : Type} {message frame : α → String} {before : List α} {last : α}
    (hframe : ∀ a ∈ before ++ [last], eventFrame (message a) = .ok (frame a))
    (hbefore : ∀ a ∈ before, endsStream (message a) = false) (hlast : endsStream (message last) = true)
    (more : List String) :
    eventStream ((before ++ [last]).map message ++ more) = .ok ((before ++ [last]).map frame) := by
  induction before with
  | nil =>
    have hok := hframe last List.mem_cons_self
    simp only [List.nil_append, List.map_cons, List.cons_append, eventStream, hok, hlast, bind,
      Except.bind]
    rfl
  | cons a before ih =>
    rw [List.forall_mem_cons] at hbefore
    rw [List.cons_append, List.forall_mem_cons] at hframe
    have hrest := ih hframe.2 hbefore.2
    simp only [List.cons_append, List.map_cons] at hrest ⊢
    simp only [eventStream, hframe.1, hbefore.1, hrest, bind, Except.bind]
    rfl

end Gamebook
