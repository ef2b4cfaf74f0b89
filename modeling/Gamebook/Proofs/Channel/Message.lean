import Gamebook.Proofs.Channel.EventStream
import Gamebook.Proofs.Json.Limits

/-!
# Messages as they are read out of their frames

A message is put into its frame as it is, and so is the name that it gives its event.  A reader takes the
frame apart at line ends, so that both must fit into a line.

* `isLine_shown`                : a value is shown on one line.
* `EventStream.length_data_lt`  : a text that does not fit into a line arrives shorter than it was.
* `EventStream.isLine_name`     : the name of every event fits into a line.
* `Carried`                     : a message arrives as one event, with its name and its data.
* `Fits`                        : a message that is read, or is no value, and fits into lines.
* `carried_iff_fits`            : the messages that arrive.
-/

set_option autoImplicit false

namespace Gamebook

/-! ## Values in messages -/

theorem isLine_intercalate {sep : List Char} (hsep : IsLine sep) {parts : List (List Char)}
    (hparts : ∀ part ∈ parts, IsLine part) : IsLine (sep.intercalate parts) := by
  induction parts with
  | nil => exact isLine_nil
  | cons part parts ih =>
    rw [List.forall_mem_cons] at hparts
    cases parts with
    | nil => simpa [List.intercalate] using hparts.1
    | cons next more =>
      rw [List.intercalate_cons_cons, isLine_append, isLine_append]
      exact ⟨⟨hparts.1, hsep⟩, ih hparts.2⟩

theorem isLine_hexDigits (width n : Nat) : IsLine (Text.hexDigits width n) := by
  induction width generalizing n with
  | zero => exact isLine_nil
  | succ width ih =>
    have hdigit : ∀ d < 16, Nat.digitChar d ≠ '\n' ∧ Nat.digitChar d ≠ '\r' := by decide
    rw [Text.hexDigits, isLine_append, isLine_cons]
    exact ⟨ih _, hdigit _ (Nat.mod_lt n (by decide)), isLine_nil⟩

/-- Line ends are escaped in a quoted text. -/
theorem isLine_quotedChar {mark : Char} (hmark : mark ≠ '\n' ∧ mark ≠ '\r') (c : Char) :
    IsLine (Text.quotedChar mark c) := by
  unfold Text.quotedChar
  split
  · rename_i hescaped
    rw [Bool.or_eq_true, beq_iff_eq, beq_iff_eq] at hescaped
    rcases hescaped with rfl | rfl
    · simpa using hmark
    · simp
  split
  · simp
  split
  · simp
  split
  · simp
  split
  · simp_all
  split
  · simp [isLine_hexDigits]
  split
  · simp [isLine_hexDigits]
  · simp [isLine_hexDigits]

theorem isLine_quoted (s : String) : IsLine (Text.quoted s).toList := by
  have hmark : Text.quoteMark s.toList ≠ '\n' ∧ Text.quoteMark s.toList ≠ '\r' := by
    unfold Text.quoteMark
    split <;> decide
  have hbody : IsLine (s.toList.flatMap (Text.quotedChar (Text.quoteMark s.toList))) := by
    intro d hd
    obtain ⟨c, -, hd⟩ := List.mem_flatMap.1 hd
    exact isLine_quotedChar hmark c d hd
  unfold Text.quoted
  simp [hmark, hbody]

namespace Json

theorem isLine_shownNumber (x : Binary64) : IsLine (shownNumber x).toList := by
  cases x with
  | nan => simp [shownNumber]
  | infinite negative => cases negative <;> simp [shownNumber]
  | finite negative units h => exact isLine_of_isNumeral (isNumeral_finiteText negative units)

theorem isLine_bracketed {left right : String} {parts : List String} (hleft : IsLine left.toList)
    (hright : IsLine right.toList) (hparts : ∀ part ∈ parts, IsLine part.toList) :
    IsLine (left ++ ", ".intercalate parts ++ right).toList := by
  have hinside : IsLine (", ".toList.intercalate (parts.map String.toList)) :=
    isLine_intercalate (by simp) (List.forall_mem_map.2 hparts)
  rw [String.toList_append, String.toList_append, String.toList_intercalate, isLine_append, isLine_append]
  exact ⟨⟨hleft, hinside⟩, hright⟩

mutual
theorem isLine_shown : ∀ v : Json, IsLine (shown v).toList
  | .null => by simp [shown]
  | .bool b => by cases b <;> simp [shown]
  | .int n => isLine_of_isNumeral (isNumeral_intText n)
  | .float x => isLine_shownNumber x
  | .str s => isLine_quoted s
  | .arr items => isLine_bracketed (by simp) (by simp) (isLine_shownItems items)
  | .obj fields => isLine_bracketed (by simp) (by simp) (isLine_shownFields fields)

theorem isLine_shownItems : ∀ items : List Json, ∀ part ∈ shownItems items, IsLine part.toList
  | [] => List.forall_mem_nil _
  | v :: rest => List.forall_mem_cons.2 ⟨isLine_shown v, isLine_shownItems rest⟩

theorem isLine_shownFields : ∀ fields : List (String × Json),
    ∀ part ∈ shownFields fields, IsLine part.toList
  | [] => List.forall_mem_nil _
  | (k, v) :: rest => by
    have hfirst : IsLine (Text.quoted k ++ ": " ++ shown v).toList := by
      simp [isLine_quoted, isLine_shown v]
    exact List.forall_mem_cons.2 ⟨hfirst, isLine_shownFields rest⟩
end

theorem intText_ne_empty (n : Int) : intText n ≠ "" := by
  intro h
  have hnil := congrArg String.toList h
  rw [intText_toList, String.toList_empty, List.append_eq_nil_iff, String.toList_eq_nil_iff] at hnil
  have hpos : 0 < (Nat.repr n.natAbs).length := Nat.length_repr_pos
  rw [hnil.2] at hpos
  exact absurd hpos (Nat.lt_irrefl _)

theorem shownNumber_ne_empty (x : Binary64) : shownNumber x ≠ "" := by
  cases x with
  | nan => decide
  | infinite negative => cases negative <;> decide
  | finite negative units hunits =>
    intro h
    have hread := number_finiteText negative hunits bounded_nil
    have hempty : finiteText negative units = "" := h
    rw [hempty] at hread
    cases hread

/-- Every value is shown as something. -/
theorem shown_ne_empty (v : Json) : shown v ≠ "" := by
  cases v with
  | int n => exact intText_ne_empty n
  | float x => exact shownNumber_ne_empty x
  | bool b => cases b <;> decide
  | null => decide
  | str s =>
    intro h
    have hnil := congrArg String.toList h
    simp [shown, Text.quoted] at hnil
  | arr items =>
    intro h
    have hnil := congrArg String.toList h
    simp [shown] at hnil
  | obj fields =>
    intro h
    have hnil := congrArg String.toList h
    simp [shown] at hnil

end Json

/-- The name that a message gives its event fits into a line when it is shown, or is a text that does. -/
theorem isLine_eventName {v : Json}
    (hname : ∀ name, v.get? "event" = some (.str name) → name ≠ "" ∧ IsLine name.toList) :
    eventName v ≠ "" ∧ IsLine (eventName v).toList := by
  unfold eventName
  cases hevent : v.get? "event" with
  | none => exact ⟨by decide, by simp⟩
  | some name =>
    cases name with
    | str name => exact hname name hevent
    | _ => exact ⟨Json.shown_ne_empty _, Json.isLine_shown _⟩

/-! ## Events and the text they come from -/

theorem length_intercalate (parts : List (List Char)) (hne : parts ≠ []) :
    (['\n'].intercalate parts).length + 1 = (parts.map fun part => part.length + 1).sum := by
  induction parts with
  | nil => exact absurd rfl hne
  | cons part parts ih =>
    cases parts with
    | nil => simp [List.intercalate]
    | cons next more =>
      have hmore := ih (List.cons_ne_nil _ _)
      rw [List.intercalate_cons_cons, List.map_cons, List.sum_cons, ← hmore]
      simp only [List.length_append, List.length_singleton]
      omega

namespace EventStream

/-- No line that is read has a line end in it. -/
theorem isLine_of_mem_linesFrom {begun cs : List Char} (hbegun : IsLine begun) :
    ∀ line ∈ linesFrom begun cs, IsLine line := by
  fun_induction linesFrom begun cs with
  | case1 => exact List.forall_mem_nil _
  | case2 begun rest ih => exact List.forall_mem_cons.2 ⟨hbegun, ih isLine_nil⟩
  | case3 begun rest _ ih => exact List.forall_mem_cons.2 ⟨hbegun, ih isLine_nil⟩
  | case4 begun rest ih => exact List.forall_mem_cons.2 ⟨hbegun, ih isLine_nil⟩
  | case5 begun c rest _ hreturn hfeed ih =>
    exact ih ((isLine_append _ _).2 ⟨hbegun, (isLine_cons _ _).2 ⟨⟨hfeed, hreturn⟩, isLine_nil⟩⟩)

/-- A character that ends no line. -/
def isInner (c : Char) : Bool := c != '\n' && c != '\r'

/-- The lines that are read have no more characters than end no line. -/
theorem sum_length_linesFrom (begun cs : List Char) :
    ((linesFrom begun cs).map List.length).sum ≤ begun.length + (cs.filter isInner).length := by
  fun_induction linesFrom begun cs with
  | case1 => exact Nat.zero_le _
  | case2 begun rest ih => simpa [isInner] using ih
  | case3 begun rest _ ih => simpa [isInner] using ih
  | case4 begun rest ih => simpa [isInner] using ih
  | case5 begun c rest _ hreturn hfeed ih =>
    have hinner : isInner c = true := by simpa [isInner] using ⟨hfeed, hreturn⟩
    simp only [List.length_append, List.length_singleton] at ih
    rw [List.filter_cons_of_pos hinner, List.length_cons]
    omega

theorem fieldOf_suffix (line : List Char) : (fieldOf line).2 <:+ line.dropWhile (· != ':') := by
  unfold fieldOf
  dsimp only
  split
  · rename_i heq
    rw [heq]
    exact (List.suffix_cons _ _).trans (List.suffix_cons _ _)
  · rename_i heq
    rw [heq]
    exact List.suffix_cons _ _
  · exact List.nil_suffix

theorem fieldOf_subset (line : List Char) : (fieldOf line).2 ⊆ line :=
  ((fieldOf_suffix line).trans (List.dropWhile_suffix _)).subset

/-- The name of a field and its value have their own characters in the line. -/
theorem length_fieldOf (line : List Char) :
    (fieldOf line).1.length + (fieldOf line).2.length ≤ line.length := by
  have hvalue := (fieldOf_suffix line).length_le
  have hsplit := congrArg List.length (List.takeWhile_append_dropWhile (p := (· != ':')) (l := line))
  rw [List.length_append] at hsplit
  have hname : (fieldOf line).1 = line.takeWhile (· != ':') := rfl
  rw [hname]
  omega

/-- The characters of the data of a block, and one more for each line of them. -/
def Block.size (b : Block) : Nat := (b.data.map fun line => line.length + 1).sum

theorem Block.size_take (b : Block) (line : List Char) : (b.take line).size ≤ b.size + line.length := by
  have hlength := length_fieldOf line
  unfold Block.take
  split
  · exact Nat.le_add_right _ _
  · rename_i value hfield
    rw [hfield] at hlength
    simp only [Block.size, List.map_append, List.sum_append, List.map_cons, List.map_nil, List.sum_cons,
      List.sum_nil, List.length_cons, List.length_nil] at hlength ⊢
    omega
  · exact Nat.le_add_right _ _

theorem Block.event?_eq_some {b : Block} {e : Event} (h : b.event? = some e) :
    e.data.length + 1 = b.size ∧ (e.name = "message" ∨ b.name ≠ [] ∧ e.name = String.ofList b.name) := by
  unfold Block.event? at h
  split at h
  · cases h
  · rename_i hdata
    cases h
    rw [List.isEmpty_iff] at hdata
    refine ⟨?_, ?_⟩
    · rw [String.length_ofList]
      exact length_intercalate b.data hdata
    · dsimp only
      split
      · exact .inl rfl
      · rename_i hname
        exact .inr ⟨fun h => hname (List.isEmpty_iff.2 h), rfl⟩

/-- The data of an event are no longer than the lines they come from. -/
theorem length_data_of_mem {b : Block} {lines : List (List Char)} {e : Event}
    (h : e ∈ eventsFrom b lines) : e.data.length + 1 ≤ b.size + (lines.map List.length).sum := by
  fun_induction eventsFrom b lines with
  | case1 => cases h
  | case2 b rest ih =>
    rw [List.mem_append, Option.mem_toList] at h
    rcases h with h | h
    · rw [(Block.event?_eq_some h).1]
      exact Nat.le_add_right _ _
    · have hlength := ih h
      have hempty : Block.empty.size = 0 := rfl
      simp only [List.map_cons, List.sum_cons, List.length_nil]
      omega
  | case3 b line rest _ ih =>
    have hlength := ih h
    have hsize := b.size_take line
    simp only [List.map_cons, List.sum_cons]
    omega

theorem isLine_name_of_mem {b : Block} {lines : List (List Char)} {e : Event} (hname : IsLine b.name)
    (hlines : ∀ line ∈ lines, IsLine line) (h : e ∈ eventsFrom b lines) :
    e.name ≠ "" ∧ IsLine e.name.toList := by
  fun_induction eventsFrom b lines with
  | case1 => cases h
  | case2 b rest ih =>
    rw [List.forall_mem_cons] at hlines
    rw [List.mem_append, Option.mem_toList] at h
    rcases h with h | h
    · rcases (Block.event?_eq_some h).2 with hmessage | ⟨hne, hgiven⟩
      · rw [hmessage]
        exact ⟨by decide, by simp⟩
      · rw [hgiven, String.toList_ofList]
        exact ⟨by simpa using hne, hname⟩
    · exact ih isLine_nil hlines.2 h
  | case3 b line rest _ ih =>
    rw [List.forall_mem_cons] at hlines
    refine ih ?_ hlines.2 h
    unfold Block.take
    split
    · rename_i value hfield
      have hsubset := fieldOf_subset line
      rw [hfield] at hsubset
      exact hlines.1.of_subset hsubset
    · exact hname
    · exact hname

theorem isLine_name {stream : String} {e : Event} (h : e ∈ read stream) :
    e.name ≠ "" ∧ IsLine e.name.toList :=
  isLine_name_of_mem isLine_nil (isLine_of_mem_linesFrom isLine_nil) h

/-- What does not fit into a line has a first line end. -/
theorem exists_break {cs : List Char} (h : ¬ IsLine cs) :
    ∃ line c rest, cs = line ++ c :: rest ∧ IsLine line ∧ (c = '\n' ∨ c = '\r') := by
  induction cs with
  | nil => exact absurd isLine_nil h
  | cons c cs ih =>
    by_cases hc : c = '\n' ∨ c = '\r'
    · exact ⟨[], c, cs, rfl, isLine_nil, hc⟩
    · have hrest : ¬ IsLine cs := fun hcs => h ((isLine_cons c cs).2 ⟨not_or.1 hc, hcs⟩)
      obtain ⟨line, d, rest, rfl, hline, hd⟩ := ih hrest
      exact ⟨c :: line, d, rest, rfl, (isLine_cons c line).2 ⟨not_or.1 hc, hline⟩, hd⟩

/-- A line end ends the line that has begun; a carriage return takes the line feed behind it along. -/
theorem linesFrom_break {c : Char} (hc : c = '\n' ∨ c = '\r') (begun rest : List Char) :
    ∃ more, linesFrom begun (c :: rest) = begun :: linesFrom [] more ∧ more <:+ rest := by
  rcases hc with rfl | rfl
  · exact ⟨rest, by rw [linesFrom], List.suffix_rfl⟩
  · cases rest with
    | nil => exact ⟨[], rfl, List.suffix_rfl⟩
    | cons d rest =>
      by_cases hd : d = '\n'
      · subst hd
        exact ⟨rest, by rw [linesFrom], List.suffix_cons _ _⟩
      · refine ⟨d :: rest, ?_, List.suffix_rfl⟩
        rw [linesFrom]
        rintro more heq
        cases heq
        exact hd rfl

/-- Data that do not fit into a line arrive shorter than they were. -/
theorem length_data_lt {name data : String} (hname : IsLine name.toList) (hdata : ¬ IsLine data.toList)
    {e : Event} (h : e ∈ read (frameOf name data)) : e.data.length < data.length := by
  obtain ⟨line, c, rest, hsplit, hline, hc⟩ := exists_break hdata
  let first := 'e' :: 'v' :: 'e' :: 'n' :: 't' :: ':' :: ' ' :: name.toList
  let second := 'd' :: 'a' :: 't' :: 'a' :: ':' :: ' ' :: line
  have hchars : (frameOf name data).toList = first ++ '\n' :: (second ++ c :: (rest ++ ['\n', '\n'])) := by
    simp [frameOf, first, second, hsplit]
  have hfirst : IsLine first := by simp [first, hname]
  have hsecond : IsLine second := by simp [second, hline]
  obtain ⟨more, hbreak, hmore⟩ := linesFrom_break hc second (rest ++ ['\n', '\n'])
  have hlines : linesFrom [] (first ++ '\n' :: (second ++ c :: (rest ++ ['\n', '\n']))) =
      first :: second :: linesFrom [] more := by
    rw [linesFrom_line hfirst, linesFrom_append hsecond, List.nil_append, List.nil_append, hbreak]
  have hread : read (frameOf name data) = eventsFrom ⟨name.toList, [line]⟩ (linesFrom [] more) := by
    unfold read
    rw [hchars]
    show eventsFrom .empty (linesFrom [] (first ++ '\n' :: (second ++ c :: (rest ++ ['\n', '\n'])))) = _
    rw [hlines]
    rfl
  rw [hread] at h
  have hlength := length_data_of_mem h
  have hsum := sum_length_linesFrom [] more
  have hinner : (more.filter isInner).length ≤ rest.length := by
    have hfilter := (hmore.filter isInner).length_le
    rw [List.filter_append, List.length_append] at hfilter
    exact hfilter.trans (List.length_filter_le _ _)
  have htotal : data.length = line.length + (rest.length + 1) := by
    rw [← String.length_toList, hsplit, List.length_append, List.length_cons]
  simp only [Block.size, List.map_cons, List.map_nil, List.sum_cons, List.sum_nil, List.length_nil] at hlength hsum
  omega

end EventStream

/-! ## Messages -/

/-- What a reader of the frame of a message is to find: one event, with the name that the message gives it,
and with data that are read as the same value; a message that is no value is the data itself. -/
def Carried (message : String) (events : List EventStream.Event) : Prop :=
  match Json.read message with
  | .ok v => ∃ data, events = [⟨eventName v, data⟩] ∧ Json.read data = .ok v
  | .error _ => events = [⟨"message", message⟩]

/-- A message fits into a frame: it meets no limit of the reader; as a value it gives its event no name
that is empty or has a line end in it; and if it is no value, it has no line end in itself. -/
structure Fits (message : String) : Prop where
  noLimit : ∀ stop, ¬ Json.MeetsLimit message stop
  name : ∀ v name, Json.read message = .ok v → v.get? "event" = some (.str name) →
    name ≠ "" ∧ IsLine name.toList
  text : (∀ v, Json.read message ≠ .ok v) → IsLine message.toList

theorem noLimit_of_ne {message : String}
    (h : ∀ stop, Json.read message ≠ .error (Json.locate message.toList stop)) (stop : Json.Stop) :
    ¬ Json.MeetsLimit message stop := fun hstop => h stop hstop.read_eq

/-- A value arrives when its name does. -/
theorem carried_value {message : String} {v : Json} (hread : Json.read message = .ok v) :
    (∃ frame, eventFrame message = .ok frame ∧ Carried message (EventStream.read frame)) ↔ Fits message := by
  have hframe : eventFrame message = .ok (frameOf (eventName v) v.compact) := by
    unfold eventFrame
    rw [hread]
  unfold Carried
  rw [hread, hframe]
  constructor
  · rintro ⟨frame, hsame, data, hevents, -⟩
    cases hsame
    have hmem : ⟨eventName v, data⟩ ∈ EventStream.read (frameOf (eventName v) v.compact) := by
      rw [hevents]
      exact List.mem_cons_self
    obtain ⟨hne, hline⟩ := EventStream.isLine_name hmem
    refine ⟨noLimit_of_ne fun stop h => ?_, fun w name hw hname => ?_, fun h => absurd hread (h v)⟩
    · rw [hread] at h
      cases h
    · rw [hread] at hw
      cases hw
      have hshown : eventName v = name := by
        unfold eventName
        rw [hname]
        rfl
      rw [hshown] at hne hline
      exact ⟨hne, hline⟩
  · intro hfits
    obtain ⟨hne, hline⟩ := isLine_eventName fun name => hfits.name v name hread
    exact ⟨_, rfl, v.compact, EventStream.read_frameOf hline hne (Json.isLine_compact v),
      Json.read_compact_of_read hread⟩

/-- A text that is no value arrives when it fits into a line. -/
theorem carried_text {message : String} {fault : JsonFault} {position line column : Nat}
    (hread : Json.read message = .error (.syntaxFault fault position line column)) :
    (∃ frame, eventFrame message = .ok frame ∧ Carried message (EventStream.read frame)) ↔ Fits message := by
  have hframe : eventFrame message = .ok (frameOf "message" message) := by
    unfold eventFrame
    rw [hread]
  have hname : IsLine "message".toList := by simp
  unfold Carried
  rw [hread, hframe]
  constructor
  · rintro ⟨frame, hsame, hevents⟩
    cases hsame
    have hline : IsLine message.toList := by
      by_contra hbreak
      have hmem : ⟨"message", message⟩ ∈ EventStream.read (frameOf "message" message) := by
        rw [hevents]
        exact List.mem_cons_self
      exact absurd (EventStream.length_data_lt hname hbreak hmem) (Nat.lt_irrefl _)
    refine ⟨fun stop hstop => ?_, fun v _ hv => ?_, fun _ => hline⟩
    · have hlimit := hstop.isLimit
      rw [hstop.read_eq] at hread
      cases stop with
      | fault => cases hlimit
      | _ => cases hread
    · rw [hread] at hv
      cases hv
  · intro hfits
    have hline := hfits.text fun v hv => by
      rw [hread] at hv
      cases hv
    exact ⟨_, rfl, EventStream.read_frameOf hname (by decide) hline⟩

theorem eventFrame_of_meetsLimit {message : String} {stop : Json.Stop} (h : Json.MeetsLimit message stop) :
    eventFrame message = .error (Json.locate message.toList stop) := by
  have hlimit := h.isLimit
  unfold eventFrame
  rw [h.read_eq]
  cases stop with
  | fault => cases hlimit
  | _ => rfl

/-- Exactly the messages that fit into a frame arrive. -/
theorem carried_iff_fits (message : String) :
    (∃ frame, eventFrame message = .ok frame ∧ Carried message (EventStream.read frame)) ↔ Fits message := by
  rcases Json.read_cases message with ⟨v, hread⟩ | ⟨fault, position, line, column, hread⟩ | ⟨stop, hstop⟩
  · exact carried_value hread
  · exact carried_text hread
  · refine iff_of_false ?_ fun h => h.noLimit stop hstop
    rintro ⟨frame, hframe, -⟩
    rw [eventFrame_of_meetsLimit hstop] at hframe
    cases hframe

/-- Of a text of two lines, the second one is lost. -/
theorem second_line_lost :
    eventFrame "a\nb" = .ok "event: message\ndata: a\nb\n\n" ∧
      EventStream.read "event: message\ndata: a\nb\n\n" = [⟨"message", "a"⟩] ∧
      ¬ ∃ frame, eventFrame "a\nb" = .ok frame ∧ Carried "a\nb" (EventStream.read frame) := by
  have hread : Json.read "a\nb" = .error (.syntaxFault .value 0 1 1) := rfl
  have hframe : eventFrame "a\nb" = .ok "event: message\ndata: a\nb\n\n" := by
    unfold eventFrame
    rw [hread]
    decide
  have hevents : EventStream.read "event: message\ndata: a\nb\n\n" = [⟨"message", "a"⟩] := by decide
  refine ⟨hframe, hevents, ?_⟩
  rintro ⟨frame, hsame, hcarried⟩
  rw [hframe] at hsame
  cases hsame
  unfold Carried at hcarried
  rw [hread, hevents] at hcarried
  revert hcarried
  decide

end Gamebook
