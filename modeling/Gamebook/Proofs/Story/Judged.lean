import Gamebook.Proofs.Json.Limits
import Gamebook.Proofs.Service.Statuses
import Gamebook.Proofs.Terminal.Session

/-!
# Texts that are judged as stories

A text that is no story is to be refused with an error that its readers handle: the terminal reports it, and
the service answers that the stored story cannot be read.  The limits of the reader are other errors, which
nobody handles.

* `Story.Judged`            : loading a text ends in a story, or in an error that is handled.
* `Terminal.Handled`, `Service.Handled` : so does reading a file, and reading a stored story.
* `Story.ofText_of_meetsLimit` : what becomes of a text that meets a limit.
* `Story.numberText_meetsLimit` : texts that do.
* `Story.judged_iff`        : every other text is judged, and no such text is, by whomever it is read.
-/

set_option autoImplicit false

namespace Gamebook

/-- Loading a text ends in a story, or in an error that is handled. -/
def Story.Judged (text : String) : Prop :=
  (∃ s, Story.ofText text = .ok s) ∨ ∃ e, Story.ofText text = .error e ∧ e.isLimit = false

/-- Reading a story out of a file ends in the story, or in a report. -/
def Terminal.Handled (outcome : Except Terminal.Session Story) : Prop :=
  (∃ s, outcome = .ok s) ∨ ∃ session, outcome = .error session ∧ session.ending = .failed

/-- Reading a stored story ends in the story, or in the answer that it cannot be read. -/
def Service.Handled (outcome : Except Service.Failure Story) : Prop :=
  (∃ s, outcome = .ok s) ∨ outcome = .error (.refused .unreadable)

namespace Story

variable {text : String}

/-! ## Loading -/

theorem ofJson_isLimit {v : Json} {e : StoryError} (h : ofJson v = .error e) : e.isLimit = false := by
  unfold ofJson at h
  split at h
  · split at h
    · cases h
    · cases h
      rfl
  · cases h
    rfl

/-- A text that meets a limit is not judged: the limit is reported in its own words. -/
theorem ofText_of_meetsLimit {stop : Json.Stop} (h : Json.MeetsLimit text stop) :
    ofText text = .error (.json (Json.locate text.toList stop)) := by
  unfold ofText
  rw [h.read_eq]

theorem isLimit_of_meetsLimit {stop : Json.Stop} (h : Json.MeetsLimit text stop) :
    (StoryError.json (Json.locate text.toList stop)).isLimit = true := by
  have hlimit := h.isLimit
  cases stop with
  | fault => cases hlimit
  | _ => rfl

/-- A text is judged unless it meets a limit of the reader. -/
theorem judged_of_noLimit (h : ∀ stop, ¬ Json.MeetsLimit text stop) : Judged text := by
  unfold Judged ofText
  rcases Json.read_cases text with ⟨v, hread⟩ | ⟨fault, position, line, column, hread⟩ | ⟨stop, hstop⟩
  · rw [hread]
    dsimp only
    cases hjson : ofJson v with
    | ok s => exact .inl ⟨s, rfl⟩
    | error e => exact .inr ⟨e, rfl, ofJson_isLimit hjson⟩
  · rw [hread]
    exact .inr ⟨_, rfl, rfl⟩
  · exact absurd hstop (h stop)

theorem noLimit_of_judged (h : Judged text) (stop : Json.Stop) : ¬ Json.MeetsLimit text stop := by
  intro hstop
  have hload := ofText_of_meetsLimit hstop
  have hlimit := isLimit_of_meetsLimit hstop
  rcases h with ⟨s, hs⟩ | ⟨e, he, hnot⟩
  · rw [hs] at hload
    cases hload
  · rw [he] at hload
    cases hload
    rw [hlimit] at hnot
    cases hnot

/-! ## Readers -/

theorem judged_of_load_error {e : StoryError} (h : ofText text = .error e) :
    Judged text ↔ e.isLimit = false := by
  constructor
  · rintro (⟨s, hs⟩ | ⟨found, hfound, hlimit⟩)
    · rw [h] at hs
      cases hs
    · rw [h] at hfound
      cases hfound
      exact hlimit
  · exact fun hlimit => .inr ⟨e, h, hlimit⟩

/-- The terminal reports what is wrong with a file, unless it is a limit. -/
theorem handled_file_iff {folder : Terminal.Folder} {file : String} (hfile : folder.read file = .ok text) :
    Terminal.Handled (Terminal.readStory folder file) ↔ Judged text := by
  unfold Terminal.readStory Terminal.Handled
  rw [hfile]
  dsimp only
  cases hload : ofText text with
  | ok s => exact iff_of_true (.inl ⟨s, rfl⟩) (.inl ⟨s, hload⟩)
  | error e =>
    rw [judged_of_load_error hload]
    cases hlimit : e.isLimit with
    | false =>
      refine iff_of_true (.inr ?_) rfl
      cases e with
      | mismatch issues => exact ⟨_, rfl, rfl⟩
      | _ => exact ⟨_, rfl, by rw [hlimit]; rfl⟩
    | true =>
      cases e with
      | json error =>
        refine iff_of_false ?_ (fun h => nomatch h)
        rintro (⟨s, hs⟩ | ⟨session, hsession, hfailed⟩)
        · cases hs
        · dsimp only at hsession
          rw [if_pos hlimit] at hsession
          cases hsession
          cases hfailed
      | _ => cases hlimit

/-- The service answers that a stored story cannot be read, unless it is a limit. -/
theorem handled_stored_iff {server : Service.Server} {key : String} {record : Record}
    (hrecord : server.store.record? key = some record) (htext : record.text = text) :
    Service.Handled ((Service.stored key).run.run server).1 ↔ Judged text := by
  have hstore : server.store.load key = (ofText text).map some := by
    unfold Store.load
    rw [hrecord, ← htext]
  unfold Service.Handled
  cases hload : ofText text with
  | ok s =>
    rw [hload] at hstore
    exact iff_of_true (.inl ⟨s, congrArg Prod.fst (Service.run_stored hstore)⟩) (.inl ⟨s, hload⟩)
  | error e =>
    rw [hload] at hstore
    rw [judged_of_load_error hload, Service.run_stored_of_error hstore, Service.Failure.ofStored]
    cases hlimit : e.isLimit with
    | false => exact iff_of_true (.inr rfl) rfl
    | true =>
      refine iff_of_false ?_ (fun h => by cases h)
      rintro (⟨s, hs⟩ | hrefused)
      · cases hs
      · cases hrefused

/-! ## Long numbers -/

/-- A document with a number in an unknown field. -/
def numberText (digits : List Char) : String :=
  "\x7b\"sections\": \x7b\x7d, \"x\": " ++ String.ofList digits ++ "\x7d"

/-- The number is awaited behind the sections. -/
theorem awaits_number (depth : Nat) (cs : List Char) :
    Json.Awaits (depth + 2) .value ("\x7b\"sections\": \x7b\x7d, \"x\": ".toList ++ cs) (depth + 1)
      (Json.skipGap cs) := by
  have hsections : Json.stringBody ("sections\": \x7b\x7d, \"x\": ".toList ++ cs) =
      .ok ("sections", ": \x7b\x7d, \"x\": ".toList ++ cs) := rfl
  have hnone : Json.Reads (depth + 1) (Json.skipGap (" \x7b\x7d, \"x\": ".toList ++ cs)) (.value (.obj []))
      (", \"x\": ".toList ++ cs) := .emptyObject rfl
  have hx : Json.stringBody ("x\": ".toList ++ cs) = .ok ("x", ": ".toList ++ cs) := rfl
  have hfield : Json.Awaits (depth + 1) .fields (Json.skipGap (" \"x\": ".toList ++ cs)) (depth + 1)
      (Json.skipGap cs) := .field hx rfl (.here _ _)
  exact .object (.laterField hsections rfl hnone rfl hfield)

/-- A document whose number has too many digits meets the limit, whatever its digits are. -/
theorem numberText_meetsLimit {digits : List Char} (hdigits : ∀ d ∈ digits, d.isDigit = true)
    (hzero : digits.head? ≠ some '0') (hlong : digitLimit < digits.length) :
    Json.MeetsLimit (numberText digits) (.digitLimit digits.length) := by
  have hchars : (numberText digits).toList =
      "\x7b\"sections\": \x7b\x7d, \"x\": ".toList ++ (digits ++ ['\x7d']) := by
    unfold numberText
    simp only [String.toList_append, String.toList_ofList, List.append_assoc]
    rfl
  have hgap : Json.skipGap (digits ++ ['\x7d']) = digits ++ ['\x7d'] := by
    cases digits with
    | nil => exact absurd hlong (Nat.not_lt_zero _)
    | cons d digits => exact Json.skipGap_cons (Json.isGap_of_isDigit (hdigits d List.mem_cons_self)) _
  have hend : Json.EndsWhole ['\x7d'] := (Json.bounded_cons (by decide)).endsWhole
  have hawaits := awaits_number 988 (digits ++ ['\x7d'])
  rw [hgap] at hawaits
  unfold Json.MeetsLimit
  rw [hchars]
  exact ⟨_, _, hawaits, .digits _ false hdigits hzero hlong hend⟩

/-- A document whose number has one digit too many. -/
def longNumberText : String := numberText (List.replicate 4301 '1')

theorem longNumberText_meetsLimit : Json.MeetsLimit longNumberText (.digitLimit 4301) := by
  have hlength : (List.replicate 4301 '1').length = 4301 := List.length_replicate
  have hdigits : ∀ d ∈ List.replicate 4301 '1', d.isDigit = true := fun d hd => by
    rw [List.eq_of_mem_replicate hd]
    decide
  have hmeets := numberText_meetsLimit hdigits (by rw [List.head?_replicate]; decide)
    (by rw [hlength]; decide)
  rwa [hlength] at hmeets

theorem noReturn_longNumberText : '\r' ∉ longNumberText.toList := by
  have hdigits : '\r' ∉ List.replicate 4301 '1' := fun h => by
    have hne := List.eq_of_mem_replicate h
    revert hne
    decide
  unfold longNumberText numberText
  simp only [String.toList_append, String.toList_ofList, List.mem_append, not_or]
  exact ⟨⟨by decide, hdigits⟩, by decide⟩

/-! ## Whoever reads the text -/

/-- A text is judged as a story unless it meets a limit of the reader: then the limit is what loading ends in.
So it is for whoever reads it, out of a file or out of a store. -/
theorem judged_iff (text : String) :
    (Judged text ↔ ∀ stop, ¬ Json.MeetsLimit text stop) ∧
    (∀ stop, Json.MeetsLimit text stop →
      ofText text = .error (.json (Json.locate text.toList stop)) ∧
        (StoryError.json (Json.locate text.toList stop)).isLimit = true) ∧
    (∀ folder file, Terminal.Folder.read folder file = .ok text →
      (Terminal.Handled (Terminal.readStory folder file) ↔ ∀ stop, ¬ Json.MeetsLimit text stop)) ∧
    ∀ server key record, Store.record? (Service.Server.store server) key = some record →
      record.text = text → (Service.Handled ((Service.stored key).run.run server).1 ↔
        ∀ stop, ¬ Json.MeetsLimit text stop) := by
  have hjudged : Judged text ↔ ∀ stop, ¬ Json.MeetsLimit text stop :=
    ⟨fun h stop => noLimit_of_judged h stop, judged_of_noLimit⟩
  refine ⟨hjudged, fun stop hstop => ⟨ofText_of_meetsLimit hstop, isLimit_of_meetsLimit hstop⟩, ?_, ?_⟩
  · exact fun folder file hfile => (handled_file_iff hfile).trans hjudged
  · exact fun server key record hrecord htext => (handled_stored_iff hrecord htext).trans hjudged

/-- A document with a number of one digit too many, in a file and in a store. -/
theorem judged_iff_longNumberText :
    let folder : Terminal.Folder := ⟨[(⟨.above 0, ["s"]⟩, .file (.text longNumberText))]⟩
    let server : Service.Server :=
      { Service.Server.start 0 with store := ⟨[("k", ⟨none, longNumberText, 0⟩)]⟩ }
    Json.MeetsLimit longNumberText (.digitLimit 4301) ∧ folder.read "s" = .ok longNumberText ∧
      server.store.record? "k" = some ⟨none, longNumberText, 0⟩ ∧
      ofText longNumberText = .error (.json (.digitLimit 4301)) ∧
      ¬ Terminal.Handled (Terminal.readStory folder "s") ∧
      ¬ Service.Handled ((Service.stored "k").run.run server).1 := by
  intro folder server
  have hlimit := longNumberText_meetsLimit
  have hread : folder.read "s" = .ok longNumberText := Terminal.read_only noReturn_longNumberText
  have hrecord : server.store.record? "k" = some ⟨none, longNumberText, 0⟩ := rfl
  obtain ⟨-, hload, hfile, hstored⟩ := judged_iff longNumberText
  exact ⟨hlimit, hread, hrecord, (hload _ hlimit).1, fun h => (hfile folder "s" hread).1 h _ hlimit,
    fun h => (hstored server "k" _ hrecord rfl).1 h _ hlimit⟩

/-- It is no story, and no error that is handled either. -/
theorem long_number_escapes :
    (¬ ∀ text, Judged text) ∧ ofText longNumberText = .error (.json (.digitLimit 4301)) :=
  ⟨fun h => noLimit_of_judged (h longNumberText) _ longNumberText_meetsLimit,
    ofText_of_meetsLimit longNumberText_meetsLimit⟩

end Story

end Gamebook
