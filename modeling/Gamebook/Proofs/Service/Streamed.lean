import Gamebook.Proofs.Channel.EventStream
import Gamebook.Proofs.Extension.Progress
import Gamebook.Proofs.Service.Repeated

/-!
# An extension as a stream of events

* `ExtensionEvent.message`, `ExtensionEvent.frame` : an event on its channel, and in a stream.
* `eventFrame_message`, `read_frame` : the frame of a message is one event with the message as its data.
* `Streamed`          : an extension that is one stream, from its start to its only end.
* `streamed_iff`      : the extensions that are.
* `unwritable_silent` : one that is announced and never ended.
-/

set_option autoImplicit false

namespace Gamebook

/-! ## Events on their way -/

namespace ExtensionEvent

/-- The text that is published of an event. -/
def message (e : ExtensionEvent) : String := e.toJson.compact

def frame (e : ExtensionEvent) : String := frameOf e.name e.message

/-- The number of an event, if it has one, can be read again. -/
def Short : ExtensionEvent → Prop
  | .progress _ received => (Nat.repr received).length ≤ digitLimit
  | _ => True

variable {e : ExtensionEvent}

theorem proper_detail (h : e.Short) : e.detail.2.Proper := by
  cases e with
  | started id => trivial
  | progress id received => exact h
  | failed id message => trivial
  | complete id newSections =>
    exact (Json.properItems_iff _).2 (List.forall_mem_map.2 fun _ _ => trivial)

theorem isWithin_detail (e : ExtensionEvent) : e.detail.2.isWithin 2 = true := by
  cases e with
  | started id => rfl
  | progress id received => rfl
  | failed id message => rfl
  | complete id newSections =>
    rw [detail, Json.isWithin, Bool.and_eq_true, Json.areItemsWithin_iff]
    exact ⟨rfl, List.forall_mem_map.2 fun _ _ => rfl⟩

theorem proper_toJson (h : e.Short) : e.toJson.Proper := by
  have hkeys : (Table.keys [("event", Json.str e.name), ("section_id", .str e.sectionId),
      e.detail]).Nodup := by
    cases e <;> simp [Table.keys, detail]
  refine Json.proper_obj_iff.2 ⟨hkeys, ?_⟩
  simp only [List.forall_mem_cons]
  exact ⟨trivial, trivial, proper_detail h, List.forall_mem_nil _⟩

theorem isWithin_toJson (e : ExtensionEvent) : e.toJson.isWithin nestingLimit = true := by
  have hlimit : 2 ≤ nestingLimit - 1 := by decide
  rw [toJson, Json.isWithin, Bool.and_eq_true, Json.areFieldsWithin_iff]
  simp only [List.forall_mem_cons]
  exact ⟨rfl, rfl, rfl, Json.isWithin_mono _ hlimit e.isWithin_detail, List.forall_mem_nil _⟩

theorem read_message (h : e.Short) : Json.read e.message = .ok e.toJson :=
  Json.read_write _ (proper_toJson h) e.isWithin_toJson

theorem eventFrame_message (h : e.Short) : eventFrame e.message = .ok e.frame :=
  eventFrame_compact (proper_toJson h) e.isWithin_toJson

theorem endsStream_message (h : e.Short) : endsStream e.message = e.isTerminal := by
  have hname : (e.toJson.get? "event").bind Json.asStr? = some e.name := rfl
  unfold message
  rw [endsStream_compact (proper_toJson h) e.isWithin_toJson, hname, Option.any_some]
  cases e <;> simp [terminalNames, name, isTerminal]

theorem read_frame (e : ExtensionEvent) : EventStream.read e.frame = [⟨e.name, e.message⟩] := by
  refine EventStream.read_frameOf ?_ ?_ (Json.isLine_compact _)
  · cases e <;> simp [name]
  · cases e <;> simp [name]

end ExtensionEvent

namespace Service

open Extension (extendStory Run Delivery Reading IsNear)

/-! ## One stream -/

/-- The events of an extension are one stream: it starts, reports lengths that never fall and are never
more than what is received, and ends with its only terminal event, which tells whether there is an
extended story.  Whatever is published behind it, the stream of the messages has one frame for each
event of the extension, and each frame is read as that event, with the published value as data. -/
structure Streamed (run : Run) (start : String) (received : Nat) : Prop where
  events : ∃ (result : Extension.Result) (lengths : List Nat) (last : ExtensionEvent),
    run.result = .ok result ∧
      run.events = .started start :: lengths.map (.progress start) ++ [last] ∧
      lengths.Pairwise (· ≤ ·) ∧ (∀ n ∈ lengths, n ≤ received) ∧
      last.isTerminal = true ∧ last.sectionId = start ∧
      (last.name = "extension_complete" ↔ ∃ extended, result = .ok extended)
  framed : ∀ more : List String,
    eventStream (run.events.map ExtensionEvent.message ++ more) =
      .ok (run.events.map ExtensionEvent.frame)
  read : ∀ e ∈ run.events, EventStream.read e.frame = [⟨e.name, e.message⟩] ∧
    Json.read e.message = .ok e.toJson

variable {s : Story} {start : String} {delivery : Delivery} {clock : List Reading}

/-- With a result there is one last word, on the section that was to be extended. -/
theorem lastWord_ok (s : Story) (start : String) (result : Extension.Result) :
    ∃ last, lastWord s start (.ok result) = [last] ∧ last.isTerminal = true ∧
      last.sectionId = start ∧
      (last.name = "extension_complete" ↔ ∃ extended, result = .ok extended) := by
  cases result with
  | error failure =>
    refine ⟨_, rfl, rfl, rfl, iff_of_false (by simp [ExtensionEvent.name]) ?_⟩
    rintro ⟨extended, h⟩
    cases h
  | ok extended => exact ⟨_, rfl, rfl, rfl, iff_of_true rfl ⟨extended, rfl⟩⟩

theorem short_of_isTerminal {e : ExtensionEvent} (h : e.isTerminal = true) : e.Short := by
  cases e with
  | progress id received => cases h
  | _ => trivial

/-- What an extension with a result announces. -/
theorem events_of_result {result : Extension.Result}
    (hresult : (extendStory s start delivery clock).result = .ok result) :
    (extendStory s start delivery clock).events =
      .started start :: (delivery.progress clock).lengths.map (.progress start) ++
        lastWord s start (.ok result) := by
  rcases events_extendStory s start delivery clock with ⟨e, hbroken, -⟩ | hevents
  · rw [hresult] at hbroken
    cases hbroken
  · rwa [hresult] at hevents

/-- With a result and smooth reports, the events of an extension are one stream. -/
theorem streamed_of_result {result : Extension.Result}
    (hsmooth : (delivery.progress clock).IsSmooth)
    (hresult : (extendStory s start delivery clock).result = .ok result) :
    Streamed (extendStory s start delivery clock) start delivery.received := by
  obtain ⟨last, hlast, hterminal, hsection, hcomplete⟩ := lastWord_ok s start result
  have hevents := events_of_result hresult
  rw [hlast] at hevents
  have hbefore : ∀ e ∈ ExtensionEvent.started start ::
      (delivery.progress clock).lengths.map (.progress start), e.Short ∧ e.isTerminal = false := by
    rw [List.forall_mem_cons, List.forall_mem_map]
    exact ⟨⟨trivial, rfl⟩, fun n hn => ⟨hsmooth.short n hn, rfl⟩⟩
  have hshort : ∀ e ∈ (extendStory s start delivery clock).events, e.Short := by
    rw [hevents, List.forall_mem_append]
    exact ⟨fun e he => (hbefore e he).1, List.forall_mem_singleton.2 (short_of_isTerminal hterminal)⟩
  constructor
  case events =>
    exact ⟨result, _, last, hresult, hevents, Extension.sorted_progress delivery clock,
      Extension.le_received delivery clock, hterminal, hsection, hcomplete⟩
  case framed =>
    rw [hevents] at hshort ⊢
    refine eventStream_ended (fun e he => e.eventFrame_message (hshort e he)) ?_ ?_
    · intro e he
      rw [ExtensionEvent.endsStream_message (hbefore e he).1, (hbefore e he).2]
    · rw [ExtensionEvent.endsStream_message (short_of_isTerminal hterminal), hterminal]
  case read => exact fun e he => ⟨e.read_frame, ExtensionEvent.read_message (hshort e he)⟩

/-- The lengths that one stream reports can be read again. -/
theorem short_of_streamed {result : Extension.Result} {received : Nat}
    (h : Streamed (extendStory s start delivery clock) start received)
    (hresult : (extendStory s start delivery clock).result = .ok result) :
    ∀ n ∈ (delivery.progress clock).lengths, (Nat.repr n).length ≤ digitLimit := by
  intro n hn
  have hmem : ExtensionEvent.progress start n ∈ (extendStory s start delivery clock).events := by
    rw [events_of_result hresult]
    exact List.mem_append_left _ (List.mem_cons_of_mem _ (List.mem_map_of_mem hn))
  have hproper := Json.proper_of_read (h.read _ hmem).2
  exact (Json.proper_obj_iff.1 hproper).2 _ (.tail _ (.tail _ (.head _)))

/-- For a story that cannot be written there is no request, and no more than the start is announced. -/
theorem unwritable_broken (h : s.isWritable = false) :
    (extendStory s start delivery clock).events = [.started start] ∧
      (extendStory s start delivery clock).result = .error (.prompt (.write .tooDeep)) := by
  unfold extendStory
  rw [Extension.no_request start h]
  exact ⟨rfl, rfl⟩

/-- An extension is one stream exactly when the story can be written and nothing hinders the reports, as
nothing does with readings that can be compared and a text of a length that can be read again.  For a
story that cannot be written there is no result, and no more than the start is announced. -/
theorem streamed_iff {s : Story} (hs : s.Reached) (hnear : IsNear s) (start : String)
    (delivery : Delivery) (clock : List Reading) :
    let run := extendStory s start delivery clock
    let progress := delivery.progress clock
    (Streamed run start delivery.received ↔ s.isWritable = true ∧ progress.IsSmooth) ∧
      ((∀ t ∈ clock, t.Fits) → (Nat.repr delivery.received).length ≤ digitLimit →
        progress.IsSmooth) ∧
      (s.isWritable = false →
        run.events = [.started start] ∧ run.result = .error (.prompt (.write .tooDeep))) := by
  have hiff := Extension.exists_result_iff delivery clock start hs.proper hnear
  refine ⟨⟨fun h => ?_, fun ⟨hwritable, hsmooth⟩ => ?_⟩,
    Extension.isSmooth_progress delivery, unwritable_broken⟩
  · obtain ⟨result, -, -, hresult, -⟩ := h.events
    obtain ⟨hwritable, hfault⟩ := hiff.1 ⟨result, hresult⟩
    exact ⟨hwritable, hfault, short_of_streamed h hresult⟩
  · obtain ⟨result, hresult⟩ := hiff.2 ⟨hwritable, hsmooth.fault⟩
    exact streamed_of_result hsmooth hresult

/-- An answer that is accepted, and reported on its way. -/
theorem streamed_grown :
    let delivery : Delivery := ⟨none, [some Extension.grownAnswer], none⟩
    let clock : List Reading := [.binary (.ofRatio false 0 1), .binary (.ofRatio false 3 4)]
    Story.fresh.Reached ∧ IsNear .fresh ∧
      (delivery.progress clock).lengths = [delivery.received] ∧
      Streamed (extendStory .fresh "1" delivery clock) "1" delivery.received := by
  intro delivery clock
  have hnear : IsNear .fresh := fun n h => nomatch h
  have hfits : ∀ t ∈ clock, t.Fits :=
    List.forall_mem_cons.2 ⟨trivial, List.forall_mem_singleton.2 trivial⟩
  have hreceived : (Nat.repr delivery.received).length ≤ digitLimit := by decide +kernel
  have hlengths : (delivery.progress clock).lengths = [delivery.received] := by decide +kernel
  obtain ⟨hiff, hsmooth, -⟩ := streamed_iff .fresh hnear "1" delivery clock
  exact ⟨.fresh, hnear, hlengths, hiff.2 ⟨rfl, hsmooth hfits hreceived⟩⟩

/-! ## A stream without an end -/

/-- The fresh story with a field that nobody declared. -/
def markedStory (mark : Json) : Story := { Story.fresh with extra := [("mark", mark)] }

def markedDocument (mark : Json) : Table Json :=
  [("sections", .obj [("1", .obj [("id", .str "1"), ("text_lines", .arr [.str ""])])]),
    ("mark", mark)]

theorem ofText_marked {mark : Json} (hproper : mark.Proper)
    (hdepth : mark.isWithin (nestingLimit - 1) = true) :
    Story.ofText (Json.obj (markedDocument mark)).compact = .ok (markedStory mark) := by
  have hobj : (Json.obj (markedDocument mark)).Proper := by
    simp [markedDocument, Json.Proper, Json.ProperFields, Json.ProperItems, hproper]
  have hwithin : (Json.obj (markedDocument mark)).isWithin nestingLimit = true := by
    rw [Json.isWithin, Bool.and_eq_true, Json.areFieldsWithin_iff]
    simp only [markedDocument, List.forall_mem_cons]
    exact ⟨rfl, rfl, hdepth, List.forall_mem_nil _⟩
  exact Story.ofText_of_read (Json.read_write _ hobj hwithin) rfl

/-- A story with a field that is nested too deeply to be written: its extension is announced, and no end
of it. -/
theorem unwritable_silent :
    let s := markedStory (nested 255)
    let delivery : Delivery := ⟨some "down", [], none⟩
    let run := extendStory s "1" delivery []
    s.Reached ∧ IsNear s ∧ run.events = [.started "1"] ∧
      run.result = .error (.prompt (.write .tooDeep)) ∧ ¬ Streamed run "1" delivery.received := by
  intro s delivery run
  have hdepth : (nested 255).isWithin (nestingLimit - 1) = true := by
    rw [isWithin_nested]
    decide
  have hdeep : s.isWritable = false := by
    show [nested 255].all _ = false
    rw [List.all_cons, isWithin_nested]
    decide
  obtain ⟨hevents, hresult⟩ : run.events = [.started "1"] ∧
      run.result = .error (.prompt (.write .tooDeep)) := unwritable_broken hdeep
  refine ⟨.loaded (ofText_marked (proper_nested 255) hdepth), fun n h => (nomatch h), hevents,
    hresult, ?_⟩
  intro h
  obtain ⟨result, -, -, hok, -⟩ := h.events
  rw [hresult] at hok
  cases hok

end Service

end Gamebook
