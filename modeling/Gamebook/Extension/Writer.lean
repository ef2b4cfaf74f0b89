import Gamebook.Number.Literal

/-!
# What the writer delivers

The writer is a language model that sends its answer in chunks, and may fail.  A clock is read once
before the request and once per chunk; when more than half a second passed since the last report,
the length received so far is reported.

* `Delivery`       : what the writer does: refuse, or send chunks and perhaps fail then.
* `Reading`        : what the clock shows, in seconds.
* `Progress`       : the lengths reported, and what ended the watch over the delivery.
* `WriterReply`    : the text, or an error; with the progress.
* `Delivery.reply` : what a delivery amounts to under the readings of a clock.

Models `call_llm`, and `report_progress` in `extend_story`.
-/

set_option autoImplicit false

namespace Gamebook.Extension

/-- What the writer does.  A chunk may be without text. -/
structure Delivery where
  refusal : Option String
  chunks : List (Option String)
  failure : Option String
  deriving DecidableEq, Repr

/-! ## The clock -/

/-- What a clock shows, in seconds. -/
inductive Reading where
  | whole (n : Int)
  | binary (x : Binary64)
  deriving DecidableEq

/-- A reading as a binary64 number, which a large whole number cannot be. -/
def Reading.toBinary : Reading → Except NumberFault Binary64
  | .whole n => (Binary64.ofInt? n).elim (.error .tooLarge) .ok
  | .binary x => .ok x

/-- Half a second. -/
def reportInterval : Binary64 := .ofRatio false 1 2

/-- More than half a second passed between two readings.  Whole numbers are compared exactly; the
difference to another number is rounded. -/
def Reading.isDue (last now : Reading) : Except NumberFault Bool :=
  match last, now with
  | .whole a, .whole b => .ok (decide (a < b))
  | last, now => do return reportInterval.lt ((← now.toBinary).sub (← last.toBinary))

/-- The next reading of a clock; the last reading repeats, and a clock without readings shows
zero. -/
def nextReading : List Reading → Reading × List Reading
  | [] => (.whole 0, [])
  | [t] => (t, [t])
  | t :: rest => (t, rest)

/-! ## Progress -/

/-- The lengths reported, and what ended the watch over a delivery before its end. -/
structure Progress where
  lengths : List Nat
  fault : Option NumberFault
  deriving DecidableEq

/-- Watches the chunks that come in behind a length received so far. -/
def watch (received : Nat) (last : Reading) (clock : List Reading) :
    List (Option String) → Progress
  | [] => ⟨[], none⟩
  | chunk :: rest =>
    let received := received + (chunk.getD "").length
    let (now, clock) := nextReading clock
    match last.isDue now with
    | .error fault => ⟨[], some fault⟩
    | .ok false => watch received last clock rest
    | .ok true =>
      let progress := watch received now clock rest
      { progress with lengths := received :: progress.lengths }

/-! ## The reply -/

/-- What came of a request. -/
structure WriterReply where
  outcome : Except String String
  progress : Progress

/-- What a text of blanks only is reported as. -/
def emptyResponse : String := "LLM returned an empty response"

/-- The text of a delivery, or an error. -/
def Delivery.outcome (d : Delivery) : Except String String :=
  match d.refusal, d.failure with
  | some error, _ => .error error
  | none, some error => .error error
  | none, none =>
    let text := String.join (d.chunks.map (·.getD ""))
    if text.toList.all Text.isBlank then .error emptyResponse else .ok text

def Delivery.progress (d : Delivery) (clock : List Reading) : Progress :=
  if d.refusal.isSome then ⟨[], none⟩
  else
    let (start, clock) := nextReading clock
    watch 0 start clock d.chunks

def Delivery.reply (d : Delivery) (clock : List Reading) : WriterReply :=
  ⟨d.outcome, d.progress clock⟩

end Gamebook.Extension
