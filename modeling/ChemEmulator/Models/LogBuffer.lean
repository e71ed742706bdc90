import ChemEmulator.Channel.Commands
import ChemEmulator.Support.PartialRuns
import ChemEmulator.Support.RingBuffer

/-!
# The log in memory

`include/chem/logger.hpp`: the third sink of the logger keeps the last messages
in a ring buffer, which any thread may write to, and from which `GET_LOGS`
reports.  The sink has a mutex, so writing and reading come one after the
other.  A message is formatted when it is reported; the formatter is a
parameter.

A report is what `GET_LOGS` takes from the buffer.  Whether it can be told is a
question of its text: `r.dump()` throws at a line that is not UTF-8, which is in
`Coordinator.reportOf` and ends the process, and with it the run.
-/

namespace Chem
namespace Logger

open Coordinator PartialRuns

/-- `log_ringbuffer_capacity`. -/
def ringBufferCapacity : ℕ := 2048

inductive Event (μ : Type*) where
  /-- `sink_it_`. -/
  | log (message : μ)
  /-- `GET_LOGS`, with the request. -/
  | getLogs (request : Json)

variable {μ : Type*} (format : μ → ByteArray)

/-- `ringbuffer_sink::last_formatted`. -/
def lastFormatted (q : RingBuffer μ) (limit : ℕ) : Option (List ByteArray) :=
  (q.last limit).map fun messages => messages.map format

/-- The buffer, and the lines of each report so far. -/
structure State (μ : Type*) where
  buffer : RingBuffer μ
  reports : List (List ByteArray)

def start (blank : μ) : State μ := ⟨.create ringBufferCapacity blank, []⟩

def step (s : State μ) : Event μ → Option (State μ)
  | .log message =>
      (s.buffer.push message).map fun buffer => { s with buffer := buffer }
  | .getLogs request =>
      (lastFormatted format s.buffer (logLimit request)).map fun lines =>
        { s with reports := s.reports ++ [lines] }

/-! ## What is reported -/

/-- How many messages a request is for, at most; zero asks for all. -/
def wanted (request : Json) : ℕ :=
  if 0 < logLimit request then logLimit request else ringBufferCapacity

/-- What is reported if `logged` has been logged before. -/
def expected (logged : List μ) : List (Event μ) → List (List ByteArray)
  | [] => []
  | .log message :: events => expected (logged ++ [message]) events
  | .getLogs request :: events =>
      (logged.drop (logged.length - wanted request)).map format ::
        expected logged events

theorem logLimit_le (request : Json) :
    logLimit request ≤ ringBufferCapacity := by
  unfold logLimit ringBufferCapacity
  split
  next n => omega
  next => decide

/-- What the coordinator reports, if the lines of the log are those of the
buffer. -/
theorem lastFormatted_eq {q : RingBuffer μ} (h : q.Wellformed) (limit : ℕ) :
    lastFormatted format q limit =
      some (Coordinator.lastFormatted (q.contents.map format) limit) := by
  rw [lastFormatted, RingBuffer.last_eq h, Option.map_some,
    Coordinator.lastFormatted, List.length_map, ← List.map_drop]
  split_ifs <;> rfl

theorem lastFormatted_of_recent {logged : List μ} {q : RingBuffer μ}
    (h : q.Recent ringBufferCapacity logged) (request : Json) :
    lastFormatted format q (logLimit request) =
      some ((logged.drop (logged.length - wanted request)).map format) := by
  rw [lastFormatted, h.last, Option.map_some, wanted,
    min_eq_left (logLimit_le request)]

/-- From any state, a run never fails, and reports what is expected. -/
theorem exists_run {logged : List μ} {s : State μ}
    (h : s.buffer.Recent ringBufferCapacity logged) (events : List (Event μ)) :
    ∃ t, run (step format) s events = some t ∧
      t.reports = s.reports ++ expected format logged events := by
  induction events generalizing logged s with
  | nil => exact ⟨s, rfl, (List.append_nil _).symm⟩
  | cons event events ih =>
      cases event with
      | log message =>
          obtain ⟨buffer, hpush, hbuffer⟩ := h.push (by decide) message
          obtain ⟨t, hrun, hreports⟩ :=
            @ih _ { s with buffer := buffer } hbuffer
          refine ⟨t, ?_, hreports⟩
          rw [run, step, hpush]
          exact hrun
      | getLogs request =>
          have hlines := lastFormatted_of_recent format h request
          obtain ⟨t, hrun, hreports⟩ := @ih _ { s with reports :=
            s.reports ++ [(logged.drop (logged.length - wanted request)).map
              format] } h
          refine ⟨t, ?_, ?_⟩
          · rw [run, step, hlines]
            exact hrun
          · rw [hreports, expected, List.append_assoc]
            rfl

/-- Every report has the last messages that were logged before it, as many as
were asked for and as there is room for. -/
theorem reports_run (format : μ → ByteArray) (blank : μ)
    (events : List (Event μ)) :
    (run (step format) (start blank) events).map State.reports =
      some (expected format [] events) := by
  have hstart : (start blank).buffer.Recent ringBufferCapacity [] :=
    RingBuffer.recent_create _ blank
  obtain ⟨t, hrun, hreports⟩ := exists_run format hstart events
  rw [hrun, Option.map_some, hreports]
  rfl

end Logger
end Chem
