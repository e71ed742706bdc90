import ChemEmulator.Client.Session

/-!
# The commands of the clients

The coordinator behind the server.  Between a method of a `ChemClient` and the
branch of `requestHandler` that it is for stand `json.dumps`, a stream of bytes
that is cut anywhere, the requests of all other clients and programs, and the
parser.  None of this shows: the state of the emulator is the one in which the
calls leave it if each is a single operation, and each call returns the
response of its operation.

The texts of responses are a parameter; `dump` writes no newline.
-/

namespace Chem
namespace ChemClient

open Coordinator PartialRuns
open TCPServer (Bytes newline)
open Session (handle)

/-- The text of a response. -/
abbrev Writer := Bytes → ℤ → Emulator → Coordinator.Reply → Bytes

variable (d : Emulator.Decoder) (floatText : FloatValue → List Char)
  (outside : ℤ → Outside) (write : Writer)

/-- `Coordinator::requestHandler` on a line. -/
def coordinator : Responder Emulator := fun E _ request now =>
  (Emulator.coordinatorRequestHandler (outside now) E
    ((Emulator.Query.coordinator request (outside now)).parsed d)).map
      fun (reply, E) => (E, write request now E reply)

/-- A call of a client, or a line of another program. -/
inductive Action where
  | call (c : ℕ) (call : Call) (now : ℤ)
  | line (request : Request)

/-- A call is done as a whole, and as it is meant. -/
def act (s : Emulator × History) : Action → Option (Emulator × History)
  | .call c call now =>
      (call.perform (outside now) s.1).map fun (reply, E) =>
        let text := call.text floatText
        (E, s.2 ++ [(c, text, write text now E reply)])
  | .line request => handle (coordinator d outside write) s request

/-- Lines only come from other programs. -/
def Action.Fair (lines : FiniteMap ℕ (LineExchange.Line UInt8)) : Action → Prop
  | .call c _ _ => c ∈ lines
  | .line request => request.connection ∉ lines

/-- The text of a call whose arguments the coordinator can hold, if the parser
makes of it what it says. -/
def IsCall (request : Bytes) : Prop :=
  ∃ call : Call, call.Fits ∧ request = call.text floatText ∧
    d.parse request = call.body.toJson

variable {d floatText outside write}

theorem handle_text (hfloat : ∀ x, ∀ c ∈ floatText x, PythonValue.Printable c)
    {r : Request} {call : Call} (hfits : call.Fits)
    (htext : r.text = call.text floatText)
    (hparse : d.parse r.text = call.body.toJson) (s : Emulator × History) :
    act d floatText outside write s (.call r.connection call r.now) =
      handle (coordinator d outside write) s r := by
  rw [htext] at hparse
  rw [handle, coordinator, htext, Call.parsed_text hfloat _ hparse,
    Call.coordinatorRequestHandler_body _ _ hfits, Option.map_map]
  rfl

theorem map_history {τ : Type*} {respond : Responder τ} {rs : List Request}
    {s t : τ × History} (h : run (handle respond) s rs = some t) :
    t.2.map (fun x => (x.1, x.2.1)) =
      s.2.map (fun x => (x.1, x.2.1)) ++
        rs.map fun r => (r.connection, r.text) := by
  induction rs generalizing s with
  | nil =>
      cases h
      simp
  | cons r rs ih =>
      obtain ⟨u, hstep, htail⟩ := Option.bind_eq_some_iff.mp h
      obtain ⟨⟨app, response⟩, -, rfl⟩ := Option.map_eq_some_iff.mp hstep
      rw [ih htail]
      simp

namespace Session

variable {κ : Type*} [DecidableEq κ] {s : Session Emulator κ}

/-- What the server has handled on the line of a client is a call. -/
theorem isCall_of_handled {P : Bytes → Prop} (hs : s.Sound P) {c : ℕ}
    (hc : c ∈ s.lines) {request : Bytes} (h : (c, request) ∈ s.server.calls) :
    P request := by
  obtain ⟨l, hl⟩ := FiniteMap.mem_iff_lookup.mp hc
  have hfollows := hs.lines c l hl
  refine hfollows.sent request ?_
  have hserved : request ∈ l.served.map Prod.fst := by
    rw [← hfollows.calls]
    exact List.mem_map.mpr ⟨_, List.mem_filter.mpr ⟨h, by simp⟩, rfl⟩
  rcases hfollows.inStep.handled with hsent | ⟨last, hsent⟩
  · rwa [hsent]
  · rw [hsent]
    exact List.mem_append_left _ hserved

theorem acted_of_recorded
    (hfloat : ∀ x, ∀ c ∈ floatText x, PythonValue.Printable c) {E : Emulator}
    {history : History} (hs : s.Sound (IsCall d floatText))
    (h : Recorded (coordinator d outside write) E s history) :
    ∃ actions, (∀ a ∈ actions, a.Fair s.lines) ∧
      run (act d floatText outside write) (E, []) actions =
        some (s.server.app.1, history) := by
  obtain ⟨requests, hrun⟩ := h.handled.run
  have hcalls : s.server.calls =
      requests.map fun r => (r.connection, r.text) := by
    rw [h.handled.calls, map_history hrun]
    rfl
  have hactions : ∀ r ∈ requests, ∃ a : Action, a.Fair s.lines ∧
      ∀ u, act d floatText outside write u a =
        handle (coordinator d outside write) u r := by
    intro r hr
    by_cases hc : r.connection ∈ s.lines
    · have hmem : (r.connection, r.text) ∈ s.server.calls := by
        rw [hcalls]
        exact List.mem_map_of_mem hr
      obtain ⟨call, hfits, htext, hparse⟩ := isCall_of_handled hs hc hmem
      exact ⟨.call r.connection call r.now, hc,
        handle_text hfloat hfits htext hparse⟩
    · exact ⟨.line r, hc, fun _ => rfl⟩
  obtain ⟨actions, hfair, hsame⟩ := exists_run_eq hactions
  exact ⟨actions, hfair, (hsame _).trans hrun⟩

/-- A line of another program comes between two reads of the call. -/
def groundVisit : List (Event ℕ) :=
  [.connect 0 0 "10.0.0.1", .call 0 (Call.groundCall.text Call.groundText),
    .other (.accept 1 "10.0.0.2"), .deliver 0 30 0,
    .other (.read 1 [123, 10] 0), .deliver 0 100 0, .receive 0 50]

/-- Nothing is read from outside, and only failures are told. -/
def groundCoordinator : Responder Emulator :=
  coordinator Call.groundDecoder
    (fun _ => .nothing)
    fun _ _ _ reply => if reply.isFail then [70] else [79]

/-- The model and the coefficient of the intermediate, and what was returned. -/
def groundOutcome (s : Session Emulator ℕ) :
    List (PropagationModel × FloatValue) × List (List Bytes) :=
  (s.server.app.1.controller.intermediateMap.values.map fun I =>
      (I.propagationModel, I.grReflection),
    s.lines.values.map fun l => l.returned.map Prod.snd)

end Session

end ChemClient
end Chem
