import ChemEmulator.Support.Delimited
import ChemEmulator.Support.FiniteMap
import ChemEmulator.Support.PartialRuns

/-!
# The TCP server

`src/chem/net/tcp_server.cpp`: the event loop of `TCPServer`.  A connection is
armed by `handle_connection`, which stores its remote address in `m_remote_ip`
and starts `async_read_until` with a fresh buffer; every read appends to the
buffer, and once it contains a newline the handler is called with the first
line and the connection is armed again.

`async_read_until` is taken as documented: it appends whole reads and completes
when the buffer contains the delimiter.  The handler is a parameter; it gets
the value that `getRemoteIp` returns while it runs.  Responses are left out.

Arming a connection asks the socket for its remote end, which throws once the
other side has reset the connection.  Nothing catches that, so the server ends;
the runs below are those in which the question is answered.
-/

namespace Chem
namespace TCPServer

open Delimited PartialRuns

abbrev Bytes := List UInt8

/-- `UNTIL`. -/
def newline : UInt8 := 10

structure Connection where
  remote : String
  buffer : Bytes
  closed : Bool
deriving DecidableEq

/-- `app` is what the handler works on.  `armed` and `calls` are not in the
source: the connection that was armed last, and the calls of the handler so
far. -/
structure State (σ : Type*) where
  app : σ
  remoteIp : String
  connections : FiniteMap ℕ Connection
  armed : Option ℕ
  calls : List (ℕ × Bytes)

/-- `close` is a read that ends with an error or at the end of the stream. -/
inductive Event where
  | accept (c : ℕ) (remote : String)
  | read (c : ℕ) (bytes : Bytes) (now : ℤ)
  | close (c : ℕ)

variable {σ : Type*}

namespace State

def start (app : σ) : State σ where
  app := app
  remoteIp := ""
  connections := ∅
  armed := none
  calls := []

/-- `handle_connection` up to the first read. -/
def handleConnection (s : State σ) (c : ℕ) (remote : String) : State σ :=
  { s with
    remoteIp := remote
    connections := s.connections.insert c ⟨remote, [], false⟩
    armed := some c }

/-- What has been read and not been used. -/
def bufferOf (s : State σ) (c : ℕ) : Bytes :=
  ((s.connections.lookup c).map Connection.buffer).getD []

/-- The address of the client. -/
def remoteOf (s : State σ) (c : ℕ) : Option String :=
  (s.connections.lookup c).map Connection.remote

/-- The lines for which the handler was called on a connection. -/
def callsOn (s : State σ) (c : ℕ) : List Bytes :=
  (s.calls.filter fun call => call.1 = c).map Prod.snd

end State

variable (handler : σ → String → Bytes → ℤ → Option σ)

/-- One read on an armed connection. -/
def readStep (s : State σ) (c : ℕ) (conn : Connection) (bytes : Bytes)
    (now : ℤ) : Option (State σ) :=
  let buffer := conn.buffer ++ bytes
  if newline ∈ buffer then
    let request := firstFrame newline buffer
    (handler s.app s.remoteIp request now).map fun app =>
      State.handleConnection
        { s with app := app, calls := s.calls ++ [(c, request)] }
        c conn.remote
  else
    some { s with
      connections := s.connections.insert c { conn with buffer := buffer } }

def step (s : State σ) : Event → Option (State σ)
  | .accept c remote =>
      if c ∈ s.connections then none else some (s.handleConnection c remote)
  | .read c bytes now =>
      match s.connections.lookup c with
      | none => none
      | some conn =>
          if conn.closed then none
          else readStep handler s c conn bytes now
  | .close c =>
      match s.connections.lookup c with
      | none => none
      | some conn =>
          if conn.closed then none
          else some { s with
            connections := s.connections.insert c { conn with closed := true } }

/-! ## Framing -/

/-- The reads of one connection. -/
def readsOf (c : ℕ) (es : List Event) : List Bytes :=
  es.filterMap fun
    | .read c' bytes _ => if c' = c then some bytes else none
    | _ => none

/-- The lines that a connection hands to the handler: after each of them the
buffer is a new one. -/
def serve (buffer : Bytes) : List Bytes → List Bytes
  | [] => []
  | bytes :: reads =>
      if newline ∈ buffer ++ bytes then
        firstFrame newline (buffer ++ bytes) :: serve [] reads
      else serve (buffer ++ bytes) reads

/-- A read that brings a newline brings nothing behind it, unless no further
newline follows. -/
def Aligned : List Bytes → Prop
  | [] => True
  | bytes :: reads =>
      (newline ∈ bytes → afterFrame newline bytes = [] ∨
        newline ∉ afterFrame newline bytes ++ reads.flatten) ∧
      Aligned reads

instance decidableAligned : ∀ reads, Decidable (Aligned reads)
  | [] => isTrue trivial
  | bytes :: reads =>
      have := decidableAligned reads
      inferInstanceAs (Decidable
        ((newline ∈ bytes → afterFrame newline bytes = [] ∨
          newline ∉ afterFrame newline bytes ++ reads.flatten) ∧
        Aligned reads))

theorem serve_of_not_mem {buffer : Bytes} {reads : List Bytes}
    (hbuffer : newline ∉ buffer) (h : newline ∉ reads.flatten) :
    serve buffer reads = [] := by
  induction reads generalizing buffer with
  | nil => rfl
  | cons bytes reads ih =>
      rw [List.flatten_cons, List.mem_append, not_or] at h
      obtain ⟨hbytes, hreads⟩ := h
      have hboth : newline ∉ buffer ++ bytes := by
        simp [hbuffer, hbytes]
      rw [serve, if_neg hboth]
      exact ih hboth hreads

/-- The first call has all bytes of the first line. -/
theorem head_serve {buffer : Bytes} {reads : List Bytes}
    (hbuffer : newline ∉ buffer) (h : newline ∈ reads.flatten) :
    (serve buffer reads).head? =
      some (buffer ++ firstFrame newline reads.flatten) := by
  induction reads generalizing buffer with
  | nil => cases h
  | cons bytes reads ih =>
      rw [serve, List.flatten_cons]
      by_cases hbytes : newline ∈ bytes
      · have hboth : newline ∈ buffer ++ bytes := by simp [hbytes]
        rw [if_pos hboth, List.head?_cons, firstFrame_append hbuffer]
        rw [firstFrame_append_of_mem hbytes]
      · have hboth : newline ∉ buffer ++ bytes := by simp [hbuffer, hbytes]
        have hreads : newline ∈ reads.flatten := by
          simpa [hbytes] using h
        rw [if_neg hboth, ih hboth hreads, firstFrame_append hbytes,
          List.append_assoc]

theorem length_serve_le {buffer : Bytes} {reads : List Bytes}
    (hbuffer : newline ∉ buffer) :
    (serve buffer reads).length ≤ reads.flatten.count newline := by
  induction reads generalizing buffer with
  | nil => exact Nat.le_refl 0
  | cons bytes reads ih =>
      rw [serve, List.flatten_cons, List.count_append]
      by_cases hbytes : newline ∈ bytes
      · have hboth : newline ∈ buffer ++ bytes := by simp [hbytes]
        rw [if_pos hboth, List.length_cons]
        have hcount : 0 < bytes.count newline := List.count_pos_iff.mpr hbytes
        have hrest : (serve [] reads).length ≤ reads.flatten.count newline :=
          ih (by simp)
        omega
      · have hboth : newline ∉ buffer ++ bytes := by simp [hbuffer, hbytes]
        rw [if_neg hboth]
        have hrest := ih hboth
        omega

theorem aligned_of_not_mem {reads : List Bytes}
    (h : newline ∉ reads.flatten) : Aligned reads := by
  induction reads with
  | nil => trivial
  | cons bytes reads ih =>
      rw [List.flatten_cons, List.mem_append, not_or] at h
      exact ⟨fun hbytes => absurd hbytes h.1, ih h.2⟩

/-- Bytes that were read behind a newline are missed as soon as another
newline comes. -/
theorem serve_ne_frames {rest : Bytes} {reads : List Bytes} (hrest : rest ≠ [])
    (h : newline ∈ rest ++ reads.flatten) :
    serve [] reads ≠ frames newline (rest ++ reads.flatten) := by
  intro heq
  by_cases hmem : newline ∈ rest
  · have hle : (serve [] reads).length ≤ reads.flatten.count newline :=
      length_serve_le (by simp)
    have hcount : 0 < rest.count newline := List.count_pos_iff.mpr hmem
    rw [heq, frames, length_framesFrom, List.count_append] at hle
    omega
  · have hreads : newline ∈ reads.flatten := by
      rcases List.mem_append.mp h with hin | hin
      · exact absurd hin hmem
      · exact hin
    have hhead : (serve [] reads).head? = some (firstFrame newline
        reads.flatten) := head_serve (by simp) hreads
    rw [heq, frames_of_mem h, List.head?_cons, firstFrame_append hmem,
      Option.some.injEq] at hhead
    have hlength := congrArg List.length hhead
    rw [List.length_append] at hlength
    exact hrest (List.length_eq_zero_iff.mp (by omega))

/-- The handler gets exactly the lines of the stream when and only when the
reads are aligned. -/
theorem serve_eq_frames_iff {buffer : Bytes} (hbuffer : newline ∉ buffer)
    (reads : List Bytes) :
    serve buffer reads = frames newline (buffer ++ reads.flatten) ↔
      Aligned reads := by
  induction reads generalizing buffer with
  | nil =>
      rw [serve, List.flatten_nil, List.append_nil,
        frames_eq_nil_iff.mpr hbuffer]
      exact ⟨fun _ => trivial, fun _ => rfl⟩
  | cons bytes reads ih =>
      rw [serve, List.flatten_cons, Aligned]
      by_cases hbytes : newline ∈ bytes
      · have hboth : newline ∈ buffer ++ bytes := by simp [hbytes]
        rw [if_pos hboth, ← List.append_assoc, frames,
          framesFrom_of_mem [] hboth, List.nil_append,
          List.cons.injEq, afterFrame_append hbuffer]
        have htail : serve [] reads = frames newline reads.flatten ↔
            Aligned reads := ih (by simp)
        by_cases hnothing : afterFrame newline bytes = []
        · rw [hnothing, List.nil_append, htail]
          exact ⟨fun h => ⟨fun _ => Or.inl rfl, h.2⟩, fun h => ⟨rfl, h.2⟩⟩
        · by_cases hlater :
              newline ∈ afterFrame newline bytes ++ reads.flatten
          · refine ⟨fun h => absurd h.2 (serve_ne_frames hnothing hlater), ?_⟩
            rintro ⟨hkept, -⟩
            rcases hkept hbytes with hempty | hnone
            · exact absurd hempty hnothing
            · exact absurd hlater hnone
          · have hreads : newline ∉ reads.flatten := fun hin =>
              hlater (List.mem_append_right _ hin)
            rw [frames_eq_nil_iff.mpr hlater,
              serve_of_not_mem List.not_mem_nil hreads]
            exact ⟨fun _ => ⟨fun _ => Or.inr hlater,
              aligned_of_not_mem hreads⟩, fun _ => ⟨rfl, rfl⟩⟩
      · have hboth : newline ∉ buffer ++ bytes := by simp [hbuffer, hbytes]
        rw [if_neg hboth, ← List.append_assoc, ih hboth]
        exact ⟨fun h => ⟨fun hin => absurd hin hbytes, h⟩, fun h => h.2⟩

/-! ## What an event does -/

/-- The ways in which an event is handled. -/
inductive Transition (s : State σ) : Event → State σ → Prop
  | accepted {c : ℕ} {remote : String} (hnew : c ∉ s.connections) :
      Transition s (.accept c remote) (s.handleConnection c remote)
  /-- The line is not complete. -/
  | received {c : ℕ} {bytes : Bytes} {now : ℤ} {conn : Connection}
      (hconn : s.connections.lookup c = some conn)
      (hline : newline ∉ conn.buffer ++ bytes) :
      Transition s (.read c bytes now) { s with
        connections := s.connections.insert c
          { conn with buffer := conn.buffer ++ bytes } }
  | served {c : ℕ} {bytes : Bytes} {now : ℤ} {conn : Connection} {app : σ}
      (hconn : s.connections.lookup c = some conn)
      (hline : newline ∈ conn.buffer ++ bytes)
      (happ : handler s.app s.remoteIp
        (firstFrame newline (conn.buffer ++ bytes)) now = some app) :
      Transition s (.read c bytes now)
        (State.handleConnection
          { s with
            app := app
            calls := s.calls ++
              [(c, firstFrame newline (conn.buffer ++ bytes))] }
          c conn.remote)
  | closed {c : ℕ} {conn : Connection}
      (hconn : s.connections.lookup c = some conn) :
      Transition s (.close c) { s with
        connections := s.connections.insert c { conn with closed := true } }

variable {handler} {s t : State σ}

theorem transition_of_step {e : Event} (h : step handler s e = some t) :
    Transition handler s e t := by
  cases e with
  | accept c remote =>
      rw [step] at h
      split at h
      · cases h
      · next hnew =>
        cases h
        exact .accepted hnew
  | read c bytes now =>
      rw [step] at h
      split at h
      · cases h
      · next conn hconn =>
        split at h
        · cases h
        · rw [readStep] at h
          dsimp only at h
          split at h
          · next hline =>
            obtain ⟨app, happ, rfl⟩ := Option.map_eq_some_iff.mp h
            exact .served hconn hline happ
          · next hline =>
            cases h
            exact .received hconn hline
  | close c =>
      rw [step] at h
      split at h
      · cases h
      · next conn hconn =>
        split at h
        · cases h
        · cases h
          exact .closed hconn

/-! ## The last connection that was armed -/

theorem remoteOf_insert {c' : ℕ} {conn : Connection}
    (h : t.connections = s.connections.insert c' conn) (c : ℕ) :
    t.remoteOf c = if c = c' then some conn.remote else s.remoteOf c := by
  by_cases heq : c = c'
  · subst heq
    simp [State.remoteOf, h]
  · simp [State.remoteOf, h, heq]

theorem remoteOf_of_lookup {c : ℕ} {conn : Connection}
    (h : s.connections.lookup c = some conn) :
    s.remoteOf c = some conn.remote := by
  simp [State.remoteOf, h]

/-- A connection keeps its address. -/
theorem remoteOf_transition {e : Event} (h : Transition handler s e t) {c : ℕ}
    (hc : c ∈ s.connections) : t.remoteOf c = s.remoteOf c := by
  cases h with
  | accepted hnew =>
      next c' remote =>
      rw [remoteOf_insert rfl c, if_neg]
      rintro rfl
      exact hnew hc
  | received hconn hline =>
      rw [remoteOf_insert rfl c]
      split
      · next heq =>
        subst heq
        exact (remoteOf_of_lookup hconn).symm
      · rfl
  | served hconn hline happ =>
      rw [remoteOf_insert rfl c]
      split
      · next heq =>
        subst heq
        exact (remoteOf_of_lookup hconn).symm
      · rfl
  | closed hconn =>
      rw [remoteOf_insert rfl c]
      split
      · next heq =>
        subst heq
        exact (remoteOf_of_lookup hconn).symm
      · rfl

/-- Once there is a connection, `m_remote_ip` is the address of the one that
was armed last, and the handler is only called on connections that exist. -/
structure Tracked (s : State σ) : Prop where
  remoteIp : s.connections ≠ ∅ → s.armed.bind s.remoteOf = some s.remoteIp
  armed : ∀ c, s.armed = some c → c ∈ s.connections
  calls : ∀ call ∈ s.calls, call.1 ∈ s.connections

theorem tracked_start (app : σ) : Tracked (.start app : State σ) where
  remoteIp := fun h => absurd rfl h
  armed := by nofun
  calls := by nofun

theorem Tracked.insert (h : Tracked s) {c : ℕ} {conn conn' : Connection}
    (hconn : s.connections.lookup c = some conn)
    (hsame : conn'.remote = conn.remote) :
    Tracked { s with connections := s.connections.insert c conn' } where
  remoteIp := by
    intro _
    have hne : s.connections ≠ ∅ := by
      intro hempty
      rw [hempty] at hconn
      cases hconn
    rw [← h.remoteIp hne]
    refine Option.bind_congr fun a _ => ?_
    rw [remoteOf_insert rfl a]
    split
    · next heq =>
      rw [heq, remoteOf_of_lookup hconn, hsame]
    · rfl
  armed := fun c' hc' => AList.mem_insert _ |>.mpr (Or.inr (h.armed c' hc'))
  calls := fun call hcall =>
    AList.mem_insert _ |>.mpr (Or.inr (h.calls call hcall))

theorem Tracked.handleConnection (h : Tracked s) {app : σ}
    {calls : List (ℕ × Bytes)} (c : ℕ) (remote : String)
    (hcalls : ∀ call ∈ calls, call.1 = c ∨ call ∈ s.calls) :
    Tracked (State.handleConnection { s with app := app, calls := calls } c
      remote) where
  remoteIp := by
    intro _
    change State.remoteOf _ c = some remote
    rw [remoteOf_insert rfl c, if_pos rfl]
  armed := by
    intro c' hc'
    cases hc'
    exact AList.mem_insert _ |>.mpr (Or.inl rfl)
  calls := by
    intro call hcall
    refine AList.mem_insert _ |>.mpr ?_
    rcases hcalls call hcall with heq | hold
    · exact Or.inl heq
    · exact Or.inr (h.calls call hold)

theorem tracked_transition {e : Event} (hs : Tracked s)
    (h : Transition handler s e t) : Tracked t := by
  cases h with
  | accepted hnew =>
      exact hs.handleConnection _ _ fun call hcall => Or.inr hcall
  | received hconn hline => exact hs.insert hconn rfl
  | served hconn hline happ =>
      refine hs.handleConnection _ _ fun call hcall => ?_
      rcases List.mem_append.mp hcall with hold | hnew
      · exact Or.inr hold
      · rw [List.mem_singleton.mp hnew]
        exact Or.inl rfl
  | closed hconn => exact hs.insert hconn rfl

/-! ## The calls of one connection -/

theorem bufferOf_of_lookup {c : ℕ} {conn : Connection}
    (h : s.connections.lookup c = some conn) : s.bufferOf c = conn.buffer := by
  simp [State.bufferOf, h]

theorem bufferOf_insert {c' : ℕ} {conn : Connection}
    (h : t.connections = s.connections.insert c' conn) (c : ℕ) :
    t.bufferOf c = if c = c' then conn.buffer else s.bufferOf c := by
  by_cases heq : c = c'
  · subst heq
    simp [State.bufferOf, h]
  · simp [State.bufferOf, h, heq]

theorem callsOn_append {c' : ℕ} {request : Bytes}
    (h : t.calls = s.calls ++ [(c', request)]) (c : ℕ) :
    t.callsOn c = s.callsOn c ++ if c = c' then [request] else [] := by
  by_cases heq : c = c'
  · subst heq
    simp [State.callsOn, h]
  · simp [State.callsOn, h, heq, Ne.symm heq]

theorem readsOf_read (c c' : ℕ) (bytes : Bytes) (now : ℤ) :
    readsOf c [.read c' bytes now] = if c = c' then [bytes] else [] := by
  by_cases heq : c = c'
  · simp [readsOf, heq]
  · simp [readsOf, heq, Ne.symm heq]

/-- One event serves of the reads of a connection what `serve` serves. -/
theorem serve_transition {e : Event} (h : Transition handler s e t) (c : ℕ)
    (reads : List Bytes) :
    t.callsOn c ++ serve (t.bufferOf c) reads =
      s.callsOn c ++ serve (s.bufferOf c) (readsOf c [e] ++ reads) := by
  cases h with
  | accepted hnew =>
      next c' remote =>
      have hbuffer : (s.handleConnection c' remote).bufferOf c =
          s.bufferOf c := by
        rw [bufferOf_insert rfl c]
        split
        · next heq =>
          subst heq
          simp [State.bufferOf, AList.lookup_eq_none.mpr hnew]
        · rfl
      rw [hbuffer]
      rfl
  | received hconn hline =>
      next c' bytes now conn =>
      rw [bufferOf_insert rfl c, readsOf_read]
      by_cases heq : c = c'
      · subst heq
        rw [if_pos rfl, if_pos rfl, List.singleton_append, serve,
          bufferOf_of_lookup hconn, if_neg hline]
        rfl
      · rw [if_neg heq, if_neg heq]
        rfl
  | served hconn hline happ =>
      next c' bytes now conn app =>
      rw [callsOn_append rfl c, bufferOf_insert rfl c, readsOf_read]
      by_cases heq : c = c'
      · subst heq
        rw [if_pos rfl, if_pos rfl, if_pos rfl, List.singleton_append, serve,
          bufferOf_of_lookup hconn, if_pos hline, List.append_assoc]
        rfl
      · rw [if_neg heq, if_neg heq, if_neg heq, List.append_nil]
        rfl
  | closed hconn =>
      next c' conn =>
      rw [bufferOf_insert rfl c]
      by_cases heq : c = c'
      · subst heq
        rw [if_pos rfl, ← bufferOf_of_lookup hconn]
        rfl
      · rw [if_neg heq]
        rfl

theorem callsOn_run {es : List Event} (h : run (step handler) s es = some t)
    (c : ℕ) :
    t.callsOn c = s.callsOn c ++ serve (s.bufferOf c) (readsOf c es) := by
  induction es generalizing s with
  | nil =>
      cases h
      simp [readsOf, serve]
  | cons e es ih =>
      obtain ⟨u, hstep, htail⟩ := Option.bind_eq_some_iff.mp h
      rw [ih htail, serve_transition (transition_of_step hstep)]
      rw [readsOf, readsOf, ← List.filterMap_append, List.singleton_append,
        readsOf]

/-- In every run of the event loop and on every connection: the handler is
called for exactly the lines of the stream, in order, if and only if the reads
are aligned. -/
theorem calls_eq_lines_iff (app : σ) {es : List Event}
    (h : run (step handler) (.start app) es = some t) (c : ℕ) :
    t.callsOn c = frames newline (readsOf c es).flatten ↔
      Aligned (readsOf c es) := by
  have hcalls : t.callsOn c = serve [] (readsOf c es) := callsOn_run h c
  rw [hcalls, ← serve_eq_frames_iff List.not_mem_nil, List.nil_append]

/-- Two lines that arrive in three reads, none of which goes past the end of
a line. -/
theorem calls_of_aligned_reads :
    ∃ t, run (step fun app _ _ _ => some app) (.start ())
        [.accept 0 "10.0.0.1", .read 0 [97] 0, .read 0 [98, 10] 0,
          .read 0 [99, 10] 0] = some t ∧
      t.callsOn 0 = frames newline [97, 98, 10, 99, 10] := by
  obtain ⟨t, hrun⟩ : ∃ t, run (step fun app _ _ _ => some app) (.start ())
      [.accept 0 "10.0.0.1", .read 0 [97] 0, .read 0 [98, 10] 0,
        .read 0 [99, 10] 0] = some t := ⟨_, rfl⟩
  exact ⟨t, hrun, (calls_eq_lines_iff () hrun 0).mpr (by decide)⟩

/-- Two lines in one read: the second is lost. -/
theorem second_line_lost :
    ¬ ∀ (es : List Event) (t : State Unit),
      run (step fun app _ _ _ => some app) (.start ()) es = some t →
        t.callsOn 0 = frames newline (readsOf 0 es).flatten := by
  intro hall
  obtain ⟨t, hrun⟩ : ∃ t, run (step fun app _ _ _ => some app) (.start ())
      [.accept 0 "10.0.0.1", .read 0 [97, 10, 98, 10] 0] = some t := ⟨_, rfl⟩
  have haligned := (serve_eq_frames_iff List.not_mem_nil _).mp
    ((callsOn_run hrun 0).symm.trans (hall _ t hrun))
  exact absurd haligned (by decide)

end TCPServer
end Chem
