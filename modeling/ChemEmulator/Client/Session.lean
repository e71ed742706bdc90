import ChemEmulator.Client.Requests
import ChemEmulator.Net.TcpServer
import ChemEmulator.Support.LineExchange

/-!
# Clients and the server

Any number of `ChemClient` objects (`utils/pychem.py`) with the `TCPServer` of
the coordinator, and other programs that talk to it.  `_send` writes one line
and reads until a chunk has a newline; when anything raises, it closes the
socket, and the next call connects again.

TCP is taken as two streams of bytes that arrive in order, cut anywhere; after
a client has closed its socket, the server may or may not read what is still
under way.

A response is written from a string that is gone when `async_write` returns.
By then up to 65536 bytes have been handed to the socket, which is taken to
accept them; the rest of a longer response would be read from freed memory.
Such a response has no result here.

The server answers one line of what it has read and drops the rest.  No client
of this kind sends a second line before it has the answer, so nothing is lost.
-/

namespace Chem
namespace ChemClient

open Delimited LineExchange PartialRuns
open TCPServer (Bytes newline)

variable {τ κ : Type*} [DecidableEq κ]

/-- What a request does, and its response. -/
abbrev Responder (τ : Type*) := τ → String → Bytes → ℤ → Option (τ × Bytes)

/-- `default_max_transfer_size` of Boost: what `async_write` hands over before
it returns. -/
def maxTransfer : ℕ := 65536

/-- `m_handler` and the write behind it; the response of the last call stays in
the state.  The newline is written too. -/
def handler (respond : Responder τ) (app : τ × Bytes) (remoteIp : String)
    (request : Bytes) (now : ℤ) : Option (τ × Bytes) :=
  (respond app.1 remoteIp request now).filter fun (_, response) =>
    response.length + 1 ≤ maxTransfer

theorem respond_of_handler {respond : Responder τ} {app app' : τ × Bytes}
    {remoteIp : String} {request : Bytes} {now : ℤ}
    (h : handler respond app remoteIp request now = some app') :
    respond app.1 remoteIp request now = some app' :=
  (Option.filter_eq_some_iff.mp h).1

/-- The server, the connections of the clients, and `self.socket` of each. -/
structure Session (τ κ : Type*) where
  server : TCPServer.State (τ × Bytes)
  lines : FiniteMap ℕ (Line UInt8)
  sockets : FiniteMap κ ℕ

inductive Event (κ : Type*) where
  | connect (k : κ) (c : ℕ) (remote : String)
  /-- `_send` up to `sendall`. -/
  | call (k : κ) (request : Bytes)
  /-- The server reads `n` bytes. -/
  | deliver (c : ℕ) (n : ℕ) (now : ℤ)
  /-- `recv` returns `n` bytes. -/
  | receive (k : κ) (n : ℕ)
  /-- `_send` raises, or `close` is called. -/
  | close (k : κ)
  /-- The server notices that a client has closed its socket. -/
  | eof (c : ℕ)
  /-- An event on a connection of another program. -/
  | other (e : TCPServer.Event)

/-- A line that the server has got as a whole. -/
structure Request where
  connection : ℕ
  remoteIp : String
  text : Bytes
  now : ℤ

/-- The requests that have been handled, with the connection and the response
of each. -/
abbrev History := List (ℕ × Bytes × Bytes)

/-- The part of one connection. -/
def historyOf (c : ℕ) (history : History) : List (Bytes × Bytes) :=
  (history.filter fun x => x.1 = c).map Prod.snd

/-- The connection of an event. -/
def connectionOf : TCPServer.Event → ℕ
  | .accept c _ => c
  | .read c _ _ => c
  | .close c => c

namespace Session

variable (respond : Responder τ)

def start (app : τ) : Session τ κ where
  server := .start (app, [])
  lines := ∅
  sockets := ∅

/-- The connection of a client. -/
def lineOf (s : Session τ κ) (k : κ) : Option (ℕ × Line UInt8) :=
  (s.sockets.lookup k).bind fun c => (s.lines.lookup c).map fun l => (c, l)

def setLine (s : Session τ κ) (c : ℕ) (l : Line UInt8) : Session τ κ :=
  { s with lines := s.lines.insert c l }

def step (s : Session τ κ) : Event κ → Option (Session τ κ)
  | .connect k c remote =>
      if k ∈ s.sockets then none
      else (TCPServer.step (handler respond) s.server (.accept c remote)).map
        fun server => ⟨server, s.lines.insert c .fresh, s.sockets.insert k c⟩
  | .call k request =>
      (s.lineOf k).bind fun (c, l) =>
        if l.phase = .idle then some (s.setLine c (l.send newline request))
        else none
  | .deliver c n now =>
      (s.lines.lookup c).bind fun l =>
        (TCPServer.step (handler respond) s.server
          (.read c (l.up.take n) now)).map fun server =>
            { s with server := server }.setLine c
              (l.read newline n server.app.2)
  | .receive k n =>
      (s.lineOf k).bind fun (c, l) =>
        match l.phase with
        | .waiting request got =>
            some (s.setLine c (l.receive newline request got n))
        | _ => none
  | .close k =>
      (s.lineOf k).map fun (c, l) =>
        { s.setLine c l.close with sockets := s.sockets.erase k }
  | .eof c =>
      (s.lines.lookup c).bind fun l =>
        if l.phase = .closed then
          (TCPServer.step (handler respond) s.server (.close c)).map
            fun server => { s with server := server }
        else none
  | .other e =>
      if connectionOf e ∈ s.lines then none
      else (TCPServer.step (handler respond) s.server e).map
        fun server => { s with server := server }

/-! ## One connection of the server -/

section Server

variable {σ : Type*} {handler : σ → String → Bytes → ℤ → Option σ}
  {s t : TCPServer.State σ}

/-- Nothing happens on the other connections. -/
theorem unchanged_of_ne {e : TCPServer.Event}
    (h : TCPServer.step handler s e = some t) {c : ℕ}
    (hne : c ≠ connectionOf e) :
    t.bufferOf c = s.bufferOf c ∧ t.callsOn c = s.callsOn c := by
  cases TCPServer.transition_of_step h with
  | accepted hnew =>
      exact ⟨(TCPServer.bufferOf_insert rfl c).trans (if_neg hne), rfl⟩
  | received hconn hline =>
      exact ⟨(TCPServer.bufferOf_insert rfl c).trans (if_neg hne), rfl⟩
  | served hconn hline happ =>
      refine ⟨(TCPServer.bufferOf_insert rfl c).trans (if_neg hne), ?_⟩
      exact (TCPServer.callsOn_append rfl c).trans
        ((congrArg (s.callsOn c ++ ·) (if_neg hne)).trans (List.append_nil _))
  | closed hconn =>
      exact ⟨(TCPServer.bufferOf_insert rfl c).trans (if_neg hne), rfl⟩

/-- No connection is forgotten. -/
theorem mem_connections {e : TCPServer.Event}
    (h : TCPServer.step handler s e = some t) {c : ℕ}
    (hc : c ∈ s.connections ∨ ∃ remote, e = .accept c remote) :
    c ∈ t.connections := by
  cases TCPServer.transition_of_step h with
  | accepted hnew =>
      rcases hc with hc | ⟨remote, he⟩
      · exact AList.mem_insert _ |>.mpr (Or.inr hc)
      · cases he
        exact AList.mem_insert _ |>.mpr (Or.inl rfl)
  | received hconn hline =>
      rcases hc with hc | ⟨remote, he⟩
      · exact AList.mem_insert _ |>.mpr (Or.inr hc)
      · cases he
  | served hconn hline happ =>
      rcases hc with hc | ⟨remote, he⟩
      · exact AList.mem_insert _ |>.mpr (Or.inr hc)
      · cases he
  | closed hconn =>
      rcases hc with hc | ⟨remote, he⟩
      · exact AList.mem_insert _ |>.mpr (Or.inr hc)
      · cases he

theorem accept_new {c : ℕ} {remote : String}
    (h : TCPServer.step handler s (.accept c remote) = some t) :
    c ∉ s.connections := by
  cases TCPServer.transition_of_step h with
  | accepted hnew => exact hnew

theorem close_same {c : ℕ} (h : TCPServer.step handler s (.close c) = some t) :
    t.bufferOf c = s.bufferOf c ∧ t.callsOn c = s.callsOn c := by
  cases TCPServer.transition_of_step h with
  | closed hconn =>
      refine ⟨?_, rfl⟩
      rw [TCPServer.bufferOf_insert rfl c, if_pos rfl,
        TCPServer.bufferOf_of_lookup hconn]

/-- A read completes a line, or it does not. -/
theorem read_cases {c : ℕ} {bytes : Bytes} {now : ℤ}
    (h : TCPServer.step handler s (.read c bytes now) = some t) :
    (newline ∉ s.bufferOf c ++ bytes ∧
      t.bufferOf c = s.bufferOf c ++ bytes ∧ t.calls = s.calls ∧
      t.app = s.app) ∨
    (newline ∈ s.bufferOf c ++ bytes ∧ t.bufferOf c = [] ∧
      t.calls = s.calls ++ [(c, firstFrame newline (s.bufferOf c ++ bytes))] ∧
      handler s.app s.remoteIp (firstFrame newline (s.bufferOf c ++ bytes))
        now = some t.app) := by
  cases TCPServer.transition_of_step h with
  | received hconn hline =>
      rw [← TCPServer.bufferOf_of_lookup hconn] at hline
      refine Or.inl ⟨hline, ?_, rfl, rfl⟩
      rw [TCPServer.bufferOf_insert rfl c, if_pos rfl,
        TCPServer.bufferOf_of_lookup hconn]
  | served hconn hline happ =>
      rw [← TCPServer.bufferOf_of_lookup hconn] at hline happ ⊢
      exact Or.inr ⟨hline,
        (TCPServer.bufferOf_insert rfl c).trans (if_pos rfl), rfl, happ⟩

end Server

/-! ## Every connection is in step -/

/-- The server has of a connection what its line says; the requests are of
the kind `P`. -/
structure Follows (P : Bytes → Prop) (server : TCPServer.State (τ × Bytes))
    (c : ℕ) (l : Line UInt8) : Prop where
  inStep : InStep newline l
  buffer : server.bufferOf c = l.buffer
  calls : server.callsOn c = l.served.map Prod.fst
  known : c ∈ server.connections
  sent : ∀ q ∈ l.sent, P q
  served : ∀ x ∈ l.served, newline ∉ x.2

structure Sound (P : Bytes → Prop) (s : Session τ κ) : Prop where
  tracked : TCPServer.Tracked s.server
  lines : FiniteMap.All (Follows P s.server) s.lines
  sockets : FiniteMap.All (fun _ c => ∃ l, s.lines.lookup c = some l ∧
    l.phase ≠ .closed) s.sockets
  apart : ∀ k k' c, s.sockets.lookup k = some c →
    s.sockets.lookup k' = some c → k = k'

theorem sound_start (P : Bytes → Prop) (app : τ) :
    Sound P (start app : Session τ κ) where
  tracked := TCPServer.tracked_start _
  lines := FiniteMap.all_empty
  sockets := FiniteMap.all_empty
  apart k k' c hk := absurd hk (by simp [start])

variable {respond} {P : Bytes → Prop} {s t : Session τ κ}

/-- What the server does elsewhere does not matter to a line. -/
theorem Follows.of_ne {server server' : TCPServer.State (τ × Bytes)}
    {e : TCPServer.Event} {c : ℕ} {l : Line UInt8}
    (h : Follows P server c l)
    (hstep : TCPServer.step (handler respond) server e = some server')
    (hne : c ≠ connectionOf e) : Follows P server' c l := by
  obtain ⟨hbuffer, hcalls⟩ := unchanged_of_ne hstep hne
  exact ⟨h.inStep, hbuffer.trans h.buffer, hcalls.trans h.calls,
    mem_connections hstep (Or.inl h.known), h.sent, h.served⟩

/-- A line is replaced, and its socket stays open. -/
theorem Sound.update (hs : s.Sound P)
    {server : TCPServer.State (τ × Bytes)} {c : ℕ} {l l' : Line UInt8}
    (htracked : TCPServer.Tracked server)
    (hothers : ∀ c' ≠ c, ∀ l, Follows P s.server c' l → Follows P server c' l)
    (hl : s.lines.lookup c = some l) (hfollows : Follows P server c l')
    (hopen : l.phase ≠ .closed → l'.phase ≠ .closed) :
    Sound P ({ s with server := server }.setLine c l') := by
  refine ⟨htracked, ?_, ?_, hs.apart⟩
  · intro c' l₁ hl₁
    by_cases hc : c' = c
    · subst hc
      rw [setLine, AList.lookup_insert] at hl₁
      cases hl₁
      exact hfollows
    · rw [setLine, AList.lookup_insert_ne hc] at hl₁
      exact hothers c' hc l₁ (hs.lines c' l₁ hl₁)
  · intro k c' hk
    obtain ⟨l₁, hl₁, hphase⟩ := hs.sockets k c' hk
    by_cases hc : c' = c
    · subst hc
      cases hl.symm.trans hl₁
      exact ⟨l', AList.lookup_insert _, hopen hphase⟩
    · exact ⟨l₁, (AList.lookup_insert_ne hc).trans hl₁, hphase⟩

theorem lineOf_eq_some {k : κ} {c : ℕ} {l : Line UInt8}
    (h : s.lineOf k = some (c, l)) :
    s.sockets.lookup k = some c ∧ s.lines.lookup c = some l := by
  obtain ⟨c', hc', hl⟩ := Option.bind_eq_some_iff.mp h
  obtain ⟨l', hl', hpair⟩ := Option.map_eq_some_iff.mp hl
  cases hpair
  exact ⟨hc', hl'⟩

/-- A new connection. -/
theorem Sound.connect (hs : s.Sound P) {k : κ} {c : ℕ} {remote : String}
    {server : TCPServer.State (τ × Bytes)} (hk : k ∉ s.sockets)
    (h : TCPServer.step (handler respond) s.server (.accept c remote) =
      some server) :
    Sound P ⟨server, s.lines.insert c .fresh, s.sockets.insert k c⟩ := by
  have hnew : c ∉ s.server.connections := accept_new h
  have hmissing : s.lines.lookup c = none := by
    cases hl : s.lines.lookup c with
    | none => rfl
    | some l => exact absurd (hs.lines c l hl).known hnew
  have hunused : ∀ k', s.sockets.lookup k' ≠ some c := by
    intro k' hk'
    obtain ⟨l, hl, -⟩ := hs.sockets k' c hk'
    cases hmissing.symm.trans hl
  refine ⟨TCPServer.tracked_transition hs.tracked
    (TCPServer.transition_of_step h), ?_, ?_, ?_⟩
  · intro c' l hl
    by_cases hc : c' = c
    · subst hc
      rw [AList.lookup_insert] at hl
      cases hl
      refine ⟨inStep_fresh, ?_, ?_, mem_connections h (Or.inr ⟨remote, rfl⟩),
        fun _ hq => (by cases hq), fun _ hx => (by cases hx)⟩
      · cases TCPServer.transition_of_step h with
        | accepted _ =>
            exact (TCPServer.bufferOf_insert rfl c').trans (if_pos rfl)
      · have hnone : s.server.callsOn c' = [] := by
          rw [TCPServer.State.callsOn, List.map_eq_nil_iff,
            List.filter_eq_nil_iff]
          intro call hcall hc'
          rw [decide_eq_true_eq] at hc'
          exact hnew (hc' ▸ hs.tracked.calls call hcall)
        cases TCPServer.transition_of_step h with
        | accepted _ => exact hnone
    · rw [AList.lookup_insert_ne hc] at hl
      exact (hs.lines c' l hl).of_ne h hc
  · intro k' c' hk'
    by_cases hkk : k' = k
    · subst hkk
      rw [AList.lookup_insert] at hk'
      cases hk'
      exact ⟨.fresh, AList.lookup_insert _, fun h => by cases h⟩
    · rw [AList.lookup_insert_ne hkk] at hk'
      obtain ⟨l, hl, hphase⟩ := hs.sockets k' c' hk'
      have hc : c' ≠ c := by
        rintro rfl
        exact hunused k' hk'
      exact ⟨l, (AList.lookup_insert_ne hc).trans hl, hphase⟩
  · intro k₁ k₂ c' h₁ h₂
    by_cases hk₁ : k₁ = k
    · subst hk₁
      by_cases hk₂ : k₂ = k₁
      · exact hk₂.symm
      · rw [AList.lookup_insert] at h₁
        cases h₁
        rw [AList.lookup_insert_ne hk₂] at h₂
        exact absurd h₂ (hunused k₂)
    · rw [AList.lookup_insert_ne hk₁] at h₁
      by_cases hk₂ : k₂ = k
      · subst hk₂
        rw [AList.lookup_insert] at h₂
        cases h₂
        exact absurd h₁ (hunused k₁)
      · rw [AList.lookup_insert_ne hk₂] at h₂
        exact hs.apart k₁ k₂ c' h₁ h₂

/-- The client closes its socket. -/
theorem Sound.close (hs : s.Sound P) {k : κ} {c : ℕ} {l : Line UInt8}
    (hk : s.sockets.lookup k = some c) (hl : s.lines.lookup c = some l) :
    Sound P { s.setLine c l.close with sockets := s.sockets.erase k } := by
  have hfollows := hs.lines c l hl
  obtain ⟨l', hl', hphase⟩ := hs.sockets k c hk
  cases hl.symm.trans hl'
  refine ⟨hs.tracked, hs.lines.insert ⟨hfollows.inStep.close hphase,
    hfollows.buffer, hfollows.calls, hfollows.known, hfollows.sent,
    hfollows.served⟩, ?_, ?_⟩
  · intro k' c' hk'
    have hne : k' ≠ k := by
      rintro rfl
      simp at hk'
    rw [AList.lookup_erase_ne hne] at hk'
    obtain ⟨l', hl', hphase'⟩ := hs.sockets k' c' hk'
    have hc : c' ≠ c := by
      rintro rfl
      exact hne (hs.apart k' k c' hk' hk)
    exact ⟨l', (AList.lookup_insert_ne hc).trans hl', hphase'⟩
  · intro k₁ k₂ c' h₁ h₂
    have hlookup : ∀ k', (s.sockets.erase k).lookup k' = some c' →
        s.sockets.lookup k' = some c' := by
      intro k' hk'
      by_cases hkk : k' = k
      · subst hkk
        simp at hk'
      · rwa [AList.lookup_erase_ne hkk] at hk'
    exact hs.apart k₁ k₂ c' (hlookup k₁ h₁) (hlookup k₂ h₂)

/-- The request of a call is of the kind `P`. -/
def Event.Sends (P : Bytes → Prop) : Event κ → Prop
  | .call _ request => P request
  | _ => True

/-- No response has a newline in it. -/
def SingleLine (respond : Responder τ) : Prop :=
  ∀ app remoteIp request now app' response,
    respond app remoteIp request now = some (app', response) →
      newline ∉ response

/-- The server reads what is under way. -/
theorem Sound.deliver (hs : s.Sound P) (hP : ∀ q, P q → newline ∉ q)
    (hrespond : SingleLine respond) {c n : ℕ} {now : ℤ} {l : Line UInt8}
    {server : TCPServer.State (τ × Bytes)}
    (hl : s.lines.lookup c = some l)
    (h : TCPServer.step (handler respond) s.server
      (.read c (l.up.take n) now) = some server) :
    Sound P ({ s with server := server }.setLine c
      (l.read newline n server.app.2)) := by
  have hfollows := hs.lines c l hl
  refine hs.update (TCPServer.tracked_transition hs.tracked
    (TCPServer.transition_of_step h)) (fun c' hc l' hl' => hl'.of_ne h hc)
    hl ?_ ?_
  · have hknown := mem_connections h (Or.inl hfollows.known)
    have hstep := hfollows.inStep.read
      (fun q hq => hP q (hfollows.sent q hq)) n server.app.2
    have hcases := read_cases h
    rw [hfollows.buffer] at hcases
    rcases hcases with ⟨hline, hbuffer, hcalls, -⟩ |
      ⟨hline, hbuffer, hcalls, happ⟩
    · rw [Line.read, if_neg hline] at hstep ⊢
      refine ⟨hstep, hbuffer, ?_, hknown, hfollows.sent, hfollows.served⟩
      rw [TCPServer.State.callsOn, hcalls]
      exact hfollows.calls
    · rw [Line.read, if_pos hline] at hstep ⊢
      refine ⟨hstep, hbuffer, ?_, hknown, hfollows.sent, ?_⟩
      · rw [TCPServer.callsOn_append hcalls c, if_pos rfl, hfollows.calls,
          List.map_append]
        rfl
      · intro x hx
        rcases List.mem_append.mp hx with hx | hx
        · exact hfollows.served x hx
        · rw [List.mem_singleton.mp hx]
          exact hrespond _ _ _ _ _ _ (respond_of_handler happ)
  · intro hphase
    rw [Line.read]
    split_ifs <;> exact hphase

theorem sound_step (hP : ∀ q, P q → newline ∉ q)
    (hrespond : SingleLine respond) {e : Event κ} (hs : s.Sound P)
    (hsends : Event.Sends P e) (h : s.step respond e = some t) :
    t.Sound P := by
  cases e with
  | connect k c remote =>
      rw [step] at h
      split_ifs at h with hk
      obtain ⟨server, hserver, rfl⟩ := Option.map_eq_some_iff.mp h
      exact hs.connect hk hserver
  | call k request =>
      obtain ⟨⟨c, l⟩, hline, h⟩ := Option.bind_eq_some_iff.mp h
      dsimp only at h
      split_ifs at h with hidle
      cases h
      obtain ⟨-, hl⟩ := lineOf_eq_some hline
      have hfollows := hs.lines c l hl
      refine hs.update hs.tracked (fun _ _ _ h => h) hl
        ⟨hfollows.inStep.send hidle request, hfollows.buffer, hfollows.calls,
          hfollows.known, ?_, hfollows.served⟩ (fun _ h => by cases h)
      intro q hq
      rcases List.mem_append.mp hq with hq | hq
      · exact hfollows.sent q hq
      · rw [List.mem_singleton.mp hq]
        exact hsends
  | deliver c n now =>
      obtain ⟨l, hl, h⟩ := Option.bind_eq_some_iff.mp h
      obtain ⟨server, hserver, rfl⟩ := Option.map_eq_some_iff.mp h
      exact hs.deliver hP hrespond hl hserver
  | receive k n =>
      obtain ⟨⟨c, l⟩, hline, h⟩ := Option.bind_eq_some_iff.mp h
      dsimp only at h
      split at h
      · next request got hphase =>
        cases h
        obtain ⟨-, hl⟩ := lineOf_eq_some hline
        have hfollows := hs.lines c l hl
        have hstep := hfollows.inStep.receive hphase hfollows.served n
        have hserved : (l.receive newline request got n).served = l.served ∧
            (l.receive newline request got n).sent = l.sent ∧
            (l.receive newline request got n).buffer = l.buffer ∧
            (l.receive newline request got n).phase ≠ .closed := by
          rw [Line.receive]
          split_ifs <;> exact ⟨rfl, rfl, rfl, fun h => by cases h⟩
        obtain ⟨hserved, hsent, hbuffer, hopen⟩ := hserved
        refine hs.update hs.tracked (fun _ _ _ h => h) hl
          ⟨hstep, hfollows.buffer.trans hbuffer.symm, ?_, hfollows.known, ?_,
            ?_⟩ (fun _ => hopen)
        · rw [hserved]
          exact hfollows.calls
        · rw [hsent]
          exact hfollows.sent
        · rw [hserved]
          exact hfollows.served
      · cases h
  | close k =>
      obtain ⟨⟨c, l⟩, hline, rfl⟩ := Option.map_eq_some_iff.mp h
      obtain ⟨hk, hl⟩ := lineOf_eq_some hline
      exact hs.close hk hl
  | eof c =>
      obtain ⟨l, hl, h⟩ := Option.bind_eq_some_iff.mp h
      split_ifs at h
      obtain ⟨server, hserver, rfl⟩ := Option.map_eq_some_iff.mp h
      refine ⟨TCPServer.tracked_transition hs.tracked
        (TCPServer.transition_of_step hserver), ?_, hs.sockets, hs.apart⟩
      intro c' l' hl'
      have hfollows := hs.lines c' l' hl'
      by_cases hc : c' = c
      · subst hc
        obtain ⟨hbuffer, hcalls⟩ := close_same hserver
        exact ⟨hfollows.inStep, hbuffer.trans hfollows.buffer,
          hcalls.trans hfollows.calls,
          mem_connections hserver (Or.inl hfollows.known), hfollows.sent,
          hfollows.served⟩
      · exact hfollows.of_ne hserver hc
  | other e =>
      rw [step] at h
      split_ifs at h with hother
      obtain ⟨server, hserver, rfl⟩ := Option.map_eq_some_iff.mp h
      refine ⟨TCPServer.tracked_transition hs.tracked
        (TCPServer.transition_of_step hserver), ?_, hs.sockets, hs.apart⟩
      intro c l hl
      refine (hs.lines c l hl).of_ne hserver ?_
      rintro rfl
      exact hother (FiniteMap.mem_iff_lookup.mpr ⟨l, hl⟩)

/-! ## One request after the other -/

variable (respond) in
/-- A request as a whole. -/
def handle (s : τ × History) (r : Request) : Option (τ × History) :=
  (respond s.1 r.remoteIp r.text r.now).map fun (app, response) =>
    (app, s.2 ++ [(r.connection, r.text, response)])

variable (respond) in
/-- The server is where the requests of the history lead, one after the
other. -/
structure Handled (app : τ) (server : TCPServer.State (τ × Bytes))
    (history : History) : Prop where
  run : ∃ requests,
    run (handle respond) (app, []) requests = some (server.app.1, history)
  calls : server.calls = history.map fun x => (x.1, x.2.1)

theorem handled_start (app : τ) :
    Handled respond app (.start (app, [])) [] where
  run := ⟨[], rfl⟩
  calls := rfl

section Handled

variable {app : τ} {server server' : TCPServer.State (τ × Bytes)}
  {history : History}

theorem Handled.of_eq (h : Handled respond app server history)
    (hcalls : server'.calls = server.calls) (happ : server'.app = server.app) :
    Handled respond app server' history where
  run := happ ▸ h.run
  calls := hcalls.trans h.calls

theorem Handled.serve (h : Handled respond app server history) {c : ℕ}
    {request : Bytes} {now : ℤ}
    (hcalls : server'.calls = server.calls ++ [(c, request)])
    (happ : handler respond server.app server.remoteIp request now =
      some server'.app) :
    Handled respond app server' (history ++ [(c, request, server'.app.2)]) where
  run := by
    obtain ⟨requests, hrun⟩ := h.run
    refine ⟨requests ++ [⟨c, server.remoteIp, request, now⟩], ?_⟩
    rw [run_concat, hrun, Option.bind_some, handle]
    exact congrArg (Option.map _) (respond_of_handler happ)
  calls := by
    rw [hcalls, h.calls, List.map_append]
    rfl

/-- Every event of the server handles at most one request. -/
theorem Handled.step (h : Handled respond app server history)
    {e : TCPServer.Event}
    (hstep : TCPServer.step (handler respond) server e = some server') :
    ∃ later, Handled respond app server' (history ++ later) ∧
      ∀ x ∈ later, x.1 = connectionOf e := by
  cases TCPServer.transition_of_step hstep with
  | accepted hnew =>
      exact ⟨[], by rw [List.append_nil]; exact h.of_eq rfl rfl, nofun⟩
  | received hconn hline =>
      exact ⟨[], by rw [List.append_nil]; exact h.of_eq rfl rfl, nofun⟩
  | served hconn hline happ =>
      refine ⟨_, h.serve rfl happ, ?_⟩
      intro x hx
      rw [List.mem_singleton.mp hx]
      rfl
  | closed hconn =>
      exact ⟨[], by rw [List.append_nil]; exact h.of_eq rfl rfl, nofun⟩

end Handled

theorem historyOf_append_of_ne {c : ℕ} {history later : History}
    (h : ∀ x ∈ later, x.1 ≠ c) :
    historyOf c (history ++ later) = historyOf c history := by
  have hnone : later.filter (fun x => decide (x.1 = c)) = [] := by
    rw [List.filter_eq_nil_iff]
    intro x hx
    simpa using h x hx
  rw [historyOf, historyOf, List.filter_append, hnone, List.append_nil]

theorem historyOf_concat (c : ℕ) (history : History) (x : Bytes × Bytes) :
    historyOf c (history ++ [(c, x)]) = historyOf c history ++ [x] := by
  simp [historyOf]

variable (respond) in
/-- Each line has its part of one history. -/
structure Recorded (app : τ) (s : Session τ κ) (history : History) : Prop where
  handled : Handled respond app s.server history
  served : FiniteMap.All (fun c l => l.served = historyOf c history) s.lines

theorem Handled.historyOf_eq_nil {app : τ}
    {server : TCPServer.State (τ × Bytes)} {history : History}
    (h : Handled respond app server history) {c : ℕ}
    (hnone : ∀ call ∈ server.calls, call.1 ≠ c) : historyOf c history = [] := by
  rw [h.calls, List.forall_mem_map] at hnone
  have hrest : historyOf c ([] ++ history) = historyOf c [] :=
    historyOf_append_of_ne hnone
  exact hrest

omit [DecidableEq κ] in
/-- What a line was served stays what it is, except for the line that is
replaced. -/
theorem served_setLine {server : TCPServer.State (τ × Bytes)} {c : ℕ}
    {l' : Line UInt8} {history history' : History}
    (h : FiniteMap.All (fun c l => l.served = historyOf c history) s.lines)
    (hothers : ∀ c' ≠ c, historyOf c' history' = historyOf c' history)
    (hl' : l'.served = historyOf c history') :
    FiniteMap.All (fun c l => l.served = historyOf c history')
      ({ s with server := server }.setLine c l').lines := by
  intro c' l₁ hl₁
  by_cases hc : c' = c
  · subst hc
    rw [setLine, AList.lookup_insert] at hl₁
    cases hl₁
    exact hl'
  · rw [setLine, AList.lookup_insert_ne hc] at hl₁
    rw [hothers c' hc]
    exact h c' l₁ hl₁

theorem Recorded.deliver {app : τ} {history : History}
    (h : Recorded respond app s history) (hs : s.Sound P) {c n : ℕ} {now : ℤ}
    {l : Line UInt8} {server : TCPServer.State (τ × Bytes)}
    (hl : s.lines.lookup c = some l)
    (hread : TCPServer.step (handler respond) s.server
      (.read c (l.up.take n) now) = some server) :
    ∃ later, Recorded respond app
      ({ s with server := server }.setLine c (l.read newline n server.app.2))
      (history ++ later) := by
  have hcases := read_cases hread
  rw [(hs.lines c l hl).buffer] at hcases
  rcases hcases with ⟨hline, -, hcalls, happ⟩ | ⟨hline, -, hcalls, happ⟩
  · refine ⟨[], ?_, served_setLine h.served (fun c' _ => ?_) ?_⟩
    · rw [List.append_nil]
      exact h.handled.of_eq hcalls happ
    · rw [List.append_nil]
    · rw [List.append_nil, Line.read, if_neg hline]
      exact h.served c l hl
  · refine ⟨_, h.handled.serve hcalls happ,
      served_setLine h.served (fun c' hc' => ?_) ?_⟩
    · refine historyOf_append_of_ne fun x hx => ?_
      rw [List.mem_singleton.mp hx]
      exact hc'.symm
    · rw [historyOf_concat, Line.read, if_pos hline]
      exact congrArg (· ++ _) (h.served c l hl)

theorem Recorded.step {app : τ} {history : History}
    (h : Recorded respond app s history) (hs : s.Sound P) {e : Event κ}
    (hstep : s.step respond e = some t) :
    ∃ later, Recorded respond app t (history ++ later) := by
  cases e with
  | connect k c remote =>
      rw [Session.step] at hstep
      split_ifs at hstep
      obtain ⟨server, hserver, rfl⟩ := Option.map_eq_some_iff.mp hstep
      have hnew := accept_new hserver
      have hnil : historyOf c history = [] :=
        h.handled.historyOf_eq_nil fun call hcall hc =>
          hnew (hc ▸ hs.tracked.calls call hcall)
      refine ⟨[], ?_⟩
      rw [List.append_nil]
      refine ⟨?_, served_setLine h.served (fun _ _ => rfl) hnil.symm⟩
      cases TCPServer.transition_of_step hserver with
      | accepted _ => exact h.handled.of_eq rfl rfl
  | call k request =>
      obtain ⟨⟨c, l⟩, hline, hstep⟩ := Option.bind_eq_some_iff.mp hstep
      dsimp only at hstep
      split_ifs at hstep
      cases hstep
      refine ⟨[], ?_⟩
      rw [List.append_nil]
      exact ⟨h.handled, served_setLine h.served (fun _ _ => rfl)
        (h.served c l (lineOf_eq_some hline).2)⟩
  | deliver c n now =>
      obtain ⟨l, hl, hstep⟩ := Option.bind_eq_some_iff.mp hstep
      obtain ⟨server, hserver, rfl⟩ := Option.map_eq_some_iff.mp hstep
      exact h.deliver hs hl hserver
  | receive k n =>
      obtain ⟨⟨c, l⟩, hline, hstep⟩ := Option.bind_eq_some_iff.mp hstep
      dsimp only at hstep
      split at hstep
      · cases hstep
        refine ⟨[], ?_⟩
        rw [List.append_nil]
        refine ⟨h.handled, served_setLine h.served (fun _ _ => rfl) ?_⟩
        rw [← h.served c l (lineOf_eq_some hline).2, Line.receive]
        split_ifs <;> rfl
      · cases hstep
  | close k =>
      obtain ⟨⟨c, l⟩, hline, rfl⟩ := Option.map_eq_some_iff.mp hstep
      refine ⟨[], ?_⟩
      rw [List.append_nil]
      exact ⟨h.handled, served_setLine h.served (fun _ _ => rfl)
        (h.served c l (lineOf_eq_some hline).2)⟩
  | eof c =>
      obtain ⟨l, hl, hstep⟩ := Option.bind_eq_some_iff.mp hstep
      split_ifs at hstep
      obtain ⟨server, hserver, rfl⟩ := Option.map_eq_some_iff.mp hstep
      refine ⟨[], ?_⟩
      rw [List.append_nil]
      refine ⟨?_, h.served⟩
      cases TCPServer.transition_of_step hserver with
      | closed _ => exact h.handled.of_eq rfl rfl
  | other e =>
      rw [Session.step] at hstep
      split_ifs at hstep with hother
      obtain ⟨server, hserver, rfl⟩ := Option.map_eq_some_iff.mp hstep
      obtain ⟨later, hlater, hconnection⟩ := h.handled.step hserver
      refine ⟨later, hlater, ?_⟩
      intro c l hl
      rw [historyOf_append_of_ne]
      · exact h.served c l hl
      · intro x hx hc
        refine hother (FiniteMap.mem_iff_lookup.mpr ⟨l, ?_⟩)
        rw [← hconnection x hx, hc]
        exact hl

/-- In every state of a run there is one history of whole requests that
explains it. -/
theorem recorded_run (hP : ∀ q, P q → newline ∉ q)
    (hrespond : SingleLine respond) (app : τ) {es : List (Event κ)}
    (hes : ∀ e ∈ es, Event.Sends P e) :
    EveryState (Session.step respond)
      (fun s => s.Sound P ∧ ∃ history, Recorded respond app s history)
      (start app) es := by
  have hstart : Recorded respond app (start app : Session τ κ) [] :=
    ⟨handled_start app, FiniteMap.all_empty⟩
  refine everyState_of_everyStep ?_ ⟨sound_start P app, [], hstart⟩
    (everyStep_of_forall hes)
  rintro s e t ⟨hs, history, hrecorded⟩ hsends hstep
  obtain ⟨later, hlater⟩ := hrecorded.step hs hstep
  exact ⟨sound_step hP hrespond hs hsends hstep, _, hlater⟩

/-- What a client has sent and got, against the history of its connection. -/
structure Exchanged (history : History) (c : ℕ) (l : Line UInt8) : Prop where
  /-- All requests are handled in order, but perhaps the last one. -/
  sent : l.sent = (historyOf c history).map Prod.fst ∨
    ∃ request, l.sent = (historyOf c history).map Prod.fst ++ [request]
  /-- A request that has returned has its own response. -/
  returned : ∃ rest, answers newline (historyOf c history) =
    l.returned ++ rest ∧ rest.length ≤ 1
  /-- Between two requests nothing is under way. -/
  idle : l.phase = .idle → l.sent = (historyOf c history).map Prod.fst ∧
    l.returned = answers newline (historyOf c history)

theorem exchanged {history : History} {app : τ} (hs : s.Sound P)
    (h : Recorded respond app s history) :
    FiniteMap.All (Exchanged history) s.lines := by
  intro c l hl
  have hinStep := (hs.lines c l hl).inStep
  have hserved := h.served c l hl
  exact ⟨hserved ▸ hinStep.handled, hserved ▸ hinStep.got,
    fun hidle => hserved ▸ hinStep.settled hidle⟩

/-- Answers with the number of the request. -/
def counter : Responder ℕ := fun n _ _ _ =>
  some (n + 1, [UInt8.ofNat (48 + n % 10)])

/-- Two clients and another program.  The first client gives up on its second
request, which is handled all the same. -/
def visit : List (Event ℕ) :=
  let request := Call.getVersion.text fun _ => []
  [.connect 0 0 "10.0.0.1", .call 0 request, .deliver 0 5 0,
    .connect 1 1 "10.0.0.2", .call 1 request, .deliver 1 50 0,
    .deliver 0 50 0, .receive 0 1, .receive 0 50,
    .other (.accept 2 "10.0.0.3"), .other (.read 2 [65, 10, 66, 10] 0),
    .call 0 request, .deliver 0 7 0, .close 0, .deliver 0 50 0, .eof 0,
    .receive 1 50]

/-- What the connections have got, and how much was sent. -/
def outcome (s : Session ℕ ℕ) : ℕ × List (List Bytes × ℕ) :=
  (s.server.app.1, s.lines.values.map fun l =>
    (l.returned.map Prod.snd, l.sent.length))

end Session

end ChemClient
end Chem
