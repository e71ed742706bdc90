import ChemEmulator.Net.ReceiveBounds

/-!
# The packet pool of a server

`Recv` takes `BATCH_SIZE` packet buffers from a pool of `UDP_CAP` that no one
else uses.  Two exits lose them: the timeout in the middle of a burst, which
gives only the IQ buffer back, and the exception of an empty IQ pool, which
destroys the array of packet buffers while it unwinds.  `KeepsPackets` says
when a call avoids both; in a run of such calls the pool is always full when a
call starts.
-/

namespace Chem
namespace UDPServer

open EarlyExit

/-! ## Taking and returning the packet buffers -/

theorem acquirePackets_of_le {p : DataArrayPool} (taken : List DArray) {n : ℕ}
    (h : n ≤ p.available) :
    acquirePackets p taken n =
      (.ok (taken ++ p.pool.take n), { p with pool := p.pool.drop n }) := by
  induction n generalizing p taken with
  | zero => simp [acquirePackets]
  | succ n ih =>
      cases hpool : p.pool with
      | nil => simp [DataArrayPool.available, hpool] at h
      | cons item rest =>
          have hacquire : p.acquire = (.ok item, { p with pool := rest }) := by
            simp [DataArrayPool.acquire, hpool]
          have hrest : n ≤ ({ p with pool := rest } : DataArrayPool).available := by
            simpa [DataArrayPool.available, hpool] using h
          rw [acquirePackets, hacquire]
          simp only []
          rw [ih _ hrest]
          simp

/-- The buffers taken before the exception do not come back. -/
theorem acquirePackets_of_lt {p : DataArrayPool} (taken : List DArray) {n : ℕ}
    (h : p.available < n) :
    ∃ msg, acquirePackets p taken n = (.error msg, { p with pool := [] }) := by
  induction n generalizing p taken with
  | zero => exact absurd h (Nat.not_lt_zero _)
  | succ n ih =>
      cases hpool : p.pool with
      | nil =>
          refine ⟨"No available items in the pool. ID:" ++ p.id, ?_⟩
          have hacquire : p.acquire =
              (.error ("No available items in the pool. ID:" ++ p.id), p) := by
            simp [DataArrayPool.acquire, hpool]
          rw [acquirePackets, hacquire, ← hpool]
      | cons item rest =>
          have hacquire : p.acquire = (.ok item, { p with pool := rest }) := by
            simp [DataArrayPool.acquire, hpool]
          have hrest : ({ p with pool := rest } : DataArrayPool).available < n := by
            simpa [DataArrayPool.available, hpool] using h
          obtain ⟨msg, hmsg⟩ := ih (taken ++ [item]) hrest
          refine ⟨msg, ?_⟩
          rw [acquirePackets, hacquire]
          exact hmsg

theorem available_releasePackets (p : DataArrayPool) (taken : List DArray) :
    (releasePackets p taken).available = p.available + taken.length := by
  induction taken generalizing p with
  | nil => rfl
  | cons item rest ih =>
      have hrest := ih (p.release (some item)).2
      rw [DataArrayPool.available_release_some] at hrest
      rw [List.length_cons, Nat.add_comm rest.length 1, ← Nat.add_assoc]
      exact hrest

/-! ## Which calls keep the packet buffers -/

/-- No receive timeout is met while a burst is being assembled: wherever the
outcomes contain a timeout, a call that is still waiting there is idle. -/
def NoTimeoutWhileAssembling (os : List SocketOutcome) : Prop :=
  ∀ before after s, os = before ++ .wouldBlock :: after →
    (recvLoop .initial before).1 = .waiting s → s.isAssembling = false

/-- The condition under which a call returns its packet buffers. -/
def KeepsPackets (udpPool iqPool : DataArrayPool) (os : List SocketOutcome) :
    Prop :=
  udpPool.available = 0 ∨
    batchSize ≤ udpPool.available ∧ 0 < iqPool.available ∧
      NoTimeoutWhileAssembling os

theorem recvLoop_timedOut {s t : RecvState} {os : List SocketOutcome}
    (h : (recvLoop s os).1 = .timedOut t) :
    ∃ before after, os = before ++ .wouldBlock :: after ∧
      (recvLoop s before).1 = .waiting t ∧ t.isAssembling = true := by
  induction os generalizing s with
  | nil => cases h
  | cons o os ih =>
      cases o with
      | closed => cases h
      | failed => cases h
      | wouldBlock =>
          rw [recvLoop] at h
          split at h
          next hasm =>
            cases h
            exact ⟨[], os, rfl, rfl, hasm⟩
          next hidle =>
            obtain ⟨before, after, rfl, hwait, hasm⟩ := ih h
            refine ⟨.wouldBlock :: before, after, rfl, ?_, hasm⟩
            rw [recvLoop, if_neg hidle]
            exact hwait
      | packets ds =>
          rw [recvLoop] at h
          cases hbatch : runLoop processPacket s ds with
          | stop u =>
              rw [hbatch] at h
              cases h
          | next u =>
              rw [hbatch] at h
              obtain ⟨before, after, rfl, hwait, hasm⟩ := ih h
              refine ⟨.packets ds :: before, after, rfl, ?_, hasm⟩
              rw [recvLoop, hbatch]
              exact hwait

/-- The loop leaves through the timeout exit exactly when a timeout meets a
burst in assembly. -/
theorem noTimeoutWhileAssembling_iff (os : List SocketOutcome) :
    NoTimeoutWhileAssembling os ↔
      ∀ t, (recvLoop .initial os).1 ≠ .timedOut t := by
  constructor
  · intro hno t htimeout
    obtain ⟨before, after, hsplit, hwait, hasm⟩ := recvLoop_timedOut htimeout
    have hidle := hno before after t hsplit hwait
    rw [hidle] at hasm
    exact absurd hasm (by decide)
  · intro hnever before after s hsplit hwait
    by_contra hasm
    have hexit := recvLoop_append_waiting (.wouldBlock :: after) hwait
    rw [← hsplit, recvLoop, if_pos (by simpa using hasm)] at hexit
    exact hnever s (by rw [hexit])

/-! ## One call -/

/-- The call has returned or thrown. -/
def RecvResult.Ended (r : RecvResult) : Prop :=
  ∀ s, r.outcome ≠ .waiting s

theorem recv_few_packets {udpPool : DataArrayPool} (iqPool : DataArrayPool)
    (hdr : Header) (os : List SocketOutcome)
    (h : udpPool.available < batchSize) :
    (recv udpPool iqPool hdr os).udpPool.available = 0 := by
  obtain ⟨msg, hmsg⟩ := acquirePackets_of_lt [] h
  rw [recv, hmsg]
  rfl

/-- What is left of the pool while the call holds its packet buffers. -/
theorem available_drop {p : DataArrayPool} (n : ℕ) :
    ({ p with pool := p.pool.drop n } : DataArrayPool).available =
      p.available - n := by
  simp [DataArrayPool.available]

theorem recv_no_iq {udpPool iqPool : DataArrayPool} (hdr : Header)
    (os : List SocketOutcome) (h : batchSize ≤ udpPool.available)
    (hiq : iqPool.available = 0) :
    (recv udpPool iqPool hdr os).udpPool.available =
      udpPool.available - batchSize := by
  obtain ⟨msg, hmsg⟩ := DataArrayPool.acquire_of_zero hiq
  rw [recv, acquirePackets_of_le [] h]
  simp only []
  rw [hmsg]
  exact available_drop batchSize

theorem recv_with_buffers {udpPool iqPool : DataArrayPool} (hdr : Header)
    (os : List SocketOutcome) (h : batchSize ≤ udpPool.available)
    (hiq : 0 < iqPool.available) :
    (∀ msg, (recv udpPool iqPool hdr os).outcome ≠ .threw msg) ∧
      ((recv udpPool iqPool hdr os).Ended ↔
        ∀ s, (recvLoop .initial os).1 ≠ .waiting s) ∧
      ((recv udpPool iqPool hdr os).Ended →
        ((recv udpPool iqPool hdr os).udpPool.available = udpPool.available ↔
          ∀ s, (recvLoop .initial os).1 ≠ .timedOut s)) := by
  obtain ⟨item, rest, hitem⟩ := DataArrayPool.acquire_of_pos hiq
  have hgiven : (releasePackets
      { udpPool with pool := udpPool.pool.drop batchSize }
      ([] ++ udpPool.pool.take batchSize)).available = udpPool.available := by
    have hlen : udpPool.available = udpPool.pool.length := rfl
    rw [available_releasePackets, available_drop, List.nil_append,
      List.length_take]
    omega
  have hlost : ({ udpPool with pool := udpPool.pool.drop batchSize } :
      DataArrayPool).available ≠ udpPool.available := by
    have hpos : 0 < batchSize := by decide
    rw [available_drop]
    omega
  unfold RecvResult.Ended
  rw [recv, acquirePackets_of_le [] h]
  simp only [hitem]
  rcases hloop : recvLoop .initial os with ⟨loopEnd, left⟩
  cases loopEnd with
  | waiting s => simp
  | complete s => simpa using hgiven
  | timedOut s => simpa using hlost
  | failed s => simpa using hgiven
  | closed s => simpa using hgiven

/-- A call that completes a burst returns it and its packet buffers. -/
theorem recv_of_complete {udpPool iqPool : DataArrayPool} (hdr : Header)
    {os rest : List SocketOutcome} {s : RecvState}
    (h : batchSize ≤ udpPool.available) (hiq : 0 < iqPool.available)
    (hloop : recvLoop .initial os = (.complete s, rest)) :
    (recv udpPool iqPool hdr os).udpPool.available = udpPool.available ∧
      (recv udpPool iqPool hdr os).rest = rest ∧
      ∃ item : DArray, (recv udpPool iqPool hdr os).outcome =
        .returned s.finalHdr
          (some { item with mem := applyWrites item.mem s.writes }) := by
  obtain ⟨item, left, hitem⟩ := DataArrayPool.acquire_of_pos hiq
  have hlen : udpPool.available = udpPool.pool.length := rfl
  rw [recv, acquirePackets_of_le [] h]
  simp only [hitem, hloop]
  refine ⟨?_, trivial, item, rfl⟩
  rw [available_releasePackets, available_drop, List.nil_append,
    List.length_take]
  omega

theorem recv_available_iff {udpPool iqPool : DataArrayPool} {hdr : Header}
    {os : List SocketOutcome} (hended : (recv udpPool iqPool hdr os).Ended) :
    (recv udpPool iqPool hdr os).udpPool.available = udpPool.available ↔
      KeepsPackets udpPool iqPool os := by
  have hbatch : batchSize = 4 := rfl
  unfold KeepsPackets
  by_cases hfew : udpPool.available < batchSize
  · rw [recv_few_packets iqPool hdr os hfew]
    constructor
    · intro hzero
      exact Or.inl hzero.symm
    · rintro (hzero | ⟨hmany, _⟩)
      · exact hzero.symm
      · omega
  · have hmany : batchSize ≤ udpPool.available := Nat.le_of_not_lt hfew
    by_cases hiq : iqPool.available = 0
    · rw [recv_no_iq hdr os hmany hiq]
      constructor
      · intro hsame
        omega
      · rintro (hzero | ⟨_, hpos, _⟩)
        · omega
        · omega
    · have hpos : 0 < iqPool.available := Nat.pos_of_ne_zero hiq
      obtain ⟨_, _, hsame⟩ := recv_with_buffers hdr os hmany hpos
      rw [hsame hended, noTimeoutWhileAssembling_iff]
      constructor
      · intro hno
        exact Or.inr ⟨hmany, hpos, hno⟩
      · rintro (hzero | ⟨_, _, hno⟩)
        · omega
        · exact hno

/-! ## Many calls -/

/-- One call of `Recv`: the IQ pool it finds and what its socket does. -/
structure Call where
  iqPool : DataArrayPool
  hdr : Header
  outcomes : List SocketOutcome

/-- The packet pool after a sequence of calls. -/
def packetPoolAfter (p : DataArrayPool) (calls : List Call) : DataArrayPool :=
  calls.foldl (fun p c => (recv p c.iqPool c.hdr c.outcomes).udpPool) p

/-- A call that ends, finds an IQ buffer and does not time out while it is
assembling. -/
structure Call.Clean (c : Call) : Prop where
  ends : ∀ s, (recvLoop .initial c.outcomes).1 ≠ .waiting s
  iq : 0 < c.iqPool.available
  noTimeout : NoTimeoutWhileAssembling c.outcomes

theorem available_packetPoolAfter {p : DataArrayPool} {calls : List Call}
    (hp : batchSize ≤ p.available) (hclean : ∀ c ∈ calls, c.Clean) :
    (packetPoolAfter p calls).available = p.available := by
  induction calls generalizing p with
  | nil => rfl
  | cons c calls ih =>
      have hc := hclean c List.mem_cons_self
      obtain ⟨_, hends, hsame⟩ := recv_with_buffers c.hdr c.outcomes hp hc.iq
      have hfirst := (hsame (hends.mpr hc.ends)).mpr
        ((noTimeoutWhileAssembling_iff c.outcomes).mp hc.noTimeout)
      have hrest := ih (by rw [hfirst]; exact hp)
        fun d hd => hclean d (List.mem_cons_of_mem _ hd)
      exact hrest.trans hfirst

/-- A call returns its packet buffers exactly when it `KeepsPackets`, and in a
run of clean calls from the full pool no call is ever stopped by the packet
pool. -/
theorem recv_packetPool_conserved (udpPool iqPool : DataArrayPool)
    (hdr : Header) (os : List SocketOutcome) (calls : List Call) :
    ((recv udpPool iqPool hdr os).Ended →
      ((recv udpPool iqPool hdr os).udpPool.available = udpPool.available ↔
        KeepsPackets udpPool iqPool os)) ∧
    (udpPool.available = udpCap → (∀ c ∈ calls, c.Clean) →
      (packetPoolAfter udpPool calls).available = udpCap ∧
      ∀ msg, 0 < iqPool.available →
        (recv (packetPoolAfter udpPool calls) iqPool hdr os).outcome ≠
          .threw msg) := by
  refine ⟨recv_available_iff, ?_⟩
  intro hfull hclean
  have henough : batchSize ≤ udpPool.available := by
    rw [hfull]
    decide
  have hafter := available_packetPoolAfter henough hclean
  refine ⟨hafter.trans hfull, ?_⟩
  intro msg hiq
  have hbuffers := recv_with_buffers hdr os (hafter ▸ henough) hiq
  exact hbuffers.1 msg

/-- `m_udpPool(UDP_CAP, "SERVER", true)`. -/
def serverPool : DataArrayPool := .filled udpCap mtuSize "SERVER" true 0

/-- A call whose socket behaves as `os`, with one IQ buffer left. -/
def callWith (os : List SocketOutcome) : Call :=
  ⟨.filled 1 iqSize "IQ" false 0, Header.zero, os⟩

/-- An idle timeout, then a burst of one datagram. -/
theorem recv_packetPool_conserved_one_burst :
    (packetPoolAfter serverPool
      [callWith [.wouldBlock, .packets [twoByteStart 5 2]]]).available =
        udpCap := by
  have hloop : ∃ s, (recvLoop .initial
      [.wouldBlock, .packets [twoByteStart 5 2]]).1 = .complete s := ⟨_, rfl⟩
  obtain ⟨s, hs⟩ := hloop
  refine ((recv_packetPool_conserved serverPool serverPool Header.zero [] _).2
    rfl ?_).1
  intro c hc
  rw [List.mem_singleton.mp hc]
  refine ⟨?_, by decide, ?_⟩
  · intro t ht
    exact absurd (hs.symm.trans ht) (by simp)
  · rw [noTimeoutWhileAssembling_iff]
    intro t ht
    exact absurd (hs.symm.trans ht) (by simp)

/-- A timeout behind the first fragment of a burst costs four packet buffers;
after four such calls the next one throws. -/
theorem recv_timeout_loses_packets :
    serverPool.available = 16 ∧
      (recv serverPool (.filled 1 iqSize "IQ" false 0) Header.zero
        [.packets [twoByteStart 1 16], .wouldBlock]).Ended ∧
      (recv serverPool (.filled 1 iqSize "IQ" false 0) Header.zero
        [.packets [twoByteStart 1 16], .wouldBlock]).udpPool.available = 12 ∧
      (recv
        (packetPoolAfter serverPool
          (List.replicate 4
            (callWith [.packets [twoByteStart 1 16], .wouldBlock])))
        (.filled 1 iqSize "IQ" false 0) Header.zero []).outcome =
          .threw "No available items in the pool. ID:SERVER" := by
  refine ⟨rfl, ?_, rfl, rfl⟩
  intro s h
  cases h

end UDPServer
end Chem
