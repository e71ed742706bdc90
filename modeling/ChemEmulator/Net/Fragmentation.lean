import ChemEmulator.Net.UdpClient
import Mathlib.Algebra.Order.BigOperators.Group.List
import Mathlib.Data.Nat.ModEq
import Mathlib.Tactic.Linarith

/-!
# When `Send` transmits the whole burst

`CompleteFragmentation` collects what a receiver needs from the datagrams of
one `Send` call.  Whether a call achieves it is pure arithmetic in the byte
size and the number of channels: every fragment is rounded down to a multiple
of the channel count, the first one also carries the burst header, and the
number of fragments is fixed before the loop starts.  `capacity p m` is what
the first `m` fragments can carry; the loop succeeds exactly when the planned
fragments can carry the burst.
-/

namespace Chem
namespace UDPClient

open ByteMemory EarlyExit

/-- What the datagrams of a `Send` call must satisfy to carry the burst. -/
structure CompleteFragmentation (sig : Signal) (st : SendState) : Prop where
  noWrap : ∀ s ∈ st.subtractions, s.2 ≤ s.1
  withinMtu : ∀ m ∈ st.emitted, m.wireLength ≤ mtuSize
  payloadNonempty : ∀ m ∈ st.emitted, 0 < m.payloadLength
  payloadSum : (st.emitted.map Message.payloadLength).sum = sig.getSize
  channels : ∀ c < sig.getNumberOfChannels,
    (st.emitted.flatMap fun m => m.channelBytes sig.mem c) =
      read sig.mem (c * sig.getSizePerBuff) sig.getSizePerBuff
  seqNumbers : (st.emitted.map fun m => m.header.seqNumber.toNat) =
    List.range (mainHeader sig).totalFrags.toNat
  startFlag : ∀ i m, st.emitted[i]? = some m →
    (m.header.startFlag = true ↔ i = 0)
  endFlag : ∀ i m, st.emitted[i]? = some m →
    (m.header.endFlag = true ↔ i + 1 = st.emitted.length)
  allHanded : st.queued = []

/-! ## Capacity of the planned fragments -/

/-- `x` rounded down to a multiple of `n`, as `Send` computes it. -/
def align (n x : ℕ) : ℕ := x / n * n

theorem align_le (n x : ℕ) : align n x ≤ x := Nat.div_mul_le_self x n

theorem dvd_align (n x : ℕ) : n ∣ align n x := Dvd.intro_left _ rfl

theorem align_add_mod (n x : ℕ) : align n x + x % n = x := by
  rw [align, Nat.mul_comm]
  exact Nat.div_add_mod x n

theorem align_of_dvd {n x : ℕ} (h : n ∣ x) : align n x = x :=
  Nat.div_mul_cancel h

/-- What the first `m` fragments can carry. -/
def capacity (p : SendPlan) : ℕ → ℕ
  | 0 => 0
  | m + 1 => align p.nofCh (p.currentPayloadSize - headerSize) +
      m * align p.nofCh p.currentPayloadSize

theorem capacity_succ_succ (p : SendPlan) (m : ℕ) :
    capacity p (m + 2) =
      capacity p (m + 1) + align p.nofCh p.currentPayloadSize := by
  simp only [capacity]
  ring

theorem dvd_capacity (p : SendPlan) (m : ℕ) : p.nofCh ∣ capacity p m := by
  cases m with
  | zero => exact dvd_zero _
  | succ m =>
      exact Nat.dvd_add (dvd_align _ _) (Dvd.dvd.mul_left (dvd_align _ _) m)

theorem capacity_le (p : SendPlan) (m : ℕ) :
    capacity p (m + 1) ≤
      (p.currentPayloadSize - headerSize) + m * p.currentPayloadSize :=
  Nat.add_le_add (align_le _ _) (Nat.mul_le_mul_left m (align_le _ _))

theorem capacity_mono (p : SendPlan) {m k : ℕ} (h : m ≤ k) :
    capacity p m ≤ capacity p k := by
  cases m with
  | zero => exact Nat.zero_le _
  | succ m =>
      obtain ⟨k, rfl⟩ := Nat.exists_eq_succ_of_ne_zero (n := k) (by omega)
      exact Nat.add_le_add_left
        (Nat.mul_le_mul_right _ (Nat.le_of_succ_le_succ h)) _

/-! ## Flags -/

theorem startFlag_fragFlag {totalFrags : ℕ} (i : ℕ) (h : 2 ≤ totalFrags) :
    ((fragFlag totalFrags i &&& 0x1) != 0) = true ↔ i = 0 := by
  unfold fragFlag
  rw [if_neg (by omega)]
  split
  next hi => exact ⟨fun _ => hi, fun _ => by decide⟩
  next hi =>
    split
    · exact ⟨fun hbit => absurd hbit (by decide), fun h0 => absurd h0 hi⟩
    · exact ⟨fun hbit => absurd hbit (by decide), fun h0 => absurd h0 hi⟩

theorem endFlag_fragFlag {totalFrags : ℕ} (i : ℕ) (h : 2 ≤ totalFrags) :
    ((fragFlag totalFrags i &&& 0x4) != 0) = true ↔ i + 1 = totalFrags := by
  unfold fragFlag
  rw [if_neg (by omega)]
  split
  next hi => exact ⟨fun hbit => absurd hbit (by decide), fun hlast => by omega⟩
  next hi =>
    split
    next hlast => exact ⟨fun _ => by omega, fun _ => by decide⟩
    next hlast => exact ⟨fun hbit => absurd hbit (by decide), fun h1 => by omega⟩

/-! ## A plan whose fragments suffice -/

/-- A plan under which every iteration of the loop sends its full share. -/
structure Sufficient (p : SendPlan) : Prop where
  channels : 0 < p.nofCh
  dvd_size : p.nofCh ∣ p.size
  size_lt : p.size < 2 ^ 32
  payload_le : p.currentPayloadSize ≤ payloadSize
  header_le : headerSize ≤ p.currentPayloadSize
  first_pos : 0 < align p.nofCh (p.currentPayloadSize - headerSize)
  frags : 4 ≤ p.totalFrags
  frags_lt : p.totalFrags < 2 ^ 16
  /-- The planned fragments are not more than the burst needs. -/
  needed : (p.totalFrags - 1) * p.currentPayloadSize < p.size + headerSize
  /-- The planned fragments can carry the burst. -/
  enough : p.size ≤ capacity p p.totalFrags

/-- Bytes sent before fragment `i`. -/
def sentAt (p : SendPlan) (i : ℕ) : ℕ :=
  if i < p.totalFrags then capacity p i else p.size

/-- Bytes per channel in fragment `i`. -/
def chunkAt (p : SendPlan) (i : ℕ) : ℕ :=
  (sentAt p (i + 1) - sentAt p i) / p.nofCh

theorem sentAt_of_lt {p : SendPlan} {i : ℕ} (h : i < p.totalFrags) :
    sentAt p i = capacity p i := if_pos h

theorem sentAt_total (p : SendPlan) : sentAt p p.totalFrags = p.size :=
  if_neg (Nat.lt_irrefl _)

section SufficientPlan

variable {p : SendPlan} (hp : Sufficient p)
include hp

theorem Sufficient.sentAt_zero : sentAt p 0 = 0 := by
  have hfrags := hp.frags
  rw [sentAt_of_lt (by omega)]
  rfl

theorem Sufficient.dvd_sentAt (i : ℕ) : p.nofCh ∣ sentAt p i := by
  unfold sentAt
  split
  · exact dvd_capacity p i
  · exact hp.dvd_size

/-- At least one full fragment is missing before the last one. -/
theorem Sufficient.capacity_add_le {i : ℕ} (h : i + 1 < p.totalFrags) :
    capacity p i + p.currentPayloadSize ≤ p.size := by
  have hheader := hp.header_le
  have hneeded := hp.needed
  have hfrags : (i + 1) * p.currentPayloadSize ≤
      (p.totalFrags - 1) * p.currentPayloadSize :=
    Nat.mul_le_mul_right _ (by omega)
  cases i with
  | zero =>
      have htwo : 2 * p.currentPayloadSize ≤
          (p.totalFrags - 1) * p.currentPayloadSize :=
        Nat.mul_le_mul_right _ (by have := hp.frags; omega)
      simp only [capacity]
      omega
  | succ i =>
      have hcap := capacity_le p i
      have hexpand : (i + 1 + 1) * p.currentPayloadSize =
          i * p.currentPayloadSize + p.currentPayloadSize +
            p.currentPayloadSize := by ring
      omega

theorem Sufficient.capacity_lt {i : ℕ} (h : i < p.totalFrags) :
    capacity p i < p.size := by
  have hheader := hp.header_le
  have hneeded := hp.needed
  have hsizes : headerSize = 48 := rfl
  cases i with
  | zero =>
      have hone : 1 * p.currentPayloadSize ≤
          (p.totalFrags - 1) * p.currentPayloadSize :=
        Nat.mul_le_mul_right _ (by have := hp.frags; omega)
      have hfirst := hp.capacity_add_le (i := 0) (by have := hp.frags; omega)
      simp only [capacity] at hfirst ⊢
      omega
  | succ i =>
      have hcap := capacity_le p i
      have hfrags : (i + 1) * p.currentPayloadSize ≤
          (p.totalFrags - 1) * p.currentPayloadSize :=
        Nat.mul_le_mul_right _ (by omega)
      have hexpand : (i + 1) * p.currentPayloadSize =
          i * p.currentPayloadSize + p.currentPayloadSize := by ring
      omega

/-- The payload that the loop computes for fragment `i`. -/
theorem Sufficient.align_fragPayload {i : ℕ} (h : i < p.totalFrags) :
    align p.nofCh (fragPayload p i (sentAt p i)) =
      sentAt p (i + 1) - sentAt p i := by
  have hlt := hp.capacity_lt h
  have hsize := hp.size_lt
  have hremaining : sizeSub p.size (sentAt p i) = p.size - capacity p i := by
    rw [sentAt_of_lt h]
    exact sizeSub_of_le (Nat.le_of_lt hlt) (by omega)
  by_cases hlast : i + 1 = p.totalFrags
  · -- The last fragment takes the rest, a multiple of the channel count.
    have hi : i ≠ 0 := by have := hp.frags; omega
    obtain ⟨k, rfl⟩ := Nat.exists_eq_succ_of_ne_zero hi
    have henough := hp.enough
    rw [← hlast, capacity_succ_succ] at henough
    have hle := align_le p.nofCh p.currentPayloadSize
    have hmin : min (p.size - capacity p (k + 1)) p.currentPayloadSize =
        p.size - capacity p (k + 1) := Nat.min_eq_left (by omega)
    have hdvd : p.nofCh ∣ p.size - capacity p (k + 1) :=
      Nat.dvd_sub hp.dvd_size (dvd_capacity p _)
    rw [fragPayload, hremaining, if_neg (by omega), hmin, align_of_dvd hdvd,
      sentAt_of_lt h, Nat.succ_eq_add_one, hlast, sentAt_total]
  · have hnext : i + 1 < p.totalFrags := by omega
    have hfull := hp.capacity_add_le hnext
    have hmin : min (p.size - capacity p i) p.currentPayloadSize =
        p.currentPayloadSize := Nat.min_eq_right (by omega)
    rw [fragPayload, hremaining, hmin, sentAt_of_lt h, sentAt_of_lt hnext]
    cases i with
    | zero =>
        have hpay := hp.payload_le
        have hsub : sizeSub p.currentPayloadSize headerSize =
            p.currentPayloadSize - headerSize :=
          sizeSub_of_le hp.header_le (by rw [payloadSize_eq] at hpay; omega)
        rw [if_pos ⟨rfl, by omega⟩, hsub]
        simp [capacity]
    | succ i =>
        rw [if_neg (by omega), capacity_succ_succ]
        omega

theorem Sufficient.sentAt_lt_succ {i : ℕ} (h : i < p.totalFrags) :
    sentAt p i < sentAt p (i + 1) := by
  rw [sentAt_of_lt h]
  by_cases hlast : i + 1 = p.totalFrags
  · rw [hlast, sentAt_total]
    exact hp.capacity_lt h
  · rw [sentAt_of_lt (by omega)]
    have hfirst := hp.first_pos
    cases i with
    | zero => simpa [capacity] using hfirst
    | succ i =>
        have hmono := Nat.div_le_div_right (c := p.nofCh)
          (Nat.sub_le p.currentPayloadSize headerSize)
        have hle : align p.nofCh (p.currentPayloadSize - headerSize) ≤
            align p.nofCh p.currentPayloadSize :=
          Nat.mul_le_mul_right _ hmono
        rw [capacity_succ_succ]
        omega

theorem Sufficient.chunkAt_mul {i : ℕ} :
    chunkAt p i * p.nofCh = sentAt p (i + 1) - sentAt p i :=
  Nat.div_mul_cancel (Nat.dvd_sub (hp.dvd_sentAt (i + 1)) (hp.dvd_sentAt i))

theorem Sufficient.chunkAt_pos {i : ℕ} (h : i < p.totalFrags) :
    0 < chunkAt p i := by
  have hlt := hp.sentAt_lt_succ h
  have hmul := hp.chunkAt_mul (i := i)
  by_contra hzero
  have : chunkAt p i = 0 := by omega
  rw [this] at hmul
  omega

theorem Sufficient.sentAt_div_succ {i : ℕ} (h : i < p.totalFrags) :
    sentAt p (i + 1) / p.nofCh = sentAt p i / p.nofCh + chunkAt p i := by
  have hlt := hp.sentAt_lt_succ h
  have hsum : sentAt p (i + 1) =
      sentAt p i + (sentAt p (i + 1) - sentAt p i) := by omega
  conv_lhs => rw [hsum]
  exact Nat.add_div_of_dvd_right (hp.dvd_sentAt i)

theorem Sufficient.sentAt_le {i : ℕ} (h : i ≤ p.totalFrags) :
    sentAt p i ≤ p.size := by
  rcases Nat.lt_or_eq_of_le h with hlt | rfl
  · rw [sentAt_of_lt hlt]
    exact Nat.le_of_lt (hp.capacity_lt hlt)
  · exact Nat.le_of_eq (sentAt_total p)

theorem Sufficient.fragPayload_div {i : ℕ} (h : i < p.totalFrags) :
    fragPayload p i (sentAt p i) / p.nofCh = chunkAt p i := by
  have halign := hp.align_fragPayload h
  have hmul := hp.chunkAt_mul (i := i)
  rw [← hmul] at halign
  exact Nat.eq_of_mul_eq_mul_right hp.channels halign

theorem Sufficient.fragSubtractions_le {i : ℕ} (h : i < p.totalFrags) :
    ∀ s ∈ fragSubtractions p i (sentAt p i), s.2 ≤ s.1 := by
  intro s hs
  have hsent := hp.sentAt_le (Nat.le_of_lt h)
  simp only [fragSubtractions, List.mem_append, List.mem_cons,
    List.not_mem_nil, or_false] at hs
  rcases hs with (rfl | rfl) | hs
  · exact Nat.succ_le_of_lt (Nat.lt_of_le_of_lt (Nat.zero_le _) h)
  · exact hsent
  · split at hs
    next hfirst =>
      obtain ⟨_, rfl, _⟩ := hfirst
      rw [List.mem_singleton] at hs
      subst hs
      have hfull := hp.capacity_add_le (i := 0) (by have := hp.frags; omega)
      have hheader := hp.header_le
      have hsize := hp.size_lt
      rw [sentAt_of_lt h] at hsent ⊢
      simp only [sizeSub_of_le hsent (by omega)]
      simp only [capacity] at hfull ⊢
      omega
    · exact absurd hs (List.not_mem_nil)

end SufficientPlan

/-! ## The loop on a sufficient plan -/

/-- Fragment `i` of a sufficient plan. -/
def messageAt (env : SendEnv) (p : SendPlan) (i : ℕ) : Message :=
  fragMessage env p i (sentAt p i / p.nofCh) (chunkAt p i)

theorem startFlag_messageAt (env : SendEnv) {p : SendPlan} (i : ℕ)
    (h : 2 ≤ p.totalFrags) :
    (messageAt env p i).header.startFlag = true ↔ i = 0 :=
  startFlag_fragFlag i h

theorem endFlag_messageAt (env : SendEnv) {p : SendPlan} (i : ℕ)
    (h : 2 ≤ p.totalFrags) :
    (messageAt env p i).header.endFlag = true ↔ i + 1 = p.totalFrags :=
  endFlag_fragFlag i h

/-- The loop variables before fragment `i`. -/
structure LoopAt (env : SendEnv) (p : SendPlan) (i : ℕ) (st : SendState) : Prop where
  sent : st.sent = sentAt p i
  sentBytesPerCh : st.sentBytesPerCh = sentAt p i / p.nofCh
  messages : st.emitted ++ st.queued = (List.range i).map (messageAt env p)
  noWrap : ∀ s ∈ st.subtractions, s.2 ≤ s.1
  handedAtEnd : i = p.totalFrags → st.queued = []

@[simp] theorem queueFragment_sent (env : SendEnv) (p : SendPlan)
    (st : SendState) (i k : ℕ) :
    (queueFragment env p st i k).sent = sizeT (st.sent + k * p.nofCh) := by
  unfold queueFragment flush
  split <;> rfl

@[simp] theorem queueFragment_sentBytesPerCh (env : SendEnv) (p : SendPlan)
    (st : SendState) (i k : ℕ) :
    (queueFragment env p st i k).sentBytesPerCh =
      sizeT (st.sentBytesPerCh + k) := by
  unfold queueFragment flush
  split <;> rfl

@[simp] theorem queueFragment_subtractions (env : SendEnv) (p : SendPlan)
    (st : SendState) (i k : ℕ) :
    (queueFragment env p st i k).subtractions = st.subtractions := by
  unfold queueFragment flush
  split <;> rfl

theorem queueFragment_messages (env : SendEnv) (p : SendPlan)
    (st : SendState) (i k : ℕ) :
    (queueFragment env p st i k).emitted ++ (queueFragment env p st i k).queued =
      st.emitted ++ st.queued ++ [fragMessage env p i st.sentBytesPerCh k] := by
  unfold queueFragment flush
  split
  · simp [SendState.emitted]
  · simp [SendState.emitted]

theorem queueFragment_queued_last (env : SendEnv) {p : SendPlan}
    (st : SendState) {i : ℕ} (k : ℕ) (h : i + 1 = p.totalFrags) :
    (queueFragment env p st i k).queued = [] := by
  unfold queueFragment flush
  rw [if_pos (Or.inr (by omega))]

theorem loopAt_zero (env : SendEnv) {p : SendPlan} (hp : Sufficient p) :
    LoopAt env p 0 .initial := by
  have hfrags := hp.frags
  have hzero := hp.sentAt_zero
  refine ⟨by rw [hzero]; rfl, by rw [hzero, Nat.zero_div]; rfl, rfl, ?_, ?_⟩
  · intro s hs
    exact absurd hs (List.not_mem_nil)
  · intro h
    omega

theorem loopAt_step (env : SendEnv) {p : SendPlan} (hp : Sufficient p)
    {i : ℕ} (hi : i < p.totalFrags) {st : SendState} (h : LoopAt env p i st) :
    ∃ st', sendFragment env p st i = .next st' ∧ LoopAt env p (i + 1) st' := by
  have hlt := hp.sentAt_lt_succ hi
  have hle : sentAt p (i + 1) ≤ p.size := hp.sentAt_le (Nat.succ_le_of_lt hi)
  have hsize := hp.size_lt
  have hpos := hp.chunkAt_pos hi
  have hpayload : min (sizeSub p.size st.sent) p.currentPayloadSize ≠ 0 := by
    have hheader := hp.header_le
    have hconst : headerSize = 48 := rfl
    rw [h.sent, sizeSub_of_le (by omega) (by omega)]
    omega
  have hchunk : fragPayload p i st.sent / p.nofCh = chunkAt p i := by
    rw [h.sent]
    exact hp.fragPayload_div hi
  have haligned : chunkAt p i * p.nofCh ≠ 0 := by
    rw [hp.chunkAt_mul]
    omega
  have hsent : sizeT (st.sent + chunkAt p i * p.nofCh) = sentAt p (i + 1) := by
    rw [hp.chunkAt_mul, h.sent, sizeT_of_lt (by omega)]
    omega
  have hperCh : sizeT (st.sentBytesPerCh + chunkAt p i) =
      sentAt p (i + 1) / p.nofCh := by
    rw [h.sentBytesPerCh, ← hp.sentAt_div_succ hi]
    apply sizeT_of_lt
    exact Nat.lt_of_le_of_lt (Nat.div_le_self _ _) (by omega)
  refine ⟨?_, ?_, ?_⟩
  · exact queueFragment env p { st with
      subtractions := st.subtractions ++ fragSubtractions p i st.sent } i
        (chunkAt p i)
  · simp only [sendFragment, hchunk]
    rw [if_neg hpayload, if_neg haligned]
  · refine ⟨?_, ?_, ?_, ?_, ?_⟩
    · simpa using hsent
    · simpa using hperCh
    · rw [queueFragment_messages, List.range_succ, List.map_append, ← h.messages]
      simp [SendState.emitted, messageAt, h.sentBytesPerCh]
    · intro s hs
      rw [queueFragment_subtractions] at hs
      rcases List.mem_append.mp hs with hold | hnew
      · exact h.noWrap s hold
      · rw [h.sent] at hnew
        exact hp.fragSubtractions_le hi s hnew
    · intro hlast
      exact queueFragment_queued_last env _ _ hlast

/-- On a sufficient plan the loop hands exactly the planned messages to the
kernel. -/
theorem sendLoop_sufficient (env : SendEnv) {p : SendPlan} (hp : Sufficient p) :
    ∃ st, runLoop (sendFragment env p) .initial (List.range p.totalFrags) =
        .next st ∧
      st.emitted = (List.range p.totalFrags).map (messageAt env p) ∧
      st.queued = [] ∧ ∀ s ∈ st.subtractions, s.2 ≤ s.1 := by
  obtain ⟨st, hrun, hst⟩ := runLoop_range_progress
    (fun i hi st h => loopAt_step env hp hi h) (loopAt_zero env hp)
  have hqueued := hst.handedAtEnd rfl
  have hmessages := hst.messages
  rw [hqueued, List.append_nil] at hmessages
  exact ⟨st, hrun, hmessages, hqueued, hst.noWrap⟩

/-! ## The messages of a sufficient plan carry the burst -/

section SufficientMessages

variable {p : SendPlan} (hp : Sufficient p) (env : SendEnv)
include hp

theorem Sufficient.payloadLength_messageAt (i : ℕ) :
    (messageAt env p i).payloadLength = sentAt p (i + 1) - sentAt p i := by
  have hsum : (messageAt env p i).payloadLength = p.nofCh * chunkAt p i := by
    simp [messageAt, fragMessage, Message.payloadLength, Function.comp_def]
  rw [hsum, Nat.mul_comm, hp.chunkAt_mul]

theorem Sufficient.sum_payloadLength {i : ℕ} (h : i ≤ p.totalFrags) :
    (((List.range i).map (messageAt env p)).map Message.payloadLength).sum =
      sentAt p i := by
  induction i with
  | zero => simp [hp.sentAt_zero]
  | succ i ih =>
      have hlt := hp.sentAt_lt_succ (i := i) (by omega)
      have hprefix := ih (by omega)
      rw [List.range_succ, List.map_append, List.map_append, List.sum_append,
        hprefix]
      simp only [List.map_cons, List.map_nil, List.sum_cons, List.sum_nil,
        hp.payloadLength_messageAt]
      omega

omit hp in
theorem channelBytes_messageAt (iq : Mem) (i : ℕ) {c : ℕ}
    (hc : c < p.nofCh) :
    (messageAt env p i).channelBytes iq c =
      read iq (c * p.sizePerBuff + sentAt p i / p.nofCh) (chunkAt p i) := by
  simp [messageAt, fragMessage, Message.channelBytes, hc]

theorem Sufficient.flatMap_channelBytes (iq : Mem) {c : ℕ} (hc : c < p.nofCh)
    {i : ℕ} (h : i ≤ p.totalFrags) :
    (((List.range i).map (messageAt env p)).flatMap
      fun m => m.channelBytes iq c) =
      read iq (c * p.sizePerBuff) (sentAt p i / p.nofCh) := by
  induction i with
  | zero => simp [hp.sentAt_zero]
  | succ i ih =>
      have hprefix := ih (by omega)
      rw [List.range_succ, List.map_append, List.flatMap_append, hprefix,
        hp.sentAt_div_succ (by omega), read_add]
      simp [channelBytes_messageAt env iq i hc]

theorem Sufficient.wireLength_messageAt_le {i : ℕ} (h : i < p.totalFrags) :
    (messageAt env p i).wireLength ≤ mtuSize := by
  have hpay := hp.payload_le
  have hheader := hp.header_le
  have hsizes : headerSize = 48 ∧ udpHeaderSize = 24 ∧ mtuSize = 1472 :=
    ⟨rfl, rfl, rfl⟩
  rw [payloadSize_eq] at hpay
  rw [Message.wireLength, hp.payloadLength_messageAt]
  have halign := hp.align_fragPayload h
  have hle := align_le p.nofCh (fragPayload p i (sentAt p i))
  have hmin := Nat.min_le_right (sizeSub p.size (sentAt p i))
    p.currentPayloadSize
  by_cases hi : i = 0
  · -- The first message also carries the burst header.
    subst hi
    have hfrags := hp.frags
    have hfirst : sentAt p (0 + 1) - sentAt p 0 =
        align p.nofCh (p.currentPayloadSize - headerSize) := by
      rw [sentAt_of_lt h, sentAt_of_lt (by omega)]
      simp [capacity]
    have hfirstLe := align_le p.nofCh (p.currentPayloadSize - headerSize)
    have hsome : (messageAt env p 0).mainHeader.isSome = true := rfl
    rw [if_pos hsome]
    omega
  · have hnone : (messageAt env p i).mainHeader.isSome = false := by
      simp [messageAt, fragMessage, hi]
    rw [fragPayload, if_neg (by omega)] at halign hle
    rw [hnone]
    simp only [Bool.false_eq_true, if_false]
    omega

end SufficientMessages

theorem sendTrace_sufficient {port : UInt16} (env : SendEnv) {sig : Signal}
    {bytesPerOtw : UInt8} (hpass : shouldPass port sig bytesPerOtw = false)
    (hp : Sufficient (sendPlan sig)) :
    (sendTrace port env sig bytesPerOtw).emitted =
        (List.range (sendPlan sig).totalFrags).map
          (messageAt env (sendPlan sig)) ∧
      (sendTrace port env sig bytesPerOtw).queued = [] ∧
      ∀ s ∈ (sendTrace port env sig bytesPerOtw).subtractions, s.2 ≤ s.1 := by
  have hfrags := hp.frags
  obtain ⟨st, hrun, hst⟩ := sendLoop_sufficient env hp
  have htrace : sendTrace port env sig bytesPerOtw = st := by
    rw [sendTrace, hpass, if_neg (by simp), if_neg (by omega), hrun]
    rfl
  rw [htrace]
  exact hst

theorem complete_of_sufficient {port : UInt16} (env : SendEnv) {sig : Signal}
    {bytesPerOtw : UInt8} (hpass : shouldPass port sig bytesPerOtw = false)
    (hp : Sufficient (sendPlan sig)) :
    CompleteFragmentation sig (sendTrace port env sig bytesPerOtw) := by
  obtain ⟨hemitted, hqueued, hwrap⟩ := sendTrace_sufficient env hpass hp
  have hfrags := hp.frags
  have hfragsLt := hp.frags_lt
  have hheader : (mainHeader sig).totalFrags.toNat =
      (sendPlan sig).totalFrags := by
    have : (mainHeader sig).totalFrags.toNat =
        (sendPlan sig).totalFrags % 2 ^ 16 := by
      simp [mainHeader, sendPlan]
    rw [this, Nat.mod_eq_of_lt hfragsLt]
  have hmem : ∀ m ∈ (sendTrace port env sig bytesPerOtw).emitted,
      ∃ i < (sendPlan sig).totalFrags, m = messageAt env (sendPlan sig) i := by
    intro m hm
    rw [hemitted] at hm
    obtain ⟨i, hi, rfl⟩ := List.mem_map.mp hm
    exact ⟨i, List.mem_range.mp hi, rfl⟩
  have hget : ∀ i m, (sendTrace port env sig bytesPerOtw).emitted[i]? = some m →
      i < (sendPlan sig).totalFrags ∧ m = messageAt env (sendPlan sig) i := by
    intro i m hm
    rw [hemitted, List.getElem?_map] at hm
    obtain ⟨j, hj, rfl⟩ := Option.map_eq_some_iff.mp hm
    obtain ⟨hlt, hval⟩ := List.getElem?_eq_some_iff.mp hj
    rw [List.length_range] at hlt
    rw [List.getElem_range] at hval
    exact ⟨hlt, by rw [hval]⟩
  constructor
  · exact hwrap
  · intro m hm
    obtain ⟨i, hi, rfl⟩ := hmem m hm
    exact hp.wireLength_messageAt_le env hi
  · intro m hm
    obtain ⟨i, hi, rfl⟩ := hmem m hm
    have hlt := hp.sentAt_lt_succ hi
    rw [hp.payloadLength_messageAt]
    omega
  · rw [hemitted, hp.sum_payloadLength env (Nat.le_refl _), sentAt_total]
    rfl
  · intro c hc
    rw [hemitted, hp.flatMap_channelBytes env sig.mem hc (Nat.le_refl _),
      sentAt_total]
    have hperBuff : (sendPlan sig).size / (sendPlan sig).nofCh =
        sig.getSizePerBuff := (Signal.getSizePerBuff_eq hp.channels).symm
    rw [hperBuff]
    rfl
  · rw [hemitted, hheader, List.map_map]
    conv_rhs => rw [← List.map_id (List.range (sendPlan sig).totalFrags)]
    apply List.map_congr_left
    intro i hi
    have hlt := List.mem_range.mp hi
    simp only [Function.comp_apply, messageAt, fragMessage, id_eq,
      UInt16.toNat_ofNat']
    exact Nat.mod_eq_of_lt (by omega)
  · intro i m hm
    obtain ⟨_, rfl⟩ := hget i m hm
    exact startFlag_messageAt env i (by omega)
  · intro i m hm
    obtain ⟨_, rfl⟩ := hget i m hm
    rw [hemitted, List.length_map, List.length_range]
    exact endFlag_messageAt env i (by omega)
  · exact hqueued

end UDPClient
end Chem
