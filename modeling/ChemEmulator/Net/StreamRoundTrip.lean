import ChemEmulator.Net.Transmission
import ChemEmulator.Net.PacketPool

/-!
# Bursts sent one after the other

A stream of complete bursts, delivered in order and without loss, is returned
burst by burst, however `recvmmsg` groups the deliveries.  The point is the
batch size: before every read it is at most the number of datagrams that are
still missing, so that a call never reads beyond the end of its burst.
-/

namespace Chem
namespace UDPServer

open ByteMemory EarlyExit UDPClient Transmission

/-! ## Consecutive datagrams of a burst -/

/-- Datagrams `k`, ..., `k + n - 1` of a burst. -/
def Transmission.fragments (t : Transmission) (k n : ℕ) : List Datagram :=
  (List.range' k n).map t.fragment

@[simp] theorem length_fragments (t : Transmission) (k n : ℕ) :
    (t.fragments k n).length = n := by
  simp [Transmission.fragments]

theorem fragments_succ (t : Transmission) (k n : ℕ) :
    t.fragments k (n + 1) = t.fragment k :: t.fragments (k + 1) n := by
  simp [Transmission.fragments, List.range'_succ]

theorem fragments_add (t : Transmission) (k n m : ℕ) :
    t.fragments k (n + m) = t.fragments k n ++ t.fragments (k + n) m := by
  simp [Transmission.fragments, ← List.map_append, List.range'_append_1]

theorem Transmission.Complete.datagrams_eq_fragments {t : Transmission}
    (ht : t.Complete) : t.datagrams = t.fragments 0 t.totalFrags := by
  rw [ht.datagrams_eq, Transmission.fragments, List.range_eq_range']

/-- A batch of which every datagram keeps the loop going. -/
theorem runLoop_fragments_of_step {t : Transmission}
    {P : ℕ → RecvState → Prop} {bound : ℕ}
    (hstep : ∀ k s, P k s → k < bound →
      ∃ s', processPacket s (t.fragment k) = .next s' ∧ P (k + 1) s')
    {k n : ℕ} {s : RecvState} (h : P k s) (hn : k + n ≤ bound) :
    ∃ s', runLoop processPacket s (t.fragments k n) = .next s' ∧
      P (k + n) s' := by
  induction n generalizing k s with
  | zero => exact ⟨s, rfl, h⟩
  | succ n ih =>
      obtain ⟨s', hnext, hs'⟩ := hstep k s h (by omega)
      obtain ⟨u, hrun, hu⟩ := ih hs' (by omega)
      refine ⟨u, ?_, ?_⟩
      · rw [fragments_succ, runLoop_cons_next _ hnext]
        exact hrun
      · rw [show k + (n + 1) = k + 1 + n by omega]
        exact hu

/-- Groups that still have to bring a fragment are not empty. -/
theorem fragments_append_ne_nil {t : Transmission} {k : ℕ}
    (hk : k < t.totalFrags) (later : List Datagram) :
    t.fragments k (t.totalFrags - k) ++ later ≠ [] := by
  intro hnil
  have hlen := congrArg List.length hnil
  simp only [List.length_nil, List.length_append, length_fragments] at hlen
  omega

/-- The receiver has taken the first `k` datagrams of the burst. -/
def Received (t : Transmission) : ℕ → RecvState → Prop
  | 0, s => s.isAssembling = false
  | k + 1, s => Holding t (k + 1) s

section OneBurst

variable {t : Transmission} (ht : t.Complete)
include ht

theorem received_step {k : ℕ} {s : RecvState} (h : Received t k s)
    (hk : k + 1 < t.totalFrags) :
    ∃ s', processPacket s (t.fragment k) = .next s' ∧ Received t (k + 1) s' := by
  cases k with
  | zero => exact holding_first ht h
  | succ k => exact holding_next ht h hk

theorem received_last {k : ℕ} {s : RecvState} (h : Received t k s)
    (hk : k + 1 = t.totalFrags) :
    ∃ s', processPacket s (t.fragment k) = .stop s' ∧
      Holding t t.totalFrags s' := by
  have hfrags : 4 ≤ t.totalFrags := ht.sufficient.frags
  cases k with
  | zero => omega
  | succ k => exact holding_last ht h hk

/-- A batch that does not reach the end of the burst. -/
theorem runLoop_fragments {k n : ℕ} {s : RecvState} (h : Received t k s)
    (hn : k + n < t.totalFrags) :
    ∃ s', runLoop processPacket s (t.fragments k n) = .next s' ∧
      Received t (k + n) s' := by
  have hstep : ∀ j u, Received t j u → j < t.totalFrags - 1 →
      ∃ u', processPacket u (t.fragment j) = .next u' ∧
        Received t (j + 1) u' := by
    intro j u hu hj
    exact received_step ht hu (by omega)
  exact runLoop_fragments_of_step hstep h (by omega)

/-- A batch that reaches the end of the burst, whatever follows in it. -/
theorem runLoop_fragments_last {k n : ℕ} {s : RecvState} (h : Received t k s)
    (hn : k + (n + 1) = t.totalFrags) (trail : List Datagram) :
    ∃ s', runLoop processPacket s (t.fragments k (n + 1) ++ trail) = .stop s' ∧
      Holding t t.totalFrags s' := by
  obtain ⟨u, hrun, hu⟩ := runLoop_fragments ht h (n := n) (by omega)
  obtain ⟨s', hstep, hs'⟩ := received_last ht hu (by omega)
  refine ⟨s', ?_, hs'⟩
  rw [fragments_add, List.append_assoc, runLoop_append_next _ hrun]
  simp only [fragments_succ, List.cons_append]
  exact runLoop_cons_stop _ hstep

/-! ## The batch size -/

omit ht in
theorem Holding.adjust {k : ℕ} {s : RecvState} (h : Holding t k s) :
    Holding t k (adjustBatchSize s) := by
  rw [adjustBatchSize_eq]
  exact ⟨h.assembling, h.header, h.count, h.run.counted.of_batchSize _,
    h.run.fragments, h.run.last, h.run.lanes.written, h.run.lanes.content⟩

/-- The next read cannot reach beyond the end of the burst. -/
theorem Holding.currentBatchSize_le {k : ℕ} {s : RecvState} (h : Holding t k s)
    (hk : k < t.totalFrags) :
    (adjustBatchSize s).currentBatchSize ≤ t.totalFrags - k := by
  have hlt : t.totalFrags < 2 ^ 16 := ht.sufficient.frags_lt
  have htotal : s.finalHdr.totalFrags.toNat = t.totalFrags := by
    rw [h.header]
    simp only [mainHeader, UInt16.toNat_ofNat']
    exact Nat.mod_eq_of_lt hlt
  have hne : s.finalHdr.totalFrags ≠ 0 := by
    intro hzero
    rw [hzero] at htotal
    have : t.totalFrags = 0 := htotal.symm
    omega
  have hremaining : remainingFrags s = ((t.totalFrags - k : ℕ) : ℤ) := by
    rw [remainingFrags, htotal, h.count]
    rw [Int.bmod_eq_of_le (by omega) (by omega)]
    omega
  have hbatch : batchSize = 4 := rfl
  rw [adjustBatchSize, if_pos ⟨h.assembling, hne⟩, hremaining]
  split
  · simp only []
    omega
  · simp only []
    omega

end OneBurst

/-! ## One call -/

/-- Every read returns at least one and at most `m_current_batch_size`
datagrams.  After a burst is complete, the next read is made by the next call,
which starts with a full batch. -/
def Paced : RecvState → List (List Datagram) → Prop
  | _, [] => True
  | s, g :: gs =>
      1 ≤ g.length ∧ g.length ≤ s.currentBatchSize ∧
        match runLoop processPacket s g with
        | .next s' => Paced (adjustBatchSize s') gs
        | .stop _ => Paced .initial gs

/-- A call consumes exactly the datagrams of its burst. -/
theorem recvLoop_burst {t : Transmission} (ht : t.Complete)
    {k : ℕ} {s : RecvState} {gs : List (List Datagram)}
    {later : List Datagram} (hs : Received t k s) (hk : k < t.totalFrags)
    (hsize : s.currentBatchSize ≤ t.totalFrags - k)
    (hflat : gs.flatten = t.fragments k (t.totalFrags - k) ++ later)
    (hpaced : Paced s gs) :
    ∃ (s' : RecvState) (gs' : List (List Datagram)),
      recvLoop s (gs.map .packets) = (.complete s', gs'.map .packets) ∧
      Holding t t.totalFrags s' ∧ gs'.flatten = later ∧
      Paced .initial gs' := by
  induction gs generalizing k s with
  | nil => exact absurd hflat.symm (fragments_append_ne_nil hk later)
  | cons g gs ih =>
      obtain ⟨hne, hle, hrest⟩ := hpaced
      obtain ⟨n, hn⟩ := Nat.exists_eq_add_of_le'
        (show 1 ≤ g.length from hne)
      obtain ⟨m, hm⟩ := Nat.exists_eq_add_of_le
        (show g.length ≤ t.totalFrags - k from Nat.le_trans hle hsize)
      -- The batch is the next part of the burst.
      rw [hm, fragments_add, List.append_assoc, List.flatten_cons] at hflat
      obtain ⟨hg, htail⟩ := List.append_inj hflat (by simp)
      rw [List.map_cons, recvLoop]
      rcases Nat.eq_zero_or_pos m with rfl | hpos
      · obtain ⟨s', hrun, hs'⟩ := runLoop_fragments_last ht hs
          (n := n) (by omega) []
        rw [List.append_nil, ← hn, ← hg] at hrun
        rw [hrun] at hrest ⊢
        exact ⟨s', gs, rfl, hs', by simpa [Transmission.fragments] using htail,
          hrest⟩
      · obtain ⟨s', hrun, hs'⟩ := runLoop_fragments ht hs
          (n := g.length) (by omega)
        rw [← hg] at hrun
        rw [hrun] at hrest ⊢
        obtain ⟨j, hj⟩ := Nat.exists_eq_succ_of_ne_zero
          (n := k + g.length) (by omega)
        rw [hj] at hs'
        have hbatch := hs'.currentBatchSize_le ht (by omega)
        refine ih (k := k + g.length) (by rw [hj]; exact hs'.adjust) (by omega)
          (by omega) ?_ hrest
        rw [htail, show t.totalFrags - (k + g.length) = m by omega]

/-! ## Successive calls -/

/-- Successive calls of `Recv`; `iqPools` holds the IQ pool that each call
finds. -/
def recvCalls (udpPool : DataArrayPool) (hdr : Header) :
    List DataArrayPool → List SocketOutcome → List RecvResult
  | [], _ => []
  | iqPool :: iqPools, os =>
      let r := recv udpPool iqPool hdr os
      r :: recvCalls r.udpPool hdr iqPools r.rest

/-- Every call returns its burst and leaves all later datagrams alone. -/
def DeliversInOrder : List Transmission → List RecvResult → Prop
  | [], [] => True
  | t :: ts, r :: rs =>
      Delivers t r ∧ arrivals r.rest = ts.flatMap Transmission.datagrams ∧
        DeliversInOrder ts rs
  | _, _ => False

theorem arrivals_map_packets (gs : List (List Datagram)) :
    arrivals (gs.map .packets) = gs.flatten := by
  induction gs with
  | nil => rfl
  | cons g gs ih => simp [ih]

theorem recvCalls_delivers {ts : List Transmission}
    (hts : ∀ t ∈ ts, t.Complete) {udpPool : DataArrayPool}
    (hudp : batchSize ≤ udpPool.available) (hdr : Header)
    {iqPools : List DataArrayPool} (hcount : iqPools.length = ts.length)
    (hiq : ∀ p ∈ iqPools, 0 < p.available) {gs : List (List Datagram)}
    (hflat : gs.flatten = ts.flatMap Transmission.datagrams)
    (hpaced : Paced .initial gs) :
    DeliversInOrder ts (recvCalls udpPool hdr iqPools (gs.map .packets)) := by
  induction ts generalizing udpPool iqPools gs with
  | nil =>
      rw [List.length_nil, List.length_eq_zero_iff] at hcount
      subst hcount
      trivial
  | cons t ts ih =>
      obtain ⟨iqPool, pools, rfl⟩ := List.exists_cons_of_length_eq_add_one hcount
      have ht := hts t List.mem_cons_self
      have hfrags : 4 ≤ t.totalFrags := ht.sufficient.frags
      rw [List.flatMap_cons, ht.datagrams_eq_fragments] at hflat
      obtain ⟨s, gs', hloop, hs, hrest, hpaced'⟩ :=
        recvLoop_burst (k := 0) (s := .initial) ht rfl (by omega) hfrags
          hflat hpaced
      obtain ⟨hpool, hleft, item, hreturned⟩ :=
        recv_of_complete hdr hudp (hiq iqPool List.mem_cons_self) hloop
      refine ⟨ht.delivers hs.header hs.run hreturned rfl, ?_, ?_⟩
      · rw [hleft, arrivals_map_packets, hrest]
      · have htail := ih (fun t' ht' => hts t' (List.mem_cons_of_mem _ ht'))
          (hpool ▸ hudp) (by simpa using hcount)
          (fun p hp => hiq p (List.mem_cons_of_mem _ hp)) hrest hpaced'
        simp only [hleft]
        exact htail

/-! ## Plain bursts -/

/-- One, two or four channels, whole samples, and a size that fits both the
fragmentation and the pool buffer. -/
structure Transmission.Plain (t : Transmission) : Prop where
  port : t.port ≠ 0
  bytesPerOtw : t.bytesPerOtw ≠ 0
  samples : t.sig.header.numberOfSamples ≠ 0
  channels : t.sig.getNumberOfChannels = 1 ∨ t.sig.getNumberOfChannels = 2 ∨
    t.sig.getNumberOfChannels = 4
  size_dvd : 4 * t.sig.getNumberOfChannels ∣ t.sig.header.size.toNat
  size_gt : 144 < t.sig.header.size.toNat
  size_le : t.sig.header.size.toNat ≤ iqSize

theorem fragmentable_of_dvd {size nch : ℕ}
    (hch : nch = 1 ∨ nch = 2 ∨ nch = 4) (hdvd : 4 * nch ∣ size)
    (hgt : 144 < size) (hle : size ≤ iqSize) : Fragmentable size nch := by
  have hneeded := le_fullFrags_mul size
  have hplanned := fullFrags_mul_lt size
  unfold Fragmentable
  split
  · refine ⟨hgt, ?_, ?_⟩
    · rcases hch with rfl | rfl | rfl <;> decide
    · refine Nat.dvd_add hdvd ?_
      rcases hch with rfl | rfl | rfl <;> decide
  · have hpos := fullFrags_pos size
    have hmod : 1400 % nch = 0 ∧ payloadSize % nch = 0 := by
      rcases hch with rfl | rfl | rfl <;> decide
    rw [hmod.1, hmod.2]
    rw [iqSize_eq] at hle
    unfold headerSize at hneeded hplanned
    rw [payloadSize_eq] at *
    omega

theorem Transmission.Plain.complete {t : Transmission} (h : t.Plain) :
    t.Complete := by
  have hlt : t.sig.header.size.toNat < 2 ^ 32 := by
    have hle := h.size_le
    rw [iqSize_eq] at hle
    omega
  have hsize : t.sig.getSize = t.sig.header.size.toNat := Nat.mod_eq_of_lt hlt
  have hzero : t.sig.header.numberOfChannels ≠ 0 := by
    intro h0
    have hnone : t.sig.getNumberOfChannels = 0 := by
      rw [Signal.getNumberOfChannels, h0]
      rfl
    have hch := h.channels
    omega
  have hgt := h.size_gt
  refine ⟨?_, hlt, by omega, ?_, ?_⟩
  · simp [shouldPass, h.port, h.bytesPerOtw, h.samples, hzero]
  · rw [hsize]
    exact Dvd.dvd.trans (Nat.dvd_mul_left _ 4) h.size_dvd
  · rw [hsize]
    exact fragmentable_of_dvd h.channels h.size_dvd h.size_gt h.size_le

/-- Successive calls of `Recv` return the bursts of successive calls of `Send`,
for every way of reading the stream. -/
theorem recv_stream_roundTrip {ts : List Transmission}
    (hts : ∀ t ∈ ts, t.Plain) {udpPool : DataArrayPool}
    (hudp : batchSize ≤ udpPool.available) (hdr : Header)
    {iqPools : List DataArrayPool} (hcount : iqPools.length = ts.length)
    (hiq : ∀ p ∈ iqPools, 0 < p.available) {gs : List (List Datagram)}
    (hflat : gs.flatten = ts.flatMap Transmission.datagrams)
    (hpaced : Paced .initial gs) :
    DeliversInOrder ts (recvCalls udpPool hdr iqPools (gs.map .packets)) :=
  recvCalls_delivers (fun t ht => (hts t ht).complete) hudp hdr hcount hiq
    hflat hpaced

/-- The call `Send` for a plain burst on port 5000. -/
def plainTransmission (nch : UInt8) (samples : UInt32) : Transmission :=
  ⟨5000, plainEnv, plainBurst nch samples, 4⟩

theorem plainTransmission_plain_one : (plainTransmission 1 37).Plain := by
  refine ⟨by decide, by decide, by decide, ?_, ?_, ?_, ?_⟩ <;> decide

theorem plainTransmission_plain_two : (plainTransmission 2 20).Plain := by
  refine ⟨by decide, by decide, by decide, ?_, ?_, ?_, ?_⟩ <;> decide

theorem recv_stream_roundTrip_two_bursts :
    DeliversInOrder [plainTransmission 1 37, plainTransmission 2 20]
      (recvCalls serverPool Header.zero
        [.filled 1 iqSize "IQ" false 0, .filled 1 iqSize "IQ" false 0]
        ([(plainTransmission 1 37).datagrams,
          (plainTransmission 2 20).datagrams].map .packets)) := by
  refine recv_stream_roundTrip ?_ (by decide) _ rfl ?_ ?_ ?_
  · intro t ht
    rcases List.mem_pair.mp ht with rfl | rfl
    · exact plainTransmission_plain_one
    · exact plainTransmission_plain_two
  · intro p hp
    rcases List.mem_pair.mp hp with rfl | rfl
    · decide
    · decide
  · simp
  · refine ⟨by decide, by decide, ?_⟩
    exact ⟨by decide, by decide, trivial⟩

end UDPServer
end Chem
