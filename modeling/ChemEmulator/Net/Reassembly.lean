import ChemEmulator.Net.UdpServer
import Mathlib.Tactic.Linarith

/-!
# What one datagram does to a reassembly

The loop body of `Recv` has a dozen exits.  `processPacket_cases` reduces them
to three: the datagram is too short and nothing happens, the receiver is idle
afterwards, or the fragment is stored.  Everything that is proved about a
whole call goes through this lemma and the run rules at the end.
-/

namespace Chem
namespace UDPServer

open ByteMemory EarlyExit

/-! ## Datagrams that pass the checks -/

/-- The header check in front of a burst. -/
structure AcceptableHeader (h : Header) : Prop where
  channels_pos : 0 < h.numberOfChannels.toNat
  stride_pos : 0 < h.size.toNat / h.numberOfChannels.toNat
  channels_dvd : h.numberOfChannels.toNat ∣ h.size.toNat

/-- A datagram that opens a burst when the receiver is idle. -/
structure Opens (d : Datagram) : Prop where
  start : d.startFlag = true
  room : udpHeaderSize + headerSize ≤ d.rxLen
  header : AcceptableHeader d.mainHdr

/-- The payload checks. -/
structure Storable (s : RecvState) (d : Datagram) : Prop where
  room : d.startFlag = true → udpHeaderSize + headerSize ≤ d.rxLen
  sized : d.payload.length = d.udpHdr.size.toNat
  channels_pos : 0 < s.activeNumChannels
  channels_dvd : s.activeNumChannels ∣ d.payload.length
  chunk_pos : 0 < d.payload.length / s.activeNumChannels
  fits : sizeT (s.bytesWrittenPerCh + d.payload.length / s.activeNumChannels) ≤
    s.perChannelStride

/-- The variables after a burst has been opened. -/
def opened (s : RecvState) (d : Datagram) : RecvState :=
  { readHeader s d with isAssembling := true }

/-- The variables after the next fragment has been recognised. -/
def advanced (s : RecvState) (d : Datagram) : RecvState :=
  { s with lastSeqNo := d.seqNumber }

theorem length_payload_le (d : Datagram) : d.payload.length ≤ payloadSize := by
  have hlen := d.length_le
  have hsizes : payloadSize = mtuSize - udpHeaderSize := rfl
  rw [Datagram.payload, List.length_drop]
  omega

@[simp] theorem resetAssembly_isAssembling (s : RecvState) :
    s.resetAssembly.isAssembling = false := rfl

/-! ## The checks, inverted -/

theorem readHeader_rejected_iff (s : RecvState) (d : Datagram) :
    ((readHeader s d).activeNumChannels = 0 ∨
        (readHeader s d).perChannelStride = 0 ∨
        d.mainHdr.size.toNat % (readHeader s d).activeNumChannels ≠ 0) ↔
      ¬ AcceptableHeader d.mainHdr := by
  have hzero : d.mainHdr.numberOfChannels = 0 ↔
      d.mainHdr.numberOfChannels.toNat = 0 := by
    rw [← UInt8.toNat_inj]
    rfl
  simp only [readHeader]
  constructor
  · rintro hbad ⟨hpos, hstride, hdvd⟩
    rw [if_neg (by rw [hzero]; omega)] at hbad
    rcases hbad with h | h | h
    · omega
    · omega
    · exact h (Nat.mod_eq_zero_of_dvd hdvd)
  · intro hbad
    by_contra hgood
    push Not at hgood
    obtain ⟨hpos, hstride, hdvd⟩ := hgood
    rw [if_neg (by rw [hzero]; exact hpos)] at hstride
    exact hbad ⟨Nat.pos_of_ne_zero hpos, Nat.pos_of_ne_zero hstride,
      Nat.dvd_of_mod_eq_zero hdvd⟩

theorem checkSequence_opens {s : RecvState} {d : Datagram}
    (hidle : s.isAssembling = false) (hd : Opens d) :
    checkSequence s d = .next (opened s d) := by
  have hheader := (readHeader_rejected_iff s d).not.mpr (not_not.mpr hd.header)
  have hroom := hd.room
  rw [checkSequence, if_pos hidle, if_neg (by simp [hd.start]),
    if_neg (by omega)]
  simp only []
  rw [if_neg hheader]
  rfl

theorem checkSequence_advances {s : RecvState} {d : Datagram}
    (hasm : s.isAssembling = true)
    (hseq : d.seqNumber = (s.lastSeqNo + 1) % 2 ^ 32) :
    checkSequence s d = .next (advanced s d) := by
  rw [checkSequence, if_neg (by simp [hasm]), if_neg (not_not.mpr hseq)]
  rfl

/-- The only ways past the sequence check. -/
theorem checkSequence_next {s s' : RecvState} {d : Datagram}
    (h : checkSequence s d = .next s') :
    (s.isAssembling = false ∧ Opens d ∧ s' = opened s d) ∨
      (s.isAssembling = true ∧ d.seqNumber = (s.lastSeqNo + 1) % 2 ^ 32 ∧
        s' = advanced s d) := by
  by_cases hidle : s.isAssembling = false
  · left
    by_cases hopens : Opens d
    · rw [checkSequence_opens hidle hopens] at h
      cases h
      exact ⟨hidle, hopens, rfl⟩
    · rw [checkSequence, if_pos hidle] at h
      split at h
      · cases h
      next hstart =>
        split at h
        · cases h
        next hroom =>
          simp only [] at h
          split at h
          · cases h
          next hheader =>
            have haccept := not_not.mp
              ((readHeader_rejected_iff s d).not.mp hheader)
            exact absurd ⟨by simpa using hstart, by omega, haccept⟩ hopens
  · right
    have hasm : s.isAssembling = true := by simpa using hidle
    by_cases hseq : d.seqNumber = (s.lastSeqNo + 1) % 2 ^ 32
    · rw [checkSequence_advances hasm hseq] at h
      cases h
      exact ⟨hasm, hseq, rfl⟩
    · rw [checkSequence, if_neg hidle, if_pos hseq] at h
      cases h

/-- A datagram that is skipped leaves the receiver idle. -/
theorem checkSequence_stop {s s' : RecvState} {d : Datagram}
    (h : checkSequence s d = .stop s') :
    s'.isAssembling = false ∧ s'.writes = s.writes := by
  unfold checkSequence at h
  split at h
  next hidle =>
    split at h
    · cases h
      exact ⟨hidle, rfl⟩
    · split at h
      · cases h
        exact ⟨hidle, rfl⟩
      · simp only [] at h
        split at h
        · cases h
          exact ⟨rfl, rfl⟩
        · cases h
  · split at h
    · cases h
      exact ⟨rfl, rfl⟩
    · cases h

theorem storePayload_of_storable {s : RecvState} {d : Datagram}
    (h : Storable s d) :
    storePayload s d = finishFragment (storeChunks s d) d := by
  have hroom : ¬ (d.startFlag = true ∧
      d.rxLen - udpHeaderSize < headerSize) := by
    rintro ⟨hstart, hshort⟩
    have := h.room hstart
    omega
  have hchannels : ¬ (s.activeNumChannels = 0 ∨
      d.payload.length % s.activeNumChannels ≠ 0) := by
    rintro (hzero | hmod)
    · exact absurd h.channels_pos (by omega)
    · exact hmod (Nat.mod_eq_zero_of_dvd h.channels_dvd)
  have hfits : ¬ (d.payload.length / s.activeNumChannels = 0 ∨
      s.perChannelStride < sizeT (s.bytesWrittenPerCh +
        d.payload.length / s.activeNumChannels)) := by
    rintro (hzero | hover)
    · exact absurd h.chunk_pos (by omega)
    · exact absurd h.fits (Nat.not_le.mpr hover)
  rw [storePayload, if_neg hroom, if_neg (not_not.mpr h.sized),
    if_neg hchannels, if_neg hfits]

theorem storePayload_of_not_storable {s : RecvState} {d : Datagram}
    (hlen : udpHeaderSize ≤ d.rxLen) (h : ¬ Storable s d) :
    storePayload s d = .next s.resetAssembly := by
  unfold storePayload
  split
  · rfl
  next hroom =>
    split
    · rfl
    next hsized =>
      split
      · rfl
      next hchannels =>
        split
        · rfl
        next hfits =>
          push Not at hroom hsized hchannels hfits
          exact absurd ⟨fun hstart => by have := hroom hstart; omega, hsized,
            Nat.pos_of_ne_zero hchannels.1,
            Nat.dvd_of_mod_eq_zero hchannels.2,
            Nat.pos_of_ne_zero hfits.1, hfits.2⟩ h

theorem processPacket_of_storable {s t : RecvState} {d : Datagram}
    (hlen : udpHeaderSize ≤ d.rxLen) (hcheck : checkSequence s d = .next t)
    (hstore : Storable t d) :
    processPacket s d = finishFragment (storeChunks t d) d := by
  rw [processPacket, if_neg (Nat.not_lt.mpr hlen), hcheck]
  exact storePayload_of_storable hstore

/-- What one datagram can do. -/
theorem processPacket_cases (s : RecvState) (d : Datagram) :
    (d.rxLen < udpHeaderSize ∧ processPacket s d = .next s) ∨
      udpHeaderSize ≤ d.rxLen ∧
        ((∃ s', processPacket s d = .next s' ∧ s'.isAssembling = false ∧
            s'.writes = s.writes) ∨
          ∃ t, checkSequence s d = .next t ∧ Storable t d ∧
            processPacket s d = finishFragment (storeChunks t d) d) := by
  by_cases hshort : d.rxLen < udpHeaderSize
  · exact Or.inl ⟨hshort, if_pos hshort⟩
  · refine Or.inr ⟨Nat.le_of_not_lt hshort, ?_⟩
    rw [processPacket, if_neg hshort]
    cases hcheck : checkSequence s d with
    | stop s' => exact Or.inl ⟨s', rfl, checkSequence_stop hcheck⟩
    | next t =>
        by_cases hstore : Storable t d
        · exact Or.inr ⟨t, rfl, hstore, storePayload_of_storable hstore⟩
        · left
          refine ⟨t.resetAssembly,
            storePayload_of_not_storable (Nat.le_of_not_lt hshort) hstore,
            rfl, ?_⟩
          rcases checkSequence_next hcheck with ⟨_, _, rfl⟩ | ⟨_, _, rfl⟩
          · rfl
          · rfl

/-! ## Counters of a burst -/

/-- The variables of a burst that is being assembled.  The sequence number
grows with every fragment, so that it bounds what has been written and no
counter ever wraps. -/
structure Counted (s : RecvState) : Prop where
  header : AcceptableHeader s.finalHdr
  channels : s.activeNumChannels = s.finalHdr.numberOfChannels.toNat
  stride : s.perChannelStride =
    s.finalHdr.size.toNat / s.finalHdr.numberOfChannels.toNat
  seq_lt : s.lastSeqNo < 2 ^ 16
  written_le : s.bytesWrittenPerCh ≤ s.perChannelStride
  written_seq : s.bytesWrittenPerCh ≤ payloadSize * (s.lastSeqNo + 1)
  fragments_le : s.fragmentsReceived ≤ s.lastSeqNo + 1

theorem Datagram.seqNumber_lt (d : Datagram) : d.seqNumber < 2 ^ 16 :=
  d.udpHdr.seqNumber.toNat_lt

/-- A fragment that passed all checks fits behind what has been written. -/
theorem Counted.of_store {s t : RecvState} {d : Datagram}
    (hs : s.isAssembling = true → Counted s)
    (hcheck : checkSequence s d = .next t) (hstore : Storable t d) :
    Counted (storeChunks t d) ∧
      (storeChunks t d).bytesWrittenPerCh =
        t.bytesWrittenPerCh + d.payload.length / t.activeNumChannels := by
  have hlen := length_payload_le d
  have hchunk : d.payload.length / t.activeNumChannels ≤ payloadSize :=
    Nat.le_trans (Nat.div_le_self _ _) hlen
  have hseq := d.seqNumber_lt
  have hfits := hstore.fits
  rw [payloadSize_eq] at hchunk
  rcases checkSequence_next hcheck with ⟨_, hopens, rfl⟩ | ⟨hasm, hnext, rfl⟩
  · have hzero : d.mainHdr.numberOfChannels ≠ 0 := by
      intro h
      have := hopens.header.channels_pos
      rw [h] at this
      exact absurd this (by decide)
    have hsum : sizeT ((opened s d).bytesWrittenPerCh +
        d.payload.length / (opened s d).activeNumChannels) =
          d.payload.length / (opened s d).activeNumChannels := by
      rw [sizeT_of_lt]
      · simp [opened, readHeader]
      · simp only [opened, readHeader] at hchunk ⊢
        omega
    rw [hsum] at hfits
    refine ⟨⟨hopens.header, rfl, if_neg hzero, hseq, ?_, ?_, ?_⟩, ?_⟩
    · simpa only [storeChunks, hsum] using hfits
    · simp only [storeChunks, hsum, payloadSize_eq]
      omega
    · simp [storeChunks, opened, readHeader]
    · simp only [storeChunks, hsum]
      simp [opened, readHeader]
  · have hold := hs hasm
    have hseqOld := hold.seq_lt
    have hwritten := hold.written_seq
    have hfragments := hold.fragments_le
    have hseqNew : d.seqNumber = s.lastSeqNo + 1 := by omega
    rw [payloadSize_eq] at hwritten
    have hsum : sizeT ((advanced s d).bytesWrittenPerCh +
        d.payload.length / (advanced s d).activeNumChannels) =
          s.bytesWrittenPerCh + d.payload.length / s.activeNumChannels := by
      apply sizeT_of_lt
      simp only [advanced] at hchunk ⊢
      omega
    rw [hsum] at hfits
    refine ⟨⟨hold.header, hold.channels, hold.stride, hseq, ?_, ?_, ?_⟩, hsum⟩
    · simpa only [storeChunks, hsum] using hfits
    · simp only [storeChunks, hsum, payloadSize_eq]
      simp only [advanced] at hchunk ⊢
      omega
    · simp only [storeChunks, advanced]
      omega

theorem finishFragment_of_not_end {s : RecvState} {d : Datagram}
    (h : d.endFlag = false) : finishFragment s d = .next s := by
  rw [finishFragment, h]
  rfl

theorem finishFragment_of_full {s : RecvState} {d : Datagram}
    (h : d.endFlag = true) (hfull : s.bytesWrittenPerCh = s.perChannelStride) :
    finishFragment s d = .stop s := by
  rw [finishFragment, if_pos h, if_neg (not_not.mpr hfull)]

theorem finishFragment_next {s s' : RecvState} {d : Datagram}
    (h : finishFragment s d = .next s') :
    s' = s ∧ d.endFlag = false ∨ s' = s.resetAssembly ∧ d.endFlag = true := by
  unfold finishFragment at h
  split at h
  next hend =>
    split at h
    · cases h
      exact Or.inr ⟨rfl, hend⟩
    · cases h
  next hend =>
    cases h
    exact Or.inl ⟨rfl, by simpa using hend⟩

theorem finishFragment_stop {s s' : RecvState} {d : Datagram}
    (h : finishFragment s d = .stop s') :
    s' = s ∧ d.endFlag = true ∧ s.bytesWrittenPerCh = s.perChannelStride := by
  unfold finishFragment at h
  split at h
  next hend =>
    split at h
    · cases h
    next hfull =>
      cases h
      exact ⟨rfl, hend, not_not.mp hfull⟩
  · cases h

/-- A datagram that completes a burst is stored, ends it and fills it up. -/
theorem processPacket_stop {s s' : RecvState} {d : Datagram}
    (h : processPacket s d = .stop s') :
    ∃ t, udpHeaderSize ≤ d.rxLen ∧ checkSequence s d = .next t ∧
      Storable t d ∧ s' = storeChunks t d ∧ d.endFlag = true ∧
      s'.bytesWrittenPerCh = s'.perChannelStride := by
  rcases processPacket_cases s d with ⟨_, heq⟩ | ⟨hlen, ⟨t, heq, _, _⟩ |
    ⟨t, hcheck, hstore, heq⟩⟩
  · rw [heq] at h
    cases h
  · rw [heq] at h
    cases h
  · rw [heq] at h
    obtain ⟨rfl, hend, hfull⟩ := finishFragment_stop h
    exact ⟨t, hlen, hcheck, hstore, rfl, hend, hfull⟩

/-- Resets leave the receiver idle, stored fragments keep the counters. -/
theorem counted_step {s s' : RecvState} {d : Datagram}
    (hs : s.isAssembling = true → Counted s)
    (h : processPacket s d = .next s') (hasm : s'.isAssembling = true) :
    Counted s' := by
  rcases processPacket_cases s d with ⟨_, heq⟩ | ⟨_, ⟨t, heq, hidle, _⟩ |
    ⟨t, hcheck, hstore, heq⟩⟩
  · rw [heq] at h
    cases h
    exact hs hasm
  · rw [heq] at h
    cases h
    rw [hidle] at hasm
    exact absurd hasm (by decide)
  · rw [heq] at h
    rcases finishFragment_next h with ⟨rfl, _⟩ | ⟨rfl, _⟩
    · exact (Counted.of_store hs hcheck hstore).1
    · exact absurd hasm (by simp)

/-- The counters are right whenever a burst is being assembled. -/
def CountedAfter (_ : List Datagram) (s : RecvState) : Prop :=
  s.isAssembling = true → Counted s

theorem countedAfter_initial : CountedAfter [] .initial :=
  fun hasm => absurd hasm (by decide)

theorem countedAfter_step : Preserves processPacket CountedAfter :=
  fun _ _ _ _ hs hnext => counted_step hs hnext

theorem Counted.of_batchSize {s : RecvState} (h : Counted s) (n : ℕ) :
    Counted { s with currentBatchSize := n } :=
  ⟨h.header, h.channels, h.stride, h.seq_lt, h.written_le, h.written_seq,
    h.fragments_le⟩

/-! ## Rules for a whole call -/

@[simp] theorem arrivals_nil : arrivals [] = [] := rfl

@[simp] theorem arrivals_packets (ds : List Datagram)
    (os : List SocketOutcome) :
    arrivals (.packets ds :: os) = ds ++ arrivals os := by
  simp [arrivals]

@[simp] theorem arrivals_wouldBlock (os : List SocketOutcome) :
    arrivals (.wouldBlock :: os) = arrivals os := by
  simp [arrivals]

theorem arrivals_append (os os' : List SocketOutcome) :
    arrivals (os ++ os') = arrivals os ++ arrivals os' := by
  simp [arrivals]

theorem adjustBatchSize_eq (s : RecvState) :
    adjustBatchSize s =
      { s with currentBatchSize := (adjustBatchSize s).currentBatchSize } := by
  unfold adjustBatchSize
  split
  · split
    · rfl
    · rfl
  · rfl

/-- The outcomes up to which a call is still waiting. -/
theorem recvLoop_append_waiting {s t : RecvState} {os : List SocketOutcome}
    (os' : List SocketOutcome) (h : (recvLoop s os).1 = .waiting t) :
    recvLoop s (os ++ os') = recvLoop t os' := by
  induction os generalizing s with
  | nil =>
      cases h
      rfl
  | cons o os ih =>
      cases o with
      | closed => cases h
      | failed => cases h
      | wouldBlock =>
          rw [recvLoop] at h
          rw [List.cons_append, recvLoop]
          split at h
          · cases h
          next hidle =>
            rw [if_neg hidle]
            exact ih h
      | packets ds =>
          rw [recvLoop] at h
          rw [List.cons_append, recvLoop]
          cases hbatch : runLoop processPacket s ds with
          | stop u =>
              rw [hbatch] at h
              cases h
          | next u =>
              rw [hbatch] at h
              exact ih h

/-- A property that does not depend on the batch size. -/
def BatchFree {α : Type*} (Inv : α → RecvState → Prop) : Prop :=
  ∀ a s n, Inv a s → Inv a { s with currentBatchSize := n }

theorem countedAfter_batchFree : BatchFree CountedAfter :=
  fun _ _ n hs hasm => (hs hasm).of_batchSize n

theorem BatchFree.adjust {α : Type*} {Inv : α → RecvState → Prop}
    (hfree : BatchFree Inv) {a : α} {s : RecvState} (h : Inv a s) :
    Inv a (adjustBatchSize s) := by
  rw [adjustBatchSize_eq]
  exact hfree a s _ h

/-- A complete burst was completed by one datagram, reached with the
invariant. -/
theorem recvLoop_complete {Inv : List Datagram → RecvState → Prop}
    (hfree : BatchFree Inv) (hstep : Preserves processPacket Inv)
    (pre : List Datagram) {s s' : RecvState} {os rest : List SocketOutcome}
    (hinv : Inv pre s) (h : recvLoop s os = (.complete s', rest)) :
    ∃ front d back t, arrivals os = front ++ d :: back ∧
      Inv (pre ++ front) t ∧ processPacket t d = .stop s' := by
  induction os generalizing pre s with
  | nil => cases h
  | cons o os ih =>
      cases o with
      | closed => cases h
      | failed => cases h
      | wouldBlock =>
          rw [recvLoop] at h
          split at h
          · cases h
          · simpa using ih pre hinv h
      | packets ds =>
          rw [recvLoop] at h
          cases hbatch : runLoop processPacket s ds with
          | stop t =>
              rw [hbatch] at h
              simp only [Prod.mk.injEq, LoopEnd.complete.injEq] at h
              obtain ⟨rfl, _⟩ := h
              obtain ⟨front, d, back, u, rfl, hu, hstop⟩ :=
                runLoop_stop hstep hinv hbatch
              exact ⟨front, d, back ++ arrivals os, u, by simp, hu, hstop⟩
          | next t =>
              rw [hbatch] at h
              have ht := hfree.adjust (runLoop_next hstep hinv hbatch)
              obtain ⟨front, d, back, u, hsplit, hu, hstop⟩ := ih (pre ++ ds) ht h
              refine ⟨ds ++ front, d, back, u, ?_, ?_, hstop⟩
              · rw [arrivals_packets, hsplit, List.append_assoc]
              · rwa [← List.append_assoc]

/-- The counters are right when a burst is complete. -/
theorem counted_of_complete {os rest : List SocketOutcome} {s : RecvState}
    (h : recvLoop .initial os = (.complete s, rest)) : Counted s := by
  obtain ⟨_, d, _, t, _, ht, hstop⟩ := recvLoop_complete
    countedAfter_batchFree countedAfter_step [] countedAfter_initial h
  obtain ⟨u, _, hcheck, hstore, rfl, _, _⟩ := processPacket_stop hstop
  exact (Counted.of_store ht hcheck hstore).1

/-- A call that is still waiting has consumed everything that arrived. -/
theorem recvLoop_waiting {Inv : List Datagram → RecvState → Prop}
    (hfree : BatchFree Inv) (hstep : Preserves processPacket Inv)
    (pre : List Datagram) {s s' : RecvState} {os : List SocketOutcome}
    (hinv : Inv pre s) (h : (recvLoop s os).1 = .waiting s') :
    Inv (pre ++ arrivals os) s' := by
  induction os generalizing pre s with
  | nil =>
      cases h
      simpa using hinv
  | cons o os ih =>
      cases o with
      | closed => cases h
      | failed => cases h
      | wouldBlock =>
          rw [recvLoop] at h
          split at h
          · cases h
          · simpa using ih pre hinv h
      | packets ds =>
          rw [recvLoop] at h
          cases hbatch : runLoop processPacket s ds with
          | stop t =>
              rw [hbatch] at h
              cases h
          | next t =>
              rw [hbatch] at h
              have ht := hfree.adjust (runLoop_next hstep hinv hbatch)
              rw [arrivals_packets, ← List.append_assoc]
              exact ih (pre ++ ds) ht h

theorem recvLoop_waiting_rest {s t : RecvState} {os : List SocketOutcome}
    (h : (recvLoop s os).1 = .waiting t) : (recvLoop s os).2 = [] := by
  have hsame := recvLoop_append_waiting [] h
  rw [List.append_nil] at hsame
  rw [hsame]
  rfl

theorem recvLoop_suffix (s : RecvState) (os : List SocketOutcome) :
    (recvLoop s os).2 <:+ os := by
  induction os generalizing s with
  | nil => exact List.suffix_rfl
  | cons o os ih =>
      have htail : ∀ u, (recvLoop u os).2 <:+ o :: os :=
        fun u => (ih u).trans (List.suffix_cons o os)
      cases o with
      | closed => exact List.suffix_cons _ os
      | failed => exact List.suffix_cons _ os
      | wouldBlock =>
          rw [recvLoop]
          split
          · exact List.suffix_cons _ os
          · exact htail s
      | packets ds =>
          rw [recvLoop]
          split
          · exact List.suffix_cons _ os
          · exact htail _

theorem recv_suffix (udpPool iqPool : DataArrayPool) (hdr : Header)
    (os : List SocketOutcome) :
    (recv udpPool iqPool hdr os).rest <:+ os := by
  have hloop := recvLoop_suffix .initial os
  unfold recv
  split
  · exact List.suffix_rfl
  · split
    · exact List.suffix_rfl
    · simp only []
      split
      all_goals
        next heq =>
          rw [heq] at hloop
          exact hloop

/-- A buffer is returned only when the loop completed a burst. -/
theorem recv_returned_some {udpPool iqPool : DataArrayPool} {hdr h : Header}
    {os : List SocketOutcome} {buf : DArray}
    (hrecv : (recv udpPool iqPool hdr os).outcome = .returned h (some buf)) :
    ∃ s rest m, recvLoop .initial os = (.complete s, rest) ∧
      h = s.finalHdr ∧ buf.mem = applyWrites m s.writes := by
  unfold recv at hrecv
  split at hrecv
  · cases hrecv
  · split at hrecv
    · cases hrecv
    · simp only [] at hrecv
      split at hrecv
      · cases hrecv
      next s rest hloop =>
        cases hrecv
        exact ⟨s, rest, _, hloop, rfl, rfl⟩
      · cases hrecv
      · cases hrecv
      · cases hrecv

end UDPServer
end Chem
