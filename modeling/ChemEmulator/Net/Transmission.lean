import ChemEmulator.Net.ReassemblySoundness
import ChemEmulator.Net.SendCompleteness

/-!
# The datagrams of one burst, seen by the receiver

A `Transmission` is one call of `Send`; it is `Complete` when the burst is of
a size that is transmitted completely.  Its datagrams are `fragment 0`, ...,
and every check that `Recv` makes on them is evaluated here: flags, sequence
number, lengths, and the slice that each channel receives.  `Holding t k s`
says that the receiver has stored the first `k` of them; the three lemmas
about `processPacket` say how it takes the next one.
-/

namespace Chem
namespace UDPServer

open ByteMemory EarlyExit UDPClient

/-- One call of `Send`. -/
structure Transmission where
  port : UInt16
  env : SendEnv
  sig : Signal
  bytesPerOtw : UInt8

namespace Transmission

/-- The datagrams of a call, as they arrive. -/
def datagrams (t : Transmission) : List Datagram :=
  (sentBytes t.port t.env t.sig t.bytesPerOtw).map Datagram.ofWire

/-- The call passes the guards of `Send`, and the burst is of a size that
`Send` fragments completely. -/
structure Complete (t : Transmission) : Prop where
  passes : shouldPass t.port t.sig t.bytesPerOtw = false
  size_lt : t.sig.header.size.toNat < 2 ^ 32
  size_pos : 0 < t.sig.getSize
  channels_dvd : t.sig.getNumberOfChannels ∣ t.sig.getSize
  fragmentable : Fragmentable t.sig.getSize t.sig.getNumberOfChannels

/-- The number of datagrams that are sent. -/
def totalFrags (t : Transmission) : ℕ := (sendPlan t.sig).totalFrags

/-- Message `i` of the call. -/
def message (t : Transmission) (i : ℕ) : Message :=
  messageAt t.env (sendPlan t.sig) i

/-- Datagram `i` of the call. -/
def fragment (t : Transmission) (i : ℕ) : Datagram :=
  .ofWire ((t.message i).bytes t.env.headerPad t.sig.mem)

section CompleteTransmission

variable {t : Transmission} (ht : t.Complete)
include ht

theorem Complete.getSize_eq : t.sig.getSize = t.sig.header.size.toNat :=
  Nat.mod_eq_of_lt ht.size_lt

theorem Complete.channels_pos : 0 < t.sig.getNumberOfChannels := by
  apply Nat.pos_of_ne_zero
  intro hzero
  have hdvd := ht.channels_dvd
  have hpos := ht.size_pos
  rw [hzero, zero_dvd_iff] at hdvd
  omega

theorem Complete.sufficient : Sufficient (sendPlan t.sig) :=
  ht.fragmentable.sufficient ht.channels_pos ht.channels_dvd

theorem Complete.datagrams_eq :
    t.datagrams = (List.range t.totalFrags).map t.fragment := by
  rw [datagrams, sentBytes, (sendTrace_sufficient t.env ht.passes
    ht.sufficient).1, List.map_map, List.map_map]
  rfl

/-! ## Bytes of one datagram -/

omit ht in
theorem payloadBytes_message (i : ℕ) :
    ((t.message i).chunks.flatMap fun chunk =>
        read t.sig.mem chunk.1 chunk.2) =
      (List.range t.sig.getNumberOfChannels).flatMap fun c =>
        read t.sig.mem
          (c * t.sig.getSizePerBuff + sentAt (sendPlan t.sig) i /
            t.sig.getNumberOfChannels) (chunkAt (sendPlan t.sig) i) := by
  simp only [message, messageAt, fragMessage, List.flatMap_map]
  rfl

omit ht in
theorem length_payloadBytes (i : ℕ) :
    ((t.message i).chunks.flatMap fun chunk =>
        read t.sig.mem chunk.1 chunk.2).length =
      t.sig.getNumberOfChannels * chunkAt (sendPlan t.sig) i := by
  rw [payloadBytes_message]
  simp [List.length_flatMap]

omit ht in
theorem length_mainHeaderBytes (i : ℕ) :
    (Message.mainHeaderBytes t.env.headerPad (t.message i).mainHeader).length =
      if i = 0 then headerSize else 0 := by
  by_cases hi : i = 0
  · simp [message, messageAt, fragMessage, Message.mainHeaderBytes, hi]
  · simp [message, messageAt, fragMessage, Message.mainHeaderBytes, hi]

theorem Complete.length_bytes {i : ℕ} (hi : i < t.totalFrags) :
    ((t.message i).bytes t.env.headerPad t.sig.mem).length ≤ mtuSize := by
  have hwire := ht.sufficient.wireLength_messageAt_le t.env hi
  have hpayload := ht.sufficient.payloadLength_messageAt t.env i
  have hchunk := ht.sufficient.chunkAt_mul (i := i)
  have hsome : (messageAt t.env (sendPlan t.sig) i).mainHeader.isSome =
      decide (i = 0) := by
    by_cases h0 : i = 0
    · simp [messageAt, fragMessage, h0]
    · simp [messageAt, fragMessage, h0]
  rw [Message.wireLength, hpayload, ← hchunk, hsome, sendPlan_nofCh] at hwire
  simp only [decide_eq_true_eq] at hwire
  rw [Message.bytes, List.length_append, List.length_append,
    UDPHeader.length_encode, length_mainHeaderBytes, length_payloadBytes,
    Nat.mul_comm]
  omega

theorem Complete.bytes_fragment {i : ℕ} (hi : i < t.totalFrags) :
    (t.fragment i).bytes = (t.message i).header.encode ++
      (Message.mainHeaderBytes t.env.headerPad (t.message i).mainHeader ++
        (t.message i).chunks.flatMap fun chunk =>
          read t.sig.mem chunk.1 chunk.2) := by
  rw [fragment, Datagram.ofWire]
  simp only []
  rw [List.take_of_length_le (ht.length_bytes hi)]
  rfl

theorem Complete.udpHdr_fragment {i : ℕ} (hi : i < t.totalFrags) :
    (t.fragment i).udpHdr = (t.message i).header := by
  rw [Datagram.udpHdr, ht.bytes_fragment hi]
  exact UDPHeader.decode_encode _ _

theorem Complete.startFlag_fragment {i : ℕ} (hi : i < t.totalFrags) :
    (t.fragment i).startFlag = true ↔ i = 0 := by
  have hfrags : 4 ≤ t.totalFrags := ht.sufficient.frags
  rw [Datagram.startFlag, ht.udpHdr_fragment hi]
  exact startFlag_messageAt t.env i (by unfold totalFrags at hfrags; omega)

theorem Complete.endFlag_fragment {i : ℕ} (hi : i < t.totalFrags) :
    (t.fragment i).endFlag = true ↔ i + 1 = t.totalFrags := by
  have hfrags : 4 ≤ t.totalFrags := ht.sufficient.frags
  rw [Datagram.endFlag, ht.udpHdr_fragment hi]
  exact endFlag_messageAt t.env i (by unfold totalFrags at hfrags; omega)

theorem Complete.seqNumber_fragment {i : ℕ} (hi : i < t.totalFrags) :
    (t.fragment i).seqNumber = i := by
  have hfrags : t.totalFrags < 2 ^ 16 := ht.sufficient.frags_lt
  rw [Datagram.seqNumber, ht.udpHdr_fragment hi]
  simp only [message, messageAt, fragMessage, UInt16.toNat_ofNat']
  exact Nat.mod_eq_of_lt (by omega)

theorem Complete.rxLen_fragment {i : ℕ} (hi : i < t.totalFrags) :
    (t.fragment i).rxLen = udpHeaderSize + (if i = 0 then headerSize else 0) +
      t.sig.getNumberOfChannels * chunkAt (sendPlan t.sig) i := by
  rw [Datagram.rxLen, ht.bytes_fragment hi, List.length_append,
    List.length_append, UDPHeader.length_encode, length_mainHeaderBytes,
    length_payloadBytes, Nat.add_assoc]

theorem Complete.payload_fragment {i : ℕ} (hi : i < t.totalFrags) :
    (t.fragment i).payload = (List.range t.sig.getNumberOfChannels).flatMap
      fun c => read t.sig.mem
        (c * t.sig.getSizePerBuff + sentAt (sendPlan t.sig) i /
          t.sig.getNumberOfChannels) (chunkAt (sendPlan t.sig) i) := by
  have hlength : (if (t.fragment i).startFlag = true then headerSize else 0) =
      (Message.mainHeaderBytes t.env.headerPad
        (t.message i).mainHeader).length := by
    rw [length_mainHeaderBytes]
    simp only [ht.startFlag_fragment hi]
  rw [Datagram.payload, hlength, ht.bytes_fragment hi, ← payloadBytes_message,
    ← List.append_assoc]
  apply List.drop_left'
  rw [List.length_append, UDPHeader.length_encode]

theorem Complete.length_payload {i : ℕ} (hi : i < t.totalFrags) :
    (t.fragment i).payload.length =
      t.sig.getNumberOfChannels * chunkAt (sendPlan t.sig) i := by
  rw [ht.payload_fragment hi]
  simp [List.length_flatMap]

theorem Complete.payload_div {i : ℕ} (hi : i < t.totalFrags) :
    (t.fragment i).payload.length / t.sig.getNumberOfChannels =
      chunkAt (sendPlan t.sig) i := by
  rw [ht.length_payload hi]
  exact Nat.mul_div_cancel_left _ ht.channels_pos

theorem Complete.slice_fragment {i c : ℕ} (hi : i < t.totalFrags)
    (hc : c < t.sig.getNumberOfChannels) :
    (t.fragment i).slice (chunkAt (sendPlan t.sig) i) c =
      (t.message i).channelBytes t.sig.mem c := by
  rw [Datagram.slice, ht.payload_fragment hi,
    take_drop_flatMap (fun _ _ => length_read _ _ _) hc]
  exact (channelBytes_messageAt (p := sendPlan t.sig) t.env t.sig.mem i hc).symm

theorem Complete.mainHdr_fragment : (t.fragment 0).mainHdr = mainHeader t.sig := by
  have hfrags : 4 ≤ t.totalFrags := ht.sufficient.frags
  rw [Datagram.mainHdr, ht.bytes_fragment (by omega),
    List.drop_left' (UDPHeader.length_encode _)]
  exact Header.decode_encode _ _ _

/-- What channel `c` receives from the first `k` datagrams. -/
theorem Complete.laneBytes_fragments {c k : ℕ} (hk : k ≤ t.totalFrags)
    (hc : c < t.sig.getNumberOfChannels) :
    laneBytes t.sig.getNumberOfChannels ((List.range k).map t.fragment) c =
      read t.sig.mem (c * t.sig.getSizePerBuff)
        (sentAt (sendPlan t.sig) k / t.sig.getNumberOfChannels) := by
  have hslices : laneBytes t.sig.getNumberOfChannels
      ((List.range k).map t.fragment) c =
        ((List.range k).map t.message).flatMap
          fun m => m.channelBytes t.sig.mem c := by
    rw [laneBytes, List.flatMap_map, List.flatMap_map]
    apply List.flatMap_congr
    intro i hi
    have hlt : i < t.totalFrags := Nat.lt_of_lt_of_le (List.mem_range.mp hi) hk
    rw [ht.payload_div hlt, ht.slice_fragment hlt hc]
  rw [hslices]
  exact ht.sufficient.flatMap_channelBytes t.env t.sig.mem hc hk

end CompleteTransmission

end Transmission

/-! ## What the receiver returns -/

/-- The result of a call is the burst that was sent. -/
def Delivers (t : Transmission) (r : RecvResult) : Prop :=
  ∃ buf, r.outcome = .returned (mainHeader t.sig) (some buf) ∧
    ∀ c < t.sig.getNumberOfChannels,
      read buf.mem (c * t.sig.getSizePerBuff) t.sig.getSizePerBuff =
        read t.sig.mem (c * t.sig.getSizePerBuff) t.sig.getSizePerBuff

/-- All datagrams of the burst in the buffer are the burst. -/
theorem Transmission.Complete.channel_eq {t : Transmission} (ht : t.Complete)
    {s : RecvState} (hheader : s.finalHdr = mainHeader t.sig)
    (hrun : Assembling ((List.range t.totalFrags).map t.fragment) s)
    (m : Mem) {c : ℕ} (hc : c < t.sig.getNumberOfChannels) :
    read (applyWrites m s.writes) (c * t.sig.getSizePerBuff)
        t.sig.getSizePerBuff =
      read t.sig.mem (c * t.sig.getSizePerBuff) t.sig.getSizePerBuff := by
  have hchannels : s.activeNumChannels = t.sig.getNumberOfChannels := by
    rw [hrun.counted.channels, hheader]
    rfl
  have hstride : s.perChannelStride = t.sig.getSizePerBuff := by
    rw [hrun.counted.stride, hheader, Signal.getSizePerBuff_eq ht.channels_pos,
      ht.getSize_eq]
    rfl
  have hall : sentAt (sendPlan t.sig) t.totalFrags /
      t.sig.getNumberOfChannels = t.sig.getSizePerBuff := by
    rw [totalFrags, sentAt_total, Signal.getSizePerBuff_eq ht.channels_pos]
    rfl
  have hlane := hrun.lanes.content m c (by rw [hchannels]; exact hc)
  rw [hchannels, ht.laneBytes_fragments (Nat.le_refl _) hc, hall] at hlane
  have hwritten : s.bytesWrittenPerCh = t.sig.getSizePerBuff := by
    simpa using congrArg List.length hlane
  rw [hstride, hwritten] at hlane
  exact hlane

theorem Transmission.Complete.delivers {t : Transmission} (ht : t.Complete)
    {s : RecvState} (hheader : s.finalHdr = mainHeader t.sig)
    (hrun : Assembling ((List.range t.totalFrags).map t.fragment) s)
    {r : RecvResult} {buf : DArray} {m : Mem}
    (hr : r.outcome = .returned s.finalHdr (some buf))
    (hbuf : buf.mem = applyWrites m s.writes) : Delivers t r := by
  rw [hheader] at hr
  refine ⟨buf, hr, fun c hc => ?_⟩
  rw [hbuf]
  exact ht.channel_eq hheader hrun m hc

/-! ## The receiver takes the datagrams of a burst -/

open Transmission

/-- The receiver has stored the first `k` datagrams of the burst. -/
structure Holding (t : Transmission) (k : ℕ) (s : RecvState) : Prop where
  assembling : s.isAssembling = true
  header : s.finalHdr = mainHeader t.sig
  count : s.fragmentsReceived = k
  run : Assembling ((List.range k).map t.fragment) s

section HoldingSteps

variable {t : Transmission} (ht : t.Complete)
include ht

theorem Transmission.Complete.acceptableHeader :
    AcceptableHeader (mainHeader t.sig) := by
  have hdvd := ht.channels_dvd
  have hpos := ht.size_pos
  rw [ht.getSize_eq] at hdvd hpos
  exact ⟨ht.channels_pos,
    Nat.div_pos (Nat.le_of_dvd hpos hdvd) ht.channels_pos, hdvd⟩

theorem Transmission.Complete.opens : Opens (t.fragment 0) := by
  have hfrags : 4 ≤ t.totalFrags := ht.sufficient.frags
  refine ⟨(ht.startFlag_fragment (by omega)).mpr rfl, ?_, ?_⟩
  · rw [ht.rxLen_fragment (by omega), if_pos rfl]
    exact Nat.le_add_right _ _
  · rw [ht.mainHdr_fragment]
    exact ht.acceptableHeader

theorem Transmission.Complete.udpHeaderSize_le {k : ℕ} (hk : k < t.totalFrags) :
    udpHeaderSize ≤ (t.fragment k).rxLen := by
  rw [ht.rxLen_fragment hk, Nat.add_assoc]
  exact Nat.le_add_right _ _

/-- The payload checks pass wherever the first `k` datagrams are stored. -/
theorem Transmission.Complete.storable {k : ℕ} {s : RecvState}
    (hk : k < t.totalFrags)
    (hchannels : s.activeNumChannels = t.sig.getNumberOfChannels)
    (hstride : s.perChannelStride = t.sig.getSizePerBuff)
    (hwritten : s.bytesWrittenPerCh =
      sentAt (sendPlan t.sig) k / t.sig.getNumberOfChannels) :
    Storable s (t.fragment k) := by
  have hpos := ht.sufficient.chunkAt_pos hk
  have hle : sentAt (sendPlan t.sig) (k + 1) ≤ t.sig.getSize :=
    ht.sufficient.sentAt_le (Nat.succ_le_of_lt hk)
  have hsize := t.sig.getSize_lt
  have hsum : s.bytesWrittenPerCh + (t.fragment k).payload.length /
      s.activeNumChannels = sentAt (sendPlan t.sig) (k + 1) /
        t.sig.getNumberOfChannels := by
    rw [hwritten, hchannels, ht.payload_div hk]
    exact (ht.sufficient.sentAt_div_succ hk).symm
  have hbound : sentAt (sendPlan t.sig) (k + 1) / t.sig.getNumberOfChannels ≤
      t.sig.getSize / t.sig.getNumberOfChannels := Nat.div_le_div_right hle
  have hlt : t.sig.getSize / t.sig.getNumberOfChannels < 2 ^ 64 :=
    Nat.lt_of_le_of_lt (Nat.div_le_self _ _) (by omega)
  constructor
  · intro hstart
    rw [(ht.startFlag_fragment hk).mp hstart]
    exact ht.opens.room
  · have hheader : (t.fragment k).udpHdr.size.toNat =
        chunkAt (sendPlan t.sig) k * t.sig.getNumberOfChannels % 2 ^ 64 := by
      rw [ht.udpHdr_fragment hk]
      simp [message, messageAt, fragMessage]
    have hmul := ht.sufficient.chunkAt_mul (i := k)
    rw [sendPlan_nofCh] at hmul
    rw [hheader, ht.length_payload hk, Nat.mul_comm, hmul,
      Nat.mod_eq_of_lt (by omega)]
  · rw [hchannels]
    exact ht.channels_pos
  · rw [hchannels, ht.length_payload hk]
    exact Nat.dvd_mul_right _ _
  · rw [hchannels, ht.payload_div hk]
    exact hpos
  · rw [hsum, sizeT_of_lt (by omega), hstride,
      Signal.getSizePerBuff_eq ht.channels_pos]
    exact hbound

theorem Transmission.Complete.getSizePerBuff_eq_header :
    t.sig.getSizePerBuff = t.sig.header.size.toNat /
      t.sig.header.numberOfChannels.toNat := by
  rw [Signal.getSizePerBuff_eq ht.channels_pos, ht.getSize_eq]
  rfl

omit ht in
theorem Holding.channels {k : ℕ} {s : RecvState} (h : Holding t k s) :
    s.activeNumChannels = t.sig.getNumberOfChannels := by
  rw [h.run.counted.channels, h.header]
  rfl

theorem Holding.stride {k : ℕ} {s : RecvState} (h : Holding t k s) :
    s.perChannelStride = t.sig.getSizePerBuff := by
  rw [h.run.counted.stride, h.header, ht.getSizePerBuff_eq_header]
  rfl

theorem Holding.written {k : ℕ} {s : RecvState} (h : Holding t k s)
    (hk : k ≤ t.totalFrags) :
    s.bytesWrittenPerCh =
      sentAt (sendPlan t.sig) k / t.sig.getNumberOfChannels := by
  have hpos := ht.channels_pos
  have hlane := h.run.lanes.content (fun _ => 0) 0
    (by rw [h.channels]; exact hpos)
  rw [h.channels, ht.laneBytes_fragments hk hpos] at hlane
  simpa using congrArg List.length hlane

/-- An idle receiver takes the first datagram. -/
theorem holding_first {s : RecvState} (hidle : s.isAssembling = false) :
    ∃ s', processPacket s (t.fragment 0) = .next s' ∧ Holding t 1 s' := by
  have hfrags : 4 ≤ t.totalFrags := ht.sufficient.frags
  have hzero : (mainHeader t.sig).numberOfChannels ≠ 0 := by
    intro h
    have hpos := ht.acceptableHeader.channels_pos
    rw [h] at hpos
    exact absurd hpos (by decide)
  have hcheck := checkSequence_opens hidle ht.opens
  have hstore : Storable (opened s (t.fragment 0)) (t.fragment 0) := by
    refine ht.storable (by omega) ?_ ?_ ?_
    · simp only [opened, readHeader, ht.mainHdr_fragment]
      rfl
    · simp only [opened, readHeader, ht.mainHdr_fragment]
      rw [if_neg hzero, ht.getSizePerBuff_eq_header]
      rfl
    · rw [ht.sufficient.sentAt_zero, Nat.zero_div]
      rfl
  have hend : (t.fragment 0).endFlag = false := by
    rw [Bool.eq_false_iff, ne_eq, ht.endFlag_fragment (by omega)]
    omega
  refine ⟨storeChunks (opened s (t.fragment 0)) (t.fragment 0), ?_, ?_⟩
  · rw [processPacket_of_storable (ht.udpHeaderSize_le (by omega)) hcheck hstore,
      finishFragment_of_not_end hend]
  · rcases Assembling.of_store
      (fun hasm => absurd hasm (by rw [hidle]; decide)) hcheck hstore with
      ⟨_, hrun⟩ | ⟨hasm, _⟩
    · exact ⟨rfl, ht.mainHdr_fragment, rfl, hrun⟩
    · rw [hidle] at hasm
      exact absurd hasm (by decide)

/-- The datagram behind the stored ones passes the sequence check. -/
theorem Holding.seqNumber_next {k : ℕ} {s : RecvState}
    (h : Holding t (k + 1) s) (hk : k + 1 < t.totalFrags) :
    (t.fragment (k + 1)).seqNumber = (s.lastSeqNo + 1) % 2 ^ 32 := by
  have hlt := h.run.counted.seq_lt
  obtain ⟨front, d, hsplit, hlast⟩ := h.run.last
  rw [List.range_succ, List.map_append] at hsplit
  have hd : [t.fragment k] = [d] := (List.append_inj' hsplit rfl).2
  rw [List.singleton_inj] at hd
  have hseq : s.lastSeqNo = k := by
    rw [← hlast, ← hd]
    exact ht.seqNumber_fragment (by omega)
  rw [ht.seqNumber_fragment hk, hseq, Nat.mod_eq_of_lt (by omega)]

theorem holding_store {k : ℕ} {s : RecvState} (h : Holding t (k + 1) s)
    (hk : k + 1 < t.totalFrags) :
    ∃ s', Holding t (k + 2) s' ∧
      processPacket s (t.fragment (k + 1)) =
        finishFragment s' (t.fragment (k + 1)) := by
  have hfrags : t.totalFrags < 2 ^ 16 := ht.sufficient.frags_lt
  have hcheck := checkSequence_advances h.assembling (h.seqNumber_next ht hk)
  have hstore : Storable (advanced s (t.fragment (k + 1)))
      (t.fragment (k + 1)) :=
    ht.storable hk h.channels (h.stride ht) (h.written ht (Nat.le_of_lt hk))
  refine ⟨storeChunks (advanced s (t.fragment (k + 1))) (t.fragment (k + 1)), ?_,
    processPacket_of_storable (ht.udpHeaderSize_le hk) hcheck hstore⟩
  rcases Assembling.of_store (fun _ => ⟨_, h.run⟩) hcheck hstore with
    ⟨hidle, _⟩ | ⟨_, hextend⟩
  · rw [h.assembling] at hidle
    exact absurd hidle (by decide)
  · refine ⟨h.assembling, h.header, ?_, ?_⟩
    · simp only [storeChunks, advanced, h.count]
      exact Nat.mod_eq_of_lt (by omega)
    · have hrun := hextend _ h.run
      rw [List.range_succ, List.map_append]
      exact hrun

theorem holding_next {k : ℕ} {s : RecvState} (h : Holding t (k + 1) s)
    (hk : k + 2 < t.totalFrags) :
    ∃ s', processPacket s (t.fragment (k + 1)) = .next s' ∧
      Holding t (k + 2) s' := by
  obtain ⟨s', hs', hstep⟩ := holding_store ht h (by omega)
  have hend : (t.fragment (k + 1)).endFlag = false := by
    rw [Bool.eq_false_iff, ne_eq, ht.endFlag_fragment (by omega)]
    omega
  exact ⟨s', by rw [hstep, finishFragment_of_not_end hend], hs'⟩

/-- The last datagram completes the burst. -/
theorem holding_last {k : ℕ} {s : RecvState} (h : Holding t (k + 1) s)
    (hk : k + 2 = t.totalFrags) :
    ∃ s', processPacket s (t.fragment (k + 1)) = .stop s' ∧
      Holding t t.totalFrags s' := by
  obtain ⟨s', hs', hstep⟩ := holding_store ht h (by omega)
  have hend := (ht.endFlag_fragment (i := k + 1) (by omega)).mpr (by omega)
  have hfull : s'.bytesWrittenPerCh = s'.perChannelStride := by
    rw [hs'.written ht (by omega), hs'.stride ht, hk, totalFrags, sentAt_total,
      Signal.getSizePerBuff_eq ht.channels_pos]
    rfl
  exact ⟨s', by rw [hstep, finishFragment_of_full hend hfull], hk ▸ hs'⟩

end HoldingSteps

end UDPServer
end Chem
