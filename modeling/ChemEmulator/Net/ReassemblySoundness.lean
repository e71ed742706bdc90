import ChemEmulator.Net.ReceiveBounds
import Mathlib.Data.List.Chain

/-!
# Where a returned burst comes from

Whatever arrives on the socket, a buffer that `Recv` returns was assembled
from one contiguous run of datagrams.  The invariant follows the run: while
the receiver is assembling, the datagrams consumed so far end in the run that
began with the current header, and every lane of the buffer holds what the run
carried for its channel.
-/

namespace Chem
namespace UDPServer

open ByteMemory EarlyExit

/-- Long enough to carry a fragment header; all others are ignored. -/
def Datagram.hasHeader (d : Datagram) : Bool := udpHeaderSize ≤ d.rxLen

/-- A run of fragments that belongs to the burst header `h`. -/
structure FragmentRun (h : Header) (run : List Datagram) : Prop where
  first : ∃ d rest, run = d :: rest ∧ Opens d ∧ d.mainHdr = h
  consecutive : run.IsChain fun a b => b.seqNumber = a.seqNumber + 1
  start_room : ∀ d ∈ run, d.startFlag = true →
    udpHeaderSize + headerSize ≤ d.rxLen
  payload_length : ∀ d ∈ run, d.payload.length = d.udpHdr.size.toNat
  payload_dvd : ∀ d ∈ run, h.numberOfChannels.toNat ∣ d.payload.length

/-- What channel `c` of a burst on `n` channels receives from a run. -/
def laneBytes (n : ℕ) (run : List Datagram) (c : ℕ) : List UInt8 :=
  run.flatMap fun d => d.slice (d.payload.length / n) c

/-- The burst `h` in memory `m` is what the run carries. -/
structure ReassembledFrom (h : Header) (m : Mem) (run : List Datagram) :
    Prop where
  fragments : FragmentRun h run
  channels_pos : 0 < h.numberOfChannels.toNat
  channels_dvd : h.numberOfChannels.toNat ∣ h.size.toNat
  last_end : ∃ front d, run = front ++ [d] ∧ d.endFlag = true ∧
    ∀ e ∈ front, e.endFlag = false
  inside : ∀ c < h.numberOfChannels.toNat,
    (c + 1) * (h.size.toNat / h.numberOfChannels.toNat) ≤ iqSize
  lanes : ∀ c < h.numberOfChannels.toNat,
    read m (c * (h.size.toNat / h.numberOfChannels.toNat))
        (h.size.toNat / h.numberOfChannels.toNat) =
      laneBytes h.numberOfChannels.toNat run c

/-! ## Lanes of the buffer -/

/-- The lanes hold what the run carried. -/
structure Lanes (run : List Datagram) (s : RecvState) : Prop where
  written : s.bytesWrittenPerCh =
    (run.map fun d => d.payload.length / s.activeNumChannels).sum
  content : ∀ m, ∀ c < s.activeNumChannels,
    read (applyWrites m s.writes) (c * s.perChannelStride) s.bytesWrittenPerCh =
      laneBytes s.activeNumChannels run c

theorem lanes_opened (s : RecvState) (d : Datagram) : Lanes [] (opened s d) := by
  refine ⟨rfl, fun m c _ => ?_⟩
  exact read_zero _ _

theorem Lanes.advanced {run : List Datagram} {s : RecvState}
    (h : Lanes run s) (d : Datagram) : Lanes run (advanced s d) :=
  ⟨h.written, h.content⟩

theorem laneBytes_concat (n : ℕ) (run : List Datagram) (d : Datagram) (c : ℕ) :
    laneBytes n (run ++ [d]) c =
      laneBytes n run c ++ d.slice (d.payload.length / n) c := by
  simp [laneBytes]

theorem applyWrites_append (m : Mem) (ws ws' : List Write) :
    applyWrites m (ws ++ ws') = applyWrites (applyWrites m ws) ws' := by
  simp [applyWrites, copyAll_append]

/-- The copies of one fragment are one round over the lanes. -/
theorem applyWrites_storeChunks {t : RecvState} {d : Datagram} (m : Mem)
    (hcounted : Counted (storeChunks t d)) (hstore : Storable t d)
    (hwritten : (storeChunks t d).bytesWrittenPerCh =
      t.bytesWrittenPerCh + d.payload.length / t.activeNumChannels) :
    applyWrites m (storeChunks t d).writes =
      copyAll (applyWrites m t.writes)
        (scatter t.perChannelStride t.bytesWrittenPerCh
          (d.slice (d.payload.length / t.activeNumChannels))
          t.activeNumChannels) := by
  rw [storeChunks, applyWrites_append]
  conv_lhs => rw [applyWrites]
  congr 1
  rw [scatter, List.map_map]
  apply List.map_congr_left
  intro c hc
  have hle := hcounted.lane_write_le hstore hwritten (List.mem_range.mp hc)
  simp only [Function.comp_apply]
  rw [Write.dest_eq hle]

theorem Lanes.of_store {run : List Datagram} {t : RecvState} {d : Datagram}
    (h : Lanes run t) (hcounted : Counted (storeChunks t d))
    (hstore : Storable t d)
    (hwritten : (storeChunks t d).bytesWrittenPerCh =
      t.bytesWrittenPerCh + d.payload.length / t.activeNumChannels) :
    Lanes (run ++ [d]) (storeChunks t d) := by
  constructor
  · rw [hwritten, h.written]
    simp [storeChunks]
  · intro m c hc
    have hlen : ∀ c < t.activeNumChannels,
        (d.slice (d.payload.length / t.activeNumChannels) c).length =
          d.payload.length / t.activeNumChannels :=
      fun c hc => length_slice hstore.channels_dvd hc
    have hroom : t.bytesWrittenPerCh + d.payload.length / t.activeNumChannels ≤
        t.perChannelStride := by
      rw [← hwritten]
      exact hcounted.written_le
    rw [applyWrites_storeChunks m hcounted hstore hwritten, hwritten,
      laneBytes_concat]
    have hround := read_scatter (applyWrites m t.writes) hlen hroom hc
    rw [h.content m c hc] at hround
    exact hround

/-! ## The run that is being assembled -/

/-- The receiver is assembling the fragments `run`. -/
structure Assembling (run : List Datagram) (s : RecvState) : Prop where
  counted : Counted s
  fragments : FragmentRun s.finalHdr run
  last : ∃ front d, run = front ++ [d] ∧ d.seqNumber = s.lastSeqNo
  lanes : Lanes run s

theorem FragmentRun.concat {h : Header} {run front : List Datagram}
    {e d : Datagram} (hrun : FragmentRun h run) (hlast : run = front ++ [e])
    (hseq : d.seqNumber = e.seqNumber + 1)
    (hroom : d.startFlag = true → udpHeaderSize + headerSize ≤ d.rxLen)
    (hsized : d.payload.length = d.udpHdr.size.toNat)
    (hdvd : h.numberOfChannels.toNat ∣ d.payload.length) :
    FragmentRun h (run ++ [d]) := by
  obtain ⟨a, rest, hfirst, hopens, hhdr⟩ := hrun.first
  constructor
  · exact ⟨a, rest ++ [d], by rw [hfirst]; rfl, hopens, hhdr⟩
  · apply hrun.consecutive.append (List.isChain_singleton d)
    intro x hx y hy
    rw [hlast, List.getLast?_concat] at hx
    cases hx
    cases hy
    exact hseq
  · intro x hx hstart
    rcases List.mem_append.mp hx with hold | hnew
    · exact hrun.start_room x hold hstart
    · rw [List.mem_singleton] at hnew
      subst hnew
      exact hroom hstart
  · intro x hx
    rcases List.mem_append.mp hx with hold | hnew
    · exact hrun.payload_length x hold
    · rw [List.mem_singleton] at hnew
      subst hnew
      exact hsized
  · intro x hx
    rcases List.mem_append.mp hx with hold | hnew
    · exact hrun.payload_dvd x hold
    · rw [List.mem_singleton] at hnew
      subst hnew
      exact hdvd

theorem FragmentRun.singleton {d : Datagram} (hopens : Opens d)
    (hsized : d.payload.length = d.udpHdr.size.toNat)
    (hdvd : d.mainHdr.numberOfChannels.toNat ∣ d.payload.length) :
    FragmentRun d.mainHdr [d] := by
  refine ⟨⟨d, [], rfl, hopens, rfl⟩, List.isChain_singleton d, ?_, ?_, ?_⟩
  · intro x hx _
    rw [List.mem_singleton] at hx
    subst hx
    exact hopens.room
  · intro x hx
    rw [List.mem_singleton] at hx
    subst hx
    exact hsized
  · intro x hx
    rw [List.mem_singleton] at hx
    subst hx
    exact hdvd

/-- A stored fragment opens a run or extends the one before it. -/
theorem Assembling.of_store {s t : RecvState} {d : Datagram}
    (hs : s.isAssembling = true → ∃ run, Assembling run s)
    (hcheck : checkSequence s d = .next t) (hstore : Storable t d) :
    (s.isAssembling = false ∧ Assembling [d] (storeChunks t d)) ∨
      (s.isAssembling = true ∧ ∀ run, Assembling run s →
        Assembling (run ++ [d]) (storeChunks t d)) := by
  have hold : s.isAssembling = true → Counted s := fun hasm => by
    obtain ⟨run, hrun⟩ := hs hasm
    exact hrun.counted
  obtain ⟨hcounted, hwritten⟩ := Counted.of_store hold hcheck hstore
  have hdvd := hstore.channels_dvd
  rcases checkSequence_next hcheck with ⟨hidle, hopens, rfl⟩ | ⟨hasm, hseq, rfl⟩
  · left
    refine ⟨hidle, hcounted, ?_, ⟨[], d, rfl, rfl⟩, ?_⟩
    · exact FragmentRun.singleton hopens hstore.sized hdvd
    · exact (lanes_opened s d).of_store hcounted hstore hwritten
  · right
    refine ⟨hasm, fun run hrun => ?_⟩
    obtain ⟨front, e, hsplit, he⟩ := hrun.last
    have hnext : d.seqNumber = e.seqNumber + 1 := by
      have hlt := hrun.counted.seq_lt
      rw [he, hseq, Nat.mod_eq_of_lt (by omega)]
    have hchannels : s.activeNumChannels =
        s.finalHdr.numberOfChannels.toNat := hrun.counted.channels
    refine ⟨hcounted, ?_, ⟨run, d, rfl, rfl⟩, ?_⟩
    · refine hrun.fragments.concat hsplit hnext hstore.room hstore.sized ?_
      rw [← hchannels]
      exact hdvd
    · exact (hrun.lanes.advanced d).of_store hcounted hstore hwritten

/-- While the receiver is assembling, what it has consumed ends in the run. -/
def EndsInRun (pre : List Datagram) (s : RecvState) : Prop :=
  s.isAssembling = true → ∃ front run,
    pre.filter Datagram.hasHeader = front ++ run ∧
      (∀ d ∈ run, d.endFlag = false) ∧ Assembling run s

theorem endsInRun_initial : EndsInRun [] .initial :=
  fun hasm => absurd hasm (by decide)

theorem endsInRun_batchFree : BatchFree EndsInRun := by
  intro pre s n h hasm
  obtain ⟨front, run, hsplit, hends, hrun⟩ := h hasm
  exact ⟨front, run, hsplit, hends, hrun.counted.of_batchSize n,
    hrun.fragments, hrun.last, hrun.lanes.written, hrun.lanes.content⟩

theorem EndsInRun.exists_run {pre : List Datagram} {s : RecvState}
    (h : EndsInRun pre s) (hasm : s.isAssembling = true) :
    ∃ run, Assembling run s := by
  obtain ⟨_, run, _, _, hrun⟩ := h hasm
  exact ⟨run, hrun⟩

/-- The run of a fragment that has just been stored. -/
theorem EndsInRun.of_store {pre : List Datagram} {s t : RecvState}
    {d : Datagram} (h : EndsInRun pre s) (hlen : udpHeaderSize ≤ d.rxLen)
    (hcheck : checkSequence s d = .next t) (hstore : Storable t d) :
    ∃ front run, (pre ++ [d]).filter Datagram.hasHeader =
        front ++ (run ++ [d]) ∧ (∀ e ∈ run, e.endFlag = false) ∧
      Assembling (run ++ [d]) (storeChunks t d) := by
  have hkeep : (pre ++ [d]).filter Datagram.hasHeader =
      pre.filter Datagram.hasHeader ++ [d] := by
    rw [List.filter_append]
    simp [Datagram.hasHeader, hlen]
  rcases Assembling.of_store h.exists_run hcheck hstore with
    ⟨_, hrun⟩ | ⟨hasm, hextend⟩
  · refine ⟨pre.filter Datagram.hasHeader, [], hkeep, ?_, hrun⟩
    intro e he
    exact absurd he (List.not_mem_nil)
  · obtain ⟨front, run, hsplit, hends, hrun⟩ := h hasm
    refine ⟨front, run, ?_, hends, hextend run hrun⟩
    rw [hkeep, hsplit, List.append_assoc]

theorem endsInRun_step : Preserves processPacket EndsInRun := by
  intro pre s d s' h hstep hasm
  rcases processPacket_cases s d with ⟨hshort, heq⟩ | ⟨hlen, ⟨t, heq, hidle, _⟩ |
    ⟨t, hcheck, hstore, heq⟩⟩
  · rw [heq] at hstep
    cases hstep
    obtain ⟨front, run, hsplit, hrest⟩ := h hasm
    refine ⟨front, run, ?_, hrest⟩
    have hdrop : Datagram.hasHeader d = false := by
      simp only [Datagram.hasHeader, decide_eq_false_iff_not]
      omega
    rw [List.filter_append, hsplit]
    simp [hdrop]
  · rw [heq] at hstep
    cases hstep
    rw [hidle] at hasm
    exact absurd hasm (by decide)
  · rw [heq] at hstep
    obtain ⟨front, run, hsplit, hends, hrun⟩ := h.of_store hlen hcheck hstore
    rcases finishFragment_next hstep with ⟨rfl, hend⟩ | ⟨rfl, _⟩
    · refine ⟨front, run ++ [d], hsplit, ?_, hrun⟩
      intro e he
      rcases List.mem_append.mp he with hold | hnew
      · exact hends e hold
      · rw [List.mem_singleton.mp hnew]
        exact hend
    · exact absurd hasm (by simp)

/-! ## The returned burst -/

/-- A burst is complete: its run ends in the only datagram with the end flag,
and the lanes are full. -/
structure Finished (run : List Datagram) (s : RecvState) : Prop where
  assembled : Assembling run s
  last_end : ∃ front d, run = front ++ [d] ∧ d.endFlag = true ∧
    ∀ e ∈ front, e.endFlag = false
  full : s.bytesWrittenPerCh = s.perChannelStride

theorem finished_of_stop {pre : List Datagram} {s s' : RecvState}
    {d : Datagram} (h : EndsInRun pre s)
    (hstop : processPacket s d = .stop s') :
    ∃ front run, (pre ++ [d]).filter Datagram.hasHeader = front ++ run ∧
      Finished run s' := by
  obtain ⟨t, hlen, hcheck, hstore, rfl, hend, hfull⟩ := processPacket_stop hstop
  obtain ⟨front, run, hsplit, hends, hrun⟩ := h.of_store hlen hcheck hstore
  exact ⟨front, run ++ [d], hsplit, hrun, ⟨run, d, rfl, hend, hends⟩, hfull⟩

/-- What a call has consumed when it completes a burst contains its run. -/
theorem recvLoop_finished {os rest : List SocketOutcome} {s : RecvState}
    (h : recvLoop .initial os = (.complete s, rest)) :
    ∃ front run back,
      (arrivals os).filter Datagram.hasHeader = front ++ run ++ back ∧
        Finished run s := by
  obtain ⟨front, d, back, t, hsplit, ht, hstop⟩ := recvLoop_complete
    endsInRun_batchFree endsInRun_step [] endsInRun_initial h
  obtain ⟨before, run, hrun, hfinished⟩ := finished_of_stop ht hstop
  refine ⟨before, run, back.filter Datagram.hasHeader, ?_, hfinished⟩
  rw [hsplit, ← hrun, List.nil_append, ← List.filter_append,
    List.append_assoc]
  rfl

theorem Finished.reassembledFrom {run : List Datagram} {s : RecvState}
    (h : Finished run s) (hannounced : s.finalHdr.size.toNat ≤ iqSize)
    (m : Mem) :
    ReassembledFrom s.finalHdr (applyWrites m s.writes) run := by
  have hcounted := h.assembled.counted
  refine ⟨h.assembled.fragments, hcounted.header.channels_pos,
    hcounted.header.channels_dvd, h.last_end, ?_, ?_⟩
  · intro c hc
    have htotal := Nat.mul_div_cancel' hcounted.header.channels_dvd
    have hmono := Nat.mul_le_mul_right
      (s.finalHdr.size.toNat / s.finalHdr.numberOfChannels.toNat)
      (Nat.succ_le_of_lt hc)
    rw [htotal] at hmono
    exact Nat.le_trans hmono hannounced
  · intro c hc
    rw [← hcounted.channels] at hc ⊢
    have hlane := h.assembled.lanes.content m c hc
    rw [h.full, hcounted.stride, ← hcounted.channels] at hlane
    exact hlane

/-- On arbitrary input, a buffer returned for a burst that announced at most
`IQ_SIZE` bytes was assembled from one run of the datagrams that arrived. -/
theorem recv_reassembledFrom {udpPool iqPool : DataArrayPool} {hdr h : Header}
    {os : List SocketOutcome} {buf : DArray}
    (hrecv : (recv udpPool iqPool hdr os).outcome = .returned h (some buf))
    (hannounced : h.size.toNat ≤ iqSize) :
    ∃ front run back,
      (arrivals os).filter Datagram.hasHeader = front ++ run ++ back ∧
        ReassembledFrom h buf.mem run := by
  obtain ⟨s, rest, m, hloop, rfl, hmem⟩ := recv_returned_some hrecv
  obtain ⟨front, run, back, hsplit, hfinished⟩ := recvLoop_finished hloop
  refine ⟨front, run, back, hsplit, ?_⟩
  rw [hmem]
  exact hfinished.reassembledFrom hannounced m

theorem recv_reassembledFrom_two_bytes :
    ∃ front run back,
      (arrivals [.packets [twoByteStart 5 2]]).filter Datagram.hasHeader =
          front ++ run ++ back ∧
        ReassembledFrom (twoChannelHeader 2)
          (applyWrites (fun _ => 0) [⟨0, 1, 0, [1]⟩, ⟨1, 1, 0, [2]⟩]) run := by
  have hrecv : (recv (.filled udpCap mtuSize "SERVER" true 0)
      (.filled 1 iqSize "IQ" true 0) Header.zero
      [.packets [twoByteStart 5 2]]).outcome =
        .returned (twoChannelHeader 2) (some ⟨0, applyWrites (fun _ => 0)
          [⟨0, 1, 0, [1]⟩, ⟨1, 1, 0, [2]⟩]⟩) := rfl
  exact recv_reassembledFrom hrecv (by decide)

/-! ## How large a delivered burst can be -/

/-- Sequence numbers have 16 bits and do not wrap inside a run. -/
theorem seqNumber_add_length_lt {d : Datagram} {run : List Datagram}
    (h : (d :: run).IsChain fun a b => b.seqNumber = a.seqNumber + 1) :
    d.seqNumber + run.length < 2 ^ 16 := by
  induction run generalizing d with
  | nil => exact d.seqNumber_lt
  | cons e run ih =>
      obtain ⟨hnext, hrest⟩ := List.isChain_cons_cons.mp h
      have htail := ih hrest
      rw [List.length_cons]
      omega

theorem FragmentRun.length_le {h : Header} {run : List Datagram}
    (hrun : FragmentRun h run) : run.length ≤ 2 ^ 16 := by
  obtain ⟨d, rest, rfl, -, -⟩ := hrun.first
  have hlt := seqNumber_add_length_lt hrun.consecutive
  rw [List.length_cons]
  omega

/-- What a run can carry bounds the size that its header announces. -/
theorem Finished.size_le {run : List Datagram} {s : RecvState}
    (h : Finished run s) :
    s.finalHdr.size.toNat ≤ 2 ^ 16 * payloadSize := by
  have hcounted := h.assembled.counted
  have hlanes : ∀ l : List Datagram,
      s.activeNumChannels *
          (l.map fun d => d.payload.length / s.activeNumChannels).sum ≤
        l.length * payloadSize := by
    intro l
    induction l with
    | nil => simp
    | cons d l ih =>
        have hone := (Nat.mul_div_le d.payload.length s.activeNumChannels).trans
          (length_payload_le d)
        rw [List.map_cons, List.sum_cons, Nat.mul_add, List.length_cons,
          Nat.succ_mul]
        omega
  calc s.finalHdr.size.toNat
      = s.activeNumChannels * s.perChannelStride :=
        hcounted.channels_mul_stride.symm
    _ = s.activeNumChannels *
          (run.map fun d => d.payload.length / s.activeNumChannels).sum := by
        rw [← h.full, h.assembled.lanes.written]
    _ ≤ run.length * payloadSize := hlanes run
    _ ≤ 2 ^ 16 * payloadSize :=
        Nat.mul_le_mul_right _ h.assembled.fragments.length_le

/-- A header that `Recv` delivers passed the checks, and its size fits into
the 32 bits that a `Signal` keeps of it. -/
theorem recv_delivered_header {udpPool iqPool : DataArrayPool}
    {hdr h : Header} {os : List SocketOutcome} {buf : DArray}
    (hrecv : (recv udpPool iqPool hdr os).outcome = .returned h (some buf)) :
    AcceptableHeader h ∧ h.size.toNat < 2 ^ 32 := by
  obtain ⟨s, rest, m, hloop, rfl, hmem⟩ := recv_returned_some hrecv
  obtain ⟨_, run, _, -, hfinished⟩ := recvLoop_finished hloop
  have hsize := hfinished.size_le
  rw [payloadSize_eq] at hsize
  exact ⟨hfinished.assembled.counted.header, by omega⟩

end UDPServer
end Chem
