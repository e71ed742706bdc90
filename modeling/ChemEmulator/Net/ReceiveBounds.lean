import ChemEmulator.Net.Reassembly

/-!
# Where `Recv` writes

All checks of the assembly loop are relative to the stride that the burst
header announces; nothing compares the announced size with the size of the
pool buffer.  Every copy stays inside the buffer as long as every burst that
is opened announces at most `IQ_SIZE` bytes, and a completed burst that
announced more has been written beyond the buffer.
-/

namespace Chem
namespace UDPServer

open ByteMemory EarlyExit

/-- The copy stays inside a pool buffer, and its offset is computed exactly. -/
@[mk_iff]
structure Write.InBounds (w : Write) : Prop where
  exact_dest : w.dest = w.channel * w.stride + w.written
  le_iqSize : w.channel * w.stride + w.written + w.src.length ≤ iqSize

instance (w : Write) : Decidable w.InBounds :=
  decidable_of_iff _ (Write.inBounds_iff w).symm

/-- All copies of the call so far stay inside the pool buffer. -/
abbrev RecvState.Within (s : RecvState) : Prop := ∀ w ∈ s.writes, w.InBounds

/-! ## The steps of a call -/

/-- The datagrams of one batch, each with the variables it is processed in. -/
def batchSteps : RecvState → List Datagram → List (RecvState × Datagram)
  | _, [] => []
  | s, d :: ds =>
      (s, d) ::
        match processPacket s d with
        | .next s' => batchSteps s' ds
        | .stop _ => []

/-- The datagrams a call processes, each with the variables it meets. -/
def callSteps : RecvState → List SocketOutcome → List (RecvState × Datagram)
  | _, [] => []
  | _, .closed :: _ => []
  | _, .failed :: _ => []
  | s, .wouldBlock :: os =>
      if s.isAssembling = true then [] else callSteps s os
  | s, .packets ds :: os =>
      batchSteps s ds ++
        match runLoop processPacket s ds with
        | .next s' => callSteps (adjustBatchSize s') os
        | .stop _ => []

/-- If the step opens a burst, the announced size fits in a pool buffer. -/
def OpensWithin (x : RecvState × Datagram) : Prop :=
  x.1.isAssembling = false → Opens x.2 → x.2.mainHdr.size.toNat ≤ iqSize

/-! ## Copies of one fragment -/

theorem length_slice {d : Datagram} {n c : ℕ} (hn : n ∣ d.payload.length)
    (hc : c < n) :
    (d.slice (d.payload.length / n) c).length = d.payload.length / n := by
  have hlane := lane_le (d.payload.length / n) hc
  have htotal : n * (d.payload.length / n) = d.payload.length :=
    Nat.mul_div_cancel' hn
  rw [Datagram.slice, List.length_take, List.length_drop]
  omega

theorem mem_storeChunks {s : RecvState} {d : Datagram} {w : Write}
    (h : w ∈ (storeChunks s d).writes) :
    w ∈ s.writes ∨ ∃ c < s.activeNumChannels,
      w = ⟨c, s.perChannelStride, s.bytesWrittenPerCh,
        d.slice (d.payload.length / s.activeNumChannels) c⟩ := by
  rcases List.mem_append.mp h with hold | hnew
  · exact Or.inl hold
  · obtain ⟨c, hc, rfl⟩ := List.mem_map.mp hnew
    exact Or.inr ⟨c, List.mem_range.mp hc, rfl⟩

theorem Counted.channels_mul_stride {s : RecvState} (h : Counted s) :
    s.activeNumChannels * s.perChannelStride = s.finalHdr.size.toNat := by
  rw [h.channels, h.stride, Nat.mul_div_cancel' h.header.channels_dvd]

/-- The copy of one fragment into lane `c` ends before the announced size. -/
theorem Counted.lane_write_le {t : RecvState} {d : Datagram}
    (hcounted : Counted (storeChunks t d)) (hstore : Storable t d)
    (hwritten : (storeChunks t d).bytesWrittenPerCh =
      t.bytesWrittenPerCh + d.payload.length / t.activeNumChannels)
    {c : ℕ} (hc : c < t.activeNumChannels) :
    c * t.perChannelStride + t.bytesWrittenPerCh +
        (d.slice (d.payload.length / t.activeNumChannels) c).length ≤
      t.finalHdr.size.toNat := by
  have hlane := lane_le t.perChannelStride hc
  have hsize : t.activeNumChannels * t.perChannelStride =
      t.finalHdr.size.toNat := hcounted.channels_mul_stride
  have hle : (storeChunks t d).bytesWrittenPerCh ≤ t.perChannelStride :=
    hcounted.written_le
  rw [hwritten] at hle
  rw [length_slice hstore.channels_dvd hc]
  omega

/-- The destination of a copy never wraps. -/
theorem Write.dest_eq {w : Write} {size : UInt64}
    (h : w.channel * w.stride + w.written + w.src.length ≤ size.toNat) :
    w.dest = w.channel * w.stride + w.written := by
  have hlt := size.toNat_lt
  rw [Write.dest, sizeT_of_lt (n := w.channel * w.stride) (by omega),
    sizeT_of_lt (by omega)]

/-- The variables and the copies made so far, when all announced sizes fit. -/
structure Bounded (s : RecvState) : Prop where
  counted : s.isAssembling = true → Counted s
  announced : s.isAssembling = true → s.finalHdr.size.toNat ≤ iqSize
  writes : ∀ w ∈ s.writes, w.InBounds

theorem bounded_initial : Bounded .initial := by
  refine ⟨fun h => ?_, fun h => ?_, fun w hw => ?_⟩
  · exact absurd h (by decide)
  · exact absurd h (by decide)
  · exact absurd hw (List.not_mem_nil)

theorem Bounded.of_idle {s : RecvState} (hidle : s.isAssembling = false)
    (hwrites : ∀ w ∈ s.writes, w.InBounds) : Bounded s := by
  refine ⟨fun h => ?_, fun h => ?_, hwrites⟩
  · rw [hidle] at h
    exact absurd h (by decide)
  · rw [hidle] at h
    exact absurd h (by decide)

theorem Bounded.of_store {s t : RecvState} {d : Datagram} (hs : Bounded s)
    (hwithin : OpensWithin (s, d)) (hcheck : checkSequence s d = .next t)
    (hstore : Storable t d) : Bounded (storeChunks t d) := by
  obtain ⟨hcounted, hwritten⟩ := Counted.of_store hs.counted hcheck hstore
  have hkept : t.writes = s.writes ∧ t.finalHdr.size.toNat ≤ iqSize := by
    rcases checkSequence_next hcheck with ⟨hidle, hopens, rfl⟩ | ⟨hasm, _, rfl⟩
    · exact ⟨rfl, hwithin hidle hopens⟩
    · exact ⟨rfl, hs.announced hasm⟩
  refine ⟨fun _ => hcounted, fun _ => hkept.2, fun w hw => ?_⟩
  rcases mem_storeChunks hw with hold | ⟨c, hc, rfl⟩
  · rw [hkept.1] at hold
    exact hs.writes w hold
  · have hle := hcounted.lane_write_le hstore hwritten hc
    exact ⟨Write.dest_eq hle, Nat.le_trans hle hkept.2⟩

theorem bounded_step {s : RecvState} {d : Datagram} (hs : Bounded s)
    (hwithin : OpensWithin (s, d)) : Bounded (processPacket s d).state := by
  rcases processPacket_cases s d with ⟨_, heq⟩ | ⟨_, ⟨t, heq, hidle, hsame⟩ |
    ⟨t, hcheck, hstore, heq⟩⟩
  · rw [heq]
    exact hs
  · rw [heq]
    refine Bounded.of_idle hidle fun w hw => hs.writes w ?_
    rw [← hsame]
    exact hw
  · have hstored := hs.of_store hwithin hcheck hstore
    rw [heq]
    cases hfinish : finishFragment (storeChunks t d) d with
    | next u =>
        rcases finishFragment_next hfinish with ⟨rfl, _⟩ | ⟨rfl, _⟩
        · exact hstored
        · exact Bounded.of_idle rfl hstored.writes
    | stop u =>
        obtain ⟨rfl, _, _⟩ := finishFragment_stop hfinish
        exact hstored

/-! ## Copies of a whole call -/

theorem bounded_batch {s : RecvState} {ds : List Datagram} (hs : Bounded s)
    (hwithin : ∀ x ∈ batchSteps s ds, OpensWithin x) :
    Bounded (runLoop processPacket s ds).state := by
  induction ds generalizing s with
  | nil => exact hs
  | cons d ds ih =>
      have hfirst := bounded_step hs (hwithin (s, d) List.mem_cons_self)
      cases hstep : processPacket s d with
      | next t =>
          rw [runLoop_cons_next ds hstep]
          rw [hstep] at hfirst
          refine ih hfirst fun x hx => hwithin x ?_
          simp only [batchSteps, hstep]
          exact List.mem_cons_of_mem _ hx
      | stop t =>
          rw [runLoop_cons_stop ds hstep]
          rw [hstep] at hfirst
          exact hfirst

theorem Bounded.of_adjust {s : RecvState} (hs : Bounded s) :
    Bounded (adjustBatchSize s) := by
  rw [adjustBatchSize_eq]
  exact ⟨fun h => (hs.counted h).of_batchSize _, hs.announced, hs.writes⟩

theorem bounded_call {s : RecvState} {os : List SocketOutcome} (hs : Bounded s)
    (hwithin : ∀ x ∈ callSteps s os, OpensWithin x) :
    Bounded (recvLoop s os).1.state := by
  induction os generalizing s with
  | nil => exact hs
  | cons o os ih =>
      cases o with
      | closed => exact hs
      | failed => exact hs
      | wouldBlock =>
          rw [recvLoop]
          rw [callSteps] at hwithin
          split
          · exact hs
          next hidle =>
            rw [if_neg hidle] at hwithin
            exact ih hs hwithin
      | packets ds =>
          rw [callSteps] at hwithin
          have hbatch := bounded_batch hs fun x hx =>
            hwithin x (List.mem_append_left _ hx)
          rw [recvLoop]
          cases hrun : runLoop processPacket s ds with
          | stop t =>
              rw [hrun] at hbatch
              exact hbatch
          | next t =>
              rw [hrun] at hbatch hwithin
              exact ih hbatch.of_adjust fun x hx =>
                hwithin x (List.mem_append_right _ hx)

/-- In every call whose bursts announce at most `IQ_SIZE` bytes, every copy
stays inside the pool buffer. -/
theorem recv_writes_inBounds (os : List SocketOutcome)
    (hwithin : ∀ x ∈ callSteps .initial os, OpensWithin x) :
    ∀ w ∈ (recvLoop .initial os).1.state.writes, w.InBounds :=
  (bounded_call bounded_initial hwithin).writes

/-- The header of a burst on two channels. -/
def twoChannelHeader (size : UInt64) : Header :=
  { Header.zero with
    size := size
    numberOfSamples := 1
    totalFrags := 4
    numberOfChannels := 2 }

/-- The first fragment of such a burst, with one byte of each channel. -/
def twoByteStart (flag : UInt8) (size : UInt64) : Datagram :=
  .ofWire (UDPHeader.encode ⟨0, 2, 0, flag, 0⟩ ++
    (Header.encode 0 (twoChannelHeader size) ++ [1, 2]))

/-- The copy into the second channel of a burst of 16 bytes. -/
theorem recv_writes_inBounds_small :
    (⟨1, 8, 0, [2]⟩ : Write).InBounds := by
  have hsteps : callSteps .initial [.packets [twoByteStart 1 16]] =
      [(.initial, twoByteStart 1 16)] := rfl
  refine recv_writes_inBounds [.packets [twoByteStart 1 16]] ?_ _ (by decide)
  rw [hsteps]
  intro x hx _ _
  rw [List.mem_singleton.mp hx]
  decide

/-- An announced size of a tebibyte: the second channel starts 512 GiB behind
the first. -/
theorem recv_writes_beyond_buffer :
    ¬ ∀ w ∈ (recvLoop .initial
        [.packets [twoByteStart 1 1099511627776]]).1.state.writes,
      w.InBounds := by
  intro h
  have hmem : (⟨1, 549755813888, 0, [2]⟩ : Write) ∈ (recvLoop .initial
      [.packets [twoByteStart 1 1099511627776]]).1.state.writes := by decide
  exact absurd (h _ hmem).le_iqSize (by decide)

/-! ## The announced size is what matters -/

/-- A completed burst that stayed inside the buffer announced a size that
fits.  Of a burst that was not completed this cannot be said: it may announce
any size, and the fragments that arrived may all lie low. -/
theorem announced_le_of_inBounds {os rest : List SocketOutcome}
    {s : RecvState} (h : recvLoop .initial os = (.complete s, rest))
    (hwrites : ∀ w ∈ s.writes, w.InBounds) :
    s.finalHdr.size.toNat ≤ iqSize := by
  obtain ⟨_, d, _, t, _, ht, hstop⟩ := recvLoop_complete
    countedAfter_batchFree countedAfter_step [] countedAfter_initial h
  obtain ⟨u, _, hcheck, hstore, rfl, _, hfull⟩ := processPacket_stop hstop
  obtain ⟨hcounted, hwritten⟩ := Counted.of_store ht hcheck hstore
  -- The copy into the last channel ends where the announced size does.
  obtain ⟨k, hk⟩ := Nat.exists_eq_succ_of_ne_zero
    (Nat.ne_of_gt hstore.channels_pos)
  have hlast : (⟨k, u.perChannelStride, u.bytesWrittenPerCh,
      d.slice (d.payload.length / u.activeNumChannels) k⟩ : Write) ∈
      (storeChunks u d).writes := by
    apply List.mem_append_right
    exact List.mem_map.mpr ⟨k, List.mem_range.mpr (by omega), rfl⟩
  have hbound := (hwrites _ hlast).le_iqSize
  simp only [length_slice hstore.channels_dvd (show k < _ by omega)] at hbound
  have hsize : u.activeNumChannels * u.perChannelStride =
      (storeChunks u d).finalHdr.size.toNat := hcounted.channels_mul_stride
  have hexpand : u.activeNumChannels * u.perChannelStride =
      k * u.perChannelStride + u.perChannelStride := by
    rw [hk, Nat.succ_mul]
  have hend : u.bytesWrittenPerCh + d.payload.length / u.activeNumChannels =
      u.perChannelStride := hwritten.symm.trans hfull
  omega

/-! ## Calls that stay inside the buffer -/

/-- `UDPServer::Recv` as far as the language defines it: a call that copies
beyond the buffer has no result. -/
def recvWithin (udpPool iqPool : DataArrayPool) (hdr : Header)
    (os : List SocketOutcome) : Option RecvResult :=
  let r := recv udpPool iqPool hdr os
  match r.outcome with
  -- the pools are asked before anything is copied
  | .threw _ => some r
  | _ => if (recvLoop .initial os).1.state.Within then some r else none

section Within

variable {udpPool iqPool : DataArrayPool} {hdr : Header}
  {os : List SocketOutcome}

theorem recvWithin_of_within (h : (recvLoop .initial os).1.state.Within) :
    recvWithin udpPool iqPool hdr os = some (recv udpPool iqPool hdr os) := by
  unfold recvWithin
  dsimp only
  split
  · rfl
  · exact if_pos h

theorem eq_recv_of_recvWithin {r : RecvResult}
    (h : recvWithin udpPool iqPool hdr os = some r) :
    r = recv udpPool iqPool hdr os := by
  unfold recvWithin at h
  dsimp only at h
  split at h
  · exact (Option.some.inj h).symm
  · split_ifs at h
    exact (Option.some.inj h).symm

theorem within_of_recvWithin {r : RecvResult}
    (h : recvWithin udpPool iqPool hdr os = some r)
    (hthrew : ∀ msg, (recv udpPool iqPool hdr os).outcome ≠ .threw msg) :
    (recvLoop .initial os).1.state.Within := by
  unfold recvWithin at h
  dsimp only at h
  split at h
  next msg heq => exact absurd heq (hthrew msg)
  next => exact (Option.ite_none_right_eq_some.mp h).1

end Within

/-! No copy is forgotten. -/

theorem within_of_step {s : RecvState} {d : Datagram}
    (h : (processPacket s d).state.Within) : s.Within := by
  rcases processPacket_cases s d with ⟨_, heq⟩ | ⟨_, ⟨t, heq, _, hsame⟩ |
    ⟨t, hcheck, _, heq⟩⟩
  · rw [heq] at h
    exact h
  · rw [heq] at h
    exact fun w hw => h w (hsame ▸ hw)
  · have hkept : t.writes = s.writes := by
      rcases checkSequence_next hcheck with ⟨_, _, rfl⟩ | ⟨_, _, rfl⟩ <;> rfl
    have hstored : (storeChunks t d).Within := by
      rw [heq] at h
      cases hfinish : finishFragment (storeChunks t d) d with
      | next u =>
          rw [hfinish] at h
          rcases finishFragment_next hfinish with ⟨rfl, _⟩ | ⟨rfl, _⟩ <;>
            exact h
      | stop u =>
          rw [hfinish] at h
          obtain ⟨rfl, _, _⟩ := finishFragment_stop hfinish
          exact h
    exact fun w hw => hstored w (List.mem_append_left _ (hkept.symm ▸ hw))

theorem within_of_batch (ds : List Datagram) {s : RecvState}
    (h : (runLoop processPacket s ds).state.Within) : s.Within := by
  induction ds generalizing s with
  | nil => exact h
  | cons d ds ih =>
      refine within_of_step (d := d) ?_
      cases hstep : processPacket s d with
      | next t =>
          rw [runLoop_cons_next ds hstep] at h
          exact ih h
      | stop t =>
          rw [runLoop_cons_stop ds hstep] at h
          exact h

theorem within_of_call (os : List SocketOutcome) {s : RecvState}
    (h : (recvLoop s os).1.state.Within) : s.Within := by
  induction os generalizing s with
  | nil => exact h
  | cons o os ih =>
      cases o with
      | closed => exact h
      | failed => exact h
      | wouldBlock =>
          rw [recvLoop] at h
          split at h
          · exact h
          · exact ih h
      | packets ds =>
          refine within_of_batch ds ?_
          rw [recvLoop] at h
          cases hrun : runLoop processPacket s ds with
          | stop t =>
              rw [hrun] at h
              exact h
          | next t =>
              rw [hrun] at h
              have hadjusted := ih h
              rw [adjustBatchSize_eq] at hadjusted
              exact hadjusted

end UDPServer
end Chem
