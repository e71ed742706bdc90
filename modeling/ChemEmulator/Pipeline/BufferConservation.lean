import ChemEmulator.Pipeline.BufferWeight
import ChemEmulator.Support.PartialRuns

/-!
# No step loses a buffer

Every component of the pipeline is a holder of buffers, and every step of it
conserves them.  The only place where a buffer could get lost silently is the
constructor of `Signal`, which drops the array of a burst of size zero: the
headers that `Recv` accepts announce a size, and the size that
`ProcessDestinationSignal` computes is never zero, although it may wrap.
-/

namespace Chem
namespace Pipeline

open Holder Outcome

variable {n : ℕ}

/-! ## The components as holders -/

/-- What `Recv` has returned. -/
def receivedWeight (w : ℕ → ℕ) : Option (Header × Option DArray) → ℕ
  | none => 0
  | some (_, data) => arrayWeight w data

instance : Holder ℕ (Receiver n) where
  weight w rx := weight w rx.queue + receivedWeight w rx.received
  Loaded rx := Loaded rx.queue ∧ ∀ hdr data,
    rx.received = some (hdr, data) → hdr.size ≠ 0 ∧ data.isSome = true

instance : Holder ℕ (Transmitter n) where
  weight w tx := weight w tx.queue
  Loaded tx := Loaded tx.queue

instance : Holder ℕ (WorkerContext n) where
  weight w ctx := weight w ctx.queue + weight w (ctx.pending.map Prod.snd) +
    weight w (ctx.outgoing.map Prod.snd)
  Loaded ctx := Loaded ctx.queue ∧ Loaded (ctx.outgoing.map Prod.snd) ∧
    (ctx.pending ≠ [] → ∃ sig, Loaded sig ∧ ctx.sigCtx = .ofSignal sig)

instance : Holder ℕ (State n) where
  weight w s := weight w s.pools + weight w s.receivers + weight w s.workers +
    weight w s.transmitters
  Loaded s := Loaded s.receivers ∧ Loaded s.workers ∧ Loaded s.transmitters

theorem Receiver.weight_eq (w : ℕ → ℕ) (rx : Receiver n) :
    weight w rx = weight w rx.queue + receivedWeight w rx.received := rfl

theorem WorkerContext.weight_eq (w : ℕ → ℕ) (ctx : WorkerContext n) :
    weight w ctx = weight w ctx.queue + weight w (ctx.pending.map Prod.snd) +
      weight w (ctx.outgoing.map Prod.snd) := rfl

theorem Transmitter.weight_eq (w : ℕ → ℕ) (tx : Transmitter n) :
    weight w tx = weight w tx.queue := rfl

theorem State.weight_eq (w : ℕ → ℕ) (s : State n) :
    weight w s = weight w s.pools + weight w s.receivers +
      weight w s.workers + weight w s.transmitters := rfl

/-! ## Receivers -/

namespace Receiver

variable {pool : DataArrayPool} {rx : Receiver n} {sig : Signal}

theorem recv_conserves (hdr : Header) (os : List UDPServer.SocketOutcome)
    (hrx : Loaded rx) :
    Conserves NotThrown (fun w => weight w pool + weight w rx)
      (rx.recv pool hdr os) := by
  have hcall := UDPServer.recv_keepsBuffers rx.udpPool pool hdr os
  unfold Receiver.recv
  split
  · exact rfl
  next hready =>
    have hnone : rx.received = none := by
      rw [not_or] at hready
      exact Option.not_isSome_iff_eq_none.mp hready.2
    simp only []
    unfold UDPServer.RecvResult.KeepsBuffers at hcall
    split
    · exact rfl
    next msg hout =>
      rw [hout] at hcall
      refine conserves_ok ⟨trivial, hrx⟩ ?_
      intro w
      rw [weight_pair, hcall w]
      rfl
    next hdr' data hout =>
      rw [hout] at hcall
      obtain ⟨hfull, hempty, hweight⟩ := hcall
      refine conserves_ok ⟨trivial, hrx.1, ?_⟩ ?_
      · intro h d hsome
        simp only [] at hsome
        split at hsome
        · cases hsome
        next hsize =>
          cases hsome
          exact ⟨hsize, hfull hsize⟩
      · intro w
        have hw := hweight w
        have hreceived : receivedWeight w
            (if hdr'.size = 0 then none else some (hdr', data)) =
              arrayWeight w data := by
          split
          next hzero =>
            rw [hempty hzero]
            rfl
          · rfl
        have hold : receivedWeight w rx.received = 0 := by
          rw [hnone]
          rfl
        simp only [weight_pair, Receiver.weight_eq, hreceived, hold]
        omega

/-- An operation on the local queue is one on the receiver. -/
theorem setQueue_conserves (extra : (ℕ → ℕ) → ℕ)
    {r : Except Halt (DataArrayPool × List Signal)} (hrx : Loaded rx)
    (hr : Conserves NotThrown
      (fun w => weight w pool + weight w rx.queue + extra w) r) :
    Conserves NotThrown (fun w => weight w pool + weight w rx + extra w)
      (r >>= fun x => .ok (x.1, { rx with queue := x.2 })) := by
  apply hr.bind
  rintro ⟨pool', queue⟩ ⟨-, hqueue⟩ hw
  refine conserves_ok ⟨trivial, hqueue, hrx.2⟩ ?_
  intro w
  have hpair := hw w
  simp only [weight_pair, Receiver.weight_eq] at hpair ⊢
  omega

theorem makeRoom_conserves (hrx : Loaded rx) :
    Conserves NotThrown (fun w => weight w pool + weight w rx)
      (rx.makeRoom pool) := by
  exact setQueue_conserves (fun _ => 0) hrx
    (SignalQueue.makeRoom_conserves queueCap hrx.1)

theorem enqueue_conserves (hrx : Loaded rx) (hsig : Loaded sig) :
    Conserves NotThrown
      (fun w => weight w pool + weight w rx + weight w sig)
      (rx.enqueue pool sig) := by
  exact setQueue_conserves _ hrx
    (SignalQueue.pushOrRelease_conserves hrx.1 hsig)

theorem add2Buff_conserves (hrx : Loaded rx) (hsig : Loaded sig) :
    Conserves NotThrown
      (fun w => weight w pool + weight w rx + weight w sig)
      (rx.add2Buff pool sig) := by
  unfold add2Buff
  split
  · apply (SignalQueue.dropOldest_conserves hrx.1).bind
    rintro ⟨pool', queue⟩ ⟨-, hqueue⟩ hw
    apply (pool'.giveBack_conserves hsig).bind
    intro pool'' _ hw'
    refine conserves_ok ⟨trivial, hqueue, hrx.2⟩ ?_
    intro w
    have hpair := hw w
    have hback := hw' w
    rw [weight_pair] at hpair ⊢
    simp only [Receiver.weight_eq]
    omega
  · refine conserves_ok ⟨trivial, ?_, hrx.2⟩ ?_
    · exact loaded_append.mpr ⟨hrx.1, loaded_cons.mpr ⟨hsig, loaded_nil⟩⟩
    · intro w
      simp only [weight_pair, Receiver.weight_eq, weight_append, weight_cons,
        weight_nil]
      omega

end Receiver

/-! ## Transmitters -/

namespace Transmitter

variable {pool : DataArrayPool} {tx : Transmitter n} {sig : Signal}

theorem add2Buff_conserves (htx : Loaded tx) (hsig : Loaded sig) :
    Conserves NotThrown
      (fun w => weight w pool + weight w tx + weight w sig)
      (tx.add2Buff pool sig) := by
  unfold add2Buff
  split
  · split
    · apply (pool.giveBack_conserves hsig).bind
      intro pool' _ hw
      refine conserves_ok ⟨trivial, htx⟩ ?_
      intro w
      have hback := hw w
      rw [weight_pair]
      omega
    next oldest rest hpop =>
      obtain ⟨hold, hrest⟩ := loaded_cons.mp
        (loaded_perm (SignalQueue.popEarliest_perm hpop) htx)
      apply (pool.giveBack_conserves hold).bind
      intro pool' _ hw
      apply (pool'.giveBack_conserves hsig).bind
      intro pool'' _ hw'
      refine conserves_ok ⟨trivial, hrest⟩ ?_
      intro w
      have hfirst := hw w
      have hsecond := hw' w
      have hqueue := SignalQueue.weight_popEarliest w hpop
      simp only [weight_pair, Transmitter.weight_eq]
      omega
  · refine conserves_ok ⟨trivial, ?_⟩ ?_
    · exact loaded_append.mpr ⟨htx, loaded_cons.mpr ⟨hsig, loaded_nil⟩⟩
    · intro w
      simp only [weight_pair, Transmitter.weight_eq, weight_append,
        weight_cons, weight_nil]
      omega

theorem transmit_conserves (sendTime : Int64) (env : UDPClient.SendEnv)
    (htx : Loaded tx) :
    Conserves NotThrown (fun w => weight w pool + weight w tx)
      (tx.transmit pool sendTime env) := by
  unfold transmit
  split
  · exact rfl
  · split
    · exact rfl
    next sig rest hpop =>
      obtain ⟨hsig, hrest⟩ := loaded_cons.mp
        (loaded_perm (SignalQueue.popEarliest_perm hpop) htx)
      have hqueue : ∀ w, weight w tx = weight w sig + weight w rest :=
        fun w => SignalQueue.weight_popEarliest w hpop
      split
      · apply (pool.giveBack_conserves hsig).bind
        intro pool' _ hw
        refine conserves_ok ⟨trivial, hrest⟩ ?_
        intro w
        rw [weight_pair, hw w, hqueue w, Nat.add_assoc]
        rfl
      · -- `Send` ends with the release of the array.
        obtain ⟨a, ha, hsame⟩ := Signal.exists_array hsig
        simp only [UDPClient.send, ha]
        refine conserves_ok ⟨trivial, hrest⟩ ?_
        intro w
        rw [weight_pair, hqueue w, hsame w, ← Nat.add_assoc,
          ← DataArrayPool.weight_release]
        rfl

end Transmitter

/-! ## Workers -/

namespace WorkerContext

/-- The size of an outgoing burst is never zero: if the product wraps, the
factor is a large float and hence a multiple of 32, while the header adds
48. -/
theorem dataSz_ne_zero (count : ℕ) {ratio : FloatValue} (hratio : ratio.NonNeg)
    (numChannels : UInt8) :
    dataSz (scaled count ratio) numChannels.toNat ≠ 0 := by
  have hchannels := numChannels.toNat_lt
  have hfloat := FloatValue.toUnsigned_round_mul (p := 24) (k := 4)
    (by norm_num) (FloatValue.nonNeg_ofInt 24 (Int.natCast_nonneg count)) hratio
  obtain ⟨m, hm⟩ : ∃ m, scaled count ratio = m := ⟨_, rfl⟩
  unfold scaled at hm
  rw [hm] at hfloat
  unfold dataSz scaled sizeT
  rw [hm]
  have hheader : headerSize = 48 := rfl
  rcases hfloat with hsmall | hdvd
  · have hbound : m * numChannels.toNat ≤ 2 ^ 28 * 256 :=
      Nat.mul_le_mul hsmall (by omega)
    omega
  · have hprod : 32 ∣ m * numChannels.toNat := Dvd.dvd.mul_right hdvd _
    omega

theorem outgoingHeader_size_ne_zero {sig : Signal} (hsig : Loaded sig)
    (dest : DestInfo) (distance : FloatValue) :
    (outgoingHeader (.ofSignal sig) dest distance).size ≠ 0 := by
  have hdest : (destHeader (.ofSignal sig) dest).size ≠ 0 := by
    unfold destHeader
    split
    next hrates =>
      have hratio : (sampleRatio (.ofSignal sig) dest).NonNeg := by
        rw [sampleRatio, if_pos hrates]
        exact FloatValue.nonNeg_div
          (FloatValue.nonNeg_ofInt 24 (Int.natCast_nonneg _))
          (FloatValue.nonNeg_ofInt 24 (Int.natCast_nonneg _))
      have hsize := dataSz_ne_zero (SignalContext.ofSignal sig).iSzCh hratio
        dest.numChannels
      intro hzero
      apply hsize
      have hnat := congrArg UInt64.toNat hzero
      simp only [UInt64.toNat_ofNat', UInt64.toNat_zero] at hnat
      have hlt : dataSz
          (scaled (SignalContext.ofSignal sig).iSzCh
            (sampleRatio (.ofSignal sig) dest))
          dest.numChannels.toNat < 2 ^ 64 := sizeT_lt _
      rwa [Nat.mod_eq_of_lt hlt] at hnat
    · exact hsig.1
  unfold outgoingHeader
  split
  · exact hdest
  · exact hdest

variable {pool : DataArrayPool} {pools : IqPools n} {ctx : WorkerContext n}
variable {sig : Signal}

theorem callback_conserves (hctx : Loaded ctx) (hsig : Loaded sig) :
    Conserves NotThrown
      (fun w => weight w pool + weight w ctx + weight w sig)
      (ctx.callback pool sig) := by
  unfold callback
  split
  · apply (pool.giveBack_conserves hsig).bind
    intro pool' _ hw
    refine conserves_ok ⟨trivial, hctx⟩ ?_
    intro w
    have hback := hw w
    rw [weight_pair]
    omega
  · apply (SignalQueue.makeRoom_conserves (queueCap - 1) hctx.1).bind
    rintro ⟨pool', queue⟩ ⟨-, hqueue⟩ hw
    apply (SignalQueue.pushOrRelease_conserves hqueue hsig).bind
    rintro ⟨pool'', queue'⟩ ⟨-, hqueue'⟩ hw'
    refine conserves_ok ⟨trivial, hqueue', hctx.2⟩ ?_
    intro w
    have hfirst := hw w
    have hsecond := hw' w
    simp only [weight_pair, WorkerContext.weight_eq] at hfirst hsecond ⊢
    omega

theorem shutdown_conserves (hctx : Loaded ctx) :
    Conserves NotThrown (fun w => weight w pool + weight w ctx)
      (ctx.shutdown pool) := by
  apply (SignalQueue.drain_conserves hctx.1).bind
  intro pool' _ hw
  refine conserves_ok ⟨trivial, loaded_nil, hctx.2⟩ ?_
  intro w
  have hdrained := hw w
  simp only [weight_pair, WorkerContext.weight_eq, weight_nil]
  omega

theorem processSignal_conserves (destinations : List DestInfo)
    (hctx : Loaded ctx) (hidle : ctx.pending = []) (hsig : Loaded sig) :
    Conserves NotThrown
      (fun w => weight w pools + weight w ctx + weight w sig)
      (ctx.processSignal pools sig destinations) := by
  unfold processSignal
  split
  · apply (pools.giveBack_conserves ctx.numaNode hsig).bind
    intro pools' _ hw
    refine conserves_ok ⟨fun _ => trivial, hctx⟩ ?_
    intro w
    have hback := hw w
    rw [weight_pair]
    omega
  · apply (pools.giveBack_conserves ctx.numaNode hsig).bind
    intro pools' _ hw
    -- Nothing has been acquired yet.
    have hdropped : Conserves NotThrown
        (fun w => weight w pools + weight w ctx + weight w sig)
        (.ok (pools', { ctx with sigCtx := .ofSignal sig }) :
          Except Halt (IqPools n × WorkerContext n)) := by
      refine conserves_ok ⟨fun _ => trivial, hctx.1, hctx.2.1, ?_⟩ ?_
      · exact fun hpending => absurd hidle hpending
      · intro w
        have hback := hw w
        simp only [weight_pair, WorkerContext.weight_eq]
        omega
    split
    · exact hdropped
    · split
      next pools'' hnone =>
        rw [IqPools.acquireFrom_none hnone]
        exact hdropped
      next buffers pools'' hsome =>
        obtain ⟨hlen, hweight⟩ := IqPools.acquireFrom_some hsome
        refine conserves_ok ⟨fun _ => trivial, hctx.1, hctx.2.1, ?_⟩ ?_
        · exact fun _ => ⟨sig, hsig, rfl⟩
        · intro w
          have hback := hw w
          have hbatch := hweight w
          simp only [weight_pair, WorkerContext.weight_eq, hidle,
            List.map_nil, weight_nil, List.map_snd_zip hlen.le]
          omega

theorem workerLoop_conserves (now maxLatencyNs : Int64)
    (destinations : List DestInfo) (hctx : Loaded ctx) :
    Conserves NotThrown (fun w => weight w pools + weight w ctx)
      (ctx.workerLoop pools now maxLatencyNs destinations) := by
  unfold workerLoop
  split
  · exact rfl
  next hready =>
    have hidle : ctx.pending = [] := by
      by_contra hpending
      exact hready (Or.inr (Or.inl hpending))
    split
    · exact rfl
    next sig rest hqueue =>
      have hloaded : Loaded (sig :: rest) := hqueue ▸ hctx.1
      obtain ⟨hsig, hrest⟩ := loaded_cons.mp hloaded
      have hweight : ∀ w, weight w ctx =
          weight w { ctx with queue := rest } + weight w sig := by
        intro w
        simp only [WorkerContext.weight_eq, hqueue, weight_cons]
        omega
      have hctx' : Loaded { ctx with queue := rest } := ⟨hrest, hctx.2⟩
      split
      · apply (pools.giveBack_conserves ctx.numaNode hsig).bind
        intro pools' _ hw
        refine conserves_ok ⟨fun _ => trivial, hctx'⟩ ?_
        intro w
        rw [weight_pair, hw w, hweight w]
        omega
      · apply (processSignal_conserves destinations hctx' hidle hsig).of_total
        intro w
        rw [hweight w, Nat.add_assoc]

/-- The buffer of one destination, taken out of those that are pending. -/
theorem weight_pending_eraseIdx {k : ℕ} {dest : DestInfo} {buffer : DArray}
    (hk : ctx.pending[k]? = some (dest, buffer)) (w : ℕ → ℕ) :
    weight w ((ctx.pending.eraseIdx k).map Prod.snd) + weight w buffer =
      weight w (ctx.pending.map Prod.snd) := by
  rw [← List.eraseIdx_map]
  apply weight_eraseIdx
  rw [List.getElem?_map, hk]
  rfl

theorem processDestinationSignal_conserves (k : ℕ) (distance : FloatValue)
    (samples : ByteMemory.Mem) (hctx : Loaded ctx) :
    Conserves NotThrown (fun w => weight w pools + weight w ctx)
      (ctx.processDestinationSignal pools k distance samples) := by
  unfold processDestinationSignal
  split
  · exact rfl
  next dest buffer hk =>
    have hpending : ctx.pending ≠ [] := by
      intro hnil
      rw [hnil] at hk
      cases hk
    obtain ⟨sig, hsig, hsigCtx⟩ := hctx.2.2 hpending
    have herase := weight_pending_eraseIdx hk
    split
    · apply (pools.giveBack_some_conserves ctx.numaNode buffer).bind
      intro pools' _ hw
      refine conserves_ok ⟨fun _ => trivial, hctx.1, hctx.2.1, ?_⟩ ?_
      · exact fun _ => ⟨sig, hsig, hsigCtx⟩
      · intro w
        have hback := hw w
        have hrest := herase w
        simp only [weight_pair, WorkerContext.weight_eq]
        omega
    · rw [hsigCtx]
      obtain ⟨hloaded, hsame⟩ := Signal.loaded_create
        { buffer with mem := samples }
        (outgoingHeader_size_ne_zero hsig dest distance)
      refine conserves_ok ⟨fun _ => trivial, hctx.1, ?_, ?_⟩ ?_
      · rw [List.map_append]
        exact loaded_append.mpr
          ⟨hctx.2.1, loaded_cons.mpr ⟨hloaded, loaded_nil⟩⟩
      · exact fun _ => ⟨sig, hsig, rfl⟩
      · intro w
        have hrest := herase w
        have hnew := hsame w
        have hmem : weight w { buffer with mem := samples } = weight w buffer :=
          rfl
        simp only [weight_pair, WorkerContext.weight_eq, List.map_append,
          List.map_cons, List.map_nil, weight_append, weight_cons, weight_nil]
        omega

end WorkerContext

end Pipeline
end Chem
