import ChemEmulator.Net.Reassembly
import ChemEmulator.Pipeline.System
import ChemEmulator.Support.Holder

/-!
# What the components of the pipeline hold

Pools, queues and the variables of a running step hold IQ buffers.  A signal
is loaded when it announces a size and has its array, so that it can be given
back to a pool.  Every operation of a component leaves the buffers where they
are or moves them: the weight of the component and its pool stays the same.
-/

namespace Chem

open Holder Outcome Tally

/-! ## Holders of buffers -/

instance : Holder ℕ DArray where
  weight w a := w a.ident
  Loaded _ := True

instance : Holder ℕ DataArrayPool where
  weight w p := weight w p.pool
  Loaded _ := True

/-- The array behind a pointer that may be null. -/
def arrayWeight (w : ℕ → ℕ) : Option DArray → ℕ
  | none => 0
  | some a => weight w a

instance : Holder ℕ Signal where
  weight w sig := arrayWeight w sig.iqData
  Loaded sig := sig.header.size ≠ 0 ∧ sig.iqData.isSome = true

/-- The only failure of a step is that it cannot run now. -/
def NotThrown (e : Halt) : Prop := e = .blocked

theorem Signal.loaded_iff {sig : Signal} :
    Loaded sig ↔ sig.header.size ≠ 0 ∧ ∃ a, sig.iqData = some a := by
  rw [← Option.isSome_iff_exists]
  rfl

/-- A signal keeps the array it is created with if its header announces a
size. -/
theorem Signal.loaded_create {hdr : Header} (a : DArray) (h : hdr.size ≠ 0) :
    Loaded (Signal.create (some a) hdr) ∧
      ∀ w, weight w (Signal.create (some a) hdr) = weight w a := by
  have hdata : (Signal.create (some a) hdr).iqData = some a := if_pos h
  refine ⟨Signal.loaded_iff.mpr ⟨h, a, hdata⟩, ?_⟩
  intro w
  exact congrArg (arrayWeight w) hdata

/-! ## Pools and queues -/

theorem DataArrayPool.weight_release (w : ℕ → ℕ) (p : DataArrayPool)
    (a : DArray) :
    weight w (p.release (some a)).2 = weight w p + weight w a := by
  have hpool : ∀ b : DArray, b.ident = a.ident →
      weight w (p.pool ++ [b]) = weight w p.pool + weight w a := by
    intro b hb
    have hsame : weight w b = weight w a := congrArg w hb
    rw [weight_append, weight_cons, weight_nil, hsame, Nat.add_zero]
  cases hz : p.zeroOnRelease with
  | false =>
      rw [DataArrayPool.release, hz]
      exact hpool a rfl
  | true =>
      rw [DataArrayPool.release, hz]
      exact hpool (p.zeroed a) rfl

theorem Signal.exists_array {sig : Signal} (hsig : Loaded sig) :
    ∃ a, sig.iqData = some a ∧ ∀ w, weight w sig = weight w a := by
  obtain ⟨-, a, ha⟩ := Signal.loaded_iff.mp hsig
  exact ⟨a, ha, fun w => congrArg (arrayWeight w) ha⟩

theorem DataArrayPool.giveBack_conserves (p : DataArrayPool) {sig : Signal}
    (hsig : Loaded sig) :
    Conserves NotThrown (fun w => weight w p + weight w sig)
      (p.giveBack sig.iqData) := by
  obtain ⟨a, ha, hsame⟩ := Signal.exists_array hsig
  rw [ha]
  refine conserves_ok trivial ?_
  intro w
  rw [hsame w]
  exact DataArrayPool.weight_release w p a

namespace SignalQueue

variable {pool : DataArrayPool} {queue : List Signal} {sig : Signal}

theorem dropOldest_conserves (hq : Loaded queue) :
    Conserves NotThrown (fun w => weight w pool + weight w queue)
      (dropOldest pool queue) := by
  cases queue with
  | nil => exact conserves_ok ⟨trivial, hq⟩ fun _ => rfl
  | cons oldest rest =>
      obtain ⟨hold, hrest⟩ := loaded_cons.mp hq
      apply (pool.giveBack_conserves hold).bind
      intro pool' _ hw
      refine conserves_ok ⟨trivial, hrest⟩ ?_
      intro w
      rw [weight_pair, hw w, weight_cons, Nat.add_assoc]

theorem makeRoom_conserves (limit : ℕ) (hq : Loaded queue) :
    Conserves NotThrown (fun w => weight w pool + weight w queue)
      (makeRoom limit pool queue) := by
  unfold makeRoom
  split
  · exact dropOldest_conserves hq
  · exact conserves_ok ⟨trivial, hq⟩ fun _ => rfl

theorem pushOrRelease_conserves (hq : Loaded queue) (hsig : Loaded sig) :
    Conserves NotThrown
      (fun w => weight w pool + weight w queue + weight w sig)
      (pushOrRelease pool queue sig) := by
  unfold pushOrRelease
  split
  · refine conserves_ok ⟨trivial, ?_⟩ ?_
    · exact loaded_append.mpr ⟨hq, loaded_cons.mpr ⟨hsig, loaded_nil⟩⟩
    · intro w
      simp only [weight_pair, weight_append, weight_cons, weight_nil]
      omega
  · apply (pool.giveBack_conserves hsig).bind
    intro pool' _ hw
    refine conserves_ok ⟨trivial, hq⟩ ?_
    intro w
    rw [weight_pair, hw w]
    omega

theorem drain_conserves (hq : Loaded queue) :
    Conserves NotThrown (fun w => weight w pool + weight w queue)
      (drain pool queue) := by
  induction queue generalizing pool with
  | nil => exact conserves_ok trivial fun _ => rfl
  | cons sig rest ih =>
      obtain ⟨hsig, hrest⟩ := loaded_cons.mp hq
      apply (pool.giveBack_conserves hsig).bind
      intro pool' _ hw
      apply (ih hrest).of_total
      intro w
      rw [hw w, weight_cons, Nat.add_assoc]

theorem weight_popEarliest {rest : List Signal} (w : ℕ → ℕ)
    (h : popEarliest queue = some (sig, rest)) :
    weight w queue = weight w sig + weight w rest := by
  rw [← weight_cons]
  exact tally_perm (weight w) (popEarliest_perm h)

end SignalQueue

/-! ## Taking buffers out of the pools -/

theorem DataArrayPool.weight_acquireBatch_ok {p p' : DataArrayPool} {count : ℕ}
    {batch : List DArray} (h : p.acquireBatch count = (.ok batch, p')) :
    batch.length = count ∧
      ∀ w, weight w batch + weight w p' = weight w p := by
  rcases Nat.lt_or_ge p.available count with hlt | hle
  · obtain ⟨msg, hmsg⟩ := DataArrayPool.acquireBatch_of_lt hlt
    rw [hmsg] at h
    cases h
  · rw [DataArrayPool.acquireBatch_of_le hle] at h
    cases h
    refine ⟨List.length_take_of_le hle, ?_⟩
    intro w
    have hsplit : weight w (p.pool.take count ++ p.pool.drop count) =
        weight w p.pool := by
      rw [List.take_append_drop]
    rw [weight_append] at hsplit
    exact hsplit

/-- A batch that cannot be served leaves the pool as it was. -/
theorem DataArrayPool.acquireBatch_error {p p' : DataArrayPool} {count : ℕ}
    {msg : String} (h : p.acquireBatch count = (.error msg, p')) : p' = p := by
  rcases Nat.lt_or_ge p.available count with hlt | hle
  · obtain ⟨msg', hmsg⟩ := DataArrayPool.acquireBatch_of_lt hlt
    rw [hmsg] at h
    cases h
    rfl
  · rw [DataArrayPool.acquireBatch_of_le hle] at h
    cases h

namespace Pipeline

variable {n : ℕ}

namespace IqPools

theorem giveBack_some_conserves (pools : IqPools n) (i : Fin (n + 1))
    (a : DArray) :
    Conserves NotThrown (fun w => weight w pools + weight w a)
      (pools.giveBack i (some a)) := by
  have hresult : pools.giveBack i (some a) =
      .ok (Function.update pools i ((pools i).release (some a)).2) := rfl
  rw [hresult]
  refine conserves_ok (fun _ => trivial) ?_
  intro w
  have hupdate := weight_update w pools i ((pools i).release (some a)).2
  have hpool := DataArrayPool.weight_release w (pools i) a
  omega

theorem giveBack_conserves (pools : IqPools n) (i : Fin (n + 1))
    {sig : Signal} (hsig : Loaded sig) :
    Conserves NotThrown (fun w => weight w pools + weight w sig)
      (pools.giveBack i sig.iqData) := by
  obtain ⟨a, ha, hsame⟩ := Signal.exists_array hsig
  rw [ha]
  apply (giveBack_some_conserves pools i a).of_total
  intro w
  rw [hsame w]

theorem acquireFrom_none {pools pools' : IqPools n} {count : ℕ}
    {is : List (Fin (n + 1))}
    (h : pools.acquireFrom count is = (none, pools')) : pools' = pools := by
  induction is generalizing pools with
  | nil =>
      cases h
      rfl
  | cons i is ih =>
      rw [acquireFrom] at h
      split at h
      · cases h
      next msg pool hbatch =>
        rw [ih h, DataArrayPool.acquireBatch_error hbatch,
          Function.update_eq_self]

theorem acquireFrom_some {pools pools' : IqPools n} {count : ℕ}
    {is : List (Fin (n + 1))} {batch : List DArray}
    (h : pools.acquireFrom count is = (some batch, pools')) :
    batch.length = count ∧
      ∀ w, weight w pools' + weight w batch = weight w pools := by
  induction is generalizing pools with
  | nil => cases h
  | cons i is ih =>
      rw [acquireFrom] at h
      split at h
      next batch' pool hbatch =>
        cases h
        obtain ⟨hlen, hweight⟩ := DataArrayPool.weight_acquireBatch_ok hbatch
        refine ⟨hlen, ?_⟩
        intro w
        have hupdate := weight_update w pools i pool
        have hpool := hweight w
        omega
      next msg pool hbatch =>
        rw [DataArrayPool.acquireBatch_error hbatch,
          Function.update_eq_self] at h
        exact ih h

end IqPools

end Pipeline

/-! ## A call of `Recv` -/

namespace UDPServer

/-- What a call does with the buffers of the pool it finds: a call that
returns a buffer announces a size, every other end puts the buffer back. -/
def RecvResult.KeepsBuffers (iqPool : DataArrayPool) (r : RecvResult) : Prop :=
  match r.outcome with
  | .waiting _ => True
  | .threw _ => ∀ w, weight w r.iqPool = weight w iqPool
  | .returned hdr data =>
      (hdr.size ≠ 0 → data.isSome = true) ∧ (hdr.size = 0 → data = none) ∧
        ∀ w, weight w r.iqPool + arrayWeight w data = weight w iqPool

theorem recv_keepsBuffers (udpPool iqPool : DataArrayPool) (hdr : Header)
    (os : List SocketOutcome) :
    (recv udpPool iqPool hdr os).KeepsBuffers iqPool := by
  rcases hpackets : acquirePackets udpPool [] batchSize with ⟨packets, udpPool'⟩
  rcases hacquire : iqPool.acquire with ⟨buffer, iqPool'⟩
  rw [recv, hpackets, hacquire]
  match packets, buffer, hacquire with
  | .error msg, _, _ => exact fun _ => rfl
  | .ok packets, .error msg, hacquire =>
      obtain ⟨-, rfl⟩ := DataArrayPool.acquire_error hacquire
      exact fun _ => rfl
  | .ok packets, .ok buffer, hacquire =>
      have hpool : ∀ w, weight w iqPool' + weight w buffer = weight w iqPool := by
        intro w
        have hcons := congrArg (weight w) (DataArrayPool.acquire_ok hacquire)
        rw [weight_cons, Nat.add_comm] at hcons
        exact hcons.symm
      -- Every exit but the successful one releases the buffer.
      have hreleased : ∀ m : ByteMemory.Mem, ∀ w,
          weight w (iqPool'.release (some { buffer with mem := m })).2 + 0 =
            weight w iqPool := by
        intro m w
        rw [Nat.add_zero, DataArrayPool.weight_release]
        exact hpool w
      simp only []
      rcases hloop : recvLoop .initial os with ⟨loopEnd, left⟩
      cases loopEnd with
      | waiting s => trivial
      | complete s =>
          have hheader := (counted_of_complete hloop).header
          refine ⟨fun _ => rfl, ?_, hpool⟩
          intro hzero
          have hpos := hheader.stride_pos
          simp [hzero] at hpos
      | timedOut s => exact ⟨fun h => absurd rfl h, fun _ => rfl, hreleased _⟩
      | failed s => exact ⟨fun h => absurd rfl h, fun _ => rfl, hreleased _⟩
      | closed s => exact ⟨fun h => absurd rfl h, fun _ => rfl, hreleased _⟩

end UDPServer

end Chem
