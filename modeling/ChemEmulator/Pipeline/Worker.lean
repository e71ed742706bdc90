import ChemEmulator.Models.SignalQueue
import Mathlib.Data.List.FinRange
import Mathlib.Data.Fintype.Basic

/-!
# Workers

`src/chem/channel/intermediate.cpp`: the callback of `AttachSource`,
`WorkerLoop`, `ProcessSignal` and `ProcessDestinationSignal`, as far as they
decide where a buffer goes and which header it gets.  The samples that the
channel model computes are an input, and so is the snapshot of the
destinations, which is taken from a cache or from the destination map.

`ProcessSignal` acquires one buffer for every destination and processes them
in any order; between its acquisition and its end a buffer belongs to the
worker, together with what has to be done with it.
-/

namespace Chem
namespace Pipeline

open ByteMemory

/-- `m_iq_pools`, one pool for every NUMA node. -/
abbrev IqPools (n : ℕ) := Fin (n + 1) → DataArrayPool

namespace IqPools

variable {n : ℕ}

def giveBack (pools : IqPools n) (i : Fin (n + 1)) (item : Option DArray) :
    Except Halt (IqPools n) := do
  let pool ← (pools i).giveBack item
  .ok (Function.update pools i pool)

/-- `acquireBatch` on one pool after the other, until one can serve it. -/
def acquireFrom (pools : IqPools n) (count : ℕ) :
    List (Fin (n + 1)) → Option (List DArray) × IqPools n
  | [] => (none, pools)
  | i :: is =>
      match (pools i).acquireBatch count with
      | (.ok batch, pool) => (some batch, Function.update pools i pool)
      | (.error _, pool) =>
          acquireFrom (Function.update pools i pool) count is

/-- The local pool first, then the others in order. -/
def acquireBuffers (pools : IqPools n) (numaNode : Fin (n + 1)) (count : ℕ) :
    Option (List DArray) × IqPools n :=
  acquireFrom pools count
    (numaNode :: (List.finRange (n + 1)).filter (· ≠ numaNode))

end IqPools

/-! ## What a worker keeps -/

/-- An entry of the destination snapshot.  `sample_rate` is the `float` of a
32-bit integer, `num_channels` comes from 8 bits. -/
structure DestInfo where
  transmitter : ℕ
  sampleRate : UInt32
  numChannels : UInt8
deriving DecidableEq

structure SignalContext where
  sigHdr : Header
  srcNCh : ℕ
  iSzCh : ℕ
  iNsCh : ℕ
  sigSrate : FloatValue

def SignalContext.ofSignal (sig : Signal) : SignalContext where
  sigHdr := sig.header
  srcNCh := sig.getNumberOfChannels
  iSzCh := sig.getSizePerBuff
  iNsCh := sig.getNumSampPerBuff
  sigSrate := sig.getSrate

structure WorkerContext (n : ℕ) where
  receiverId : String
  /-- `running_flag`, shared with the callback. -/
  runningFlag : Bool
  running : Bool
  /-- `converter_rx` is not null. -/
  converterRx : Bool
  numaNode : Fin (n + 1)
  queue : List Signal
  sigCtx : SignalContext
  /-- Destinations not processed yet, each with its element of
  `pre_acquired_buffers`. -/
  pending : List (DestInfo × DArray)
  /-- Signals on their way to the `Add2Buff` of a transmitter. -/
  outgoing : List (ℕ × Signal)

namespace WorkerContext

variable {n : ℕ}

/-- The node of the thread, clamped to the pools that exist. -/
def clampNode (n : ℕ) (node : ℤ) : Fin (n + 1) :=
  ⟨(max 0 (min node n)).toNat, by omega⟩

/-- The context that `AttachSource` starts a thread for. -/
def create (receiverId : String) (node : ℤ) : WorkerContext n where
  receiverId := receiverId
  runningFlag := true
  running := true
  converterRx := true
  numaNode := clampNode n node
  queue := []
  sigCtx := .ofSignal ⟨Header.zero, none⟩
  pending := []
  outgoing := []

/-- The callback of an attached receiver; `pool` is `m_iq_pools[0]`. -/
def callback (pool : DataArrayPool) (ctx : WorkerContext n) (sig : Signal) :
    Except Halt (DataArrayPool × WorkerContext n) :=
  if ctx.runningFlag = false then do
    let pool ← pool.giveBack sig.iqData
    .ok (pool, ctx)
  else do
    let (pool, queue) ← SignalQueue.makeRoom (queueCap - 1) pool ctx.queue
    let (pool, queue) ← SignalQueue.pushOrRelease pool queue sig
    .ok (pool, { ctx with queue := queue })

/-- What `DetachSource` does to the worker. -/
def shutdown (pool : DataArrayPool) (ctx : WorkerContext n) :
    Except Halt (DataArrayPool × WorkerContext n) := do
  let pool ← SignalQueue.drain pool ctx.queue
  .ok (pool, { ctx with runningFlag := false, running := false, queue := [] })

/-! ## One signal -/

/-- `ProcessSignal` up to the parallel loop over the destinations. -/
def processSignal (pools : IqPools n) (ctx : WorkerContext n) (sig : Signal)
    (destinations : List DestInfo) :
    Except Halt (IqPools n × WorkerContext n) :=
  if ctx.converterRx = false then do
    let pools ← pools.giveBack ctx.numaNode sig.iqData
    .ok (pools, ctx)
  else do
    let ctx := { ctx with sigCtx := .ofSignal sig }
    let pools ← pools.giveBack ctx.numaNode sig.iqData
    if destinations = [] then .ok (pools, ctx)
    else
      match pools.acquireBuffers ctx.numaNode destinations.length with
      -- No pool can serve the batch: every output of this signal is dropped.
      | (none, pools) => .ok (pools, ctx)
      | (some buffers, pools) =>
          .ok (pools, { ctx with pending := destinations.zip buffers })

/-- One pass of `WorkerLoop` that finds a signal.  The thread is not inside
`ProcessSignal` at that point. -/
def workerLoop (pools : IqPools n) (ctx : WorkerContext n)
    (now maxLatencyNs : Int64) (destinations : List DestInfo) :
    Except Halt (IqPools n × WorkerContext n) :=
  if ctx.running = false ∨ ctx.pending ≠ [] ∨ ctx.outgoing ≠ [] then
    .error .blocked
  else
    match ctx.queue with
    | [] => .error .blocked
    | sig :: rest =>
        if sig.header.start < now - maxLatencyNs then do
          let pools ← pools.giveBack ctx.numaNode sig.iqData
          .ok (pools, { ctx with queue := rest })
        else processSignal pools { ctx with queue := rest } sig destinations

/-! ## One destination -/

/-- `dest_srate`. -/
def destSrate (dest : DestInfo) : FloatValue :=
  .ofInt 24 dest.sampleRate.toNat

/-- `sample_ratio`. -/
def sampleRatio (sigCtx : SignalContext) (dest : DestInfo) : FloatValue :=
  if destSrate dest ≠ sigCtx.sigSrate then
    .div 24 (destSrate dest) sigCtx.sigSrate
  else .finite 1

/-- `std::round(count * sample_ratio)` as a `size_t`. -/
def scaled (count : ℕ) (ratio : FloatValue) : ℕ :=
  (FloatValue.mul 24 (.ofInt 24 count) ratio).round.toUnsigned

/-- `dest_per_buff`: the samples of one output channel. -/
def destPerBuff (sigCtx : SignalContext) (dest : DestInfo) : ℕ :=
  if destSrate dest ≠ sigCtx.sigSrate then
    scaled sigCtx.iNsCh (sampleRatio sigCtx dest)
  else sigCtx.iNsCh

/-- `dest_sz_ch`: the bytes from one output channel to the next. -/
def destSzCh (sigCtx : SignalContext) (dest : DestInfo) : ℕ :=
  if destSrate dest ≠ sigCtx.sigSrate then
    scaled sigCtx.iSzCh (sampleRatio sigCtx dest)
  else sigCtx.iSzCh

/-- `tl_output_ptrs[ch]`, from the start of the buffer. -/
def outputPtr (sigCtx : SignalContext) (dest : DestInfo) (ch : ℕ) : ℕ :=
  sizeT (ch * destSzCh sigCtx dest)

/-- `data_sz`: the header is counted in. -/
def dataSz (destSzCh destNCh : ℕ) : ℕ := sizeT (destSzCh * destNCh + headerSize)

/-- The header of the outgoing burst before the propagation delay. -/
def destHeader (sigCtx : SignalContext) (dest : DestInfo) : Header :=
  if destSrate dest ≠ sigCtx.sigSrate then
    let ratio := sampleRatio sigCtx dest
    { sigCtx.sigHdr with
      numberOfChannels := UInt8.ofNat sigCtx.srcNCh
      numberOfSamples := UInt32.ofNat (scaled sigCtx.iNsCh ratio)
      size := UInt64.ofNat
        (dataSz (scaled sigCtx.iSzCh ratio) dest.numChannels.toNat)
      sampleRate := UInt64.ofNat (destSrate dest).toUnsigned }
  else sigCtx.sigHdr

def applyPropagationDelay (hdr : Header) (delayNs : Int64) : Header :=
  { hdr with
    start := hdr.start + delayNs
    «end» := hdr.end + delayNs
    rtTxTime := hdr.rtTxTime + delayNs.toUInt64 }

/-- The delay of a link in nanoseconds, in `double` arithmetic, if it is at
least one sample long. -/
def propagationDelay (rate distance : FloatValue) : Option Int64 :=
  match rate, distance with
  | .finite rate, .finite distance =>
      let delay := FloatValue.roundBinary 53 (distance / 299792458)
      let samplePeriod := FloatValue.roundBinary 53 (1 / rate)
      if 0 < rate ∧ 0 < distance ∧ samplePeriod ≤ delay then
        some (Int64.ofInt (FloatValue.truncate
          (FloatValue.roundBinary 53 (delay * 1000000000))))
      else none
  | _, _ => none

/-- The header that `ProcessDestinationSignal` gives to the new signal. -/
def outgoingHeader (sigCtx : SignalContext) (dest : DestInfo)
    (distance : FloatValue) : Header :=
  match propagationDelay (destSrate dest) distance with
  | some delayNs => applyPropagationDelay (destHeader sigCtx dest) delayNs
  | none => destHeader sigCtx dest

/-- `ProcessDestinationSignal` for the `k`-th pending destination, up to the
call of `Add2Buff`.  `samples` is what the converter leaves in the buffer. -/
def processDestinationSignal (pools : IqPools n) (ctx : WorkerContext n)
    (k : ℕ) (distance : FloatValue) (samples : Mem) :
    Except Halt (IqPools n × WorkerContext n) :=
  match ctx.pending[k]? with
  | none => .error .blocked
  | some (dest, buffer) =>
      if sampleRatio ctx.sigCtx dest = .finite 0 then do
        let pools ← pools.giveBack ctx.numaNode (some buffer)
        .ok (pools, { ctx with pending := ctx.pending.eraseIdx k })
      else
        let sig := Signal.create (some { buffer with mem := samples })
          (outgoingHeader ctx.sigCtx dest distance)
        .ok (pools, { ctx with
          pending := ctx.pending.eraseIdx k
          outgoing := ctx.outgoing ++ [(dest.transmitter, sig)] })

end WorkerContext

end Pipeline
end Chem
