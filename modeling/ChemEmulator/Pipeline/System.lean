import ChemEmulator.Pipeline.Receiver
import ChemEmulator.Pipeline.Transmitter
import ChemEmulator.Pipeline.Worker
import ChemEmulator.Support.FiniteMap
import Mathlib.Algebra.BigOperators.Group.Finset.Basic

/-!
# The path of an IQ buffer

The receivers, workers and transmitters of the emulator with the IQ pools they
share, and the steps that move a buffer.  Receivers, workers and transmitters
are numbered by their place in a list.  A worker is never taken off its list:
`DetachSource` empties its queue and stops it, but a signal that it is
processing at that moment still goes its way.

`sources` holds the source map and the worker map of every intermediate: the
worker that serves a receiver, by intermediate and receiver id.
-/

namespace Chem
namespace Pipeline

open ByteMemory

/-- What the emulator starts with: the capacity of every IQ pool, the id and
the pool of every receiver, the pool and the port of every transmitter. -/
structure Config (n : ℕ) where
  capacity : Fin (n + 1) → ℕ
  receivers : List (String × Fin (n + 1))
  transmitters : List (Fin (n + 1) × UInt16)

/-- The number of buffers in the pools before pool `i`. -/
def Config.before {n : ℕ} (c : Config n) (i : Fin (n + 1)) : ℕ :=
  ∑ j ∈ Finset.univ.filter (· < i), c.capacity j

/-- The atomic steps, with what each of them reads from its surroundings. -/
inductive Step where
  | recv (r : ℕ) (hdr : Header) (os : List UDPServer.SocketOutcome)
  | deliver (r : ℕ)
  | add2Local (r : ℕ)
  | workerLoop (w : ℕ) (now maxLatencyNs : Int64) (destinations : List DestInfo)
  | processDestinationSignal (w k : ℕ) (distance : FloatValue) (samples : Mem)
  | add2Buff (w k : ℕ)
  | transmit (t : ℕ) (sendTime : Int64) (env : UDPClient.SendEnv)
  | attachSource (i r : ℕ) (node : ℤ)
  | detachSource (i r : ℕ)

structure State (n : ℕ) where
  pools : IqPools n
  receivers : List (Receiver n)
  workers : List (WorkerContext n)
  transmitters : List (Transmitter n)
  sources : FiniteMap (ℕ × String) ℕ

namespace State

variable {n : ℕ}

/-! ## Operations on one component -/

/-- An operation of a receiver on its own pool. -/
def atReceiver (s : State n) (r : ℕ)
    (op : DataArrayPool → Receiver n → Except Halt (DataArrayPool × Receiver n)) :
    Except Halt (State n) :=
  match s.receivers[r]? with
  | none => .error .blocked
  | some rx => do
      let (pool, rx') ← op (s.pools rx.iqPool) rx
      .ok { s with
        pools := Function.update s.pools rx.iqPool pool
        receivers := s.receivers.set r rx' }

/-- An operation of a worker on all pools. -/
def atWorker (s : State n) (w : ℕ)
    (op : IqPools n → WorkerContext n →
      Except Halt (IqPools n × WorkerContext n)) :
    Except Halt (State n) :=
  match s.workers[w]? with
  | none => .error .blocked
  | some ctx => do
      let (pools, ctx') ← op s.pools ctx
      .ok { s with pools := pools, workers := s.workers.set w ctx' }

/-- An operation on a worker that uses `m_iq_pools[0]` only. -/
def onFirstPool
    (op : DataArrayPool → WorkerContext n →
      Except Halt (DataArrayPool × WorkerContext n))
    (pools : IqPools n) (ctx : WorkerContext n) :
    Except Halt (IqPools n × WorkerContext n) := do
  let (pool, ctx) ← op (pools 0) ctx
  .ok (Function.update pools 0 pool, ctx)

/-- An operation of a transmitter on its own pool. -/
def atTransmitter (s : State n) (t : ℕ)
    (op : DataArrayPool → Transmitter n →
      Except Halt (DataArrayPool × Transmitter n)) :
    Except Halt (State n) :=
  match s.transmitters[t]? with
  | none => .error .blocked
  | some tx => do
      let (pool, tx') ← op (s.pools tx.iqPool) tx
      .ok { s with
        pools := Function.update s.pools tx.iqPool pool
        transmitters := s.transmitters.set t tx' }

/-! ## Handing a received signal on -/

/-- The signal goes to the callback of the receiver, or to `enqueue` if there
is none. -/
def handOver (s : State n) (r : ℕ) (callback : Callback) (sig : Signal)
    (enqueue : DataArrayPool → Receiver n → Signal →
      Except Halt (DataArrayPool × Receiver n)) :
    Except Halt (State n) :=
  match callback with
  | .unset => s.atReceiver r fun pool rx => enqueue pool rx sig
  | .worker w =>
      s.atWorker w (onFirstPool fun pool ctx => ctx.callback pool sig)
  | .discard => do
      let pools ← s.pools.giveBack 0 sig.iqData
      .ok { s with pools := pools }

/-- Take what `Recv` returned out of the variables of the loop. -/
def takeReceived (s : State n) (r : ℕ) :
    Except Halt (Callback × Signal × State n) :=
  match s.receivers[r]? with
  | none => .error .blocked
  | some rx =>
      match rx.received with
      | none => .error .blocked
      | some (hdr, data) =>
          .ok (rx.add2Queue, Signal.create data hdr,
            { s with receivers := s.receivers.set r { rx with received := none } })

/-- The loop of `Receiver::Start` behind `Recv`. -/
def deliver (s : State n) (r : ℕ) : Except Halt (State n) := do
  let s ← s.atReceiver r Receiver.makeRoom
  let (callback, sig, s) ← s.takeReceived r
  s.handOver r callback sig Receiver.enqueue

/-- `Receiver::Add2Buff`. -/
def add2Local (s : State n) (r : ℕ) : Except Halt (State n) := do
  let (callback, sig, s) ← s.takeReceived r
  s.handOver r callback sig Receiver.add2Buff

/-- `Transmitter::Add2Buff` at the end of `ProcessDestinationSignal`. -/
def add2Buff (s : State n) (w k : ℕ) : Except Halt (State n) :=
  match s.workers[w]? with
  | none => .error .blocked
  | some ctx =>
      match ctx.outgoing[k]? with
      | none => .error .blocked
      | some (t, sig) =>
          let ctx := { ctx with outgoing := ctx.outgoing.eraseIdx k }
          atTransmitter { s with workers := s.workers.set w ctx } t
            fun pool tx => tx.add2Buff pool sig

/-! ## Attaching and detaching -/

/-- `AttachSource` of intermediate `i`; `node` is the NUMA node on which the
new thread runs. -/
def attachSource (s : State n) (i r : ℕ) (node : ℤ) :
    Except Halt (State n) :=
  match s.receivers[r]? with
  | none => .error .blocked
  | some rx =>
      if (i, rx.nodeId) ∈ s.sources then .ok s
      else
        let w := s.workers.length
        .ok { s with
          workers := s.workers ++ [WorkerContext.create rx.nodeId node]
          receivers := s.receivers.set r { rx with add2Queue := .worker w }
          sources := s.sources.insert (i, rx.nodeId) w }

/-- `DetachSource` of intermediate `i`. -/
def detachSource (s : State n) (i r : ℕ) : Except Halt (State n) :=
  match s.receivers[r]? with
  | none => .error .blocked
  | some rx =>
      match s.sources.lookup (i, rx.nodeId) with
      | none => .ok s
      | some w =>
          atWorker
            { s with
              receivers := s.receivers.set r { rx with add2Queue := .discard }
              sources := s.sources.erase (i, rx.nodeId) }
            w (onFirstPool fun pool ctx => ctx.shutdown pool)

/-! ## Steps and runs -/

def perform (s : State n) : Step → Except Halt (State n)
  | .recv r hdr os => s.atReceiver r fun pool rx => rx.recv pool hdr os
  | .deliver r => s.deliver r
  | .add2Local r => s.add2Local r
  | .workerLoop w now maxLatencyNs destinations =>
      s.atWorker w fun pools ctx =>
        ctx.workerLoop pools now maxLatencyNs destinations
  | .processDestinationSignal w k distance samples =>
      s.atWorker w fun pools ctx =>
        ctx.processDestinationSignal pools k distance samples
  | .add2Buff w k => s.add2Buff w k
  | .transmit t sendTime env =>
      s.atTransmitter t fun pool tx => tx.transmit pool sendTime env
  | .attachSource i r node => s.attachSource i r node
  | .detachSource i r => s.detachSource i r

/-- A step that takes place. -/
def step (s : State n) (a : Step) : Option (State n) :=
  (s.perform a).toOption

/-! ## The start -/

/-- Full pools, no signal anywhere, nothing attached. -/
def initial (c : Config n) : State n where
  pools := fun i => .filled (c.capacity i) iqSize "IQ" false (c.before i)
  receivers := c.receivers.map fun rx => Receiver.create rx.1 rx.2 0
  workers := []
  transmitters := c.transmitters.map fun tx => Transmitter.create tx.1 tx.2
  sources := ∅

end State

end Pipeline
end Chem
