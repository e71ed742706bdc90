import ChemEmulator.Models.SignalQueue
import ChemEmulator.Net.UdpServer

/-!
# Receivers

`src/chem/node/receiver.cpp`: the loop of `Start`, cut at the point where
`Recv` has returned, and `Add2Buff`.  A received signal is handed to the
callback `add2Queue` if there is one, and kept in the local queue otherwise.

The IQ pools of the emulator are numbered; `m_iq_pool` is one of them.
-/

namespace Chem
namespace Pipeline

/-- The content of `add2Queue`. -/
inductive Callback where
  | unset
  /-- The function that `AttachSource` installs, with its worker. -/
  | worker (ctx : ℕ)
  /-- The function that `DetachSource` leaves behind. -/
  | discard
deriving DecidableEq

structure Receiver (n : ℕ) where
  nodeId : String
  iqPool : Fin (n + 1)
  /-- `m_server.m_udpPool`. -/
  udpPool : DataArrayPool
  working : Bool
  add2Queue : Callback
  queue : List Signal
  /-- `hdr` and `rx` between the return of `Recv` and the end of the pass. -/
  received : Option (Header × Option DArray)

namespace Receiver

variable {n : ℕ}

/-- A receiver as the constructor leaves it. -/
def create (nodeId : String) (iqPool : Fin (n + 1)) (fresh : ℕ) :
    Receiver n where
  nodeId := nodeId
  iqPool := iqPool
  udpPool := .filled udpCap mtuSize "SERVER" true fresh
  working := true
  add2Queue := .unset
  queue := []
  received := none

/-- The loop of `Start` up to the check of the header.  A call of `Recv` that
has not returned yet is not a step. -/
def recv (pool : DataArrayPool) (rx : Receiver n) (hdr : Header)
    (os : List UDPServer.SocketOutcome) :
    Except Halt (DataArrayPool × Receiver n) :=
  if rx.working = false ∨ rx.received.isSome = true then .error .blocked
  else
    let call := UDPServer.recv rx.udpPool pool hdr os
    match call.outcome with
    | .waiting _ => .error .blocked
    | .threw _ =>
        .ok (call.iqPool, { rx with udpPool := call.udpPool, working := false })
    | .returned hdr data =>
        .ok (call.iqPool, { rx with
          udpPool := call.udpPool
          -- `continue` on an empty burst.
          received := if hdr.size = 0 then none else some (hdr, data) })

/-- `Start` makes room in the local queue before it creates the signal,
attached or not. -/
def makeRoom (pool : DataArrayPool) (rx : Receiver n) :
    Except Halt (DataArrayPool × Receiver n) := do
  let (pool, queue) ← SignalQueue.makeRoom queueCap pool rx.queue
  .ok (pool, { rx with queue := queue })

/-- The end of the loop without a callback. -/
def enqueue (pool : DataArrayPool) (rx : Receiver n) (sig : Signal) :
    Except Halt (DataArrayPool × Receiver n) := do
  let (pool, queue) ← SignalQueue.pushOrRelease pool rx.queue sig
  .ok (pool, { rx with queue := queue })

/-- `Add2Buff` without a callback. -/
def add2Buff (pool : DataArrayPool) (rx : Receiver n) (sig : Signal) :
    Except Halt (DataArrayPool × Receiver n) :=
  if queueCap - 1 ≤ rx.queue.length then do
    let (pool, queue) ← SignalQueue.dropOldest pool rx.queue
    let pool ← pool.giveBack sig.iqData
    .ok (pool, { rx with queue := queue })
  else .ok (pool, { rx with queue := rx.queue ++ [sig] })

end Receiver

end Pipeline
end Chem
