import ChemEmulator.Models.SignalQueue
import ChemEmulator.Net.UdpClient

/-!
# Transmitters

`src/chem/node/transmitter.cpp`: `Add2Buff` and one pass of the loop of
`Start`.
-/

namespace Chem
namespace Pipeline

structure Transmitter (n : ℕ) where
  iqPool : Fin (n + 1)
  portNum : UInt16
  bytesPerSample : UInt8
  working : Bool
  queue : List Signal

namespace Transmitter

variable {n : ℕ}

def create (iqPool : Fin (n + 1)) (portNum : UInt16) : Transmitter n where
  iqPool := iqPool
  portNum := portNum
  bytesPerSample := 4
  working := true
  queue := []

/-- A full queue loses its earliest signal and the new one. -/
def add2Buff (pool : DataArrayPool) (tx : Transmitter n) (sig : Signal) :
    Except Halt (DataArrayPool × Transmitter n) :=
  if queueCap - 1 ≤ tx.queue.length then
    match SignalQueue.popEarliest tx.queue with
    | none => do
        let pool ← pool.giveBack sig.iqData
        .ok (pool, tx)
    | some (oldest, rest) => do
        let pool ← pool.giveBack oldest.iqData
        let pool ← pool.giveBack sig.iqData
        .ok (pool, { tx with queue := rest })
  else .ok (pool, { tx with queue := tx.queue ++ [sig] })

/-- `start < send_time - MS_2_NS(5)`.  `MS_2_NS` returns a `float`, so both
sides are rounded to 24 digits. -/
def tooOld (start sendTime : Int64) : Bool :=
  let limit := FloatValue.roundBinary 24
    (FloatValue.roundBinary 24 sendTime.toInt - 5000000)
  FloatValue.roundBinary 24 start.toInt < limit

/-- One pass of the loop of `Start` that finds a signal. -/
def transmit (pool : DataArrayPool) (tx : Transmitter n) (sendTime : Int64)
    (env : UDPClient.SendEnv) : Except Halt (DataArrayPool × Transmitter n) :=
  if tx.working = false then .error .blocked
  else
    match SignalQueue.popEarliest tx.queue with
    | none => .error .blocked
    | some (sig, rest) =>
        if tooOld sig.header.start sendTime then do
          let pool ← pool.giveBack sig.iqData
          .ok (pool, { tx with queue := rest })
        else
          match UDPClient.send tx.portNum pool env (some sig)
              tx.bytesPerSample with
          | (_, .ok (), pool) => .ok (pool, { tx with queue := rest })
          -- The handler dereferences the signal that was moved into `Send`.
          | (_, .error msg, _) => .error (.threw msg)

end Transmitter

end Pipeline
end Chem
