import ChemEmulator.Models.DataPool
import ChemEmulator.Support.EarlyExit
import Mathlib.Algebra.Order.Ring.Int

/-!
# Receiving a burst

`src/chem/net/udp_server.cpp`, `UDPServer::Recv`.  The call takes packet
buffers and one IQ buffer from their pools and then loops over `recvmmsg`
until a burst is complete, the wait times out in the middle of a burst, or the
socket fails or is closed.

What the socket does is an input: a list of outcomes, one for every pass of
the loop.  The variables of the call are explicit state.  Copies into the IQ
buffer are recorded with the operands of their destination, so that bounds can
be stated before any wrap-around; `applyWrites` performs them.  Nothing here
stops at a copy that leaves the buffer, where the language defines nothing any
more: what `recv` gives counts only as long as there is none
(`Net.ReceiveBounds`, `recvWithin`).
-/

namespace Chem
namespace UDPServer

open ByteMemory EarlyExit

/-! ## Datagrams -/

/-- What `recvmmsg` leaves in a packet buffer of `MTU_SIZE` bytes. -/
structure Datagram where
  bytes : List UInt8
  length_le : bytes.length ≤ mtuSize

namespace Datagram

/-- A datagram as it arrives; `recvmmsg` cuts it to the buffer. -/
def ofWire (bs : List UInt8) : Datagram where
  bytes := bs.take mtuSize
  length_le := by
    rw [List.length_take]
    exact Nat.min_le_left _ _

/-- `rx_len`. -/
def rxLen (d : Datagram) : ℕ := d.bytes.length

/-- `*udp_hdr`. -/
def udpHdr (d : Datagram) : UDPHeader := UDPHeader.decode d.bytes

def startFlag (d : Datagram) : Bool := d.udpHdr.startFlag

def endFlag (d : Datagram) : Bool := d.udpHdr.endFlag

def seqNumber (d : Datagram) : ℕ := d.udpHdr.seqNumber.toNat

/-- The burst header behind the fragment header. -/
def mainHdr (d : Datagram) : Header :=
  Header.decode (d.bytes.drop udpHeaderSize)

/-- The bytes from `payload_start` on. -/
def payload (d : Datagram) : List UInt8 :=
  d.bytes.drop (udpHeaderSize + if d.startFlag then headerSize else 0)

/-- The bytes that `memcpy` takes for channel `c`. -/
def slice (d : Datagram) (chunk c : ℕ) : List UInt8 :=
  (d.payload.drop (c * chunk)).take chunk

end Datagram

/-! ## Variables of the call -/

/-- One `memcpy` into the IQ buffer. -/
structure Write where
  channel : ℕ
  stride : ℕ
  written : ℕ
  src : List UInt8
deriving DecidableEq

/-- Offset of the destination as computed in `size_t`. -/
def Write.dest (w : Write) : ℕ :=
  sizeT (sizeT (w.channel * w.stride) + w.written)

structure RecvState where
  finalHdr : Header
  isAssembling : Bool
  lastSeqNo : ℕ
  fragmentsReceived : ℕ
  bytesWrittenPerCh : ℕ
  perChannelStride : ℕ
  activeNumChannels : ℕ
  /-- `m_current_batch_size`. -/
  currentBatchSize : ℕ
  /-- Every copy into the IQ buffer so far. -/
  writes : List Write

namespace RecvState

/-- The variables before the loop; `final_hdr` is written before it is read. -/
def initial : RecvState where
  finalHdr := Header.zero
  isAssembling := false
  lastSeqNo := 0
  fragmentsReceived := 0
  bytesWrittenPerCh := 0
  perChannelStride := 0
  activeNumChannels := 0
  currentBatchSize := batchSize
  writes := []

def resetAssembly (s : RecvState) : RecvState :=
  { initial with writes := s.writes }

end RecvState

/-- The IQ buffer after the recorded copies, if they stay inside it. -/
def applyWrites (m : Mem) (ws : List Write) : Mem :=
  copyAll m (ws.map fun w => (w.dest, w.src))

/-! ## One datagram -/

/-- The variables after a burst header has been read. -/
def readHeader (s : RecvState) (d : Datagram) : RecvState :=
  { s with
    finalHdr := d.mainHdr
    activeNumChannels := d.mainHdr.numberOfChannels.toNat
    perChannelStride :=
      if d.mainHdr.numberOfChannels = 0 then 0
      else d.mainHdr.size.toNat / d.mainHdr.numberOfChannels.toNat
    bytesWrittenPerCh := 0
    fragmentsReceived := 0
    lastSeqNo := d.seqNumber }

/-- The checks before the payload.  A datagram that is skipped by `continue`
leaves this block with `stop`. -/
def checkSequence (s : RecvState) (d : Datagram) : Flow RecvState :=
  if s.isAssembling = false then
    if d.startFlag = false then .stop s
    else if d.rxLen < udpHeaderSize + headerSize then .stop s
    else
      let s' := readHeader s d
      if s'.activeNumChannels = 0 ∨ s'.perChannelStride = 0 ∨
          d.mainHdr.size.toNat % s'.activeNumChannels ≠ 0 then
        .stop s'.resetAssembly
      else .next { s' with isAssembling := true }
  else if d.seqNumber ≠ (s.lastSeqNo + 1) % 2 ^ 32 then .stop s.resetAssembly
  else .next { s with lastSeqNo := d.seqNumber }

/-- The copy loop over the channels. -/
def storeChunks (s : RecvState) (d : Datagram) : RecvState :=
  let chunkPerChannel := d.payload.length / s.activeNumChannels
  { s with
    writes := s.writes ++ (List.range s.activeNumChannels).map fun c =>
      ⟨c, s.perChannelStride, s.bytesWrittenPerCh, d.slice chunkPerChannel c⟩
    bytesWrittenPerCh := sizeT (s.bytesWrittenPerCh + chunkPerChannel)
    fragmentsReceived := (s.fragmentsReceived + 1) % 2 ^ 32 }

/-- The end of a fragment that has been stored; `stop` is the `return` of a
complete burst. -/
def finishFragment (s : RecvState) (d : Datagram) : Flow RecvState :=
  if d.endFlag = true then
    if s.bytesWrittenPerCh ≠ s.perChannelStride then .next s.resetAssembly
    else .stop s
  else .next s

/-- The payload checks and the copy. -/
def storePayload (s : RecvState) (d : Datagram) : Flow RecvState :=
  if d.startFlag = true ∧ d.rxLen - udpHeaderSize < headerSize then
    .next s.resetAssembly
  else if d.payload.length ≠ d.udpHdr.size.toNat then .next s.resetAssembly
  else if s.activeNumChannels = 0 ∨
      d.payload.length % s.activeNumChannels ≠ 0 then .next s.resetAssembly
  else if d.payload.length / s.activeNumChannels = 0 ∨
      s.perChannelStride <
        sizeT (s.bytesWrittenPerCh + d.payload.length / s.activeNumChannels) then
    .next s.resetAssembly
  else finishFragment (storeChunks s d) d

/-- The body of the loop over the received datagrams. -/
def processPacket (s : RecvState) (d : Datagram) : Flow RecvState :=
  if d.rxLen < udpHeaderSize then .next s
  else
    match checkSequence s d with
    | .stop s' => .next s'
    | .next s' => storePayload s' d

/-! ## The receive loop -/

/-- One pass of the loop, as far as the socket is concerned. -/
inductive SocketOutcome where
  /-- `is_open()` is false. -/
  | closed
  /-- Nothing received, `EAGAIN` or `EWOULDBLOCK`. -/
  | wouldBlock
  /-- Nothing received, any other `errno`. -/
  | failed
  | packets (ds : List Datagram)

/-- The datagrams of a list of outcomes, in order of arrival. -/
def arrivals (os : List SocketOutcome) : List Datagram :=
  os.flatMap fun
    | .packets ds => ds
    | _ => []

/-- Fragments still missing, in `int` arithmetic. -/
def remainingFrags (s : RecvState) : ℤ :=
  Int.bmod ((s.finalHdr.totalFrags.toNat : ℤ) - s.fragmentsReceived) (2 ^ 32)

/-- The batch size for the next `recvmmsg`. -/
def adjustBatchSize (s : RecvState) : RecvState :=
  if s.isAssembling = true ∧ s.finalHdr.totalFrags ≠ 0 then
    if 0 < remainingFrags s ∧ remainingFrags s < batchSize then
      { s with currentBatchSize := (max 1 (remainingFrags s)).toNat }
    else { s with currentBatchSize := batchSize }
  else s

/-- How the loop ends.  A call that has consumed all given outcomes without
returning is still waiting. -/
inductive LoopEnd where
  | waiting (s : RecvState)
  | closed (s : RecvState)
  | timedOut (s : RecvState)
  | failed (s : RecvState)
  | complete (s : RecvState)

/-- The variables when the loop ended. -/
def LoopEnd.state : LoopEnd → RecvState
  | waiting s => s
  | closed s => s
  | timedOut s => s
  | failed s => s
  | complete s => s

/-- The receive loop, with the outcomes it has not consumed.  The datagrams
behind the one that completes a burst are lost with the packet buffers. -/
def recvLoop : RecvState → List SocketOutcome → LoopEnd × List SocketOutcome
  | s, [] => (.waiting s, [])
  | s, .closed :: os => (.closed s, os)
  | s, .wouldBlock :: os =>
      if s.isAssembling = true then (.timedOut s, os) else recvLoop s os
  | s, .failed :: os => (.failed s, os)
  | s, .packets ds :: os =>
      match runLoop processPacket s ds with
      | .stop s' => (.complete s', os)
      | .next s' => recvLoop (adjustBatchSize s') os

/-! ## The whole call -/

/-- `packet_buffers[i] = m_udpPool.acquire()` for every `i`; when a later one
throws, the buffers already taken are destroyed with the array. -/
def acquirePackets (udpPool : DataArrayPool) (taken : List DArray) :
    ℕ → Except String (List DArray) × DataArrayPool
  | 0 => (.ok taken, udpPool)
  | n + 1 =>
      match udpPool.acquire with
      | (.error msg, p) => (.error msg, p)
      | (.ok item, p) => acquirePackets p (taken ++ [item]) n

/-- `for (auto& buf : packet_buffers) m_udpPool.release(std::move(buf))`. -/
def releasePackets (udpPool : DataArrayPool) (taken : List DArray) :
    DataArrayPool :=
  taken.foldl (fun p item => (p.release (some item)).2) udpPool

/-- What the caller of `Recv` sees. -/
inductive RecvOutcome where
  | waiting (s : RecvState)
  | threw (msg : String)
  | returned (hdr : Header) (data : Option DArray)

structure RecvResult where
  outcome : RecvOutcome
  udpPool : DataArrayPool
  iqPool : DataArrayPool
  rest : List SocketOutcome

/-- `UDPServer::Recv`. -/
def recv (udpPool iqPool : DataArrayPool) (hdr : Header)
    (os : List SocketOutcome) : RecvResult :=
  match acquirePackets udpPool [] batchSize with
  | (.error msg, udpPool) => ⟨.threw msg, udpPool, iqPool, os⟩
  | (.ok packets, udpPool) =>
      match iqPool.acquire with
      | (.error msg, iqPool) => ⟨.threw msg, udpPool, iqPool, os⟩
      | (.ok buffer, iqPool) =>
          let written := fun (s : RecvState) =>
            ({ buffer with mem := applyWrites buffer.mem s.writes } : DArray)
          match recvLoop .initial os with
          | (.waiting s, rest) => ⟨.waiting s, udpPool, iqPool, rest⟩
          | (.complete s, rest) =>
              ⟨.returned s.finalHdr (some (written s)),
                releasePackets udpPool packets, iqPool, rest⟩
          | (.timedOut s, rest) =>
              -- This exit does not give the packet buffers back.
              ⟨.returned { hdr with size := 0 } none, udpPool,
                (iqPool.release (some (written s))).2, rest⟩
          | (.failed s, rest) | (.closed s, rest) =>
              ⟨.returned { hdr with size := 0 } none,
                releasePackets udpPool packets,
                (iqPool.release (some (written s))).2, rest⟩

end UDPServer
end Chem
