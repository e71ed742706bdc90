import ChemEmulator.Models.Signal
import ChemEmulator.Support.EarlyExit

/-!
# Sending a burst

`src/chem/net/udp_client.cpp`, `UDPClient::Send`.  A burst is cut into
fragments that are queued in `msgvec` and handed to `sendmmsg` when the batch
is full or the last fragment has been queued.  A message is kept as its
header and its I/O vector, so that the lengths the kernel is asked to send
are visible even where the arithmetic has wrapped; `Message.bytes` gathers it.

`size_t` values are naturals below `2 ^ 64`; every subtraction of the source
goes through `sizeSub` and is recorded with its operands.
-/

namespace Chem
namespace UDPClient

open ByteMemory EarlyExit

/-- What `Send` reads besides its arguments: the clock at every fragment, the
indeterminate content of `frag_hdr` and the padding of the burst header. -/
structure SendEnv where
  now : ℕ → UInt64
  fragHdr : UDPHeader
  headerPad : UInt8

/-- One message of `msgvec`.  Every chunk is an offset into the IQ array
(`iov_base`) and a length (`iov_len`). -/
structure Message where
  header : UDPHeader
  mainHeader : Option Header
  chunks : List (ℕ × ℕ)
deriving DecidableEq

namespace Message

/-- The bytes that the burst header takes in a message. -/
def mainHeaderBytes (pad : UInt8) : Option Header → List UInt8
  | none => []
  | some h => h.encode pad

/-- Number of payload bytes the I/O vector describes. -/
def payloadLength (m : Message) : ℕ := (m.chunks.map Prod.snd).sum

/-- Length of the datagram the I/O vector describes. -/
def wireLength (m : Message) : ℕ :=
  udpHeaderSize + (if m.mainHeader.isSome then headerSize else 0) +
    m.payloadLength

/-- The part of channel `c` that a message carries. -/
def channelBytes (iq : Mem) (m : Message) (c : ℕ) : List UInt8 :=
  match m.chunks[c]? with
  | some chunk => read iq chunk.1 chunk.2
  | none => []

/-- The datagram gathered from the I/O vector. -/
def bytes (pad : UInt8) (iq : Mem) (m : Message) : List UInt8 :=
  m.header.encode ++ (mainHeaderBytes pad m.mainHeader ++
    m.chunks.flatMap fun chunk => read iq chunk.1 chunk.2)

end Message

/-- The values computed before the fragment loop starts. -/
structure SendPlan where
  size : ℕ
  nofCh : ℕ
  currentPayloadSize : ℕ
  totalFrags : ℕ
  mainHeader : Header
  /-- `getSizePerBuff()`: channel `c` starts at `c * sizePerBuff`. -/
  sizePerBuff : ℕ

/-- The variables of the fragment loop. -/
structure SendState where
  sent : ℕ
  sentBytesPerCh : ℕ
  /-- `msgvec[0 .. msg_idx_in_batch)`. -/
  queued : List Message
  /-- The argument of every `sendmmsg` call so far. -/
  handed : List (List Message)
  /-- The operands of every `size_t` subtraction so far. -/
  subtractions : List (ℕ × ℕ)

namespace SendState

def initial : SendState := ⟨0, 0, [], [], []⟩

/-- The messages handed to the kernel, in order. -/
def emitted (st : SendState) : List Message := st.handed.flatten

end SendState

/-! ## Number and size of the fragments -/

/-- Number of fragments of `PAYLOAD_SIZE` bytes. -/
def fullFrags (size : ℕ) : ℕ :=
  (size + headerSize) / payloadSize +
    if (size + headerSize) % payloadSize ≠ 0 then 1 else 0

/-- `current_payload_size` and `total_frags`: bursts that would need fewer
than `BATCH_SIZE` fragments are split again. -/
def fragmentation (size : ℕ) : ℕ × ℕ :=
  if fullFrags size < batchSize ∧ 0 < fullFrags size then
    let currentPayloadSize := (size + headerSize + batchSize - 1) / batchSize
    (currentPayloadSize, (size + headerSize) / currentPayloadSize)
  else (payloadSize, fullFrags size)

/-! ## One fragment -/

/-- The flag of fragment `i`: 1 for start, 4 for end, 2 for data. -/
def fragFlag (totalFrags i : ℕ) : UInt8 :=
  if totalFrags = 1 then 1 ||| 4
  else if i = 0 then 1
  else if i = totalFrags - 1 then 4
  else 2

/-- `payload_size` before alignment: the remaining bytes, at most one
fragment, less the burst header in the first of several fragments. -/
def fragPayload (p : SendPlan) (i sent : ℕ) : ℕ :=
  let payload := min (sizeSub p.size sent) p.currentPayloadSize
  if i = 0 ∧ 1 < p.totalFrags then sizeSub payload headerSize else payload

/-- The subtractions made on the way to `fragPayload`. -/
def fragSubtractions (p : SendPlan) (i sent : ℕ) : List (ℕ × ℕ) :=
  let payload := min (sizeSub p.size sent) p.currentPayloadSize
  [(p.totalFrags, 1), (p.size, sent)] ++
    if payload ≠ 0 ∧ i = 0 ∧ 1 < p.totalFrags then [(payload, headerSize)] else []

def fragMessage (env : SendEnv) (p : SendPlan) (i sentBytesPerCh sizePerCh : ℕ) :
    Message where
  header := { env.fragHdr with
    seqNumber := UInt16.ofNat i
    flag := fragFlag p.totalFrags i
    timestamp := env.now i
    size := UInt64.ofNat (sizePerCh * p.nofCh) }
  mainHeader := if i = 0 then some p.mainHeader else none
  chunks := (List.range p.nofCh).map fun c =>
    (c * p.sizePerBuff + sentBytesPerCh, sizePerCh)

/-- `sendmmsg` when the batch is full or the burst is complete. -/
def flush (p : SendPlan) (i : ℕ) (st : SendState) : SendState :=
  if st.queued.length = batchSize ∨ i = p.totalFrags - 1 then
    { st with handed := st.handed ++ [st.queued], queued := [] }
  else st

/-- Queue fragment `i` with `sizePerCh` bytes of every channel. -/
def queueFragment (env : SendEnv) (p : SendPlan) (st : SendState)
    (i sizePerCh : ℕ) : SendState :=
  flush p i { st with
    sent := sizeT (st.sent + sizePerCh * p.nofCh)
    sentBytesPerCh := sizeT (st.sentBytesPerCh + sizePerCh)
    queued := st.queued ++
      [fragMessage env p i st.sentBytesPerCh sizePerCh] }

/-- The body of the fragment loop. -/
def sendFragment (env : SendEnv) (p : SendPlan) (st : SendState) (i : ℕ) :
    Flow SendState :=
  let st' := { st with
    subtractions := st.subtractions ++ fragSubtractions p i st.sent }
  if min (sizeSub p.size st.sent) p.currentPayloadSize = 0 then .stop st'
  else
    let sizePerCh := fragPayload p i st.sent / p.nofCh
    if sizePerCh * p.nofCh = 0 then .stop st'
    else .next (queueFragment env p st' i sizePerCh)

/-! ## The whole call -/

/-- `main_header`: the header of the signal with `total_frags` filled in. -/
def mainHeader (sig : Signal) : Header :=
  { sig.header with
    totalFrags := UInt16.ofNat (fragmentation sig.getSize).2 }

def sendPlan (sig : Signal) : SendPlan where
  size := sig.getSize
  nofCh := sig.getNumberOfChannels
  currentPayloadSize := (fragmentation sig.getSize).1
  totalFrags := (fragmentation sig.getSize).2
  mainHeader := mainHeader sig
  sizePerBuff := sig.getSizePerBuff

@[simp] theorem sendPlan_size (sig : Signal) :
    (sendPlan sig).size = sig.getSize := rfl

@[simp] theorem sendPlan_nofCh (sig : Signal) :
    (sendPlan sig).nofCh = sig.getNumberOfChannels := rfl

@[simp] theorem sendPlan_sizePerBuff (sig : Signal) :
    (sendPlan sig).sizePerBuff = sig.getSizePerBuff := rfl

/-- The guards in front of the loop: such a signal is dropped. -/
def shouldPass (port : UInt16) (sig : Signal) (bytesPerOtw : UInt8) : Bool :=
  sig.header.numberOfSamples == 0 || sig.header.numberOfChannels == 0 ||
    bytesPerOtw == 0 || port == 0

/-- What a call of `Send` puts on the wire. -/
def sendTrace (port : UInt16) (env : SendEnv) (sig : Signal)
    (bytesPerOtw : UInt8) : SendState :=
  if shouldPass port sig bytesPerOtw then .initial
  else if (sendPlan sig).totalFrags = 0 then .initial
  else
    (runLoop (sendFragment env (sendPlan sig)) .initial
      (List.range (sendPlan sig).totalFrags)).state

/-- `UDPClient::Send`.  Whatever is sent, the array of the signal goes back to
the pool at the end. -/
def send (port : UInt16) (pool : DataArrayPool) (env : SendEnv)
    (sig : Option Signal) (bytesPerOtw : UInt8) :
    SendState × Except String Unit × DataArrayPool :=
  match sig with
  | none => (.initial, .ok (), pool)
  | some sig => (sendTrace port env sig bytesPerOtw, pool.release sig.iqData)

/-- The datagrams of one call, as they leave the host. -/
def sentBytes (port : UInt16) (env : SendEnv) (sig : Signal)
    (bytesPerOtw : UInt8) : List (List UInt8) :=
  (sendTrace port env sig bytesPerOtw).emitted.map
    (Message.bytes env.headerPad sig.mem)

end UDPClient
end Chem
