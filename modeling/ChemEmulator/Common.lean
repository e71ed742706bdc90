import ChemEmulator.Support.LittleEndian
import Mathlib.Tactic.NormNum

/-!
# Network constants and wire headers

`include/chem/common.h`: the compile-time constants of the IQ transport and
the two structures that are sent as raw memory.  Both are laid out as the
x86-64 ABI does it; `Header` ends in one byte of padding, which is copied to
the wire like the fields and ignored by the reader.
-/

namespace Chem

open LittleEndian

/-! ## Constants -/

/-- `HEADER_SIZE`, the size of `struct Header`. -/
def headerSize : ℕ := 48

/-- `UDP_HEADER_SIZE`, the size of `struct UDPHeader`. -/
def udpHeaderSize : ℕ := 24

/-- `MTU_SIZE`: Ethernet MTU less the IP and UDP headers. -/
def mtuSize : ℕ := 1472

def batchSize : ℕ := 4

/-- `UDP_CAP`, the capacity of the packet pool of one server. -/
def udpCap : ℕ := 16

def payloadSize : ℕ := mtuSize - udpHeaderSize

def maxFrags : ℕ := 128

def maxIq : ℕ := payloadSize * maxFrags

def queueCap : ℕ := 500

def iqPoolCap : ℕ := queueCap * 4

/-- `IQ_SIZE`, the size of one buffer of the IQ pools. -/
def iqSize : ℕ := maxIq * 4

theorem payloadSize_eq : payloadSize = 1448 := rfl

theorem iqSize_eq : iqSize = 741376 := rfl

/-! ## Machine arithmetic -/

/-- Reduction to `size_t`. -/
def sizeT (n : ℕ) : ℕ := n % 2 ^ 64

/-- Subtraction of two `size_t` values. -/
def sizeSub (a b : ℕ) : ℕ := (a + 2 ^ 64 - b) % 2 ^ 64

theorem sizeT_of_lt {n : ℕ} (h : n < 2 ^ 64) : sizeT n = n :=
  Nat.mod_eq_of_lt h

theorem sizeT_lt (n : ℕ) : sizeT n < 2 ^ 64 :=
  Nat.mod_lt _ (by norm_num)

theorem sizeSub_of_le {a b : ℕ} (hb : b ≤ a) (ha : a < 2 ^ 64) :
    sizeSub a b = a - b := by
  have hshift : a + 2 ^ 64 - b = (a - b) + 2 ^ 64 := by omega
  rw [sizeSub, hshift, Nat.add_mod_right, Nat.mod_eq_of_lt (by omega)]

/-! ## Burst header -/

/-- `struct Header`, sent once in front of the first fragment of a burst. -/
structure Header where
  size : UInt64
  start : Int64
  «end» : Int64
  rtTxTime : UInt64
  sampleRate : UInt64
  numberOfSamples : UInt32
  totalFrags : UInt16
  numberOfChannels : UInt8
deriving DecidableEq, Inhabited

namespace Header

/-- The value-initialised `Header{}`. -/
def zero : Header := ⟨0, 0, 0, 0, 0, 0, 0, 0⟩

/-- The memory image of a header; `pad` is the content of its padding. -/
def encode (pad : UInt8) (h : Header) : List UInt8 :=
  leBytes 8 h.size.toNat ++ (leBytes 8 h.start.toUInt64.toNat ++
    (leBytes 8 h.end.toUInt64.toNat ++ (leBytes 8 h.rtTxTime.toNat ++
      (leBytes 8 h.sampleRate.toNat ++ (leBytes 4 h.numberOfSamples.toNat ++
        (leBytes 2 h.totalFrags.toNat ++
          (leBytes 1 h.numberOfChannels.toNat ++ [pad])))))))

/-- The header read from memory that starts with its image. -/
def decode (bs : List UInt8) : Header where
  size := UInt64.ofNat (leField bs 0 8)
  start := (UInt64.ofNat (leField bs 8 8)).toInt64
  «end» := (UInt64.ofNat (leField bs 16 8)).toInt64
  rtTxTime := UInt64.ofNat (leField bs 24 8)
  sampleRate := UInt64.ofNat (leField bs 32 8)
  numberOfSamples := UInt32.ofNat (leField bs 40 4)
  totalFrags := UInt16.ofNat (leField bs 44 2)
  numberOfChannels := UInt8.ofNat (leField bs 46 1)

@[simp] theorem length_encode (pad : UInt8) (h : Header) :
    (encode pad h).length = headerSize := by
  simp [encode, headerSize]

end Header

/-! ## Fragment header -/

/-- `struct UDPHeader`, sent in front of every fragment.  The five bytes of
`_pad` are one 40-bit field. -/
structure UDPHeader where
  timestamp : UInt64
  size : UInt64
  seqNumber : UInt16
  flag : UInt8
  pad : BitVec 40
deriving DecidableEq, Inhabited

namespace UDPHeader

/-- The start bit, `flag & 0x1`. -/
def startFlag (h : UDPHeader) : Bool := (h.flag &&& 0x1) != 0

/-- The end bit, `flag & 0x4`. -/
def endFlag (h : UDPHeader) : Bool := (h.flag &&& 0x4) != 0

def encode (h : UDPHeader) : List UInt8 :=
  leBytes 8 h.timestamp.toNat ++ (leBytes 8 h.size.toNat ++
    (leBytes 2 h.seqNumber.toNat ++ (leBytes 1 h.flag.toNat ++
      leBytes 5 h.pad.toNat)))

def decode (bs : List UInt8) : UDPHeader where
  timestamp := UInt64.ofNat (leField bs 0 8)
  size := UInt64.ofNat (leField bs 8 8)
  seqNumber := UInt16.ofNat (leField bs 16 2)
  flag := UInt8.ofNat (leField bs 18 1)
  pad := BitVec.ofNat 40 (leField bs 19 5)

@[simp] theorem length_encode (h : UDPHeader) :
    (encode h).length = udpHeaderSize := by
  simp [encode, udpHeaderSize]

end UDPHeader

/-! ## Reading back what was sent -/

private theorem leField_next {w x off : ℕ} (rest : List UInt8) (v : ℕ)
    (h : w ≤ off) :
    leField (leBytes w x ++ rest) off v = leField rest (off - w) v :=
  leField_skip (length_leBytes w x) rest off v h

theorem Header.decode_encode (pad : UInt8) (h : Header) (rest : List UInt8) :
    Header.decode (Header.encode pad h ++ rest) = h := by
  cases h
  simp [Header.encode, Header.decode, List.append_assoc, leField_next,
    leField_leBytes_append]

theorem UDPHeader.decode_encode (h : UDPHeader) (rest : List UInt8) :
    UDPHeader.decode (UDPHeader.encode h ++ rest) = h := by
  cases h
  simp [UDPHeader.encode, UDPHeader.decode, List.append_assoc, leField_next,
    leField_leBytes_append]
  apply BitVec.eq_of_toNat_eq
  simp
  omega

end Chem
