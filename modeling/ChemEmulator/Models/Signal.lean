import ChemEmulator.Models.DataPool
import ChemEmulator.Support.FloatValue

/-!
# Signals

`include/chem/models/signal.hpp`: one burst of IQ samples in an array of the
IQ pool, together with its header.  The members `_size`, `_numCh` and
`_numSamp` are copies of header fields taken by the constructor; `_size` is
only 32 bits wide.  The profiling timestamps, the carrier frequency and the
source name do not influence any function modelled here and are left out.
-/

namespace Chem

open ByteMemory

structure Signal where
  header : Header
  iqData : Option DArray

namespace Signal

/-- The constructor keeps the array only when the announced size is not zero;
otherwise the argument dies with the call. -/
def create (iq : Option DArray) (hdr : Header) : Signal where
  header := hdr
  iqData := if hdr.size ≠ 0 then iq else none

/-- `_size`, the header's size cut to 32 bits. -/
def getSize (s : Signal) : ℕ := s.header.size.toNat % 2 ^ 32

/-- `_numCh`. -/
def getNumberOfChannels (s : Signal) : ℕ := s.header.numberOfChannels.toNat

/-- `_numSamp`. -/
def getNumSampPerBuff (s : Signal) : ℕ := s.header.numberOfSamples.toNat

def getSizePerBuff (s : Signal) : ℕ :=
  if s.getNumberOfChannels = 0 then 0
  else s.getSize / s.getNumberOfChannels

/-- `getData(chNo)`, from the start of the array; a channel that does not exist
has a null pointer. -/
def getData (s : Signal) (chNo : ℕ) : Option ℕ :=
  if s.getNumberOfChannels ≤ chNo then none
  else some (sizeT (chNo * s.getSizePerBuff))

/-- `_srate`, a `float`. -/
def getSrate (s : Signal) : FloatValue :=
  .ofInt 24 s.header.sampleRate.toNat

/-- The memory behind `iq_data`. -/
def mem (s : Signal) : Mem :=
  match s.iqData with
  | some array => array.mem
  | none => fun _ => 0

theorem getSize_lt (s : Signal) : s.getSize < 2 ^ 32 :=
  Nat.mod_lt _ (by norm_num)

theorem getSizePerBuff_eq {s : Signal} (h : 0 < s.getNumberOfChannels) :
    s.getSizePerBuff = s.getSize / s.getNumberOfChannels := by
  simp [getSizePerBuff, Nat.ne_of_gt h]

end Signal

end Chem
