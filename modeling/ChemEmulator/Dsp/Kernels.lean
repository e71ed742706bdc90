import ChemEmulator.Support.FloatValue
import ChemEmulator.Support.RawVector
import Mathlib.Algebra.Group.Defs

/-!
# Signal processing

`src/chem/dsp/utils.cpp`, `signal.cpp` and the impulse responses of
`channel.cpp`: the kernels that `processChannel` is made of.  A `signal_v` is a
vector of complex samples; the kernels reach it through raw pointers and are
given the number of samples.

The samples form a type `K` and the real numbers a type `R`, with the
operations that the code uses and no law: with floats the kernels are what the
code computes, and exact arithmetic is the case where the laws hold.  A vector
has fewer than `2 ^ 31` samples, so the 32-bit counts of the VOLK calls do not
wrap.

`isfinite` is one of the operations.  The build has `-ffast-math`, under which
the compiler may take it to be true of everything: the branches for values that
are not finite are those of the source, not of that binary.
-/

namespace Chem
namespace Dsp

abbrev SignalV (K : Type) := RawVector K

/-- What the kernels take from the standard library, from VOLK and from the
converters of UHD, which handle one sample after the other. -/
structure Arithmetic (R K : Type) where
  /-- A constant of the source. -/
  literal : ℚ → R
  ofNat : ℕ → R
  isfinite : R → Bool
  sqrt : R → R
  /-- `LIN_TO_DB` and `DB_TO_LIN`. -/
  linToDb : R → R
  dbToLin : R → R
  /-- The squared magnitude of a sample. -/
  normSq : K → R
  /-- `lowpassKaiserWin` for a sample ratio, reversed. -/
  taps : FloatValue → List R
  /-- The advance of the phase per sample, by offset and rate. -/
  phaseInc : R → ℚ → R
  /-- `std::remainder` by a full turn. -/
  wrapPhase : R → R
  /-- The rotator: start, advance and number of the sample. -/
  rotator : R → R → ℕ → K
  /-- `sc16_item32_le` to `fc32` and back. -/
  ofItem32 : UInt32 → K
  toItem32 : K → UInt32

variable {R K : Type}

section Kernels

variable [Zero R] [Add R] [Div R] [Zero K] [Add K] [Mul K] [SMul R K]

/-! ## Element by element -/

/-- `fc32_mul_scalar`; input and output may be the same vector. -/
def fc32MulScalar (input : SignalV K) (scalar : R) (output : SignalV K)
    (size : ℕ) : SignalV K :=
  output.fill size fun i => scalar • input.data i

/-- `fc32_mul_scalar_sum`. -/
def fc32MulScalarSum (input1 : SignalV K) (scalar : R) (input2 : ℕ → K)
    (output : SignalV K) (size : ℕ) : SignalV K :=
  output.fill size fun i => scalar • input1.data i + input2 i

/-- `fc32_lshift`. -/
def fc32Lshift (A : Arithmetic R K) (input : SignalV K) (shift : ℕ)
    (output : SignalV K) (size : ℕ) : SignalV K :=
  fc32MulScalar input (A.literal (2 ^ shift)) output size

/-- `calc_power`: the mean of the squared magnitudes. -/
def calcPower (A : Arithmetic R K) (samples : List K) : R :=
  if samples.isEmpty then 0
  else (samples.map A.normSq).sum / A.ofNat samples.length

/-! ## Filters -/

/-- `fir_filter` with real coefficients.  The signal is continued by its first
and its last sample. -/
def firFilter (signal : SignalV K) (coeffs : List R) (filtered : SignalV K)
    (size : ℕ) : SignalV K :=
  if coeffs.isEmpty ∨ size = 0 then filtered
  else
    let delay := (coeffs.length - 1) / 2
    let extended := fun i =>
      if i < delay then signal.data 0
      else if i < delay + size then signal.data (i - delay)
      else signal.data (size - 1)
    filtered.fill size fun i =>
      (coeffs.mapIdx fun j c => c • extended (i + j)).sum

/-- `fir_filter` with complex coefficients: it runs over the whole vector, of
which the first `size` samples count, and continues it by the vector's last
element. -/
def firFilterTaps (signal : SignalV K) (coeffs : List K)
    (filtered : SignalV K) (size : ℕ) : SignalV K :=
  if coeffs.isEmpty ∨ signal.size = 0 then filtered
  else
    let delay := (coeffs.length - 1) / 2
    let extended := fun i =>
      if i < delay then signal.data 0
      else if i < delay + size then signal.data (i - delay)
      else if i < delay + signal.size then 0
      else signal.data (signal.size - 1)
    filtered.fill signal.size fun i =>
      (coeffs.mapIdx fun j c => extended (i + j) * c).sum

/-! ## Resampling -/

/-- `static_cast<int>` of a whole number; what is out of range becomes the
indefinite integer. -/
def toInt : FloatValue → ℤ
  | .finite q =>
      if -2 ^ 31 ≤ FloatValue.truncate q ∧ FloatValue.truncate q < 2 ^ 31 then
        FloatValue.truncate q
      else -2 ^ 31
  | .infinite _ => -2 ^ 31
  | .nan => -2 ^ 31

/-- `computeResamplingFactors`: `up` and `down`. -/
def computeResamplingFactors (ratio : FloatValue) : ℤ × ℕ :=
  let num := toInt (FloatValue.mul 53 ratio (.finite 1000)).round
  let common := Int.gcd num 1000
  (num / common, 1000 / common)

/-- `downsample`. -/
def downsample (src dest : SignalV K) (down size : ℕ) : SignalV K :=
  if down = 1 then dest.assign src
  else dest.fill (size / down) fun i => src.data (i * down)

/-- `upsample`; `up` has been cut to 16 bits. -/
def upsample (src dest : SignalV K) (up size : ℕ) : SignalV K :=
  if up = 1 then dest.assign src
  else (List.range size).foldl (fun v i => v.set (i * up) (src.data i)) dest

/-- The number of source samples that `processChannel` passes to `resample`. -/
def sourceCount (sPerBuff : ℕ) (ratio : FloatValue) : ℕ :=
  (FloatValue.div 24 (.ofInt 24 sPerBuff) ratio).toUnsigned

/-- `size * up` as a `size_t`. -/
def upsampledCount (size : ℕ) (ratio : FloatValue) : ℕ :=
  ((size * (computeResamplingFactors ratio).1) % 2 ^ 64).toNat

/-- `up` as `upsample` gets it. -/
def upFactor (ratio : FloatValue) : ℕ :=
  ((computeResamplingFactors ratio).1 % 2 ^ 16).toNat

/-- `temp_up` after the low-pass filter. -/
def filteredUp (A : Arithmetic R K) (src : SignalV K) (ratio : FloatValue)
    (size : ℕ) : SignalV K :=
  let newSize := upsampledCount size ratio
  let tempUp := upsample src (.replicate newSize 0) (upFactor ratio) size
  firFilter tempUp (A.taps ratio) tempUp newSize

/-- `resample`. -/
def resample (A : Arithmetic R K) (src dest : SignalV K) (ratio : FloatValue)
    (size : ℕ) : SignalV K :=
  downsample (filteredUp A src ratio size) dest
    (computeResamplingFactors ratio).2 (upsampledCount size ratio)

/-! ## Impulse responses -/

inductive CIRApplyMethod where
  | none
  | firCausal
  | firCentered
  | directConv
deriving DecidableEq

/-- `apply_cir_fir_causal`. -/
def applyCirFirCausal (input output : SignalV K) (taps : List K) (size : ℕ) :
    SignalV K :=
  let inSize := min size input.size
  match taps with
  | [] => output.fill size input.data
  | [tap] => (output.grow inSize 0).fill inSize fun i => tap * input.data i
  | taps =>
      let pad := taps.length - 1
      let extended := fun i => if i < pad then 0 else input.data (i - pad)
      (output.grow inSize 0).fill inSize fun i =>
        (taps.reverse.mapIdx fun j c => extended (i + j) * c).sum

/-- `apply_cir_direct_conv`. -/
def applyCirDirectConv (input output : SignalV K) (taps : List K)
    (size : ℕ) : SignalV K :=
  let inSize := min size input.size
  (output.grow inSize 0).fill inSize fun i =>
    if taps.isEmpty then input.data i
    else ((taps.take (i + 1)).mapIdx fun k c => c * input.data (i - k)).sum

/-- `apply_cir`. -/
def applyCir (input output : SignalV K) (taps : List K) (size : ℕ)
    (method : CIRApplyMethod) : SignalV K :=
  if size = 0 then output
  else
    match method with
    | .none => (output.grow (min size input.size) 0).fill (min size input.size)
        input.data
    | .firCentered => firFilterTaps input taps output (min size input.size)
    | .directConv => applyCirDirectConv input output taps size
    | .firCausal => applyCirFirCausal input output taps size

/-! ## Frequency offset -/

/-- `apply_frequency_offset`: the signal and the new phase. -/
def applyFrequencyOffset [DecidableEq R] [Mul R] (A : Arithmetic R K)
    (signal : SignalV K) (size : ℕ) (sampleRateHz : FloatValue)
    (freqOffsetHz phaseRad : R) : SignalV K × R :=
  match sampleRateHz with
  | .finite rate =>
      if size = 0 ∨ rate ≤ 0 ∨ A.isfinite freqOffsetHz = false ∨
          freqOffsetHz = 0 then (signal, phaseRad)
      else
        let phaseInc := A.phaseInc freqOffsetHz rate
        let phase := A.wrapPhase phaseRad
        (signal.fill size fun i => signal.data i * A.rotator phase phaseInc i,
          A.wrapPhase (phase + phaseInc * A.ofNat size))
  | _ => (signal, phaseRad)

end Kernels

/-! ## Sizes

Only the resampler replaces a vector; everything else writes into the one it
is given. -/

/-- The size of the vector that `resample` has written to. -/
def resampledSize (srcSize destSize : ℕ) (ratio : FloatValue) (size : ℕ) : ℕ :=
  if (computeResamplingFactors ratio).2 = 1 then
    if upFactor ratio = 1 then srcSize else upsampledCount size ratio
  else destSize

section Resampling

variable [Zero K] [Add K] [SMul R K]

theorem size_firFilter (signal : SignalV K) (coeffs : List R)
    (filtered : SignalV K) (size : ℕ) :
    (firFilter signal coeffs filtered size).size = filtered.size := by
  unfold firFilter
  split_ifs <;> rfl

theorem size_filteredUp (A : Arithmetic R K) (src : SignalV K)
    (ratio : FloatValue) (size : ℕ) :
    (filteredUp A src ratio size).size =
      if upFactor ratio = 1 then src.size else upsampledCount size ratio := by
  unfold filteredUp upsample
  rw [size_firFilter]
  split_ifs
  · rfl
  · exact RawVector.size_foldl_set _ _ _ _

theorem size_resample (A : Arithmetic R K) (src dest : SignalV K)
    (ratio : FloatValue) (size : ℕ) :
    (resample A src dest ratio size).size =
      resampledSize src.size dest.size ratio size := by
  unfold resample downsample resampledSize
  by_cases hdown : (computeResamplingFactors ratio).2 = 1
  · rw [if_pos hdown, if_pos hdown]
    exact size_filteredUp A src ratio size
  · rw [if_neg hdown, if_neg hdown]
    rfl

end Resampling

theorem size_applyCir [Zero K] [Add K] [Mul K] (signal : SignalV K)
    (taps : List K) (size : ℕ) (method : CIRApplyMethod) :
    (applyCir signal signal taps size method).size = signal.size := by
  have hgrow : (signal.grow (min size signal.size) 0).size = signal.size := by
    rw [RawVector.grow_of_le signal (Nat.min_le_right _ _)]
  unfold applyCir
  split_ifs
  · rfl
  · cases method with
    | none => exact hgrow
    | firCausal =>
        change (applyCirFirCausal signal signal taps size).size = _
        unfold applyCirFirCausal
        split
        · rfl
        · exact hgrow
        · exact hgrow
    | firCentered =>
        change (firFilterTaps signal taps signal _).size = _
        unfold firFilterTaps
        split_ifs <;> rfl
    | directConv => exact hgrow

theorem size_applyFrequencyOffset [Zero R] [Add R] [Mul R] [DecidableEq R]
    [Mul K] (A : Arithmetic R K) (signal : SignalV K) (size : ℕ)
    (rate : FloatValue) (offset phase : R) :
    (applyFrequencyOffset A signal size rate offset phase).1.size =
      signal.size := by
  unfold applyFrequencyOffset
  split
  · split_ifs <;> rfl
  · rfl

end Dsp
end Chem
