import ChemEmulator.Channel.Channel
import ChemEmulator.Dsp.Kernels

/-!
# The channel model of one link

`src/chem/channel/channel.cpp`, `Channel::processChannel`: what one source port
contributes to one destination port.  The call resamples and scales the source
into the destination vector, measures the power now and then, applies the
impulse response, scales to the received power, adds noise and shifts the
frequency.

The link budget, the path loss and the noise are inputs.  The first depends on
the two node configurations, the others draw random numbers.  The measured
signal-to-noise ratio and the stored path loss are only reported and left out.
The tests for finite values are those of the source; with `-ffast-math`, as in
the build, they always succeed.
-/

namespace Chem

open Dsp

/-- What `computeLinkBudget` returns, without the noise figure.  A source power
that is not finite stands for none. -/
structure LinkBudget (R : Type) where
  txGainDb : R
  rxGainDb : R
  txAntGainDb : R
  rxAntGainDb : R
  txCableLossDb : R
  rxCableLossDb : R
  sourcePowerDbfs : R

/-- The members of a `Channel` that its processing reads or changes. -/
structure LinkState (R K : Type) where
  portChCoeffs : FiniteMap (ℕ × ℕ) R
  chTaps : FiniteMap (ℕ × ℕ) (List K)
  cirApplyMethod : CIRApplyMethod
  extensionBypassesPathLoss : Bool
  noiseType : NoiseType
  powerCounter : UInt8
  cachedSigPower : R
  freqOffsetHz : R
  freqOffsetPhase : List R
  dopplerEnabled : Bool
  dopplerHz : R

structure ChannelProcessParams (R : Type) where
  coeff : R
  sPerBuff : ℕ
  sampleRatio : FloatValue
  sampleRateHz : FloatValue
  srcChannelIndex : ℕ
  destChannelIndex : ℕ
  budget : LinkBudget R
  /-- Either format of the source is `sc16`. -/
  srcSc16 : Bool

/-- The random part of one call. -/
structure ChannelDraw (R K : Type) where
  plDb : R
  noise : ℕ → K

/-- What a call leaves behind. -/
structure ChannelCall (R K : Type) where
  dest : SignalV K
  cirOut : SignalV K
  link : LinkState R K
  /-- The size of `dest` at every access to its first `s_perBuff` elements. -/
  sizes : List ℕ

variable {R K : Type}

section Model

variable [Zero R] [Add R] [Sub R] [Mul R] [Div R]
variable [LT R] [DecidableLT R] [LE R] [DecidableLE R] [DecidableEq R]
variable [Zero K] [Add K] [Mul K] [SMul R K]

namespace LinkState

/-- `getChCoeffs`. -/
def getChCoeffs (link : LinkState R K) (src dest : ℕ) : R :=
  (link.portChCoeffs.lookup (src, dest)).getD 0

/-- The taps of a pair of ports; an empty list if there are none. -/
def tapsOf (link : LinkState R K) (p : ChannelProcessParams R) : List K :=
  (link.chTaps.lookup (p.destChannelIndex, p.srcChannelIndex)).getD []

/-- `cir_active`. -/
def cirActive (link : LinkState R K) (p : ChannelProcessParams R) : Bool :=
  decide (link.cirApplyMethod ≠ .none) && !(link.tapsOf p).isEmpty

/-- `sig_power`: the reference, or the power measured at the first and at every
fourth call. -/
def sigPower (A : Arithmetic R K) (link : LinkState R K)
    (budget : LinkBudget R) (samples : List K) : R × LinkState R K :=
  if A.isfinite budget.sourcePowerDbfs then (budget.sourcePowerDbfs, link)
  else
    let counter := link.powerCounter + 1
    if 4 ≤ counter ∨ link.cachedSigPower ≤ A.literal (-100) then
      let power := A.linToDb (calcPower A samples + A.literal 0.0001)
      (power, { link with powerCounter := 0, cachedSigPower := power })
    else (link.cachedSigPower, { link with powerCounter := counter })

/-- `applyFrequencyOffset`. -/
def applyFrequencyOffset (A : Arithmetic R K) (link : LinkState R K)
    (signal : SignalV K) (p : ChannelProcessParams R) :
    SignalV K × LinkState R K :=
  let total := link.freqOffsetHz + if link.dopplerEnabled then link.dopplerHz
    else 0
  if total = 0 then (signal, link)
  else
    match link.freqOffsetPhase[p.destChannelIndex]? with
    | none => (signal, link)
    | some phase =>
        let (signal, phase) := Dsp.applyFrequencyOffset A signal p.sPerBuff
          p.sampleRateHz total phase
        (signal, { link with freqOffsetPhase :=
          link.freqOffsetPhase.set p.destChannelIndex phase })

end LinkState

namespace Channel

/-- Resampling and the gain of the port. -/
def applyGain (A : Arithmetic R K) (src dest : SignalV K)
    (p : ChannelProcessParams R) : SignalV K :=
  let gainScalar := if A.isfinite p.coeff then p.coeff else 0
  if p.sampleRatio ≠ .finite 1 then
    let dest := resample A src dest p.sampleRatio
      (sourceCount p.sPerBuff p.sampleRatio)
    fc32MulScalar dest gainScalar dest p.sPerBuff
  else fc32MulScalar src gainScalar dest p.sPerBuff

/-- `sig_ref`. -/
def sigRef (A : Arithmetic R K) (budget : LinkBudget R) (sigPower : R) : R :=
  if A.isfinite budget.sourcePowerDbfs then budget.sourcePowerDbfs
  else if A.isfinite sigPower = true ∧ A.literal (-100) < sigPower then sigPower
  else A.literal (-100)

/-- `cir_loss_db`: the energy of taps that carry the propagation loss. -/
def cirLossDb (A : Arithmetic R K) (link : LinkState R K)
    (p : ChannelProcessParams R) : R :=
  let taps := link.tapsOf p
  let tapEnergy := calcPower A taps * A.ofNat taps.length
  if link.cirActive p = true ∧ link.extensionBypassesPathLoss = true ∧
      0 < tapEnergy then A.linToDb tapEnergy
  else 0

/-- `rx_scale`: the received power does not exceed full scale. -/
def rxScale (A : Arithmetic R K) (budget : LinkBudget R)
    (sigRef cirLossDb plDb : R) : R :=
  let pTx := sigRef + budget.txGainDb + budget.txAntGainDb -
    budget.txCableLossDb
  let pRx := pTx + cirLossDb - plDb + budget.rxGainDb + budget.rxAntGainDb -
    budget.rxCableLossDb
  let pRx := if 0 < pRx then 0 else pRx
  let rxScaleDb := pRx - (sigRef + cirLossDb)
  A.sqrt (A.dbToLin
    (if A.isfinite rxScaleDb then rxScaleDb else A.literal (-300)))

/-- The impulse response, with the vector `cir_out` of the thread. -/
def applyTaps (link : LinkState R K) (p : ChannelProcessParams R)
    (dest cirOut : SignalV K) : SignalV K × SignalV K :=
  let taps := link.tapsOf p
  if link.cirActive p then
    if link.cirApplyMethod = .directConv then
      let cirOut := applyCir dest (cirOut.grow p.sPerBuff 0) taps p.sPerBuff
        link.cirApplyMethod
      (dest.fill p.sPerBuff cirOut.data, cirOut)
    else (applyCir dest dest taps p.sPerBuff link.cirApplyMethod, cirOut)
  else (dest, cirOut)

/-- The result of `get_noise`. -/
def noise (link : LinkState R K) (draw : ChannelDraw R K) : ℕ → K :=
  match link.noiseType with
  | .none => fun _ => 0
  | .awgn => draw.noise

/-- `processChannel`. -/
def processChannel (A : Arithmetic R K) (link : LinkState R K)
    (src dest cirOut : SignalV K) (p : ChannelProcessParams R)
    (draw : ChannelDraw R K) : ChannelCall R K :=
  let scaled := applyGain A src dest p
  let (sigPower, link₁) := link.sigPower A p.budget (scaled.take p.sPerBuff)
  let rxScale := rxScale A p.budget (sigRef A p.budget sigPower)
    (cirLossDb A link p) draw.plDb
  let (spread, cirOut) := applyTaps link p scaled cirOut
  let received := fc32MulScalarSum spread rxScale (noise link draw) spread
    p.sPerBuff
  let shifted := if p.srcSc16 then
    fc32Lshift A received 4 received p.sPerBuff else received
  let (dest, link₂) := link₁.applyFrequencyOffset A shifted p
  { dest := dest
    cirOut := cirOut
    link := link₂
    sizes := [scaled.size, spread.size, received.size, shifted.size] }

end Channel

end Model

/-! ## Sizes -/

section Sizes

theorem LinkState.size_applyFrequencyOffset [Zero R] [Add R] [Mul R]
    [DecidableEq R] [Mul K] (A : Arithmetic R K) (link : LinkState R K)
    (signal : SignalV K) (p : ChannelProcessParams R) :
    (link.applyFrequencyOffset A signal p).1.size = signal.size := by
  unfold LinkState.applyFrequencyOffset
  dsimp only
  generalize link.freqOffsetHz + _ = total
  split_ifs
  · rfl
  · split
    · rfl
    · exact Dsp.size_applyFrequencyOffset A signal _ _ _ _

namespace Channel

/-- The size of the destination vector during and after a call. -/
def callSize (p : ChannelProcessParams R) (srcSize destSize : ℕ) : ℕ :=
  if p.sampleRatio ≠ .finite 1 then
    resampledSize srcSize destSize p.sampleRatio
      (sourceCount p.sPerBuff p.sampleRatio)
  else destSize

theorem size_applyGain [Zero R] [Zero K] [Add K] [SMul R K]
    (A : Arithmetic R K) (src dest : SignalV K) (p : ChannelProcessParams R) :
    (applyGain A src dest p).size = callSize p src.size dest.size := by
  unfold applyGain callSize
  by_cases hratio : p.sampleRatio ≠ .finite 1
  · rw [if_pos hratio, if_pos hratio]
    exact size_resample A src dest _ _
  · rw [if_neg hratio, if_neg hratio]
    rfl

theorem size_applyTaps [Zero K] [Add K] [Mul K] (link : LinkState R K)
    (p : ChannelProcessParams R) (dest cirOut : SignalV K) :
    (applyTaps link p dest cirOut).1.size = dest.size := by
  unfold applyTaps
  dsimp only
  split_ifs
  · rfl
  · exact size_applyCir dest _ _ _
  · rfl

variable [Zero R] [Add R] [Sub R] [Mul R] [Div R]
variable [LT R] [DecidableLT R] [LE R] [DecidableLE R] [DecidableEq R]
variable [Zero K] [Add K] [Mul K] [SMul R K]
variable (A : Arithmetic R K) (link : LinkState R K)
variable (src dest cirOut : SignalV K) (p : ChannelProcessParams R)
variable (draw : ChannelDraw R K)

theorem mem_sizes_processChannel {size : ℕ}
    (h : size ∈ (processChannel A link src dest cirOut p draw).sizes) :
    size = callSize p src.size dest.size := by
  have hscaled := size_applyGain A src dest p
  have hspread := (size_applyTaps link p (applyGain A src dest p) cirOut).trans
    hscaled
  unfold processChannel at h
  simp only [List.mem_cons, List.not_mem_nil, or_false] at h
  obtain rfl | rfl | rfl | rfl := h
  · exact hscaled
  · exact hspread
  · exact hspread
  · split_ifs
    · exact hspread
    · exact hspread

theorem size_dest_processChannel :
    (processChannel A link src dest cirOut p draw).dest.size =
      callSize p src.size dest.size := by
  have hspread := (size_applyTaps link p (applyGain A src dest p) cirOut).trans
    (size_applyGain A src dest p)
  unfold processChannel
  dsimp only
  rw [LinkState.size_applyFrequencyOffset]
  split_ifs
  · exact hspread
  · exact hspread

end Channel

end Sizes

end Chem
