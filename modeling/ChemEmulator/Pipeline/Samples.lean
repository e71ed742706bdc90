import ChemEmulator.Channel.Processing
import ChemEmulator.Pipeline.Worker
import Mathlib.Algebra.QuadraticAlgebra.Defs
import Mathlib.Data.Nat.Log
import Mathlib.Data.Rat.Sqrt

/-!
# The samples of an outgoing burst

`src/chem/channel/intermediate.cpp`: the conversion of a received burst at the
start of `ProcessSignal`, and the loops over the ports and the output in
`ProcessDestinationSignal`.  They work on vectors that belong to the thread and
outlive the burst: `src_sig_arr` of the worker, `tl_dest_sig_arr` and, inside
`processChannel`, `cir_out`.

A job is one burst for one destination, with everything that its processing
reads: the state of the link, the link budget and the random draws of every
call.
-/

namespace Chem
namespace Pipeline

open Dsp ByteMemory LittleEndian Pipeline.WorkerContext

/-- `MAX_NUM_SAMPLES`. -/
def maxNumSamples : ℕ := 100000

/-- The vectors that stay with a thread. -/
structure Scratch (K : Type) where
  srcSigArr : List (SignalV K)
  destSigArr : List (SignalV K)
  cirOut : SignalV K

structure Job (R K : Type) where
  sig : Signal
  dest : DestInfo
  link : LinkState R K
  budget : LinkBudget R
  srcSc16 : Bool
  /-- By destination port and source port. -/
  draws : ℕ → ℕ → ChannelDraw R K

/-- The variables of the loop over the destination ports. -/
structure PortOutput (R K : Type) where
  destSigArr : List (SignalV K)
  cirOut : SignalV K
  link : LinkState R K
  /-- The sizes of the destination vectors when they were accessed. -/
  sizes : List ℕ
  /-- What the output converter got, port by port. -/
  converted : List (List K)

variable {R K : Type}

/-- A thread that has processed nothing. -/
def Scratch.fresh [Zero K] : Scratch K where
  srcSigArr := []
  destSigArr := []
  cirOut := .replicate 0 0

/-- A vector of `MAX_NUM_SAMPLES` zeros. -/
def zeroSignal (K : Type) [Zero K] : SignalV K := .replicate maxNumSamples 0

/-- `resize` to at least `count` vectors, the new ones zero. -/
def ensureChannels [Zero K] (vectors : List (SignalV K)) (count : ℕ) :
    List (SignalV K) :=
  vectors ++ List.replicate (count - vectors.length) (zeroSignal K)

theorem getD_ensureChannels [Zero K] (vectors : List (SignalV K))
    (count c : ℕ) :
    (ensureChannels vectors count).getD c (zeroSignal K) =
      vectors.getD c (zeroSignal K) := by
  unfold ensureChannels
  rw [List.getD_eq_getElem?_getD, List.getD_eq_getElem?_getD,
    List.getElem?_append]
  split_ifs with hlt
  · rfl
  · rw [List.getElem?_replicate, List.getElem?_eq_none (Nat.le_of_not_lt hlt)]
    split_ifs <;> rfl

theorem le_length_ensureChannels [Zero K] (vectors : List (SignalV K))
    (count : ℕ) :
    count ≤ (ensureChannels vectors count).length := by
  unfold ensureChannels
  rw [List.length_append, List.length_replicate]
  omega

namespace Job

def sigCtx (j : Job R K) : SignalContext := .ofSignal j.sig

/-- `src_n_ch`. -/
def srcNCh (j : Job R K) : ℕ := j.sigCtx.srcNCh

/-- `dest_n_ch`. -/
def destNCh (j : Job R K) : ℕ := j.dest.numChannels.toNat

/-- `s_perBuff`. -/
def sPerBuff (j : Job R K) : ℕ := destPerBuff j.sigCtx j.dest

/-- `sample_ratio`. -/
def ratio (j : Job R K) : FloatValue := sampleRatio j.sigCtx j.dest

/-- The 32-bit item at an address. -/
def item32 (m : Mem) (a : ℕ) : UInt32 := UInt32.ofNat (leValue (read m a 4))

/-- Sample `i` of source channel `ch`, as `converter_rx` yields it. -/
def sourceSample (A : Arithmetic R K) (j : Job R K) (ch i : ℕ) : K :=
  A.ofItem32 (item32 j.sig.mem (ch * j.sigCtx.iSzCh + 4 * i))

/-- `src_sig_arr` after the burst has been converted into it. -/
def loadSource [Zero K] (A : Arithmetic R K) (j : Job R K)
    (vectors : List (SignalV K)) : List (SignalV K) :=
  (ensureChannels vectors j.srcNCh).mapIdx fun ch v =>
    if ch < j.srcNCh then v.fill j.sigCtx.iNsCh (j.sourceSample A ch) else v

/-- The source vectors hold the burst. -/
theorem data_loadSource [Zero K] (A : Arithmetic R K) (j : Job R K)
    (vectors : List (SignalV K)) {ch i : ℕ} (hch : ch < j.srcNCh)
    (hi : i < j.sigCtx.iNsCh) :
    ((j.loadSource A vectors).getD ch (zeroSignal K)).data i =
      j.sourceSample A ch i := by
  have hlt : ch < (ensureChannels vectors j.srcNCh).length :=
    Nat.lt_of_lt_of_le hch (le_length_ensureChannels _ _)
  unfold loadSource
  rw [List.getD_eq_getElem?_getD, List.getElem?_mapIdx,
    List.getElem?_eq_getElem hlt]
  simp only [Option.map_some, Option.getD_some]
  rw [if_pos hch]
  exact RawVector.data_fill_of_lt _ hi _

/-- The samples of the output as `tl_converter_tx` writes them. -/
def itemBytes (A : Arithmetic R K) (samples : List K) : List UInt8 :=
  samples.flatMap fun x => leBytes 4 (A.toItem32 x).toNat

section

variable [Zero R] [Add R] [Sub R] [Mul R] [Div R]
variable [LT R] [DecidableLT R] [LE R] [DecidableLE R] [DecidableEq R]
variable [Zero K] [Add K] [Mul K] [SMul R K]

/-- The coefficient of a pair of ports, which processing does not change. -/
def coeff (j : Job R K) (cDest cSrc : ℕ) : R := j.link.getChCoeffs cDest cSrc

def params (j : Job R K) (cDest cSrc : ℕ) : ChannelProcessParams R where
  coeff := j.coeff cDest cSrc
  sPerBuff := j.sPerBuff
  sampleRatio := j.ratio
  sampleRateHz := destSrate j.dest
  srcChannelIndex := cSrc
  destChannelIndex := cDest
  budget := j.budget
  srcSc16 := j.srcSc16

/-- One pass of the loop over the source ports. -/
def callPort (A : Arithmetic R K) (j : Job R K) (src : List (SignalV K))
    (cDest : ℕ) (st : ChannelCall R K) (cSrc : ℕ) : ChannelCall R K :=
  if j.coeff cDest cSrc = 0 then st
  else
    let call := Channel.processChannel A st.link (src.getD cSrc (zeroSignal K))
      st.dest st.cirOut (j.params cDest cSrc) (j.draws cDest cSrc)
    { call with sizes := st.sizes ++ call.sizes }

/-- The loop over the source ports. -/
def runPorts (A : Arithmetic R K) (j : Job R K) (src : List (SignalV K))
    (cDest : ℕ) (st : ChannelCall R K) : ChannelCall R K :=
  (List.range j.srcNCh).foldl (j.callPort A src cDest) st

/-- One pass of the loop over the destination ports. -/
def convertPort (A : Arithmetic R K) (j : Job R K) (src : List (SignalV K))
    (out : PortOutput R K) (cDest : ℕ) : PortOutput R K :=
  let st := j.runPorts A src cDest
    ⟨out.destSigArr.getD cDest (zeroSignal K), out.cirOut, out.link, []⟩
  { destSigArr := out.destSigArr.set cDest st.dest
    cirOut := st.cirOut
    link := st.link
    sizes := out.sizes ++ (st.sizes ++ [st.dest.size])
    converted := out.converted ++ [st.dest.take j.sPerBuff] }

/-- The loop over the destination ports; a ratio of zero returns before it. -/
def convertPorts (A : Arithmetic R K) (j : Job R K) (t : Scratch K) :
    PortOutput R K :=
  (List.range (if j.ratio = .finite 0 then 0 else j.destNCh)).foldl
    (j.convertPort A (j.loadSource A t.srcSigArr))
    ⟨ensureChannels t.destSigArr j.destNCh, t.cirOut, j.link, [], []⟩

/-- The vectors of the thread after the job. -/
def process (A : Arithmetic R K) (t : Scratch K) (j : Job R K) : Scratch K where
  srcSigArr := j.loadSource A t.srcSigArr
  destSigArr := (j.convertPorts A t).destSigArr
  cirOut := (j.convertPorts A t).cirOut

/-- The buffer of the outgoing signal; `buffer` is what the pool handed out. -/
def outputMem (A : Arithmetic R K) (t : Scratch K) (j : Job R K)
    (buffer : Mem) : Mem :=
  copyAll buffer ((j.convertPorts A t).converted.mapIdx fun ch samples =>
    (outputPtr j.sigCtx j.dest ch, itemBytes A samples))

/-- The thread from one job to the next. -/
def step (A : Arithmetic R K) (t : Scratch K) (j : Job R K) :
    Option (Scratch K) :=
  some (j.process A t)

/-! ## The loop over the destination ports -/

/-- The variables of the loop before destination port `d`. -/
def portsBefore (A : Arithmetic R K) (t : Scratch K) (j : Job R K) (d : ℕ) :
    PortOutput R K :=
  (List.range d).foldl (j.convertPort A (j.loadSource A t.srcSigArr))
    ⟨ensureChannels t.destSigArr j.destNCh, t.cirOut, j.link, [], []⟩

/-- Where the loop over the source ports starts for destination port `d`. -/
def portStart (A : Arithmetic R K) (t : Scratch K) (j : Job R K) (d : ℕ) :
    ChannelCall R K :=
  ⟨t.destSigArr.getD d (zeroSignal K), (j.portsBefore A t d).cirOut,
    (j.portsBefore A t d).link, []⟩

variable {A : Arithmetic R K} {t : Scratch K} {j : Job R K}

theorem convertPorts_eq (hratio : j.ratio ≠ .finite 0) :
    j.convertPorts A t = j.portsBefore A t j.destNCh := by
  unfold convertPorts portsBefore
  rw [if_neg hratio]

theorem portsBefore_succ (d : ℕ) :
    j.portsBefore A t (d + 1) = j.convertPort A (j.loadSource A t.srcSigArr)
      (j.portsBefore A t d) d := by
  unfold portsBefore
  rw [List.range_succ, List.foldl_append]
  rfl

/-- A vector is untouched until its port is reached. -/
theorem getD_portsBefore {c d : ℕ} (hdc : d ≤ c) :
    (j.portsBefore A t d).destSigArr.getD c (zeroSignal K) =
      t.destSigArr.getD c (zeroSignal K) := by
  induction d with
  | zero => exact getD_ensureChannels t.destSigArr j.destNCh c
  | succ d ih =>
      rw [portsBefore_succ, ← ih (Nat.le_of_succ_le hdc)]
      unfold convertPort
      dsimp only
      rw [List.getD_eq_getElem?_getD, List.getElem?_set_ne (by omega),
        List.getD_eq_getElem?_getD]

theorem convertPort_portsBefore (d : ℕ) :
    (j.portsBefore A t (d + 1)).link =
        (j.runPorts A (j.loadSource A t.srcSigArr) d (j.portStart A t d)).link ∧
      (j.portsBefore A t (d + 1)).cirOut =
        (j.runPorts A (j.loadSource A t.srcSigArr) d
          (j.portStart A t d)).cirOut ∧
      (j.portsBefore A t (d + 1)).converted = (j.portsBefore A t d).converted ++
        [(j.runPorts A (j.loadSource A t.srcSigArr) d
          (j.portStart A t d)).dest.take j.sPerBuff] := by
  have hstart : j.portStart A t d =
      ⟨(j.portsBefore A t d).destSigArr.getD d (zeroSignal K),
        (j.portsBefore A t d).cirOut, (j.portsBefore A t d).link, []⟩ := by
    rw [getD_portsBefore (Nat.le_refl d)]
    rfl
  rw [portsBefore_succ, hstart]
  exact ⟨rfl, rfl, rfl⟩

theorem converted_portsBefore (d : ℕ) :
    (j.portsBefore A t d).converted = (List.range d).map fun c =>
      (j.runPorts A (j.loadSource A t.srcSigArr) c
        (j.portStart A t c)).dest.take j.sPerBuff := by
  induction d with
  | zero => rfl
  | succ d ih =>
      rw [(convertPort_portsBefore d).2.2, ih, List.range_succ, List.map_append]
      rfl

/-- What the output converter gets. -/
theorem converted_convertPorts (hratio : j.ratio ≠ .finite 0) :
    (j.convertPorts A t).converted = (List.range j.destNCh).map fun c =>
      (j.runPorts A (j.loadSource A t.srcSigArr) c
        (j.portStart A t c)).dest.take j.sPerBuff := by
  rw [convertPorts_eq hratio, converted_portsBefore]

end

end Job

/-! ## Exact arithmetic

Complex numbers with rational parts.  Squares have their roots and multiples of
10 dB their linear values; the filter of the resampler passes everything, and
there is no rotation. -/

abbrev ExactSample := QuadraticAlgebra ℚ (-1) 0

/-- A 16-bit part of an item, as a fraction of full scale. -/
def part16 (w : ℕ) : ℚ := ((w : ℤ).bmod (2 ^ 16) : ℤ) / 32767

/-- The 16 bits of a part, cut to an integer. -/
def bits16 (q : ℚ) : ℕ := (FloatValue.truncate (q * 32767) % 2 ^ 16).toNat

def exactArithmetic : Arithmetic ℚ ExactSample where
  literal := id
  ofNat n := n
  isfinite _ := true
  sqrt := Rat.sqrt
  linToDb q := 10 * ((Nat.log 10 q.num.toNat : ℚ) - Nat.log 10 q.den)
  dbToLin q := 10 ^ (q / 10).floor
  normSq z := z.re * z.re + z.im * z.im
  taps _ := [1]
  phaseInc offset rate := offset / rate
  wrapPhase := id
  rotator _ _ _ := 1
  ofItem32 w := ⟨part16 (w.toNat / 2 ^ 16), part16 (w.toNat % 2 ^ 16)⟩
  toItem32 z := UInt32.ofNat (bits16 z.re * 2 ^ 16 + bits16 z.im)

/-- A link without taps, noise and offset, with the given coefficients. -/
def plainLink (coeffs : FiniteMap (ℕ × ℕ) ℚ) : LinkState ℚ ExactSample where
  portChCoeffs := coeffs
  chTaps := ∅
  cirApplyMethod := .firCausal
  extensionBypassesPathLoss := false
  noiseType := .none
  powerCounter := 0
  cachedSigPower := -100
  freqOffsetHz := 0
  freqOffsetPhase := []
  dopplerEnabled := false
  dopplerHz := 0

/-- No gain and no loss, at a reference power of -10 dBFS. -/
def plainBudget : LinkBudget ℚ where
  txGainDb := 0
  rxGainDb := 0
  txAntGainDb := 0
  rxAntGainDb := 0
  txCableLossDb := 0
  rxCableLossDb := 0
  sourcePowerDbfs := -10

/-- A burst of `samples` equal items on each of `channels` channels at
1 MHz, for a destination with the given rate and number of channels. -/
def plainJob (samples : UInt32) (channels : UInt8) (item : ℕ → UInt8)
    (rate : UInt32) (destChannels : UInt8) (coeffs : FiniteMap (ℕ × ℕ) ℚ) :
    Job ℚ ExactSample where
  sig := ⟨⟨4 * samples.toUInt64 * channels.toUInt64, 0, 0, 0, 1000000, samples,
    1, channels⟩, some ⟨0, fun a => item (a % 4)⟩⟩
  dest := ⟨0, rate, destChannels⟩
  link := plainLink coeffs
  budget := plainBudget
  srcSc16 := false
  draws _ _ := ⟨0, fun _ => 0⟩

end Pipeline
end Chem
