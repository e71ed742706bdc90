import ChemEmulator.Dsp.ImpulseResponse
import ChemEmulator.Pipeline.Superposition
import Mathlib.Algebra.Algebra.Rat

/-!
# Multipath across bursts

A stream on one link arrives in bursts, each of which is one call of
`processChannel`.  Exact arithmetic: the real numbers form an ordered field and
the samples a commutative algebra over it.  Without noise, offset and resampling
a call multiplies the convolution of its burst with the taps by one factor.

The signal model is the convolution of the whole stream.  A call keeps no
samples of the burst before, so it misses the echo of everything that came
earlier.
-/

namespace Chem

open Dsp Convolution

variable {R K : Type}

/-- Taps between two ports, applied by a causal method, without noise and
frequency offset. -/
structure LinkState.Multipath [Zero R] [Add R] (link : LinkState R K)
    (ports : ℕ × ℕ) (taps : List K) : Prop where
  taps : link.chTaps.lookup ports = some taps
  method : link.cirApplyMethod = .firCausal ∨
    link.cirApplyMethod = .directConv
  noise : link.noiseType = .none
  offset : link.freqOffsetHz +
    (if link.dopplerEnabled then link.dopplerHz else 0) = 0

/-- What one call is given besides the link. -/
structure Burst (R K : Type) where
  src : SignalV K
  dest : SignalV K
  cirOut : SignalV K
  p : ChannelProcessParams R
  draw : ChannelDraw R K

namespace Burst

def size (b : Burst R K) : ℕ := b.p.sPerBuff

/-- Equal rates, the same ports, and room for the burst. -/
structure Fits (ports : ℕ × ℕ) (b : Burst R K) : Prop where
  ratio : b.p.sampleRatio = .finite 1
  ports : (b.p.destChannelIndex, b.p.srcChannelIndex) = ports
  room : b.size ≤ b.dest.size

/-- The samples of a list of bursts. -/
def stream (bursts : List (Burst R K)) : List K :=
  bursts.flatMap fun b => b.src.take b.size

end Burst

namespace LinkState.Multipath

section

variable [Zero R] [Add R] {link : LinkState R K} {ports : ℕ × ℕ}
variable {taps : List K}

/-- Measuring the power changes none of the four. -/
theorem sigPower [Div R] [LE R] [DecidableLE R] [Zero K] [Add K] [Mul K]
    [SMul R K] (h : link.Multipath ports taps) (A : Arithmetic R K)
    (budget : LinkBudget R) (samples : List K) :
    (link.sigPower A budget samples).2.Multipath ports taps := by
  unfold LinkState.sigPower
  dsimp only
  split_ifs
  · exact h
  · exact ⟨h.taps, h.method, h.noise, h.offset⟩
  · exact ⟨h.taps, h.method, h.noise, h.offset⟩

theorem tapsOf (h : link.Multipath ports taps) {p : ChannelProcessParams R}
    (hports : (p.destChannelIndex, p.srcChannelIndex) = ports) :
    link.tapsOf p = taps := by
  rw [LinkState.tapsOf, hports, h.taps]
  rfl

theorem cirActive (h : link.Multipath ports taps) (htaps : taps ≠ [])
    {p : ChannelProcessParams R}
    (hports : (p.destChannelIndex, p.srcChannelIndex) = ports) :
    link.cirActive p = true := by
  have hmethod : link.cirApplyMethod ≠ .none := by
    rcases h.method with hcausal | hdirect
    · simp [hcausal]
    · simp [hdirect]
  simp [LinkState.cirActive, h.tapsOf hports, hmethod, htaps]

theorem noise_eq [Zero K] (h : link.Multipath ports taps)
    (draw : ChannelDraw R K) : Channel.noise link draw = fun _ => 0 := by
  unfold Channel.noise
  rw [h.noise]

theorem applyFrequencyOffset [Mul R] [DecidableEq R] [Mul K]
    (h : link.Multipath ports taps) (A : Arithmetic R K) (signal : SignalV K)
    (p : ChannelProcessParams R) :
    link.applyFrequencyOffset A signal p = (signal, link) :=
  if_pos h.offset

/-- Both methods leave the convolution in the destination vector. -/
theorem data_applyTaps [CommRing K] (h : link.Multipath ports taps)
    (htaps : taps ≠ []) {p : ChannelProcessParams R}
    (hports : (p.destChannelIndex, p.srcChannelIndex) = ports)
    {dest : SignalV K} (hroom : p.sPerBuff ≤ dest.size) (cirOut : SignalV K)
    {i : ℕ} (hi : i < p.sPerBuff) :
    (Channel.applyTaps link p dest cirOut).1.data i =
      causal taps dest.data i := by
  have hsize : p.sPerBuff ≠ 0 := by omega
  have hmin := Nat.min_eq_left hroom
  unfold Channel.applyTaps
  rw [h.cirActive htaps hports, h.tapsOf hports]
  rcases h.method with hcausal | hdirect
  · simp only [hcausal, if_true, reduceCtorEq, if_false]
    rw [applyCir, if_neg hsize, applyCirFirCausal_eq htaps, hmin,
      RawVector.data_fill_of_lt _ hi]
  · simp only [hdirect, if_true]
    rw [applyCir, if_neg hsize, applyCirDirectConv_eq htaps, hmin,
      RawVector.data_fill_of_lt _ hi, RawVector.data_fill_of_lt _ hi]

end

end LinkState.Multipath

variable [Field R] [LinearOrder R] [CommRing K] [Algebra R K]

namespace Burst

/-- `processChannel` for one burst. -/
def call (A : Arithmetic R K) (link : LinkState R K) (b : Burst R K) :
    ChannelCall R K :=
  Channel.processChannel A link b.src b.dest b.cirOut b.p b.draw

/-- The samples of all calls, one after the other.  The link goes from one call
to the next. -/
def receive (A : Arithmetic R K) : LinkState R K → List (Burst R K) → List K
  | _, [] => []
  | link, b :: bursts =>
      (b.call A link).dest.take b.size ++ receive A (b.call A link).link bursts

/-- The factor of one call. -/
def scale (A : Arithmetic R K) (link : LinkState R K) (b : Burst R K) : R :=
  (if b.p.srcSc16 then A.literal (2 ^ 4) else 1) *
    (Channel.rxScale A b.p.budget
      (Channel.sigRef A b.p.budget
        (Channel.measured A link b.src.data b.p).1)
      (Channel.cirLossDb A link b.p) b.draw.plDb * Channel.gainScalar A b.p)

/-- Every call has the factor `c`. -/
def ConstantScale (A : Arithmetic R K) (c : R) :
    LinkState R K → List (Burst R K) → Prop
  | _, [] => True
  | link, b :: bursts =>
      scale A link b = c ∧ ConstantScale A c (b.call A link).link bursts

/-! ## One burst -/

variable {A : Arithmetic R K} {link : LinkState R K} {ports : ℕ × ℕ}
variable {taps : List K}

theorem call_multipath (h : link.Multipath ports taps) (htaps : taps ≠ [])
    {b : Burst R K} (hb : b.Fits ports) :
    (b.call A link).link.Multipath ports taps ∧
      ∀ i, i < b.size → (b.call A link).dest.data i =
        scale A link b • causal taps b.src.data i := by
  have hscaled : Channel.applyGain A b.src b.dest b.p =
      fc32MulScalar b.src (Channel.gainScalar A b.p) b.dest b.p.sPerBuff :=
    if_neg (not_not_intro hb.ratio)
  have hpower : link.sigPower A b.p.budget
      ((Channel.applyGain A b.src b.dest b.p).take b.p.sPerBuff) =
        Channel.measured A link b.src.data b.p := by
    unfold Channel.measured
    congr 1
    rw [hscaled]
    apply List.map_congr_left
    intro i hi
    exact RawVector.data_fill_of_lt b.dest (List.mem_range.mp hi) _
  have hafter : (Channel.measured A link b.src.data b.p).2.Multipath ports
      taps := h.sigPower A b.p.budget _
  have hspread : ∀ i, i < b.p.sPerBuff →
      (Channel.applyTaps link b.p (fc32MulScalar b.src
        (Channel.gainScalar A b.p) b.dest b.p.sPerBuff) b.cirOut).1.data i =
          Channel.gainScalar A b.p • causal taps b.src.data i := by
    intro i hi
    have hroom : b.p.sPerBuff ≤ (fc32MulScalar b.src
      (Channel.gainScalar A b.p) b.dest b.p.sPerBuff).size := hb.room
    rw [h.data_applyTaps htaps hb.ports hroom b.cirOut hi, ← causal_smul]
    apply causal_congr
    intro j hj
    exact RawVector.data_fill_of_lt _ (Nat.lt_of_le_of_lt hj hi) _
  unfold call Channel.processChannel
  dsimp only
  rw [hpower, h.noise_eq, hscaled, hafter.applyFrequencyOffset]
  refine ⟨hafter, ?_⟩
  intro i hi
  have hi : i < b.p.sPerBuff := hi
  unfold scale
  rw [mul_smul, mul_smul, ← hspread i hi]
  cases b.p.srcSc16 with
  | false =>
      simp only [Bool.false_eq_true, if_false, one_smul, fc32MulScalarSum]
      rw [RawVector.data_fill_of_lt _ hi, add_zero]
  | true =>
      simp only [if_true, fc32Lshift, fc32MulScalar, fc32MulScalarSum]
      rw [RawVector.data_fill_of_lt _ hi, RawVector.data_fill_of_lt _ hi,
        add_zero]

/-! ## All bursts -/

omit [Field R] [LinearOrder R] [Algebra R K] in
/-- The samples of the stream from the end of `before` on are those of the
bursts that follow. -/
theorem getD_stream_cons (before : List K) (b : Burst R K)
    (bursts : List (Burst R K)) {i : ℕ} (hi : i < b.size) :
    (before ++ stream (b :: bursts)).getD (before.length + i) 0 =
      b.src.data i := by
  have hlen : (b.src.take b.size).length = b.size := by
    simp [RawVector.take]
  rw [List.getD_append_right _ _ _ _ (Nat.le_add_right _ _),
    Nat.add_sub_cancel_left]
  change (b.src.take b.size ++ stream bursts).getD i 0 = _
  rw [List.getD_append _ _ _ _ (by rw [hlen]; exact hi)]
  simp [RawVector.take, hi]

/-- The calls compute the convolution burst by burst. -/
theorem receive_eq {c : R} {bursts : List (Burst R K)}
    (h : link.Multipath ports taps) (htaps : taps ≠ [])
    (hfits : ∀ b ∈ bursts, b.Fits ports)
    (hscale : ConstantScale A c link bursts) (before : List K) :
    receive A link bursts =
      (blockwise taps (fun i => (before ++ stream bursts).getD i 0)
        before.length (bursts.map size)).map (c • ·) := by
  induction bursts generalizing link before with
  | nil => rfl
  | cons b bursts ih =>
      obtain ⟨hlink, hdata⟩ :=
        call_multipath (A := A) h htaps (hfits b List.mem_cons_self)
      have hlen : (before ++ b.src.take b.size).length =
          before.length + b.size := by
        simp [RawVector.take]
      have htail := ih hlink (fun b hb => hfits b (List.mem_cons_of_mem _ hb))
        hscale.2 (before ++ b.src.take b.size)
      rw [hlen, List.append_assoc] at htail
      rw [receive, htail, List.map_cons, blockwise, List.map_append]
      congr 1
      rw [RawVector.take, List.map_map]
      apply List.map_congr_left
      intro i hi
      have hi := List.mem_range.mp hi
      rw [hdata i hi, hscale.1]
      change c • _ = c • _
      congr 1
      apply causal_congr
      intro j hj
      exact (getD_stream_cons before b bursts
        (Nat.lt_of_le_of_lt hj hi)).symm

/-- The calls together give a multiple of the convolution of the whole stream
with the taps. -/
def Continuous (A : Arithmetic R K) (link : LinkState R K) (taps : List K)
    (c : R) (bursts : List (Burst R K)) : Prop :=
  receive A link bursts =
    (List.range (bursts.map size).sum).map fun n =>
      c • causal taps (fun i => (stream bursts).getD i 0) n

/-- No burst is reached by an echo of the ones before. -/
def NoEcho (taps : List K) (bursts : List (Burst R K)) : Prop :=
  EchoFree taps (fun i => (stream bursts).getD i 0) 0 (bursts.map size)

/-- The calls realise the signal model exactly if the link lets nothing through
or no burst is reached by an echo of the ones before. -/
theorem continuous_iff {c : R} {bursts : List (Burst R K)}
    (h : link.Multipath ports taps) (htaps : taps ≠ [])
    (hfits : ∀ b ∈ bursts, b.Fits ports)
    (hscale : ConstantScale A c link bursts) :
    Continuous A link taps c bursts ↔ c = 0 ∨ NoEcho taps bursts := by
  have hreceive := receive_eq h htaps hfits hscale []
  rw [List.nil_append, List.length_nil] at hreceive
  have hsplit : ((List.range (bursts.map size).sum).map fun n =>
      c • causal taps (fun i => (stream bursts).getD i 0) n) =
        ((List.range (bursts.map size).sum).map fun n =>
          causal taps (fun i => (stream bursts).getD i 0) n).map (c • ·) := by
    rw [List.map_map]
    rfl
  unfold Continuous NoEcho
  rw [hreceive, hsplit, ← blockwise_eq_iff]
  simp only [Nat.zero_add]
  by_cases hc : c = 0
  · refine iff_of_true ?_ (Or.inl hc)
    simp only [hc, zero_smul, List.map_const', length_blockwise,
      List.length_map, List.length_range]
  · rw [or_iff_right hc]
    exact List.map_inj_right (smul_right_injective K hc)

/-- Over one tap every stream is continuous, however it is cut. -/
theorem continuous_of_length_le_one {c : R} {bursts : List (Burst R K)}
    (h : link.Multipath ports taps) (htaps : taps ≠ [])
    (hlen : taps.length ≤ 1) (hfits : ∀ b ∈ bursts, b.Fits ports)
    (hscale : ConstantScale A c link bursts) :
    Continuous A link taps c bursts :=
  (continuous_iff h htaps hfits hscale).mpr
    (Or.inr (echoFree_of_length_le_one taps hlen _ _ _))

/-! ## Two bursts -/

open Pipeline in
/-- Two equal taps between the only ports. -/
def twoTapLink : LinkState ℚ ExactSample :=
  { plainLink (AList.singleton (0, 0) 1) with
    chTaps := AList.singleton (0, 0) [1, 1] }

open Pipeline in
/-- A burst at equal rates. -/
def exactBurst (samples : List ExactSample) : Burst ℚ ExactSample where
  src := ⟨samples.length, fun i => samples.getD i 0⟩
  dest := .replicate 8 0
  cirOut := .replicate 0 0
  p := ⟨1, samples.length, .finite 1, .finite 1000000, 0, 0, plainBudget,
    false⟩
  draw := ⟨0, fun _ => 0⟩

theorem multipath_twoTapLink : twoTapLink.Multipath (0, 0) [1, 1] :=
  ⟨rfl, Or.inl rfl, rfl, add_zero 0⟩

theorem fits_exactBurst {samples : List Pipeline.ExactSample}
    (h : samples.length ≤ 8) : (exactBurst samples).Fits (0, 0) :=
  ⟨rfl, rfl, h⟩

/-- A burst that ends with silence is not heard in the next one. -/
theorem continuous_after_silence :
    Continuous Pipeline.exactArithmetic twoTapLink [1, 1] 1
      [exactBurst [1, 0], exactBurst [1]] := by
  refine (continuous_iff multipath_twoTapLink (by decide) ?_ ?_).mpr
    (Or.inr ?_)
  · intro b hb
    simp only [List.mem_cons, List.not_mem_nil, or_false] at hb
    obtain rfl | rfl := hb
    · exact fits_exactBurst (by decide)
    · exact fits_exactBurst (by decide)
  · exact ⟨by decide +kernel, by decide +kernel, trivial⟩
  · exact ⟨by decide +kernel, by decide +kernel, trivial⟩

/-- A sample of one burst and its echo in the next: the second call gives the
second sample alone. -/
theorem echo_lost_at_boundary :
    twoTapLink.Multipath (0, 0) [1, 1] ∧
      ConstantScale Pipeline.exactArithmetic 1 twoTapLink
        [exactBurst [1], exactBurst [1]] ∧
      ¬Continuous Pipeline.exactArithmetic twoTapLink [1, 1] 1
        [exactBurst [1], exactBurst [1]] := by
  refine ⟨multipath_twoTapLink, ⟨by decide +kernel, by decide +kernel,
    trivial⟩, ?_⟩
  unfold Continuous
  decide +kernel

end Burst
end Chem
