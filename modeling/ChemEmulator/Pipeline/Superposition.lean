import ChemEmulator.Pipeline.Samples
import Mathlib.Algebra.BigOperators.Group.List.Basic
import Mathlib.Algebra.Field.Defs
import Mathlib.Algebra.Module.Defs

/-!
# Superposition of the source ports

Exact arithmetic: the real numbers form an ordered field and the samples a
module over it.  Without noise, taps, offset and resampling a call multiplies
every source sample by one factor, whatever the destination vector held before.
The factor depends on the state of the link only through the measured power.

The loop over the source ports calls `processChannel` on one destination vector,
and every call writes the vector anew, so the last source port that contributes
decides what is converted.
-/

namespace Chem

open Dsp

variable {R K : Type}

/-- No noise, no taps and no frequency offset. -/
structure LinkState.Plain [Zero R] [Add R] (link : LinkState R K) : Prop where
  noise : link.noiseType = .none
  taps : ∀ ports, link.chTaps.lookup ports = none
  offset : link.freqOffsetHz +
    (if link.dopplerEnabled then link.dopplerHz else 0) = 0

namespace LinkState.Plain

section

variable [Zero R] [Add R] {link : LinkState R K}

theorem cirActive (h : link.Plain) (p : ChannelProcessParams R) :
    link.cirActive p = false := by
  simp [LinkState.cirActive, LinkState.tapsOf, h.taps]

theorem applyTaps [Zero K] [Add K] [Mul K] (h : link.Plain)
    (p : ChannelProcessParams R) (dest cirOut : SignalV K) :
    Channel.applyTaps link p dest cirOut = (dest, cirOut) := by
  unfold Channel.applyTaps
  rw [h.cirActive]
  rfl

theorem noise_eq [Zero K] (h : link.Plain) (draw : ChannelDraw R K) :
    Channel.noise link draw = fun _ => 0 := by
  unfold Channel.noise
  rw [h.noise]

theorem applyFrequencyOffset [Mul R] [DecidableEq R] [Mul K] (h : link.Plain)
    (A : Arithmetic R K) (signal : SignalV K) (p : ChannelProcessParams R) :
    link.applyFrequencyOffset A signal p = (signal, link) :=
  if_pos h.offset

theorem cirLossDb [Mul R] [Div R] [LT R] [DecidableLT R] (h : link.Plain)
    (A : Arithmetic R K) (p : ChannelProcessParams R) :
    Channel.cirLossDb A link p = 0 := by
  unfold Channel.cirLossDb
  rw [h.cirActive]
  exact if_neg fun hall => Bool.false_ne_true hall.1

/-- Measuring the power changes none of the three. -/
theorem sigPower [Div R] [LE R] [DecidableLE R] (h : link.Plain)
    (A : Arithmetic R K) (budget : LinkBudget R) (samples : List K) :
    (link.sigPower A budget samples).2.Plain := by
  unfold LinkState.sigPower
  dsimp only
  split_ifs
  · exact h
  · exact ⟨h.noise, h.taps, h.offset⟩
  · exact ⟨h.noise, h.taps, h.offset⟩

end

end LinkState.Plain

variable [Field R] [LinearOrder R] [AddCommGroup K] [Mul K] [Module R K]

/-! ## One call -/

namespace Channel

/-- `gain_scalar`. -/
def gainScalar (A : Arithmetic R K) (p : ChannelProcessParams R) : R :=
  if A.isfinite p.coeff then p.coeff else 0

/-- `sig_power` of a call without resampling, and the link after it. -/
def measured (A : Arithmetic R K) (link : LinkState R K) (samples : ℕ → K)
    (p : ChannelProcessParams R) : R × LinkState R K :=
  link.sigPower A p.budget
    ((List.range p.sPerBuff).map fun i => gainScalar A p • samples i)

omit [Mul K] in
theorem plain_measured {link : LinkState R K} (h : link.Plain)
    (A : Arithmetic R K) (samples : ℕ → K) (p : ChannelProcessParams R) :
    (measured A link samples p).2.Plain :=
  h.sigPower A p.budget _

/-- The factor by which a call multiplies every source sample. -/
def totalGain (A : Arithmetic R K) (link : LinkState R K) (samples : ℕ → K)
    (p : ChannelProcessParams R) (draw : ChannelDraw R K) : R :=
  (if p.srcSc16 then A.literal (2 ^ 4) else 1) *
    (rxScale A p.budget
      (sigRef A p.budget (measured A link samples p).1) 0 draw.plDb *
        gainScalar A p)

omit [Mul K] in
theorem measured_congr (A : Arithmetic R K) (link : LinkState R K)
    {samples samples' : ℕ → K} {p : ChannelProcessParams R}
    (h : ∀ i, i < p.sPerBuff → samples i = samples' i) :
    measured A link samples p = measured A link samples' p := by
  unfold measured
  congr 1
  apply List.map_congr_left
  intro i hi
  rw [h i (List.mem_range.mp hi)]

/-- What a call does over a plain link: neither the destination vector nor
`cir_out` plays a part. -/
theorem processChannel_plain {A : Arithmetic R K} {link : LinkState R K}
    (h : link.Plain) {p : ChannelProcessParams R}
    (hratio : p.sampleRatio = .finite 1) (src dest cirOut : SignalV K)
    (draw : ChannelDraw R K) :
    (processChannel A link src dest cirOut p draw).link =
        (measured A link src.data p).2 ∧
      ∀ i, i < p.sPerBuff →
        (processChannel A link src dest cirOut p draw).dest.data i =
          totalGain A link src.data p draw • src.data i := by
  have hscaled : applyGain A src dest p =
      fc32MulScalar src (gainScalar A p) dest p.sPerBuff :=
    if_neg (not_not_intro hratio)
  have hpower : link.sigPower A p.budget
      ((applyGain A src dest p).take p.sPerBuff) =
        measured A link src.data p := by
    unfold measured
    congr 1
    rw [hscaled]
    apply List.map_congr_left
    intro i hi
    exact RawVector.data_fill_of_lt dest (List.mem_range.mp hi) _
  have hplain := plain_measured h A src.data p
  unfold processChannel
  dsimp only
  rw [hpower, h.applyTaps, h.cirLossDb, h.noise_eq, hscaled,
    hplain.applyFrequencyOffset]
  refine ⟨rfl, ?_⟩
  intro i hi
  unfold totalGain
  rw [mul_smul, mul_smul]
  cases p.srcSc16 with
  | false => simp [fc32MulScalarSum, fc32MulScalar, RawVector.fill, hi]
  | true =>
      simp [fc32Lshift, fc32MulScalarSum, fc32MulScalar, RawVector.fill, hi]

end Channel

/-! ## One destination port -/

namespace Pipeline
namespace Job

open Channel

/-- `processChannel` for one pair of ports alone, on vectors of zeros. -/
def callAlone (A : Arithmetic R K) (j : Job R K) (src : List (SignalV K))
    (d : ℕ) (link : LinkState R K) (s : ℕ) : ChannelCall R K :=
  processChannel A link (src.getD s (zeroSignal K)) (zeroSignal K)
    (zeroSignal K) (j.params d s) (j.draws d s)

/-- The contributions of the source ports with a coefficient other than zero,
each computed alone.  The link goes from one call to the next, since it
remembers the measured power. -/
def contributions (A : Arithmetic R K) (j : Job R K) (src : List (SignalV K))
    (d : ℕ) : LinkState R K → List ℕ → List (ℕ → K)
  | _, [] => []
  | link, s :: ports =>
      if j.coeff d s = 0 then contributions A j src d link ports
      else (j.callAlone A src d link s).dest.data ::
        contributions A j src d (j.callAlone A src d link s).link ports

/-- The converted samples of every destination port are the sums of the
contributions. -/
def Superposes (A : Arithmetic R K) (t : Scratch K) (j : Job R K) : Prop :=
  ∀ d, d < j.destNCh →
    (j.convertPorts A t).converted[d]? =
      some ((List.range j.sPerBuff).map fun i =>
        ((j.contributions A (j.loadSource A t.srcSigArr) d
          (j.portsBefore A t d).link (List.range j.srcNCh)).map (· i)).sum)

/-- The source ports with a coefficient other than zero, each with the factor
for its samples. -/
def gains (A : Arithmetic R K) (j : Job R K) (d : ℕ) :
    LinkState R K → List ℕ → List (ℕ × R)
  | _, [] => []
  | link, s :: ports =>
      if j.coeff d s = 0 then gains A j d link ports
      else (s, totalGain A link (j.sourceSample A s) (j.params d s)
          (j.draws d s)) ::
        gains A j d
          (measured A link (j.sourceSample A s) (j.params d s)).2 ports

/-- The link after the source ports of one destination port. -/
def linkAfter (A : Arithmetic R K) (j : Job R K) (d : ℕ) :
    LinkState R K → List ℕ → LinkState R K
  | link, [] => link
  | link, s :: ports =>
      if j.coeff d s = 0 then linkAfter A j d link ports
      else linkAfter A j d
        (measured A link (j.sourceSample A s) (j.params d s)).2 ports

/-- The link before a destination port. -/
def linkBefore (A : Arithmetic R K) (j : Job R K) (d : ℕ) : LinkState R K :=
  (List.range d).foldl
    (fun link c => j.linkAfter A c link (List.range j.srcNCh)) j.link

/-- The gains of a destination port. -/
def portGains (A : Arithmetic R K) (j : Job R K) (d : ℕ) : List (ℕ × R) :=
  j.gains A d (j.linkBefore A d) (List.range j.srcNCh)

/-- Of the source ports that contribute to a destination port, all but the last
cancel each other; a port without contributions finds a vector of zeros. -/
def OnlyLastCounts (A : Arithmetic R K) (t : Scratch K) (j : Job R K) :
    Prop :=
  ∀ d, d < j.destNCh → ∀ i, i < j.sPerBuff →
    (j.portGains A d = [] →
      (t.destSigArr.getD d (zeroSignal K)).data i = 0) ∧
    (((j.portGains A d).dropLast.map fun g =>
      g.2 • j.sourceSample A g.1 i).sum = 0)

variable {A : Arithmetic R K} {j : Job R K} {src : List (SignalV K)}

/-- One call for a source vector that holds the burst. -/
theorem processChannel_port (hratio : j.ratio = .finite 1) {d s : ℕ}
    (hsrc : ∀ i, i < j.sPerBuff →
      (src.getD s (zeroSignal K)).data i = j.sourceSample A s i)
    {link : LinkState R K} (hlink : link.Plain) (dest cirOut : SignalV K) :
    (processChannel A link (src.getD s (zeroSignal K)) dest cirOut
        (j.params d s) (j.draws d s)).link =
      (measured A link (j.sourceSample A s) (j.params d s)).2 ∧
    ∀ i, i < j.sPerBuff →
      (processChannel A link (src.getD s (zeroSignal K)) dest cirOut
          (j.params d s) (j.draws d s)).dest.data i =
        totalGain A link (j.sourceSample A s) (j.params d s) (j.draws d s) •
          j.sourceSample A s i := by
  obtain ⟨hcall, hdata⟩ := processChannel_plain (A := A) hlink
    (p := j.params d s) hratio (src.getD s (zeroSignal K)) dest cirOut
    (j.draws d s)
  have hmeasured := measured_congr A link (p := j.params d s) hsrc
  refine ⟨hcall.trans (congrArg Prod.snd hmeasured), ?_⟩
  intro i hi
  rw [hdata i hi, hsrc i hi]
  unfold totalGain
  rw [hmeasured]

/-- The loop over the source ports of a plain link at equal rates: the last
contribution is what stays. -/
theorem foldl_callPort_plain (hratio : j.ratio = .finite 1) {d : ℕ}
    {ports : List ℕ} (hsrc : ∀ s ∈ ports, ∀ i, i < j.sPerBuff →
      (src.getD s (zeroSignal K)).data i = j.sourceSample A s i)
    {st : ChannelCall R K} (hlink : st.link.Plain) :
    (ports.foldl (j.callPort A src d) st).link =
        j.linkAfter A d st.link ports ∧
      (j.linkAfter A d st.link ports).Plain ∧
      ∀ i, i < j.sPerBuff →
        (ports.foldl (j.callPort A src d) st).dest.data i =
          ((j.gains A d st.link ports).map fun g =>
            g.2 • j.sourceSample A g.1 i).getLastD (st.dest.data i) := by
  induction ports generalizing st with
  | nil => exact ⟨rfl, hlink, fun _ _ => rfl⟩
  | cons s ports ih =>
      have hports := fun c hc => hsrc c (List.mem_cons_of_mem s hc)
      rw [List.foldl_cons]
      unfold linkAfter gains
      by_cases hcoeff : j.coeff d s = 0
      · have hskip : j.callPort A src d st s = st := if_pos hcoeff
        rw [hskip, if_pos hcoeff, if_pos hcoeff]
        exact ih hports hlink
      · obtain ⟨hcall, hdata⟩ := processChannel_port (A := A) (d := d) hratio
          (hsrc s List.mem_cons_self) hlink st.dest st.cirOut
        have hnext : (j.callPort A src d st s).link =
            (measured A st.link (j.sourceSample A s) (j.params d s)).2 := by
          unfold callPort
          rw [if_neg hcoeff]
          exact hcall
        have hplain : (j.callPort A src d st s).link.Plain := by
          rw [hnext]
          exact plain_measured hlink A _ _
        obtain ⟨hafter, hkept, hlast⟩ := ih hports hplain
        rw [if_neg hcoeff, if_neg hcoeff, ← hnext]
        refine ⟨hafter, hkept, ?_⟩
        intro i hi
        rw [hlast i hi, List.map_cons, List.getLastD_cons]
        congr 1
        unfold callPort
        rw [if_neg hcoeff]
        exact hdata i hi

/-- The contributions are the multiples of the source samples. -/
theorem contributions_plain (hratio : j.ratio = .finite 1) {d : ℕ}
    {ports : List ℕ} (hsrc : ∀ s ∈ ports, ∀ i, i < j.sPerBuff →
      (src.getD s (zeroSignal K)).data i = j.sourceSample A s i)
    {link : LinkState R K} (hlink : link.Plain) {i : ℕ}
    (hi : i < j.sPerBuff) :
    (j.contributions A src d link ports).map (· i) =
      (j.gains A d link ports).map fun g => g.2 • j.sourceSample A g.1 i := by
  induction ports generalizing link with
  | nil => rfl
  | cons s ports ih =>
      have hports := fun c hc => hsrc c (List.mem_cons_of_mem s hc)
      unfold contributions gains
      by_cases hcoeff : j.coeff d s = 0
      · rw [if_pos hcoeff, if_pos hcoeff]
        exact ih hports hlink
      · obtain ⟨hcall, hdata⟩ := processChannel_port (A := A) (d := d) hratio
          (hsrc s List.mem_cons_self) hlink (zeroSignal K) (zeroSignal K)
        rw [if_neg hcoeff, if_neg hcoeff, List.map_cons, List.map_cons]
        unfold callAlone
        rw [hdata i hi, hcall, ih hports (plain_measured hlink A _ _)]

/-! ## All destination ports -/

section Destinations

variable {t : Scratch K}

omit [Field R] [LinearOrder R] [Mul K] [Module R K] in
theorem data_loadSource_of_rate
    (hrate : WorkerContext.destSrate j.dest = j.sigCtx.sigSrate) :
    ∀ s ∈ List.range j.srcNCh, ∀ i, i < j.sPerBuff →
      ((j.loadSource A t.srcSigArr).getD s (zeroSignal K)).data i =
        j.sourceSample A s i := by
  intro s hs i hi
  have hcount : j.sPerBuff = j.sigCtx.iNsCh := if_neg (not_not_intro hrate)
  rw [hcount] at hi
  exact data_loadSource A j t.srcSigArr (List.mem_range.mp hs) hi

theorem link_portsBefore
    (hrate : WorkerContext.destSrate j.dest = j.sigCtx.sigSrate)
    (hlink : j.link.Plain) (d : ℕ) :
    (j.portsBefore A t d).link = j.linkBefore A d ∧
      (j.linkBefore A d).Plain := by
  have hratio : j.ratio = .finite 1 := if_neg (not_not_intro hrate)
  induction d with
  | zero => exact ⟨rfl, hlink⟩
  | succ d ih =>
      have hstart : (j.portStart A t d).link = j.linkBefore A d := ih.1
      have hplain : (j.portStart A t d).link.Plain := by
        rw [hstart]
        exact ih.2
      obtain ⟨hafter, hkept, -⟩ := foldl_callPort_plain hratio
        (data_loadSource_of_rate (A := A) (t := t) hrate) (d := d) hplain
      have hnext : j.linkBefore A (d + 1) =
          j.linkAfter A d (j.portStart A t d).link (List.range j.srcNCh) := by
        unfold linkBefore
        rw [List.range_succ, List.foldl_append, hstart]
        rfl
      rw [(convertPort_portsBefore d).1, hnext]
      exact ⟨hafter, hkept⟩

omit [Mul K] in
/-- A list whose sum is its last element, or `a` if it is empty. -/
theorem getLastD_eq_sum_iff (l : List K) (a : K) :
    l.getLastD a = l.sum ↔ (l = [] → a = 0) ∧ l.dropLast.sum = 0 := by
  obtain rfl | ⟨init, last, rfl⟩ := l.eq_nil_or_concat
  · simp
  · simp

omit [Mul K] in
/-- It is enough that every destination port hears exactly one source port. -/
theorem onlyLastCounts_of_length
    (h : ∀ d, d < j.destNCh → (j.portGains A d).length = 1) :
    OnlyLastCounts A t j := by
  intro d hd i hi
  obtain ⟨g, hg⟩ := List.length_eq_one_iff.mp (h d hd)
  rw [hg]
  exact ⟨fun hnil => absurd hnil (List.cons_ne_nil g []), rfl⟩

end Destinations

/-- Two source ports whose samples are all -1/32767 in both parts. -/
def twoPortJob (destChannels : UInt8) (coeffs : FiniteMap (ℕ × ℕ) ℚ) :
    Job ℚ ExactSample :=
  plainJob 3 2 (fun _ => 255) 1000000 destChannels coeffs

theorem plain_twoPortJob (destChannels : UInt8)
    (coeffs : FiniteMap (ℕ × ℕ) ℚ) :
    (twoPortJob destChannels coeffs).link.Plain :=
  ⟨rfl, fun _ => rfl, add_zero 0⟩

/-- Two pairs of ports, crossed. -/
def crossed : FiniteMap (ℕ × ℕ) ℚ :=
  (AList.singleton (0, 1) 1).insert (1, 0) 2

/-- Both source ports reach the only destination port. -/
def merged : FiniteMap (ℕ × ℕ) ℚ :=
  (AList.singleton (0, 0) 1).insert (0, 1) 1

end Job
end Pipeline

end Chem
