import ChemEmulator.Pipeline.Superposition
import ChemEmulator.Support.PartialRuns
import Mathlib.Algebra.Group.ModEq

/-!
# The phase of the frequency offset

`src/chem/channel/channel.cpp`, `applyFrequencyOffset`, and the loops over the
ports in `intermediate.cpp`: a link keeps one phase for every destination port,
so that the rotation goes on where the last burst ended.  The phase is advanced
in every call for the port, and there is one call for every source port with a
coefficient other than zero.

Phases are compared modulo a full turn.  The rotation is continuous exactly if
the calls but one of a burst do not matter.
-/

namespace Chem

open PartialRuns Dsp Pipeline Pipeline.WorkerContext

variable {R K : Type}

/-- `total_offset_hz`. -/
def LinkState.totalOffset [Zero R] [Add R] (link : LinkState R K) : R :=
  link.freqOffsetHz + if link.dopplerEnabled then link.dopplerHz else 0

/-- The link without an offset. -/
def LinkState.unshifted [Zero R] (link : LinkState R K) : LinkState R K :=
  { link with freqOffsetHz := 0, dopplerEnabled := false }

variable [Field R]

/-- Phases are real numbers, and `std::remainder` takes full turns away. -/
structure ExactPhases (A : Arithmetic R K) (twoPi : R) : Prop where
  finite : ∀ x, A.isfinite x = true
  ofNat : ∀ n, A.ofNat n = n
  wrap : ∀ x, A.wrapPhase x ≡ x [PMOD twoPi]

/-! ## Phases of a link -/

namespace LinkState

variable {twoPi inc : R} {link link' link'' : LinkState R K}

/-- The phase of a port, modulo a full turn. -/
def PhaseAt (twoPi : R) (link : LinkState R K) (c : ℕ) (φ : R) : Prop :=
  ∃ ψ, link.freqOffsetPhase[c]? = some ψ ∧ ψ ≡ φ [PMOD twoPi]

/-- The phases have been advanced by numbers of samples. -/
structure Advanced (twoPi inc : R) (n : ℕ → ℕ) (link link' : LinkState R K) :
    Prop where
  totalOffset : link'.totalOffset = link.totalOffset
  length : link'.freqOffsetPhase.length = link.freqOffsetPhase.length
  phase : ∀ c φ, PhaseAt twoPi link c φ →
    PhaseAt twoPi link' c (φ + n c • inc)

theorem PhaseAt.congr {c : ℕ} {φ φ' : R} (h : PhaseAt twoPi link c φ)
    (hφ : φ ≡ φ' [PMOD twoPi]) : PhaseAt twoPi link c φ' := by
  obtain ⟨ψ, hψ, hmod⟩ := h
  exact ⟨ψ, hψ, hmod.trans hφ⟩

/-- There is only one phase. -/
theorem PhaseAt.modEq {c : ℕ} {φ ψ : R} (h : PhaseAt twoPi link c φ)
    (hψ : link.freqOffsetPhase[c]? = some ψ) : ψ ≡ φ [PMOD twoPi] := by
  obtain ⟨ψ', hψ', hmod⟩ := h
  rw [hψ, Option.some.injEq] at hψ'
  rwa [hψ']

theorem Advanced.refl (twoPi inc : R) (link : LinkState R K) :
    Advanced twoPi inc 0 link link where
  totalOffset := rfl
  length := rfl
  phase c φ h := by
    rwa [Pi.zero_apply, zero_smul, add_zero]

theorem Advanced.trans {n m : ℕ → ℕ} (h : Advanced twoPi inc n link link')
    (h' : Advanced twoPi inc m link' link'') :
    Advanced twoPi inc (n + m) link link'' where
  totalOffset := h'.totalOffset.trans h.totalOffset
  length := h'.length.trans h.length
  phase c φ hc := by
    rw [Pi.add_apply, add_smul, ← add_assoc]
    exact h'.phase c _ (h.phase c φ hc)

end LinkState

/-! ## One call -/

section Call

open LinkState

variable [LinearOrder R]
variable {A : Arithmetic R K} {twoPi : R} {rate : ℚ} {link : LinkState R K}
variable {p : ChannelProcessParams R}

/-- Measuring the power has nothing to do with the phases. -/
theorem LinkState.offset_sigPower (A : Arithmetic R K) (link : LinkState R K)
    (budget : LinkBudget R) (samples : List K) :
    (link.sigPower A budget samples).2.totalOffset = link.totalOffset ∧
      (link.sigPower A budget samples).2.freqOffsetPhase =
        link.freqOffsetPhase := by
  unfold sigPower
  dsimp only
  split_ifs
  · exact ⟨rfl, rfl⟩
  · exact ⟨rfl, rfl⟩
  · exact ⟨rfl, rfl⟩

theorem LinkState.sigPower_unshifted (A : Arithmetic R K)
    (link : LinkState R K) (budget : LinkBudget R) (samples : List K) :
    link.unshifted.sigPower A budget samples =
      ((link.sigPower A budget samples).1,
        (link.sigPower A budget samples).2.unshifted) := by
  unfold sigPower
  by_cases hreference : A.isfinite budget.sourcePowerDbfs = true
  · rw [if_pos hreference, if_pos hreference]
  · rw [if_neg hreference, if_neg hreference]
    by_cases hmeasure :
        4 ≤ link.powerCounter + 1 ∨ link.cachedSigPower ≤ A.literal (-100)
    · dsimp only
      rw [if_pos hmeasure]
      exact if_pos hmeasure
    · dsimp only
      rw [if_neg hmeasure]
      exact if_neg hmeasure

variable [Mul K]

/-- Without an offset nothing is rotated. -/
theorem LinkState.applyFrequencyOffset_unshifted (A : Arithmetic R K)
    (link : LinkState R K) (signal : SignalV K) (p : ChannelProcessParams R) :
    link.unshifted.applyFrequencyOffset A signal p =
      (signal, link.unshifted) := by
  rw [applyFrequencyOffset]
  exact if_pos (add_zero 0)

/-- The rotation of a vector, and the new phase. -/
theorem applyFrequencyOffset_of_rate (hA : ExactPhases A twoPi)
    {offset : R} (hoffset : offset ≠ 0) (hrate : 0 < rate) (signal : SignalV K)
    {size : ℕ} (hsize : 0 < size) (phase : R) :
    Dsp.applyFrequencyOffset A signal size (.finite rate) offset phase =
      (signal.fill size fun i => signal.data i *
          A.rotator (A.wrapPhase phase) (A.phaseInc offset rate) i,
        A.wrapPhase
          (A.wrapPhase phase + A.phaseInc offset rate * A.ofNat size)) := by
  rw [Dsp.applyFrequencyOffset]
  refine if_neg ?_
  rintro (hzero | hneg | hinf | hnone)
  · omega
  · exact absurd hrate (not_lt_of_ge hneg)
  · rw [hA.finite] at hinf
    cases hinf
  · exact hoffset hnone

/-- The new phase, modulo full turns. -/
theorem phase_applyFrequencyOffset (hA : ExactPhases A twoPi) {offset : R}
    (hoffset : offset ≠ 0) (hrate : 0 < rate) (signal : SignalV K) (size : ℕ)
    {phase φ : R} (h : phase ≡ φ [PMOD twoPi]) :
    (Dsp.applyFrequencyOffset A signal size (.finite rate) offset phase).2 ≡
      φ + size • A.phaseInc offset rate [PMOD twoPi] := by
  rcases Nat.eq_zero_or_pos size with hnone | hsome
  · rw [Dsp.applyFrequencyOffset, if_pos (.inl hnone), hnone, zero_smul,
      add_zero]
    exact h
  · rw [applyFrequencyOffset_of_rate hA hoffset hrate signal hsome]
    refine (hA.wrap _).trans ?_
    rw [hA.ofNat, mul_comm, ← nsmul_eq_mul]
    exact ((hA.wrap phase).trans h).add_right _

/-- One call advances the phase of its port by its samples. -/
theorem LinkState.advanced_applyFrequencyOffset (hA : ExactPhases A twoPi)
    (hoffset : link.totalOffset ≠ 0) (hrate : 0 < rate)
    (hp : p.sampleRateHz = .finite rate) (signal : SignalV K) :
    Advanced twoPi (A.phaseInc link.totalOffset rate)
      (Pi.single p.destChannelIndex p.sPerBuff) link
      (link.applyFrequencyOffset A signal p).2 := by
  have htotal : ¬link.freqOffsetHz + (if link.dopplerEnabled then
      link.dopplerHz else 0) = 0 := hoffset
  rw [applyFrequencyOffset, hp]
  dsimp only
  rw [if_neg htotal]
  cases hphase : link.freqOffsetPhase[p.destChannelIndex]? with
  | none =>
      refine ⟨rfl, rfl, ?_⟩
      rintro c φ ⟨ψ, hψ, hmod⟩
      have hc : c ≠ p.destChannelIndex := by
        rintro rfl
        rw [hphase] at hψ
        cases hψ
      rw [Pi.single_eq_of_ne hc, zero_smul, add_zero]
      exact ⟨ψ, hψ, hmod⟩
  | some phase =>
      refine ⟨rfl, List.length_set, ?_⟩
      rintro c φ ⟨ψ, hψ, hmod⟩
      by_cases hc : c = p.destChannelIndex
      · subst hc
        obtain rfl : phase = ψ := Option.some.inj (hphase.symm.trans hψ)
        have hlt := (List.getElem?_eq_some_iff.mp hψ).1
        rw [Pi.single_eq_same]
        exact ⟨_, List.getElem?_set_self hlt,
          phase_applyFrequencyOffset hA hoffset hrate signal _ hmod⟩
      · rw [Pi.single_eq_of_ne hc, zero_smul, add_zero]
        exact ⟨ψ, (List.getElem?_set_ne (Ne.symm hc)).trans hψ, hmod⟩

/-- The vector of a call is the one without an offset, rotated from the phase
of the port. -/
theorem LinkState.data_applyFrequencyOffset (hA : ExactPhases A twoPi)
    (hoffset : link.totalOffset ≠ 0) (hrate : 0 < rate)
    (hp : p.sampleRateHz = .finite rate) (signal : SignalV K) {phase : R}
    (hphase : link.freqOffsetPhase[p.destChannelIndex]? = some phase) {i : ℕ}
    (hi : i < p.sPerBuff) :
    (link.applyFrequencyOffset A signal p).1.data i = signal.data i *
      A.rotator (A.wrapPhase phase) (A.phaseInc link.totalOffset rate) i := by
  have htotal : ¬link.freqOffsetHz + (if link.dopplerEnabled then
      link.dopplerHz else 0) = 0 := hoffset
  rw [applyFrequencyOffset, hp]
  dsimp only
  rw [if_neg htotal, hphase]
  change (Dsp.applyFrequencyOffset A signal p.sPerBuff (.finite rate)
    link.totalOffset phase).1.data i = _
  rw [applyFrequencyOffset_of_rate hA hoffset hrate signal (by omega)]
  exact RawVector.data_fill_of_lt signal hi _

variable [AddCommGroup K] [Module R K]

namespace Channel

theorem advanced_processChannel (hA : ExactPhases A twoPi)
    (hoffset : link.totalOffset ≠ 0) (hrate : 0 < rate)
    (hp : p.sampleRateHz = .finite rate) (src dest cirOut : SignalV K)
    (draw : ChannelDraw R K) :
    Advanced twoPi (A.phaseInc link.totalOffset rate)
      (Pi.single p.destChannelIndex p.sPerBuff) link
      (processChannel A link src dest cirOut p draw).link := by
  obtain ⟨htotal, hphases⟩ := link.offset_sigPower A p.budget
    ((applyGain A src dest p).take p.sPerBuff)
  have hcall := fun signal => advanced_applyFrequencyOffset hA
    (htotal.trans_ne hoffset) hrate hp signal
  rw [htotal] at hcall
  refine ⟨(hcall _).totalOffset.trans htotal,
    (hcall _).length.trans (congrArg List.length hphases), ?_⟩
  rintro c φ ⟨ψ, hψ, hmod⟩
  exact (hcall _).phase c φ ⟨ψ, hphases ▸ hψ, hmod⟩

theorem data_processChannel (hA : ExactPhases A twoPi)
    (hoffset : link.totalOffset ≠ 0) (hrate : 0 < rate)
    (hp : p.sampleRateHz = .finite rate) (src dest cirOut : SignalV K)
    (draw : ChannelDraw R K) {phase : R}
    (hphase : link.freqOffsetPhase[p.destChannelIndex]? = some phase) {i : ℕ}
    (hi : i < p.sPerBuff) :
    (processChannel A link src dest cirOut p draw).dest.data i =
      (processChannel A link.unshifted src dest cirOut p draw).dest.data i *
        A.rotator (A.wrapPhase phase) (A.phaseInc link.totalOffset rate) i := by
  rw [processChannel, processChannel]
  dsimp only
  rw [sigPower_unshifted]
  dsimp only
  rw [applyFrequencyOffset_unshifted]
  obtain ⟨htotal, hphases⟩ := link.offset_sigPower A p.budget
    ((applyGain A src dest p).take p.sPerBuff)
  rw [data_applyFrequencyOffset hA (htotal ▸ hoffset) hrate hp _
    (by rw [hphases, hphase]) hi, htotal]
  rfl

end Channel

end Call

variable [LinearOrder R] [AddCommGroup K] [Mul K] [Module R K]

/-! ## The calls of a burst -/

namespace Pipeline
namespace Job

open LinkState Channel

/-- The source ports that feed a destination port. -/
def activePorts (j : Job R K) (d : ℕ) : List ℕ :=
  (List.range j.srcNCh).filter fun s => j.coeff d s ≠ 0

/-- The destination ports that are reached; a ratio of zero returns before. -/
def reachedPorts (j : Job R K) : ℕ :=
  if j.ratio = .finite 0 then 0 else j.destNCh

/-- Where the last call for a destination port starts. -/
def lastStart (A : Arithmetic R K) (t : Scratch K) (j : Job R K) (d : ℕ) :
    ChannelCall R K :=
  (j.activePorts d).dropLast.foldl (j.callPort A (j.loadSource A t.srcSigArr) d)
    (j.portStart A t d)

/-- The samples that the last call for a destination port would leave there
without an offset. -/
def unshiftedSample (A : Arithmetic R K) (t : Scratch K) (j : Job R K)
    (d s i : ℕ) : K :=
  let st := j.lastStart A t d
  (processChannel A st.link.unshifted
    ((j.loadSource A t.srcSigArr).getD s (zeroSignal K)) st.dest st.cirOut
    (j.params d s) (j.draws d s)).dest.data i

variable {A : Arithmetic R K} {twoPi : R} {rate : ℚ} {t : Scratch K}
variable {j : Job R K} {src : List (SignalV K)} {d : ℕ}

theorem runPorts_eq (A : Arithmetic R K) (j : Job R K) (src : List (SignalV K))
    (d : ℕ) (st : ChannelCall R K) :
    j.runPorts A src d st =
      (j.activePorts d).foldl (j.callPort A src d) st := by
  have hskip : j.callPort A src d = fun st s =>
      if decide (j.coeff d s ≠ 0) = true then j.callPort A src d st s
      else st := by
    funext st s
    by_cases hcoeff : j.coeff d s = 0
    · rw [if_neg (by simp [hcoeff]), callPort, if_pos hcoeff]
    · rw [if_pos (by simp [hcoeff])]
  rw [runPorts, activePorts, List.foldl_filter, ← hskip]

theorem callPort_of_active {s : ℕ} (hs : s ∈ j.activePorts d)
    (st : ChannelCall R K) :
    (j.callPort A src d st s).link =
        (processChannel A st.link (src.getD s (zeroSignal K)) st.dest st.cirOut
          (j.params d s) (j.draws d s)).link ∧
      (j.callPort A src d st s).dest =
        (processChannel A st.link (src.getD s (zeroSignal K)) st.dest st.cirOut
          (j.params d s) (j.draws d s)).dest := by
  have hcoeff : ¬j.coeff d s = 0 := by
    simpa using (List.mem_filter.mp hs).2
  rw [callPort, if_neg hcoeff]
  exact ⟨rfl, rfl⟩

/-- Calls for one port advance its phase by the samples of each of them. -/
theorem advanced_foldl_callPort (hA : ExactPhases A twoPi) {total : R}
    (htotal : total ≠ 0) (hrate : 0 < rate)
    (hdest : destSrate j.dest = .finite rate) {ports : List ℕ}
    (hports : ∀ s ∈ ports, s ∈ j.activePorts d) {st : ChannelCall R K}
    (hst : st.link.totalOffset = total) :
    Advanced twoPi (A.phaseInc total rate)
      (Pi.single d (ports.length * j.sPerBuff)) st.link
      (ports.foldl (j.callPort A src d) st).link := by
  induction ports generalizing st with
  | nil =>
      rw [List.length_nil, Nat.zero_mul, Pi.single_zero]
      exact .refl twoPi _ st.link
  | cons s ports ih =>
      have hcall : Advanced twoPi (A.phaseInc total rate)
          (Pi.single d j.sPerBuff) st.link (j.callPort A src d st s).link := by
        have hp : (j.params d s).sampleRateHz = .finite rate := hdest
        rw [(callPort_of_active (hports s List.mem_cons_self) st).1, ← hst]
        exact advanced_processChannel hA (hst.trans_ne htotal) hrate hp ..
      have hrest := ih (fun c hc => hports c (List.mem_cons_of_mem s hc))
        (hcall.totalOffset.trans hst)
      rw [List.length_cons, Nat.succ_mul, Nat.add_comm, Pi.single_add]
      exact hcall.trans hrest

/-- What the ports before `d` have been advanced by. -/
def samplesBefore (j : Job R K) (d c : ℕ) : ℕ :=
  if c < d then (j.activePorts c).length * j.sPerBuff else 0

omit [AddCommGroup K] [Mul K] [Module R K] in
theorem samplesBefore_succ (j : Job R K) (d : ℕ) :
    j.samplesBefore (d + 1) = j.samplesBefore d +
      Pi.single d ((j.activePorts d).length * j.sPerBuff) := by
  funext c
  rw [Pi.add_apply, samplesBefore, samplesBefore]
  by_cases hc : c = d
  · subst hc
    rw [if_pos (Nat.lt_succ_self c), if_neg (Nat.lt_irrefl c), Nat.zero_add,
      Pi.single_eq_same]
  · rw [Pi.single_eq_of_ne hc, Nat.add_zero]
    refine if_congr ?_ rfl rfl
    omega

/-- The loop over the destination ports. -/
theorem advanced_portsBefore (hA : ExactPhases A twoPi)
    (htotal : j.link.totalOffset ≠ 0) (hrate : 0 < rate)
    (hdest : destSrate j.dest = .finite rate) (d : ℕ) :
    Advanced twoPi (A.phaseInc j.link.totalOffset rate) (j.samplesBefore d)
      j.link (j.portsBefore A t d).link := by
  induction d with
  | zero => exact .refl twoPi _ j.link
  | succ d ih =>
      have hstart : (j.portStart A t d).link.totalOffset =
          j.link.totalOffset := ih.totalOffset
      rw [samplesBefore_succ, (convertPort_portsBefore d).1, runPorts_eq]
      exact ih.trans
        (advanced_foldl_callPort hA htotal hrate hdest (fun _ hs => hs) hstart)

/-- Before the last call its port has been advanced by all others. -/
theorem advanced_lastStart (hA : ExactPhases A twoPi)
    (htotal : j.link.totalOffset ≠ 0) (hrate : 0 < rate)
    (hdest : destSrate j.dest = .finite rate) (d : ℕ) :
    Advanced twoPi (A.phaseInc j.link.totalOffset rate)
      (j.samplesBefore d +
        Pi.single d ((j.activePorts d).dropLast.length * j.sPerBuff))
      j.link (j.lastStart A t d).link := by
  have hbefore := advanced_portsBefore (t := t) hA htotal hrate hdest d
  have hstart : (j.portStart A t d).link.totalOffset = j.link.totalOffset :=
    hbefore.totalOffset
  exact hbefore.trans (advanced_foldl_callPort hA htotal hrate hdest
    (fun _ hs => List.mem_of_mem_dropLast hs) hstart)

/-- What arrives at a destination port is the vector of the last call, rotated
from the phase at which it starts. -/
theorem converted_eq_rotated (hA : ExactPhases A twoPi)
    (htotal : j.link.totalOffset ≠ 0) (hrate : 0 < rate)
    (hdest : destSrate j.dest = .finite rate) (hd : d < j.reachedPorts) {s : ℕ}
    (hs : (j.activePorts d).getLast? = some s) {ψ : R}
    (hψ : (j.lastStart A t d).link.freqOffsetPhase[d]? = some ψ) :
    (j.convertPorts A t).converted[d]? =
      some ((List.range j.sPerBuff).map fun i => j.unshiftedSample A t d s i *
        A.rotator (A.wrapPhase ψ) (A.phaseInc j.link.totalOffset rate) i) := by
  have hratio : j.ratio ≠ .finite 0 := by
    intro hzero
    rw [reachedPorts, if_pos hzero] at hd
    exact absurd hd (Nat.not_lt_zero d)
  rw [reachedPorts, if_neg hratio] at hd
  have hp : (j.params d s).sampleRateHz = .finite rate := hdest
  have hlast := (advanced_lastStart (t := t) hA htotal hrate hdest d).totalOffset
  have hsplit : (j.activePorts d).dropLast ++ [s] = j.activePorts d :=
    List.dropLast_append_getLast? s hs
  have hactive : s ∈ j.activePorts d := List.mem_of_getLast? hs
  rw [converted_convertPorts hratio, List.getElem?_map,
    List.getElem?_range hd, Option.map_some, Option.some_inj, RawVector.take]
  apply List.map_congr_left
  intro i hi
  rw [runPorts_eq, ← hsplit, List.foldl_concat]
  change (j.callPort A _ d (j.lastStart A t d) s).dest.data i = _
  rw [(callPort_of_active hactive _).2, data_processChannel hA
    (hlast.trans_ne htotal) hrate hp _ _ _ _ hψ (List.mem_range.mp hi), hlast]
  rfl

/-- What a burst does to the phases. -/
theorem advanced_convertPorts (hA : ExactPhases A twoPi)
    (htotal : j.link.totalOffset ≠ 0) (hrate : 0 < rate)
    (hdest : destSrate j.dest = .finite rate) (t : Scratch K) :
    Advanced twoPi (A.phaseInc j.link.totalOffset rate)
      (j.samplesBefore j.reachedPorts) j.link (j.convertPorts A t).link :=
  advanced_portsBefore hA htotal hrate hdest j.reachedPorts

/-- The samples that arrive at a port are rotated, the first one by `φ`. -/
def RotatedFrom (A : Arithmetic R K) (twoPi inc : R) (t : Scratch K)
    (j : Job R K) (d : ℕ) (φ : R) : Prop :=
  ∃ s ψ, ψ ≡ φ [PMOD twoPi] ∧ (j.activePorts d).getLast? = some s ∧
    (j.lastStart A t d).link.freqOffsetPhase[d]? = some ψ ∧
    (j.convertPorts A t).converted[d]? =
      some ((List.range j.sPerBuff).map fun i =>
        j.unshiftedSample A t d s i * A.rotator (A.wrapPhase ψ) inc i)

/-- One source port feeds the port, or the others advance the phase by full
turns. -/
def FullTurns (twoPi inc : R) (j : Job R K) (d : ℕ) : Prop :=
  ∃ m, (j.activePorts d).length = m + 1 ∧
    (m * j.sPerBuff) • inc ≡ 0 [PMOD twoPi]

theorem rotatedFrom_iff (hA : ExactPhases A twoPi)
    (htotal : j.link.totalOffset ≠ 0) (hrate : 0 < rate)
    (hdest : destSrate j.dest = .finite rate) (hd : d < j.reachedPorts) {φ : R}
    (hphase : d < j.link.freqOffsetPhase.length → PhaseAt twoPi j.link d φ) :
    RotatedFrom A twoPi (A.phaseInc j.link.totalOffset rate) t j d φ ↔
      d < j.link.freqOffsetPhase.length ∧
        FullTurns twoPi (A.phaseInc j.link.totalOffset rate) j d := by
  have hstart := advanced_lastStart (t := t) hA htotal hrate hdest d
  have hsamples : j.samplesBefore d d +
      (j.activePorts d).dropLast.length * j.sPerBuff =
        ((j.activePorts d).length - 1) * j.sPerBuff := by
    rw [samplesBefore, if_neg (Nat.lt_irrefl d), Nat.zero_add,
      List.length_dropLast]
  constructor
  · rintro ⟨s, ψ, hψφ, hs, hψ, -⟩
    have hlt : d < j.link.freqOffsetPhase.length := by
      rw [← hstart.length]
      exact (List.getElem?_eq_some_iff.mp hψ).1
    have hne : j.activePorts d ≠ [] := by
      intro hnil
      rw [hnil] at hs
      cases hs
    refine ⟨hlt, (j.activePorts d).length - 1, ?_, ?_⟩
    · have := List.length_pos_iff.mpr hne
      omega
    · have hadvanced := (hstart.phase d φ (hphase hlt)).modEq hψ
      rw [Pi.add_apply, Pi.single_eq_same, hsamples] at hadvanced
      exact AddCommGroup.add_modEq_left.mp (hadvanced.symm.trans hψφ)
  · rintro ⟨hlt, m, hm, hturns⟩
    have hne : j.activePorts d ≠ [] := by
      intro hnil
      rw [hnil] at hm
      cases hm
    obtain ⟨s, hs⟩ :=
      Option.isSome_iff_exists.mp (List.getLast?_isSome.mpr hne)
    obtain ⟨ψ, hψ, hmod⟩ := hstart.phase d φ (hphase hlt)
    rw [Pi.add_apply, Pi.single_eq_same, hsamples, hm, Nat.add_sub_cancel]
      at hmod
    exact ⟨s, ψ, hmod.trans (AddCommGroup.add_modEq_left.mpr hturns), hs, hψ,
      converted_eq_rotated hA htotal hrate hdest hd hs hψ⟩

/-- Calls that make full turns do not count. -/
theorem FullTurns.phaseAt (h : FullTurns twoPi
      (A.phaseInc j.link.totalOffset rate) j d) (hA : ExactPhases A twoPi)
    (htotal : j.link.totalOffset ≠ 0) (hrate : 0 < rate)
    (hdest : destSrate j.dest = .finite rate) (hd : d < j.reachedPorts) {φ : R}
    (hphase : PhaseAt twoPi j.link d φ) (t : Scratch K) :
    PhaseAt twoPi (j.convertPorts A t).link d
      (φ + j.sPerBuff • A.phaseInc j.link.totalOffset rate) := by
  obtain ⟨m, hm, hturns⟩ := h
  have hadvanced :=
    (advanced_convertPorts hA htotal hrate hdest t).phase d φ hphase
  rw [samplesBefore, if_pos hd, hm, Nat.succ_mul, add_smul] at hadvanced
  exact hadvanced.congr
    ((AddCommGroup.add_modEq_right.mpr hturns).add_left φ)

end Job
end Pipeline

/-! ## A stream of bursts -/

/-- A burst on its way over the link, at a constant sample rate, and the thread
that processes it. -/
structure Arrival (R K : Type) (rate : ℚ) where
  scratch : Scratch K
  job : Job R K
  constantRate : destSrate job.dest = .finite rate

/-- A link, and how many samples it has delivered to every destination port. -/
structure LinkStream (R K : Type) where
  link : LinkState R K
  delivered : ℕ → ℕ

namespace LinkStream

open LinkState Pipeline.Job

/-- The job finds the link as the last one has left it. -/
def jobOf {rate : ℚ} (S : LinkStream R K) (b : Arrival R K rate) : Job R K :=
  { b.job with link := S.link }

def start (link : LinkState R K) : LinkStream R K := ⟨link, 0⟩

def step {rate : ℚ} (A : Arithmetic R K) (S : LinkStream R K)
    (b : Arrival R K rate) : Option (LinkStream R K) :=
  let j := S.jobOf b
  some
    { link := (j.convertPorts A b.scratch).link
      delivered := fun d => S.delivered d +
        if d < j.reachedPorts then j.sPerBuff else 0 }

/-- The samples of the burst go on where the last ones ended, and the phase is
advanced by as many. -/
def InPhase {rate : ℚ} (A : Arithmetic R K) (twoPi inc : R) (φ₀ : ℕ → R)
    (S : LinkStream R K) (b : Arrival R K rate) : Prop :=
  let j := S.jobOf b
  ∀ d, d < j.reachedPorts → 0 < j.sPerBuff →
    RotatedFrom A twoPi inc b.scratch j d (φ₀ d + S.delivered d • inc) ∧
      PhaseAt twoPi (j.convertPorts A b.scratch).link d
        (φ₀ d + (S.delivered d + j.sPerBuff) • inc)

/-- Every port that the burst reaches has a phase, and of the source ports that
feed it all but one advance it by full turns. -/
def Steady {rate : ℚ} (twoPi inc : R) (S : LinkStream R K)
    (b : Arrival R K rate) : Prop :=
  let j := S.jobOf b
  ∀ d, d < j.reachedPorts → 0 < j.sPerBuff →
    d < S.link.freqOffsetPhase.length ∧ FullTurns twoPi inc j d

/-- The phases are those of the samples delivered so far. -/
structure Continued (twoPi inc total : R) (φ₀ : ℕ → R) (S : LinkStream R K) :
    Prop where
  totalOffset : S.link.totalOffset = total
  phase : ∀ d, d < S.link.freqOffsetPhase.length →
    PhaseAt twoPi S.link d (φ₀ d + S.delivered d • inc)

/-- The phases at the start. -/
def startPhase (link : LinkState R K) (d : ℕ) : R :=
  link.freqOffsetPhase.getD d 0

omit [LinearOrder R] [AddCommGroup K] [Mul K] [Module R K] in
theorem continued_start (twoPi inc : R) (link : LinkState R K) :
    Continued twoPi inc link.totalOffset (startPhase link) (start link) where
  totalOffset := rfl
  phase d hd := by
    change d < link.freqOffsetPhase.length at hd
    refine ⟨link.freqOffsetPhase[d], List.getElem?_eq_getElem hd, ?_⟩
    change _ ≡ startPhase link d + 0 • inc [PMOD twoPi]
    have hphase : startPhase link d = link.freqOffsetPhase[d] := by
      rw [startPhase, List.getD_eq_getElem?_getD, List.getElem?_eq_getElem hd]
      rfl
    rw [zero_smul, add_zero, hphase]

variable {A : Arithmetic R K} {twoPi total : R} {rate : ℚ} {φ₀ : ℕ → R}
variable {S : LinkStream R K} {b : Arrival R K rate}

theorem inPhase_iff_steady (hA : ExactPhases A twoPi) (htotal : total ≠ 0)
    (hrate : 0 < rate)
    (hS : Continued twoPi (A.phaseInc total rate) total φ₀ S) :
    InPhase A twoPi (A.phaseInc total rate) φ₀ S b ↔
      Steady twoPi (A.phaseInc total rate) S b := by
  obtain ⟨rfl, hphase⟩ := hS
  refine forall_congr' fun d => forall_congr' fun hd => forall_congr' fun _ => ?_
  have hrotated := rotatedFrom_iff (j := S.jobOf b) (t := b.scratch) hA htotal
    hrate b.constantRate hd (hphase d)
  refine Iff.trans (and_iff_left_of_imp fun h => ?_) hrotated
  obtain ⟨hlt, hturns⟩ := hrotated.mp h
  rw [add_smul, ← add_assoc]
  exact hturns.phaseAt hA htotal hrate b.constantRate hd (hphase d hlt) _

theorem Continued.step (hA : ExactPhases A twoPi) (htotal : total ≠ 0)
    (hrate : 0 < rate) {S' : LinkStream R K}
    (hS : Continued twoPi (A.phaseInc total rate) total φ₀ S)
    (hsteady : Steady twoPi (A.phaseInc total rate) S b)
    (h : step A S b = some S') :
    Continued twoPi (A.phaseInc total rate) total φ₀ S' := by
  obtain ⟨rfl, hphase⟩ := hS
  obtain rfl := Option.some.inj h
  have hjob := advanced_convertPorts (j := S.jobOf b) hA htotal hrate
    b.constantRate b.scratch
  refine ⟨hjob.totalOffset, ?_⟩
  intro d hd
  have hlt : d < S.link.freqOffsetPhase.length := hjob.length ▸ hd
  dsimp only
  split_ifs with hreached
  · rcases Nat.eq_zero_or_pos (S.jobOf b).sPerBuff with hnone | hsome
    · have hkept := hjob.phase d _ (hphase d hlt)
      rw [samplesBefore, hnone, Nat.mul_zero, ite_self, zero_smul, add_zero]
        at hkept
      rwa [hnone, Nat.add_zero]
    · rw [add_smul, ← add_assoc]
      exact (hsteady d hreached hsome).2.phaseAt hA htotal hrate b.constantRate
        hreached (hphase d hlt) _
  · have hkept := hjob.phase d _ (hphase d hlt)
    rwa [samplesBefore, if_neg hreached, zero_smul, add_zero] at hkept

/-- `two_pi`, with the eight decimals of `PI`. -/
def codeTwoPi : ℚ := 2 * 3.14159265

/-- Powers of the imaginary unit. -/
def quarterTurns (n : ℤ) : ExactSample :=
  match n % 4 with
  | 0 => ⟨1, 0⟩
  | 1 => ⟨0, 1⟩
  | 2 => ⟨-1, 0⟩
  | _ => ⟨0, -1⟩

/-- Rotations by quarter turns are exact. -/
def turningArithmetic : Arithmetic ℚ ExactSample :=
  { exactArithmetic with
    wrapPhase := fun x =>
      x - codeTwoPi * FloatValue.roundHalfEven (x / codeTwoPi)
    phaseInc := fun offset rate => codeTwoPi * offset / rate
    rotator := fun phase inc i => quarterTurns
      (FloatValue.roundHalfEven (4 * (phase + i * inc) / codeTwoPi)) }

theorem exactPhases_turningArithmetic :
    ExactPhases turningArithmetic codeTwoPi where
  finite _ := rfl
  ofNat _ := rfl
  wrap x := by
    have hwrap : turningArithmetic.wrapPhase x =
        x + (-FloatValue.roundHalfEven (x / codeTwoPi)) • codeTwoPi := by
      change x - codeTwoPi * FloatValue.roundHalfEven (x / codeTwoPi) = _
      rw [zsmul_eq_mul]
      push_cast
      ring
    rw [hwrap]
    exact AddCommGroup.add_zsmul_modEq _

/-- A link with an offset of 250 kHz and one destination port. -/
def offsetLink (coeffs : FiniteMap (ℕ × ℕ) ℚ) : LinkState ℚ ExactSample :=
  { plainLink coeffs with
    freqOffsetHz := 250000
    freqOffsetPhase := [0] }

/-- A burst of three samples per port at 1 MHz. -/
def offsetBurst (channels : UInt8) : Arrival ℚ ExactSample 1000000 where
  scratch := .fresh
  job := plainJob 3 channels (fun _ => 255) 1000000 1 ∅
  constantRate := by
    change FloatValue.ofInt 24 1000000 = .finite 1000000
    decide +kernel

end LinkStream

end Chem
