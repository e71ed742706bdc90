import ChemEmulator.Channel.Determinacy
import ChemEmulator.Pipeline.ScratchBounds

/-!
# Bursts and what came before them

Two threads with different histories process the same job into buffers with
different contents.  The vectors of the threads hold what earlier bursts have
left there, and the buffers what earlier signals have.  The bytes of the
outgoing signal are the same if every one of them is written, every destination
port is reached, and every call computes its samples from the burst alone.
-/

namespace Chem
namespace Pipeline
namespace Job

open Dsp Channel PartialRuns RawVector ByteMemory Pipeline.WorkerContext

variable {R K : Type}

section

variable [Zero R] [Zero K]

/-- The size of the vector of a destination port once the job has called for
it. -/
def calledSize (t : Scratch K) (j : Job R K) (d : ℕ) : ℕ :=
  j.sizeAfter (t.destSigArr.getD d (zeroSignal K)).size

/-- The number of samples of a destination vector that come from the burst. -/
def known (j : Job R K) : ℕ :=
  gainYield (j.params 0 0) j.sigCtx.iNsCh maxNumSamples

/-- The conditions under which a job uses nothing that two threads may have
left from earlier bursts. -/
structure SelfContained (t₁ t₂ : Scratch K) (j : Job R K) : Prop where
  /-- No destination port is skipped. -/
  reached : 0 < j.sPerBuff → ∀ d, d < j.destNCh → j.Reaches d
  /-- No more samples are read than the burst has. -/
  need : gainNeed (j.params 0 0) ≤ j.sigCtx.iNsCh
  /-- The resampler produces as many samples as are sent. -/
  yield : j.sPerBuff ≤ j.known
  /-- The accesses stay in the vectors, and the taps in what is known of
  them. -/
  taps : ∀ d, d < j.destNCh → ∀ s, s < j.srcNCh → j.coeff d s ≠ 0 →
    TapsFit j.link (j.params d s) j.known (j.calledSize t₁ d)
      (j.calledSize t₂ d)
  /-- Every byte that the header announces is written. -/
  covers : ∀ a, a < (destHeader j.sigCtx j.dest).size.toNat →
    ∃ c, c < j.destNCh ∧ outputPtr j.sigCtx j.dest c ≤ a ∧
      a < outputPtr j.sigCtx j.dest c + 4 * j.sPerBuff

end

section

variable [Zero R] [Add R] [Sub R] [Mul R] [Div R]
variable [LT R] [DecidableLT R] [LE R] [DecidableLE R] [DecidableEq R]
variable [Zero K] [Add K] [Mul K] [SMul R K]
variable {A : Arithmetic R K} {j : Job R K} {src₁ src₂ : List (SignalV K)}

/-- The bytes of the outgoing signal, as far as its header announces them, do
not depend on the thread and on the buffer.  A ratio of zero makes no signal. -/
def SameBytes (A : Arithmetic R K) (t₁ t₂ : Scratch K) (j : Job R K)
    (buffer₁ buffer₂ : Mem) : Prop :=
  j.ratio ≠ .finite 0 → ∀ a, a < (destHeader j.sigCtx j.dest).size.toNat →
    j.outputMem A t₁ buffer₁ a = j.outputMem A t₂ buffer₂ a

/-! ## One destination port -/

/-- A call of two threads. -/
theorem callPort_agree {n d s : ℕ}
    (hsrc : Agree n (src₁.getD s (zeroSignal K)) (src₂.getD s (zeroSignal K)))
    (hsized₁ : SourceSized src₁) (hsized₂ : SourceSized src₂)
    (hneed : gainNeed (j.params d s) ≤ n)
    (hyield : j.sPerBuff ≤ gainYield (j.params d s) n maxNumSamples)
    (hcoeff : j.coeff d s ≠ 0) {st₁ st₂ : ChannelCall R K}
    (hlink : st₁.link = st₂.link)
    (hfit : TapsFit st₁.link (j.params d s)
      (gainYield (j.params d s) n maxNumSamples)
      (j.sizeAfter st₁.dest.size) (j.sizeAfter st₂.dest.size)) :
    Agree j.sPerBuff (j.callPort A src₁ d st₁ s).dest
        (j.callPort A src₂ d st₂ s).dest ∧
      (j.callPort A src₁ d st₁ s).link = (j.callPort A src₂ d st₂ s).link := by
  have hsize₁ := hsized₁.size_getD s
  have hsize₂ := hsized₂.size_getD s
  unfold callPort
  rw [if_neg hcoeff, if_neg hcoeff, ← hlink]
  refine agree_processChannel A st₁.link hsrc (hsize₁.trans hsize₂.symm) hneed
    ?_ ?_ st₁.cirOut st₂.cirOut (j.draws d s)
  · rw [hsize₁]
    exact hyield
  · rw [hsize₁, hsize₂]
    exact hfit

/-- The loop over the source ports in two threads. -/
theorem foldl_callPort_agree {n d : ℕ} {ports : List ℕ}
    (hsrc : ∀ s ∈ ports,
      Agree n (src₁.getD s (zeroSignal K)) (src₂.getD s (zeroSignal K)))
    (hsized₁ : SourceSized src₁) (hsized₂ : SourceSized src₂)
    (hneed : gainNeed (j.params 0 0) ≤ n)
    (hyield : j.sPerBuff ≤ gainYield (j.params 0 0) n maxNumSamples)
    {st₁ st₂ : ChannelCall R K} (hlink : st₁.link = st₂.link)
    (hfit : ∀ s ∈ ports, j.coeff d s ≠ 0 →
      TapsFit st₁.link (j.params d s)
        (gainYield (j.params 0 0) n maxNumSamples)
        (j.sizeAfter st₁.dest.size) (j.sizeAfter st₂.dest.size)) :
    (ports.foldl (j.callPort A src₁ d) st₁).link =
        (ports.foldl (j.callPort A src₂ d) st₂).link ∧
      st₁.link.SameTaps (ports.foldl (j.callPort A src₁ d) st₁).link ∧
      (Agree j.sPerBuff st₁.dest st₂.dest ∨
          (∃ s ∈ ports, j.coeff d s ≠ 0) →
        Agree j.sPerBuff (ports.foldl (j.callPort A src₁ d) st₁).dest
          (ports.foldl (j.callPort A src₂ d) st₂).dest) := by
  induction ports generalizing st₁ st₂ with
  | nil =>
      refine ⟨hlink, ⟨rfl, rfl⟩, ?_⟩
      rintro (hagree | ⟨s, hs, -⟩)
      · exact hagree
      · exact absurd hs List.not_mem_nil
  | cons s ports ih =>
      have hports := fun c hc => hsrc c (List.mem_cons_of_mem s hc)
      rw [List.foldl_cons, List.foldl_cons]
      by_cases hcoeff : j.coeff d s = 0
      · have hskip₁ : j.callPort A src₁ d st₁ s = st₁ := if_pos hcoeff
        have hskip₂ : j.callPort A src₂ d st₂ s = st₂ := if_pos hcoeff
        rw [hskip₁, hskip₂]
        obtain ⟨hlinks, htaps, hdest⟩ := ih hports hlink
          fun c hc => hfit c (List.mem_cons_of_mem s hc)
        refine ⟨hlinks, htaps, ?_⟩
        rintro (hagree | ⟨c, hc, hreached⟩)
        · exact hdest (Or.inl hagree)
        · refine hdest (Or.inr ⟨c, ?_, hreached⟩)
          refine (List.mem_cons.mp hc).resolve_left ?_
          rintro rfl
          exact hreached hcoeff
      · obtain ⟨hagree, hlinks⟩ := callPort_agree (A := A)
          (hsrc s List.mem_cons_self) hsized₁ hsized₂ hneed hyield hcoeff hlink
          (hfit s List.mem_cons_self hcoeff)
        have htaps : st₁.link.SameTaps (j.callPort A src₁ d st₁ s).link := by
          unfold callPort
          rw [if_neg hcoeff]
          exact sameTaps_processChannel A _ _ _ _ _ _
        have hsize₁ := (callPort_of_reached (A := A) hsized₁ hcoeff st₁).1
        have hsize₂ := (callPort_of_reached (A := A) hsized₂ hcoeff st₂).1
        obtain ⟨hafter, hkept, hdest⟩ := ih hports hlinks (by
          intro c hc hreached
          rw [hsize₁, hsize₂, sizeAfter_sizeAfter, sizeAfter_sizeAfter]
          exact (hfit c (List.mem_cons_of_mem s hc) hreached).of_sameTaps htaps)
        refine ⟨hafter, ?_, fun _ => hdest (Or.inl hagree)⟩
        exact ⟨hkept.1.trans htaps.1, hkept.2.trans htaps.2⟩

/-! ## All destination ports -/

variable {t₁ t₂ : Scratch K}

omit [Zero R] [Add R] [Sub R] [Mul R] [Div R] [LT R] [DecidableLT R] [LE R]
  [DecidableLE R] [DecidableEq R] [Add K] [Mul K] [SMul R K] in
theorem agree_loadSource (A : Arithmetic R K) (j : Job R K)
    (vectors₁ vectors₂ : List (SignalV K)) :
    ∀ s ∈ List.range j.srcNCh,
      Agree j.sigCtx.iNsCh
        ((j.loadSource A vectors₁).getD s (zeroSignal K))
        ((j.loadSource A vectors₂).getD s (zeroSignal K)) := by
  intro s hs i hi
  have hlt := List.mem_range.mp hs
  rw [data_loadSource A j vectors₁ hlt hi, data_loadSource A j vectors₂ hlt hi]

/-- One destination port, reached with equal links. -/
theorem runPorts_agree (hj : j.SelfContained t₁ t₂)
    (hsized₁ : SourceSized t₁.srcSigArr) (hsized₂ : SourceSized t₂.srcSigArr)
    {d : ℕ} (hd : d < j.destNCh)
    (hlink : (j.portsBefore A t₁ d).link = (j.portsBefore A t₂ d).link)
    (htaps : j.link.SameTaps (j.portsBefore A t₁ d).link) :
    (j.portsBefore A t₁ (d + 1)).link = (j.portsBefore A t₂ (d + 1)).link ∧
      j.link.SameTaps (j.portsBefore A t₁ (d + 1)).link ∧
      Agree j.sPerBuff
        (j.runPorts A (j.loadSource A t₁.srcSigArr) d (j.portStart A t₁ d)).dest
        (j.runPorts A (j.loadSource A t₂.srcSigArr) d
          (j.portStart A t₂ d)).dest := by
  have hstart : (j.portStart A t₁ d).link = (j.portStart A t₂ d).link := hlink
  have hfit : ∀ s ∈ List.range j.srcNCh, j.coeff d s ≠ 0 →
      TapsFit (j.portStart A t₁ d).link (j.params d s) j.known
        (j.calledSize t₁ d) (j.calledSize t₂ d) := by
    intro s hs hcoeff
    exact (hj.taps d hd s (List.mem_range.mp hs) hcoeff).of_sameTaps htaps
  obtain ⟨hafter, hkept, hdest⟩ := foldl_callPort_agree (A := A)
    (agree_loadSource A j t₁.srcSigArr t₂.srcSigArr)
    (hsized₁.loadSource A j) (hsized₂.loadSource A j) hj.need hj.yield hstart
    hfit
  rw [(convertPort_portsBefore d).1, (convertPort_portsBefore d).1]
  refine ⟨hafter, ⟨hkept.1.trans htaps.1, hkept.2.trans htaps.2⟩, ?_⟩
  by_cases hpos : 0 < j.sPerBuff
  · obtain ⟨s, hs, hcoeff⟩ := hj.reached hpos d hd
    exact hdest (Or.inr ⟨s, List.mem_range.mpr hs, hcoeff⟩)
  · intro i hi
    omega

theorem link_portsBefore_agree (hj : j.SelfContained t₁ t₂)
    (hsized₁ : SourceSized t₁.srcSigArr) (hsized₂ : SourceSized t₂.srcSigArr)
    {d : ℕ} (hd : d ≤ j.destNCh) :
    (j.portsBefore A t₁ d).link = (j.portsBefore A t₂ d).link ∧
      j.link.SameTaps (j.portsBefore A t₁ d).link := by
  induction d with
  | zero => exact ⟨rfl, rfl, rfl⟩
  | succ d ih =>
      obtain ⟨hlink, htaps⟩ := ih (Nat.le_of_succ_le hd)
      obtain ⟨hafter, hkept, -⟩ :=
        runPorts_agree hj hsized₁ hsized₂ hd hlink htaps
      exact ⟨hafter, hkept⟩

/-- What the output converter gets in two threads. -/
theorem converted_eq (hj : j.SelfContained t₁ t₂)
    (hsized₁ : SourceSized t₁.srcSigArr) (hsized₂ : SourceSized t₂.srcSigArr)
    (hratio : j.ratio ≠ .finite 0) :
    (j.convertPorts A t₁).converted = (j.convertPorts A t₂).converted := by
  rw [converted_convertPorts hratio, converted_convertPorts hratio]
  apply List.map_congr_left
  intro d hd
  have hlt := List.mem_range.mp hd
  obtain ⟨hlink, htaps⟩ :=
    link_portsBefore_agree (A := A) hj hsized₁ hsized₂ (Nat.le_of_lt hlt)
  exact (runPorts_agree hj hsized₁ hsized₂ hlt hlink htaps).2.2.take_eq

/-! ## Histories -/

omit [Zero R] [Add R] [Sub R] [Mul R] [Div R] [LT R] [DecidableLT R] [LE R]
  [DecidableLE R] [DecidableEq R] [Zero K] [Add K] [Mul K] [SMul R K] in
theorem length_itemBytes (A : Arithmetic R K) (samples : List K) :
    (itemBytes A samples).length = 4 * samples.length := by
  unfold itemBytes
  rw [List.length_flatMap]
  simp [Nat.mul_comm]

theorem sourceSized_of_run {jobs : List (Job R K)} {t : Scratch K}
    (hrun : run (step A) .fresh jobs = some t) : SourceSized t.srcSigArr := by
  have hstep : ∀ t j t', SourceSized t.srcSigArr → step A t j = some t' →
      SourceSized t'.srcSigArr := by
    rintro t j - hsrc ⟨⟩
    exact hsrc.loadSource A j
  exact (everyState_of_invariant hstep
    (fun v hv => absurd hv List.not_mem_nil) jobs).of_run hrun

end

/-- A burst of three samples -1/32767 for one port at the same rate. -/
def threeSamples (coeffs : FiniteMap (ℕ × ℕ) ℚ) : Job ℚ ExactSample :=
  plainJob 3 1 (fun _ => 255) 1000000 1 coeffs

/-- A thread that has processed such a burst. -/
def usedScratch : Scratch ExactSample :=
  (threeSamples firstPorts).process exactArithmetic .fresh

theorem run_nothing : run (step exactArithmetic) .fresh [] = some .fresh := rfl

theorem run_threeSamples :
    run (step exactArithmetic) .fresh [threeSamples firstPorts] =
      some usedScratch := rfl

end Job
end Pipeline
end Chem
