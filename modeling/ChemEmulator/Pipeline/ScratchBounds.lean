import ChemEmulator.Pipeline.Samples
import ChemEmulator.Support.PartialRuns

/-!
# Room in the vectors of a thread

The destination vectors of a thread are created with `MAX_NUM_SAMPLES` elements
and accessed through raw pointers.  A call either leaves the size of its vector
alone or, when the resampler has no factor to drop samples by, exchanges the
vector for the intermediate one, which is as long as the upsampled burst.  The
size that a call leaves behind does not depend on the samples, so the sizes can
be followed on their own.
-/

namespace Chem
namespace Pipeline
namespace Job

open Dsp Channel PartialRuns

variable {R K : Type}

/-- The job resamples, and the resampler inserts samples but drops none: the
upsampled vector takes the place of the destination vector. -/
def Exchanges (j : Job R K) : Prop :=
  j.ratio ≠ .finite 1 ∧ (computeResamplingFactors j.ratio).2 = 1 ∧
    upFactor j.ratio ≠ 1

instance (j : Job R K) : Decidable j.Exchanges :=
  inferInstanceAs (Decidable (_ ∧ _ ∧ _))

section

variable [Zero R]

/-- Some source port contributes to the destination port. -/
def Reaches (j : Job R K) (cDest : ℕ) : Prop :=
  ∃ cSrc, cSrc < j.srcNCh ∧ j.coeff cDest cSrc ≠ 0

instance [DecidableEq R] (j : Job R K) (cDest : ℕ) :
    Decidable (j.Reaches cDest) :=
  inferInstanceAs (Decidable (∃ cSrc, cSrc < j.srcNCh ∧ _))

/-- No destination vector is exchanged for one of fewer than `MAX_NUM_SAMPLES`
elements: nothing is exchanged at all, or no port is reached, or the upsampled
burst is long enough. -/
def KeepsScratch (j : Job R K) : Prop :=
  j.ratio = .finite 0 ∨ ¬j.Exchanges ∨
    (∀ cDest, cDest < j.destNCh → ¬j.Reaches cDest) ∨
    maxNumSamples ≤ upsampledCount (sourceCount j.sPerBuff j.ratio) j.ratio

end

/-- Neither the burst nor what becomes of it is longer than a vector. -/
structure Admissible (j : Job R K) : Prop where
  source : j.sigCtx.iNsCh ≤ maxNumSamples
  destination : j.sPerBuff ≤ maxNumSamples

/-- The size of a destination vector after a call. -/
def sizeAfter (j : Job R K) (size : ℕ) : ℕ :=
  if j.ratio ≠ .finite 1 then
    resampledSize maxNumSamples size j.ratio (sourceCount j.sPerBuff j.ratio)
  else size

theorem le_sizeAfter_iff (j : Job R K) {size : ℕ}
    (hsize : maxNumSamples ≤ size) :
    maxNumSamples ≤ j.sizeAfter size ↔ ¬j.Exchanges ∨
      maxNumSamples ≤ upsampledCount (sourceCount j.sPerBuff j.ratio) j.ratio
    := by
  unfold sizeAfter resampledSize Exchanges
  split_ifs with hratio hdown hup
  · simp [hup]
  · simp [hratio, hdown, hup]
  · simp [hdown, hsize]
  · simp [hratio, hsize]

theorem sizeAfter_sizeAfter (j : Job R K) (size : ℕ) :
    j.sizeAfter (j.sizeAfter size) = j.sizeAfter size := by
  unfold sizeAfter resampledSize
  split_ifs <;> rfl

/-- The source vectors are as they were created. -/
def SourceSized (src : List (SignalV K)) : Prop :=
  ∀ v ∈ src, v.size = maxNumSamples

theorem SourceSized.size_getD [Zero K] {src : List (SignalV K)}
    (hsrc : SourceSized src) (c : ℕ) :
    (src.getD c (zeroSignal K)).size = maxNumSamples := by
  rw [List.getD_eq_getElem?_getD]
  cases hget : src[c]? with
  | none => rfl
  | some v => exact hsrc v (List.mem_of_getElem? hget)

/-- Every destination vector has at least the size it was created with. -/
def Roomy [Zero K] (t : Scratch K) : Prop :=
  ∀ c, maxNumSamples ≤ (t.destSigArr.getD c (zeroSignal K)).size

theorem SourceSized.loadSource [Zero K] {src : List (SignalV K)}
    (hsrc : SourceSized src) (A : Arithmetic R K) (j : Job R K) :
    SourceSized (j.loadSource A src) := by
  intro v hv
  obtain ⟨c, hc, rfl⟩ := List.mem_mapIdx.mp hv
  have hsize : (ensureChannels src j.srcNCh)[c].size = maxNumSamples := by
    obtain hold | hnew := List.mem_append.mp (List.getElem_mem hc)
    · exact hsrc _ hold
    · rw [List.eq_of_mem_replicate hnew]
      rfl
  split_ifs
  · exact hsize
  · exact hsize

/-- The destination ports that the job gets to. -/
def ports (j : Job R K) : ℕ := if j.ratio = .finite 0 then 0 else j.destNCh

theorem ports_le (j : Job R K) : j.ports ≤ j.destNCh := by
  unfold ports
  split_ifs
  · exact Nat.zero_le _
  · exact Nat.le_refl _

section Sizes

variable [Zero R] [Add R] [Sub R] [Mul R] [Div R]
variable [LT R] [DecidableLT R] [LE R] [DecidableLE R] [DecidableEq R]
variable [Zero K] [Add K] [Mul K] [SMul R K]
variable {A : Arithmetic R K} {j : Job R K} {src : List (SignalV K)}

/-- Every access of the job to a destination vector stays inside. -/
def InBounds (A : Arithmetic R K) (t : Scratch K) (j : Job R K) : Prop :=
  ∀ size ∈ (j.convertPorts A t).sizes, j.sPerBuff ≤ size

/-! ## One destination port -/

theorem callPort_of_reached {cDest cSrc : ℕ} (hsrc : SourceSized src)
    (hcoeff : j.coeff cDest cSrc ≠ 0) (st : ChannelCall R K) :
    (j.callPort A src cDest st cSrc).dest.size = j.sizeAfter st.dest.size ∧
      ∀ size ∈ (j.callPort A src cDest st cSrc).sizes,
        size ∈ st.sizes ∨ size = j.sizeAfter st.dest.size := by
  have hsize : ∀ n, callSize (j.params cDest cSrc)
      (src.getD cSrc (zeroSignal K)).size n = j.sizeAfter n := by
    intro n
    rw [hsrc.size_getD]
    rfl
  unfold callPort
  rw [if_neg hcoeff]
  constructor
  · exact (size_dest_processChannel _ _ _ _ _ _ _).trans (hsize _)
  · intro size hmem
    obtain hold | hnew := List.mem_append.mp hmem
    · exact Or.inl hold
    · exact Or.inr
        ((mem_sizes_processChannel _ _ _ _ _ _ _ hnew).trans (hsize _))

/-- The loop over a list of source ports. -/
theorem foldl_callPort_size (hsrc : SourceSized src) (cDest : ℕ)
    (ports : List ℕ) (st : ChannelCall R K) :
    (ports.foldl (j.callPort A src cDest) st).dest.size =
        (if ∃ cSrc ∈ ports, j.coeff cDest cSrc ≠ 0
          then j.sizeAfter st.dest.size else st.dest.size) ∧
      ∀ size ∈ (ports.foldl (j.callPort A src cDest) st).sizes,
        size ∈ st.sizes ∨
          size = j.sizeAfter st.dest.size ∧
            ∃ cSrc ∈ ports, j.coeff cDest cSrc ≠ 0 := by
  induction ports generalizing st with
  | nil => simp
  | cons cSrc ports ih =>
      rw [List.foldl_cons]
      obtain ⟨hdest, hsizes⟩ := ih (j.callPort A src cDest st cSrc)
      by_cases hcoeff : j.coeff cDest cSrc = 0
      · have hskip : j.callPort A src cDest st cSrc = st := if_pos hcoeff
        rw [hskip] at hdest hsizes ⊢
        simpa [hcoeff] using And.intro hdest hsizes
      · obtain ⟨hcall, hcalls⟩ :=
          callPort_of_reached (A := A) hsrc hcoeff st
        rw [hcall, sizeAfter_sizeAfter, ite_self] at hdest
        rw [hcall, sizeAfter_sizeAfter] at hsizes
        have hreached : ∃ c ∈ cSrc :: ports, j.coeff cDest c ≠ 0 :=
          ⟨cSrc, List.mem_cons_self, hcoeff⟩
        refine ⟨?_, ?_⟩
        · rw [if_pos hreached, hdest]
        · intro size hmem
          obtain hold | ⟨rfl, -⟩ := hsizes size hmem
          · obtain hold | rfl := hcalls size hold
            · exact Or.inl hold
            · exact Or.inr ⟨rfl, hreached⟩
          · exact Or.inr ⟨rfl, hreached⟩

/-- The size of a destination vector after the loop over the source ports. -/
def portSize (j : Job R K) (cDest size : ℕ) : ℕ :=
  if j.Reaches cDest then j.sizeAfter size else size

theorem runPorts_size (hsrc : SourceSized src) (cDest : ℕ)
    (st : ChannelCall R K) :
    (j.runPorts A src cDest st).dest.size = j.portSize cDest st.dest.size ∧
      ∀ size ∈ (j.runPorts A src cDest st).sizes,
        size ∈ st.sizes ∨ size = j.portSize cDest st.dest.size := by
  obtain ⟨hdest, hsizes⟩ := foldl_callPort_size (A := A) (j := j) hsrc cDest
    (List.range j.srcNCh) st
  have hreaches : (∃ cSrc ∈ List.range j.srcNCh, j.coeff cDest cSrc ≠ 0) ↔
      j.Reaches cDest := by
    simp only [List.mem_range, Reaches]
  simp only [hreaches] at hdest hsizes
  refine ⟨hdest, ?_⟩
  intro size hmem
  obtain hold | ⟨rfl, hreached⟩ := hsizes size hmem
  · exact Or.inl hold
  · exact Or.inr (if_pos hreached).symm

/-! ## All destination ports -/

theorem length_convertPort (out : PortOutput R K) (cDest : ℕ) :
    (j.convertPort A src out cDest).destSigArr.length = out.destSigArr.length :=
  List.length_set

theorem convertPort_size (hsrc : SourceSized src) (out : PortOutput R K)
    {cDest : ℕ} (hlt : cDest < out.destSigArr.length) (c : ℕ) :
    ((j.convertPort A src out cDest).destSigArr.getD c (zeroSignal K)).size =
      (if c = cDest then
        j.portSize c (out.destSigArr.getD c (zeroSignal K)).size
      else (out.destSigArr.getD c (zeroSignal K)).size) := by
  unfold convertPort
  dsimp only
  rw [List.getD_eq_getElem?_getD, List.getElem?_set]
  by_cases hc : c = cDest
  · subst hc
    rw [if_pos rfl, if_pos hlt, if_pos rfl]
    exact (runPorts_size hsrc c _).1
  · rw [if_neg (Ne.symm hc), if_neg hc, List.getD_eq_getElem?_getD]

theorem mem_sizes_convertPort (hsrc : SourceSized src) (out : PortOutput R K)
    (cDest : ℕ) {size : ℕ}
    (h : size ∈ (j.convertPort A src out cDest).sizes) :
    size ∈ out.sizes ∨ size =
      j.portSize cDest (out.destSigArr.getD cDest (zeroSignal K)).size := by
  obtain ⟨hdest, hsizes⟩ := runPorts_size (A := A) (j := j) hsrc cDest
    ⟨out.destSigArr.getD cDest (zeroSignal K), out.cirOut, out.link, []⟩
  obtain hold | hnew := List.mem_append.mp h
  · exact Or.inl hold
  · refine Or.inr ?_
    obtain hcall | hlast := List.mem_append.mp hnew
    · exact (hsizes size hcall).resolve_left List.not_mem_nil
    · rw [List.mem_singleton.mp hlast]
      exact hdest

/-- The sizes after the first `n` destination ports. -/
theorem foldl_convertPort_size (hsrc : SourceSized src) (out : PortOutput R K)
    {n : ℕ} (hn : n ≤ out.destSigArr.length) :
    ((List.range n).foldl (j.convertPort A src) out).destSigArr.length =
        out.destSigArr.length ∧
      (∀ c, (((List.range n).foldl (j.convertPort A src) out).destSigArr.getD c
          (zeroSignal K)).size =
        (if c < n then
          j.portSize c (out.destSigArr.getD c (zeroSignal K)).size
        else (out.destSigArr.getD c (zeroSignal K)).size)) ∧
      ∀ size ∈ ((List.range n).foldl (j.convertPort A src) out).sizes,
        size ∈ out.sizes ∨ ∃ c, c < n ∧ size =
          j.portSize c (out.destSigArr.getD c (zeroSignal K)).size := by
  induction n with
  | zero => simp
  | succ n ih =>
      obtain ⟨hlength, hafter, hsizes⟩ := ih (Nat.le_of_succ_le hn)
      rw [List.range_succ, List.foldl_append, List.foldl_cons, List.foldl_nil]
      refine ⟨(length_convertPort _ n).trans hlength, ?_, ?_⟩
      · intro c
        rw [convertPort_size hsrc _ (by omega) c, hafter c]
        by_cases hc : c = n
        · subst hc
          rw [if_pos rfl, if_neg (Nat.lt_irrefl c), if_pos (Nat.lt_succ_self c)]
        · have hiff : c < n + 1 ↔ c < n := by omega
          rw [if_neg hc]
          simp only [hiff]
      · intro size hmem
        obtain hold | hnew := mem_sizes_convertPort hsrc _ n hmem
        · obtain hfirst | ⟨c, hc, hsize⟩ := hsizes size hold
          · exact Or.inl hfirst
          · exact Or.inr ⟨c, Nat.lt_succ_of_lt hc, hsize⟩
        · rw [hafter n, if_neg (Nat.lt_irrefl n)] at hnew
          exact Or.inr ⟨n, Nat.lt_succ_self n, hnew⟩

/-! ## One job -/

/-- The sizes that a job leaves behind. -/
theorem process_size {t : Scratch K} (hsrc : SourceSized t.srcSigArr) (c : ℕ) :
    ((j.process A t).destSigArr.getD c (zeroSignal K)).size =
      (if c < j.ports then
        j.portSize c (t.destSigArr.getD c (zeroSignal K)).size
      else (t.destSigArr.getD c (zeroSignal K)).size) := by
  have h := (foldl_convertPort_size (A := A) (j := j) (hsrc.loadSource A j)
    ⟨ensureChannels t.destSigArr j.destNCh, t.cirOut, j.link, [], []⟩
    (j.ports_le.trans (le_length_ensureChannels _ _))).2.1 c
  rw [getD_ensureChannels] at h
  exact h

/-- The sizes that a job finds when it accesses a vector. -/
theorem mem_sizes_convertPorts {t : Scratch K}
    (hsrc : SourceSized t.srcSigArr) {size : ℕ}
    (h : size ∈ (j.convertPorts A t).sizes) :
    ∃ c, c < j.ports ∧
      size = j.portSize c (t.destSigArr.getD c (zeroSignal K)).size := by
  have hsizes := (foldl_convertPort_size (A := A) (j := j)
    (hsrc.loadSource A j)
    ⟨ensureChannels t.destSigArr j.destNCh, t.cirOut, j.link, [], []⟩
    (j.ports_le.trans (le_length_ensureChannels _ _))).2.2 size h
  obtain ⟨c, hc, hsize⟩ := hsizes.resolve_left List.not_mem_nil
  rw [getD_ensureChannels] at hsize
  exact ⟨c, hc, hsize⟩

omit [Add R] [Sub R] [Mul R] [Div R] [LT R] [DecidableLT R] [LE R]
  [DecidableLE R] [Zero K] [Add K] [Mul K] [SMul R K] in
theorem le_portSize_iff (j : Job R K) (c : ℕ) {size : ℕ}
    (hsize : maxNumSamples ≤ size) :
    maxNumSamples ≤ j.portSize c size ↔ ¬j.Exchanges ∨ ¬j.Reaches c ∨
      maxNumSamples ≤ upsampledCount (sourceCount j.sPerBuff j.ratio) j.ratio
    := by
  by_cases hreached : j.Reaches c
  · rw [portSize, if_pos hreached, le_sizeAfter_iff j hsize]
    simp [hreached]
  · rw [portSize, if_neg hreached]
    exact ⟨fun _ => Or.inr (Or.inl hreached), fun _ => hsize⟩

omit [Add R] [Sub R] [Mul R] [Div R] [LT R] [DecidableLT R] [LE R]
  [DecidableLE R] [Zero K] [Add K] [Mul K] [SMul R K] in
/-- A vector keeps its room at every port exactly when the job is one that
keeps the vectors. -/
theorem keepsScratch_iff (j : Job R K) {sizes : ℕ → ℕ}
    (hsizes : ∀ c, maxNumSamples ≤ sizes c) :
    j.KeepsScratch ↔
      ∀ c, c < j.ports → maxNumSamples ≤ j.portSize c (sizes c) := by
  simp only [j.le_portSize_iff _ (hsizes _)]
  unfold KeepsScratch ports
  constructor
  · rintro (hzero | hnone | hunreached | hlong) c hc
    · rw [if_pos hzero] at hc
      exact absurd hc (Nat.not_lt_zero c)
    · exact Or.inl hnone
    · exact Or.inr (Or.inl (hunreached c (Nat.lt_of_lt_of_le hc j.ports_le)))
    · exact Or.inr (Or.inr hlong)
  · intro hall
    by_cases hzero : j.ratio = .finite 0
    · exact Or.inl hzero
    · rw [if_neg hzero] at hall
      by_cases hlong : maxNumSamples ≤
          upsampledCount (sourceCount j.sPerBuff j.ratio) j.ratio
      · exact Or.inr (Or.inr (Or.inr hlong))
      · simp only [hlong, or_false] at hall
        by_cases hexchanges : j.Exchanges
        · refine Or.inr (Or.inr (Or.inl fun c hc => ?_))
          exact (hall c hc).resolve_left (not_not_intro hexchanges)
        · exact Or.inr (Or.inl hexchanges)

/-- A job leaves the room it found exactly when it keeps the vectors. -/
theorem roomy_process_iff {t : Scratch K} (hsrc : SourceSized t.srcSigArr)
    (hroomy : Roomy t) : Roomy (j.process A t) ↔ j.KeepsScratch := by
  rw [j.keepsScratch_iff hroomy]
  constructor
  · intro hafter c hc
    have hroom := hafter c
    rw [process_size hsrc, if_pos hc] at hroom
    exact hroom
  · intro hports c
    rw [process_size hsrc]
    split_ifs with hc
    · exact hports c hc
    · exact hroomy c

theorem inBounds_of_keepsScratch {t : Scratch K}
    (hsrc : SourceSized t.srcSigArr) (hroomy : Roomy t)
    (hj : j.Admissible) (hkeeps : j.KeepsScratch) : InBounds A t j := by
  intro size hmem
  obtain ⟨c, hc, rfl⟩ := mem_sizes_convertPorts hsrc hmem
  exact hj.destination.trans ((j.keepsScratch_iff hroomy).mp hkeeps c hc)

/-! ## Runs of a thread -/

omit [Add K] [Mul K] in
theorem roomy_fresh : Roomy (Scratch.fresh : Scratch K) :=
  fun _ => Nat.le_refl _

/-- The vectors keep their room along a run exactly when every job of it keeps
them. -/
theorem everyState_roomy_iff (A : Arithmetic R K) (jobs : List (Job R K)) :
    EveryState (step A) Roomy .fresh jobs ↔
      EveryStep (step A) (fun _ j => j.KeepsScratch) .fresh jobs := by
  have hsource : ∀ t j t', SourceSized t.srcSigArr → step A t j = some t' →
      SourceSized t'.srcSigArr := by
    rintro t j - hsrc ⟨⟩
    exact hsrc.loadSource A j
  refine everyState_iff_everyStep hsource ?_ ?_ ?_ roomy_fresh jobs
  · rintro t j - hsrc hroomy ⟨⟩
    exact roomy_process_iff hsrc hroomy
  · rintro t j - ⟨⟩
  · exact fun v hv => absurd hv List.not_mem_nil

/-- When no burst exceeds the vectors and every job keeps them, all accesses of
a thread to its destination vectors stay inside. -/
theorem scratch_in_bounds (A : Arithmetic R K) (jobs : List (Job R K))
    (hjobs : ∀ j ∈ jobs, j.Admissible) (hkeeps : ∀ j ∈ jobs, j.KeepsScratch) :
    EveryStep (step A) (InBounds A) .fresh jobs := by
  have hrun : ∀ t : Scratch K, SourceSized t.srcSigArr → Roomy t →
      EveryStep (step A) (InBounds A) t jobs := by
    induction jobs with
    | nil => exact fun _ _ _ => trivial
    | cons j jobs ih =>
        intro t hsrc hroomy
        have hj := hkeeps j List.mem_cons_self
        refine ⟨inBounds_of_keepsScratch hsrc hroomy
          (hjobs j List.mem_cons_self) hj, ?_⟩
        rintro - ⟨⟩
        exact ih (fun k hk => hjobs k (List.mem_cons_of_mem j hk))
          (fun k hk => hkeeps k (List.mem_cons_of_mem j hk)) (j.process A t)
          (hsrc.loadSource A j) ((roomy_process_iff hsrc hroomy).mpr hj)
  exact hrun .fresh (fun v hv => absurd hv List.not_mem_nil) roomy_fresh

end Sizes

/-- The first source port reaches the first destination port. -/
def firstPorts : FiniteMap (ℕ × ℕ) ℚ := AList.singleton (0, 0) 1

/-- A burst for one port at the given rate, received at 1 MHz. -/
def onePortJob (samples rate : UInt32) : Job ℚ ExactSample :=
  plainJob samples 1 (fun _ => 0) rate 1 firstPorts

theorem scratch_in_bounds_half_rate :
    EveryStep (step exactArithmetic) (InBounds exactArithmetic) .fresh
      [onePortJob 1000 500000, onePortJob 2000 1000000] := by
  apply scratch_in_bounds
  · rintro j (⟨⟩ | ⟨_, ⟨⟩ | ⟨_, ⟨⟩⟩⟩)
    · exact ⟨by decide +kernel, by decide +kernel⟩
    · exact ⟨by decide +kernel, by decide +kernel⟩
  · rintro j (⟨⟩ | ⟨_, ⟨⟩ | ⟨_, ⟨⟩⟩⟩)
    · exact Or.inr (Or.inl (by decide +kernel))
    · exact Or.inr (Or.inl (by decide +kernel))

/-- Ten samples at twice the rate leave a vector of 20 elements, and the next
burst of 100 samples is written into it. -/
theorem short_burst_shrinks_vector :
    (onePortJob 10 2000000).Admissible ∧ (onePortJob 100 1000000).Admissible ∧
      ¬EveryStep (step exactArithmetic) (InBounds exactArithmetic) .fresh
        [onePortJob 10 2000000, onePortJob 100 1000000] := by
  refine ⟨⟨by decide +kernel, by decide +kernel⟩,
    ⟨by decide +kernel, by decide +kernel⟩, ?_⟩
  rintro ⟨-, hrest⟩
  have hbounds := (hrest _ rfl).1 20 (by decide +kernel)
  revert hbounds
  decide +kernel

end Job
end Pipeline
end Chem
