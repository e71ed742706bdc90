import ChemEmulator.Dsp.ImpulseResponse
import ChemEmulator.Pipeline.FrequencyContinuity
import ChemEmulator.Support.Chunks
import Mathlib.Algebra.Group.AddChar
import Mathlib.Analysis.SpecialFunctions.Complex.Log
import Mathlib.Analysis.SpecialFunctions.Log.Base

/-!
# Rotation in chunks

`src/chem/dsp/signal.cpp`, `apply_frequency_offset`, with the count that it
hands to VOLK: an `unsigned int`, while the new phase is computed from the whole
size.

The machine behind it is an oscillator, which rotates one sample after the other
and never reduces its phase.  The code reduces the phase before and after each
call and does nothing for an empty chunk; it keeps up with the oscillator modulo
full turns, and the samples are the same as long as the count fits.
-/

namespace Chem

open Chunks Dsp Pipeline

variable {R K : Type}

/-- `apply_frequency_offset`. -/
def applyFrequencyOffsetCounted [Zero R] [Add R] [Mul R] [DecidableEq R]
    [Mul K] (A : Arithmetic R K) (signal : SignalV K) (size : ℕ)
    (sampleRateHz : FloatValue) (freqOffsetHz phaseRad : R) :
    SignalV K × R :=
  match sampleRateHz with
  | .finite rate =>
      if size = 0 ∨ rate ≤ 0 ∨ A.isfinite freqOffsetHz = false ∨
          freqOffsetHz = 0 then (signal, phaseRad)
      else
        let phaseInc := A.phaseInc freqOffsetHz rate
        let phase := A.wrapPhase phaseRad
        (signal.fill (numPoints size) fun i =>
            signal.data i * A.rotator phase phaseInc i,
          A.wrapPhase (phase + phaseInc * A.ofNat size))
  | _ => (signal, phaseRad)

section Kernel

variable [Zero R] [Add R] [Mul R] [DecidableEq R] [Mul K]

/-- As long as the count fits, this is the kernel. -/
theorem applyFrequencyOffsetCounted_eq (A : Arithmetic R K)
    (signal : SignalV K) {size : ℕ} (hfits : size < 2 ^ 32)
    (rate : FloatValue) (offset phase : R) :
    applyFrequencyOffsetCounted A signal size rate offset phase =
      Dsp.applyFrequencyOffset A signal size rate offset phase := by
  have hcount : numPoints size = size := Nat.mod_eq_of_lt hfits
  unfold applyFrequencyOffsetCounted Dsp.applyFrequencyOffset
  cases rate with
  | finite rate =>
      dsimp only
      rw [hcount]
  | infinite negative => rfl
  | nan => rfl

/-- `phase_inc`, if anything is rotated. -/
def phaseIncrement (A : Arithmetic R K) (sampleRateHz : FloatValue)
    (freqOffsetHz : R) : Option R :=
  match sampleRateHz with
  | .finite rate =>
      if rate ≤ 0 ∨ A.isfinite freqOffsetHz = false ∨ freqOffsetHz = 0 then none
      else some (A.phaseInc freqOffsetHz rate)
  | _ => none

variable {A : Arithmetic R K} {rate : FloatValue} {offset inc : R}

theorem applyFrequencyOffsetCounted_of_none
    (hnone : phaseIncrement A rate offset = none) (signal : SignalV K)
    (size : ℕ) (phase : R) :
    applyFrequencyOffsetCounted A signal size rate offset phase =
      (signal, phase) := by
  unfold phaseIncrement at hnone
  unfold applyFrequencyOffsetCounted
  cases rate with
  | finite rate =>
      dsimp only at hnone ⊢
      split_ifs at hnone with hguard
      exact if_pos (.inr hguard)
  | infinite negative => rfl
  | nan => rfl

theorem applyFrequencyOffsetCounted_of_some
    (hsome : phaseIncrement A rate offset = some inc) (signal : SignalV K)
    {size : ℕ} (hsize : size ≠ 0) (phase : R) :
    applyFrequencyOffsetCounted A signal size rate offset phase =
      (signal.fill (numPoints size) fun i =>
          signal.data i * A.rotator (A.wrapPhase phase) inc i,
        A.wrapPhase (A.wrapPhase phase + inc * A.ofNat size)) := by
  unfold phaseIncrement at hsome
  unfold applyFrequencyOffsetCounted
  cases rate with
  | finite rate =>
      dsimp only at hsome ⊢
      split_ifs at hsome with hguard
      rw [Option.some.injEq] at hsome
      rw [if_neg (not_or_intro hsize hguard), hsome]
  | infinite negative => cases hsome
  | nan => cases hsome

end Kernel

/-! ## Chunks -/

/-- A call for a chunk, which is a vector of its own. -/
def rotateChunk [Zero R] [Add R] [Mul R] [DecidableEq R] [Zero K] [Mul K]
    (A : Arithmetic R K) (rate : FloatValue) (offset phase : R)
    (chunk : List K) : List K × R :=
  let results := applyFrequencyOffsetCounted A
    ⟨chunk.length, fun i => chunk.getD i 0⟩ chunk.length rate offset phase
  (results.1.take chunk.length, results.2)

section Chunk

variable [Zero R] [Add R] [Mul R] [DecidableEq R] [Zero K] [Mul K]
variable {A : Arithmetic R K} {rate : FloatValue} {offset inc : R}

theorem rotateChunk_of_none (hnone : phaseIncrement A rate offset = none)
    (phase : R) (chunk : List K) :
    rotateChunk A rate offset phase chunk = (chunk, phase) := by
  rw [rotateChunk, applyFrequencyOffsetCounted_of_none hnone]
  refine Prod.ext ?_ rfl
  apply List.ext_getElem
  · simp [RawVector.take]
  · intro i hi hi'
    simp [RawVector.take, hi']

theorem rotateChunk_nil (phase : R) :
    rotateChunk A rate offset phase [] = ([], phase) := by
  unfold rotateChunk applyFrequencyOffsetCounted
  cases rate with
  | finite rate =>
      dsimp only
      rw [if_pos (.inl List.length_nil)]
      rfl
  | infinite negative => rfl
  | nan => rfl

/-- The samples that are counted are rotated. -/
theorem rotateChunk_of_some (hsome : phaseIncrement A rate offset = some inc)
    (phase : R) {chunk : List K} (hchunk : chunk ≠ []) :
    rotateChunk A rate offset phase chunk =
      (chunk.mapIdx fun i sample =>
          if i < numPoints chunk.length then
            sample * A.rotator (A.wrapPhase phase) inc i
          else sample,
        A.wrapPhase (A.wrapPhase phase + inc * A.ofNat chunk.length)) := by
  have hsize : chunk.length ≠ 0 := by rwa [ne_eq, List.length_eq_zero_iff]
  rw [rotateChunk, applyFrequencyOffsetCounted_of_some hsome _ hsize]
  refine Prod.ext ?_ rfl
  apply List.ext_getElem
  · simp [RawVector.take]
  · intro i hi hi'
    have hlt : i < chunk.length := by rwa [List.length_mapIdx] at hi'
    simp [RawVector.take, RawVector.fill, hlt]

/-- As many samples as the count has values: none of them is rotated. -/
theorem rotateChunk_uncounted
    (hsome : phaseIncrement A rate offset = some inc) (phase : R)
    {samples : List K} (hlen : samples.length = 2 ^ 32) :
    (rotateChunk A rate offset phase samples).1 = samples := by
  have hsamples : samples ≠ [] := by
    rintro rfl
    rw [List.length_nil] at hlen
    omega
  have hnone : numPoints samples.length = 0 := by
    rw [hlen, numPoints, Nat.mod_self]
  rw [rotateChunk_of_some hsome phase hsamples, hnone]
  apply List.ext_getElem
  · exact List.length_mapIdx
  · intro i hi hi'
    rw [List.getElem_mapIdx, if_neg (Nat.not_lt_zero i)]

end Chunk

section Rotation

variable [Field R] [LinearOrder R] [MonoidWithZero K]

/-- Rotation is a homomorphism with the period of the phases, and the rotator of
VOLK multiplies the samples by its values. -/
structure ExactRotation (A : Arithmetic R K) (twoPi : R) (rot : AddChar R K) :
    Prop extends ExactPhases A twoPi where
  turn : rot twoPi = 1
  rotator : ∀ φ inc i, A.rotator φ inc i = rot (φ + i • inc)

/-- The oscillator: one sample, at a phase that is never reduced. -/
def oscillate (rot : AddChar R K) (increment : Option R) (φ : R) (sample : K) :
    K × R :=
  match increment with
  | none => (sample, φ)
  | some inc => (sample * rot φ, φ + inc)

variable {A : Arithmetic R K} {twoPi : R} {rot : AddChar R K}

omit [LinearOrder R] in
/-- Full turns do not count. -/
theorem ExactRotation.congr (hA : ExactRotation A twoPi rot) {φ ψ : R}
    (h : φ ≡ ψ [PMOD twoPi]) : rot φ = rot ψ := by
  obtain ⟨z, hz⟩ := AddCommGroup.modEq_iff_zsmul.mp h
  have hturns : z • twoPi ∈ rot.toAddMonoidHom.ker :=
    zsmul_mem (AddMonoidHom.mem_ker.mpr hA.turn) z
  have hone : rot (z • twoPi) = 1 := AddMonoidHom.mem_ker.mp hturns
  calc rot φ = rot φ * rot (z • twoPi) := by rw [hone, mul_one]
    _ = rot (φ + z • twoPi) := (rot.map_add_eq_mul _ _).symm
    _ = rot ψ := by rw [hz, add_sub_cancel]

omit [LinearOrder R] in
theorem scan_oscillate_none (φ : R) (samples : List K) :
    scan (oscillate rot none) φ samples = (samples, φ) := by
  induction samples generalizing φ with
  | nil => rfl
  | cons sample samples ih =>
      rw [scan]
      dsimp only [oscillate]
      rw [ih]

omit [LinearOrder R] in
theorem scan_oscillate_some (inc φ : R) (samples : List K) :
    scan (oscillate rot (some inc)) φ samples =
      (samples.mapIdx fun i sample => sample * rot (φ + i • inc),
        φ + samples.length • inc) := by
  have hstep : ∀ φ sample, oscillate rot (some inc) φ sample =
      (sample * rot φ, φ + inc) := fun _ _ => rfl
  refine Prod.ext ?_ ?_
  · rw [scan_fst_of_clocked hstep]
    simp only [add_right_iterate]
  · rw [scan_snd_of_clocked hstep, add_right_iterate]

/-- The calls for the chunks keep up with the oscillator. -/
theorem simulates_rotateChunk (hA : ExactRotation A twoPi rot)
    (rate : FloatValue) (offset : R) :
    Simulates (oscillate rot (phaseIncrement A rate offset))
      (fun phase φ => phase ≡ φ [PMOD twoPi])
      (fun chunk : List K => chunk.length < 2 ^ 32)
      (rotateChunk A rate offset) := by
  cases hinc : phaseIncrement A rate offset with
  | none =>
      constructor
      · intro phase φ chunk h
        rwa [rotateChunk_of_none hinc, scan_oscillate_none]
      · intro phase φ chunk _ _
        rw [rotateChunk_of_none hinc, scan_oscillate_none]
  | some inc =>
      constructor
      · intro phase φ chunk h
        rw [scan_oscillate_some]
        by_cases hchunk : chunk = []
        · rw [hchunk, rotateChunk_nil, List.length_nil, zero_smul, add_zero]
          exact h
        · rw [rotateChunk_of_some hinc phase hchunk, hA.ofNat, mul_comm,
            ← nsmul_eq_mul]
          exact (hA.wrap _).trans (((hA.wrap phase).trans h).add_right _)
      · intro phase φ chunk h hfits
        rw [scan_oscillate_some]
        by_cases hchunk : chunk = []
        · rw [hchunk, rotateChunk_nil]
          rfl
        · rw [rotateChunk_of_some hinc phase hchunk, numPoints,
            Nat.mod_eq_of_lt hfits]
          apply List.ext_getElem
          · simp only [List.length_mapIdx]
          · intro i hi hi'
            have hlt : i < chunk.length := by rwa [List.length_mapIdx] at hi'
            have hphase : A.wrapPhase phase + i • inc ≡ φ + i • inc
                [PMOD twoPi] := ((hA.wrap phase).trans h).add_right _
            rw [List.getElem_mapIdx, List.getElem_mapIdx, if_pos hlt,
              hA.rotator, hA.congr hphase]

/-! ## The split -/

/-- The chunks give the same samples and the same phase, modulo full turns, as
the whole signal. -/
def SplitInvariant (A : Arithmetic R K) (twoPi : R) (rate : FloatValue)
    (offset phase : R) (chunks : List (List K)) : Prop :=
  let split := chunked (rotateChunk A rate offset) phase chunks
  let whole := rotateChunk A rate offset phase chunks.flatten
  split.1 = whole.1 ∧ split.2 ≡ whole.2 [PMOD twoPi]

/-- The phases agree for every split, and the samples too if the count of the
whole signal fits. -/
theorem rotation_splitInvariant (hA : ExactRotation A twoPi rot)
    (rate : FloatValue) (offset phase : R) (chunks : List (List K)) :
    (chunked (rotateChunk A rate offset) phase chunks).2 ≡
        (rotateChunk A rate offset phase chunks.flatten).2 [PMOD twoPi] ∧
      (chunks.flatten.length < 2 ^ 32 →
        SplitInvariant A twoPi rate offset phase chunks) := by
  have hsim := simulates_rotateChunk hA rate offset
  have hphase : (chunked (rotateChunk A rate offset) phase chunks).2 ≡
      (rotateChunk A rate offset phase chunks.flatten).2 [PMOD twoPi] :=
    (hsim.chunked_state AddCommGroup.modEq_rfl chunks).trans
      (hsim.state phase phase chunks.flatten AddCommGroup.modEq_rfl).symm
  refine ⟨hphase, fun hfits => ⟨?_, hphase⟩⟩
  apply hsim.chunked_eq AddCommGroup.modEq_rfl _ hfits
  intro chunk hchunk
  exact (List.Sublist.length_le
    (List.sublist_flatten_of_mem hchunk)).trans_lt hfits

end Rotation

/-! ### Complex samples -/

/-- `two_pi` among the real numbers. -/
noncomputable def fullTurn : ℝ := LinkStream.codeTwoPi

/-- The point of the unit circle at an angle, in units of `two_pi`. -/
noncomputable def unitCircle : AddChar ℝ ℂ where
  toFun φ := Complex.exp ((φ / fullTurn * (Real.pi + Real.pi) : ℝ) * Complex.I)
  map_zero_eq_one' := by
    rw [zero_div, zero_mul, Complex.ofReal_zero, zero_mul, Complex.exp_zero]
  map_add_eq_mul' φ ψ := by
    rw [← Complex.exp_add, ← add_mul, ← Complex.ofReal_add, add_div, add_mul]

/-- Real phases and complex samples. -/
noncomputable def complexArithmetic : Arithmetic ℝ ℂ where
  literal q := q
  ofNat n := n
  isfinite _ := true
  sqrt := Real.sqrt
  linToDb x := ((10 : ℚ) : ℝ) * Real.logb ((10 : ℚ) : ℝ) x
  dbToLin x := ((10 : ℚ) : ℝ) ^ (x / ((10 : ℚ) : ℝ))
  normSq := Complex.normSq
  taps _ := [1]
  phaseInc offset rate := fullTurn * offset / rate
  wrapPhase x := x - fullTurn * round (x / fullTurn)
  rotator φ inc i := unitCircle (φ + i • inc)
  ofItem32 w :=
    ⟨(part16 (w.toNat / 2 ^ 16) : ℚ), (part16 (w.toNat % 2 ^ 16) : ℚ)⟩
  toItem32 z := UInt32.ofNat
    ((⌊z.re * ((32767 : ℚ) : ℝ)⌋ % 2 ^ 16).toNat * 2 ^ 16 +
      (⌊z.im * ((32767 : ℚ) : ℝ)⌋ % 2 ^ 16).toNat)

theorem fullTurn_ne_zero : fullTurn ≠ 0 := by
  unfold fullTurn LinkStream.codeTwoPi
  norm_num

theorem exactRotation_complexArithmetic :
    ExactRotation complexArithmetic fullTurn unitCircle where
  finite _ := rfl
  ofNat _ := rfl
  wrap x := by
    have hwrap : complexArithmetic.wrapPhase x =
        x + (-round (x / fullTurn)) • fullTurn := by
      change x - fullTurn * round (x / fullTurn) = _
      rw [zsmul_eq_mul]
      push_cast
      ring
    rw [hwrap]
    exact AddCommGroup.add_zsmul_modEq _
  turn := by
    change Complex.exp ((fullTurn / fullTurn * (Real.pi + Real.pi) : ℝ) *
      Complex.I) = 1
    rw [div_self fullTurn_ne_zero, one_mul, ← two_mul]
    push_cast
    exact Complex.exp_two_pi_mul_I
  rotator _ _ _ := rfl

/-- Three samples at a quarter turn each, in three chunks. -/
theorem rotation_splitInvariant_threeSamples :
    SplitInvariant complexArithmetic fullTurn (.finite 4) 1 0
      [[1], [], [1, 1]] :=
  (rotation_splitInvariant exactRotation_complexArithmetic (.finite 4) 1 0
    [[1], [], [1, 1]]).2 (by decide)

/-- An offset of a quarter of the sample rate. -/
theorem phaseIncrement_quarter :
    phaseIncrement complexArithmetic (.finite 4) 1 =
      some (fullTurn * 1 / ((4 : ℚ) : ℝ)) := by
  refine if_neg ?_
  rintro (hneg | hinf | hnone)
  · exact absurd hneg (by norm_num)
  · cases hinf
  · exact one_ne_zero hnone

theorem unitCircle_quarter :
    unitCircle (fullTurn * 1 / ((4 : ℚ) : ℝ)) ≠ 1 := by
  intro h
  obtain ⟨n, hn⟩ := Complex.exp_eq_one_iff.mp h
  have hquarter : fullTurn * 1 / ((4 : ℚ) : ℝ) / fullTurn = 1 / 4 := by
    rw [mul_one, div_right_comm, div_self fullTurn_ne_zero]
    norm_num
  rw [hquarter, ← mul_assoc] at hn
  have hreal : 1 / 4 * (Real.pi + Real.pi) = n * (2 * Real.pi) := by
    exact_mod_cast mul_right_cancel₀ Complex.I_ne_zero hn
  have hturns : (1 : ℝ) = (4 * n : ℤ) := by
    apply mul_right_cancel₀ Real.pi_ne_zero
    push_cast
    linarith
  have hint : (1 : ℤ) = 4 * n := by exact_mod_cast hturns
  omega

/-- VOLK gets none of the samples if all of them are handed over at once, while
a first sample of its own makes the second one turn. -/
theorem not_splitInvariant_wrapped :
    ¬SplitInvariant complexArithmetic fullTurn (.finite 4) 1 0
      [[1], List.replicate (2 ^ 32 - 1) 1] := by
  have hlen : (List.replicate (2 ^ 32 - 1) (1 : ℂ)).length = 2 ^ 32 - 1 :=
    List.length_replicate
  have hhead : (List.replicate (2 ^ 32 - 1) (1 : ℂ))[0]? = some 1 :=
    List.getElem?_replicate_of_lt (by decide)
  generalize List.replicate (2 ^ 32 - 1) (1 : ℂ) = rest at hlen hhead ⊢
  intro h
  have hflat : [[1], rest].flatten = 1 :: rest := by simp
  have hwhole : (rotateChunk complexArithmetic (.finite 4) 1 0
      (1 :: rest)).1 = 1 :: rest := by
    apply rotateChunk_uncounted phaseIncrement_quarter
    rw [List.length_cons, hlen]
    exact Nat.sub_add_cancel (by decide)
  have hsplit : (chunked (rotateChunk complexArithmetic (.finite 4) 1) 0
      [[1], rest]).1 = (scan (oscillate unitCircle
        (phaseIncrement complexArithmetic (.finite 4) 1)) 0 (1 :: rest)).1 := by
    rw [← hflat]
    apply (simulates_rotateChunk exactRotation_complexArithmetic (.finite 4)
      1).chunked_output AddCommGroup.modEq_rfl
    intro chunk hchunk
    rcases List.mem_pair.mp hchunk with rfl | rfl
    · decide
    · rw [hlen]
      decide
  have hsecond := congrArg (·[1]?) h.1
  beta_reduce at hsecond
  rw [hsplit, phaseIncrement_quarter, scan_oscillate_some, hflat, hwhole,
    List.getElem?_mapIdx, List.getElem?_cons_succ, hhead] at hsecond
  apply unitCircle_quarter
  simpa using hsecond

end Chem
