import ChemEmulator.Dsp.ImpulseResponse

/-!
# The centred filter

`src/chem/dsp/signal.cpp`, `fir_filter` with complex coefficients, loop by loop,
and `apply_cir` with `FIR_CENTERED`, which calls it.  The window of a sample
reaches from `delay` samples before it to `right` samples behind it.

The dot product takes the coefficients in the order of the samples.  `resample`
reverses its taps before it calls the filter; `apply_cir` does not, so what it
computes is a correlation.  It is the shifted convolution exactly for taps that
read the same from both ends.
-/

namespace Chem
namespace Dsp

open Convolution

variable {K : Type}

/-! ## The loops -/

/-- `kSimdSlack`. -/
def simdSlack : ℕ := 16

section Loops

variable [Zero K]

/-- `extended_signal`. -/
def extendedSignal (signal : SignalV K) (delay right size : ℕ) : SignalV K :=
  let v := (RawVector.replicate (signal.size + delay + right + simdSlack)
    (0 : K)).fill delay fun _ => signal.data 0
  let v := (List.range size).foldl
    (fun v i => v.set (delay + i) (signal.data i)) v
  (List.range right).foldl (fun v i => v.set (delay + signal.size + i)
    (signal.data (signal.size - 1))) v

/-- `padded_coeffs`. -/
def paddedCoeffs (coeffs : List K) : SignalV K where
  size := coeffs.length + simdSlack
  data j := coeffs.getD j 0

namespace Operands

/-- `fir_filter`. -/
def firFilter (V : Volk K) (o : Operands K) (coeffs : List K) (size : ℕ) :
    Operands K :=
  let signalLen := o.input.size
  let coeffLen := coeffs.length
  if coeffLen = 0 ∨ signalLen = 0 then o
  else
    let delay := (coeffLen - 1) / 2
    let right := coeffLen - 1 - delay
    let extendedSignal := extendedSignal o.input delay right size
    let paddedCoeffs := paddedCoeffs coeffs
    (List.range signalLen).foldl (fun o i => o.write (·.set i
      (V.dotProd (fun j => extendedSignal.data (i + j)) paddedCoeffs.data
        (numPoints coeffLen)))) o

end Operands

end Loops

section Filter

variable [CommRing K]

/-- `apply_cir` with the loops of `fir_filter`. -/
def Operands.applyCirLoops (V : Volk K) (o : Operands K) (taps : List K)
    (size : ℕ) (method : CIRApplyMethod) : Operands K :=
  match method with
  | .firCentered =>
      if size = 0 then o else o.firFilter V taps (min size o.input.size)
  | method => o.applyCir V taps size method

/-- The coefficients that a dot product reads: the count has 32 bits. -/
def countedTap (taps : List K) (j : ℕ) : K :=
  if j < numPoints taps.length then taps.getD j 0 else 0

theorem data_extendedSignal (signal : SignalV K) (delay right size i : ℕ) :
    (extendedSignal signal delay right size).data i =
      if delay + signal.size ≤ i ∧ i < delay + signal.size + right then
        signal.data (signal.size - 1)
      else if delay ≤ i ∧ i < delay + size then signal.data (i - delay)
      else if i < delay then signal.data 0
      else 0 := by
  unfold extendedSignal
  dsimp only
  rw [RawVector.data_foldl_set_add _ _ _ fun _ => signal.data (signal.size - 1),
    RawVector.data_foldl_set_add _ _ _ signal.data]
  rfl

/-- A sum over the coefficients that are counted is a window over all. -/
theorem sum_counted_eq_window (taps : List K) (signal : ℕ → K) (i : ℕ) :
    ∑ j ∈ Finset.range (numPoints taps.length),
        signal (i + j) * taps.getD j 0 =
      window (countedTap taps) taps.length signal i := by
  have hle : numPoints taps.length ≤ taps.length := Nat.mod_le _ _
  rw [window, ← Finset.sum_subset (Finset.range_mono hle)]
  · apply Finset.sum_congr rfl
    intro j hj
    rw [countedTap, if_pos (Finset.mem_range.mp hj)]
  · intro j _ hnot
    rw [countedTap, if_neg fun hj => hnot (Finset.mem_range.mpr hj), mul_zero]

/-- The dot product at one sample. -/
theorem dotProd_eq_window {V : Volk K} (hV : V.Exact) (taps : List K)
    (signal : ℕ → K) (i : ℕ) :
    V.dotProd (fun j => signal (i + j)) (paddedCoeffs taps).data
        (numPoints taps.length) =
      window (countedTap taps) taps.length signal i := by
  rw [hV.dotProd]
  exact sum_counted_eq_window taps signal i

theorem countedTap_of_lt {taps : List K} (hfits : taps.length < 2 ^ 32)
    (j : ℕ) : countedTap taps j = taps.getD j 0 := by
  unfold countedTap numPoints
  rw [Nat.mod_eq_of_lt hfits]
  split_ifs with hj
  · rfl
  · rw [List.getD_eq_default taps 0 (Nat.le_of_not_lt hj)]

namespace Operands

/-- The loops of `fir_filter` compute one window for each sample. -/
theorem firFilter_eq_write {V : Volk K} (hV : V.Exact) (o : Operands K)
    {taps : List K} (htaps : taps ≠ []) (hsize : o.input.size ≠ 0) (size : ℕ) :
    o.firFilter V taps size =
      o.write (·.fill o.input.size (window (countedTap taps) taps.length
        (extendedSignal o.input ((taps.length - 1) / 2)
          (taps.length - 1 - (taps.length - 1) / 2) size).data)) := by
  have hlen : taps.length ≠ 0 := fun h => htaps (List.length_eq_zero_iff.mp h)
  rw [firFilter]
  dsimp only
  rw [if_neg (not_or_intro hlen hsize), foldl_write_set]
  simp only [dotProd_eq_window hV]

/-- As long as the count fits, the loops compute what the kernel computes at
once. -/
theorem applyCirLoops_eq {V : Volk K} (hV : V.Exact) (o : Operands K)
    {taps : List K} (hfits : taps.length < 2 ^ 32) (size : ℕ)
    (method : CIRApplyMethod) :
    o.applyCirLoops V taps size method = o.applyCir V taps size method := by
  cases method with
  | none => rfl
  | firCausal => rfl
  | directConv => rfl
  | firCentered =>
      rw [applyCirLoops, applyCir]
      by_cases hsize : size = 0
      · rw [if_pos hsize, if_pos hsize]
      · rw [if_neg hsize, if_neg hsize]
        dsimp only
        by_cases hnone : taps = [] ∨ o.input.size = 0
        · have hloop : taps.length = 0 ∨ o.input.size = 0 := by
            rwa [List.length_eq_zero_iff]
          have hkernel : taps.isEmpty = true ∨ o.input.size = 0 := by
            rwa [List.isEmpty_iff]
          simp only [firFilter, if_pos hloop, firFilterTaps, if_pos hkernel]
          exact o.write_self.symm
        · obtain ⟨htaps, hinput⟩ := not_or.mp hnone
          have hkernel : ¬(taps.isEmpty = true ∨ o.input.size = 0) := by
            rwa [List.isEmpty_iff]
          rw [firFilter_eq_write hV o htaps hinput]
          simp only [firFilterTaps, if_neg hkernel]
          congr 1
          funext v
          apply RawVector.fill_congr
          intro i hi
          rw [sum_mapIdx _ _ 0, window]
          apply Finset.sum_congr rfl
          intro j hj
          have hj := Finset.mem_range.mp hj
          rw [countedTap_of_lt hfits, data_extendedSignal]
          congr 1
          split_ifs <;> first | rfl | omega

end Operands

/-! ## The shift -/

/-- Away from the edges the output is the causal convolution, taken `right`
samples later. -/
def ShiftedConvolution (V : Volk K) (taps : List K)
    (input output : SignalV K) : Prop :=
  let delay := (taps.length - 1) / 2
  let right := taps.length - 1 - delay
  ∀ i, delay ≤ i → i < input.size - right →
    ((Operands.separate input output).applyCirLoops V taps input.size
      .firCentered).output.data i = causal taps input.data (i + right)

/-- The taps read the same from both ends, as far as they are counted. -/
def Palindromic (taps : List K) : Prop :=
  ∀ j, j < taps.length → countedTap taps j = reversed taps j

theorem palindromic_iff {taps : List K} (hfits : taps.length < 2 ^ 32) :
    Palindromic taps ↔ taps.reverse = taps := by
  constructor
  · intro h
    apply List.ext_getElem (List.length_reverse ..)
    intro j hj hj'
    have hreversed := h j hj'
    rw [countedTap_of_lt hfits, reversed, List.getD_eq_getElem _ _ hj',
      List.getD_eq_getElem _ _ (by omega)] at hreversed
    rw [List.getElem_reverse, hreversed]
  · intro h j hj
    rw [countedTap_of_lt hfits, reversed, ← List.getD_reverse j hj, h]

/-- What the filter writes away from the edges. -/
theorem data_applyCirLoops {V : Volk K} (hV : V.Exact) {taps : List K}
    (htaps : taps ≠ []) (input output : SignalV K) {i : ℕ}
    (hi : i + taps.length ≤ input.size) :
    ((Operands.separate input output).applyCirLoops V taps input.size
        .firCentered).output.data (i + (taps.length - 1) / 2) =
      window (countedTap taps) taps.length input.data i := by
  have hlen : 0 < taps.length := List.length_pos_iff.mpr htaps
  have hsize : input.size ≠ 0 := by omega
  have hlt : i + (taps.length - 1) / 2 < input.size := by omega
  rw [Operands.applyCirLoops, if_neg hsize,
    Operands.firFilter_eq_write hV (.separate input output) htaps hsize,
    Operands.output_write]
  refine (RawVector.data_fill_of_lt output hlt _).trans ?_
  change window _ _ (extendedSignal input _ _ (min input.size input.size)).data
    _ = _
  unfold window
  apply Finset.sum_congr rfl
  intro j hj
  have hj := Finset.mem_range.mp hj
  rw [data_extendedSignal, Nat.min_self, if_neg (by omega),
    if_pos (by omega)]
  congr 2
  omega

variable {V : Volk K} {taps : List K}

/-- At a single input the windows must not notice a reversal of the taps. -/
theorem shiftedConvolution_iff_window (hV : V.Exact) (htaps : taps ≠ [])
    (input output : SignalV K) :
    ShiftedConvolution V taps input output ↔
      ∀ i, i + taps.length ≤ input.size →
        window (fun j => countedTap taps j - reversed taps j) taps.length
          input.data i = 0 := by
  have hlen : 0 < taps.length := List.length_pos_iff.mpr htaps
  have hone : ∀ i, i + taps.length ≤ input.size →
      (((Operands.separate input output).applyCirLoops V taps input.size
          .firCentered).output.data (i + (taps.length - 1) / 2) =
        causal taps input.data (i + (taps.length - 1)) ↔
      window (fun j => countedTap taps j - reversed taps j) taps.length
        input.data i = 0) := by
    intro i hi
    rw [data_applyCirLoops hV htaps input output hi,
      ← window_reversed taps htaps, window_sub, sub_eq_zero]
  constructor
  · intro h i hi
    have hshift := h (i + (taps.length - 1) / 2) (by omega) (by omega)
    rw [← hone i hi, hshift]
    congr 1
    omega
  · intro h i hdelay hi
    obtain ⟨k, rfl⟩ := Nat.exists_eq_add_of_le' hdelay
    have hk : k + taps.length ≤ input.size := by omega
    rw [(hone k hk).mpr (h k hk)]
    congr 1
    omega

/-- `FIR_CENTERED` is a shifted convolution of the inputs of a given length
exactly if none of them holds a whole window or the taps read the same from both
ends. -/
theorem shiftedConvolution_iff (hV : V.Exact) (htaps : taps ≠ []) :
    (∀ input output, ShiftedConvolution V taps input output ↔
      ∀ i, i + taps.length ≤ input.size →
        window (fun j => countedTap taps j - reversed taps j) taps.length
          input.data i = 0) ∧
    ∀ size, (∀ input output, input.size = size →
        ShiftedConvolution V taps input output) ↔
      size < taps.length ∨ Palindromic taps := by
  refine ⟨shiftedConvolution_iff_window hV htaps, ?_⟩
  intro size
  constructor
  · intro h
    by_cases hsize : size < taps.length
    · exact .inl hsize
    · right
      intro j hj
      -- One sample at `j` makes the first window read the tap at `j`.
      have hinput := (shiftedConvolution_iff_window hV htaps _ _).mp
        (h ⟨size, fun k => if k = 0 + j then 1 else 0⟩ ⟨size, fun _ => 0⟩ rfl)
        0 (by rw [Nat.zero_add]; exact Nat.le_of_not_lt hsize)
      rw [window_single _ hj] at hinput
      exact sub_eq_zero.mp hinput
  · intro h input output hsize
    rw [shiftedConvolution_iff_window hV htaps]
    intro i hi
    obtain hshort | hpalindromic := h
    · omega
    · apply Finset.sum_eq_zero
      intro j hj
      have hzero : countedTap taps j - reversed taps j = 0 :=
        sub_eq_zero.mpr (hpalindromic j (Finset.mem_range.mp hj))
      simp only [hzero, mul_zero]

end Filter

/-- Taps that read the same from both ends. -/
theorem shiftedConvolution_palindrome :
    ShiftedConvolution intVolk [2, 3, 2] ⟨3, fun i => i + 1⟩ ⟨3, fun _ => 0⟩ :=
  ((shiftedConvolution_iff exact_intVolk (by decide)).2 3).mpr
    (.inr ((palindromic_iff (by decide)).mpr rfl)) _ _ rfl

/-- A single sample through three different taps: the first one comes out where
the last one should. -/
theorem not_shiftedConvolution_asymmetric :
    ¬ShiftedConvolution intVolk [1, 2, 3] ⟨3, fun i => if i = 0 then 1 else 0⟩
      ⟨3, fun _ => 0⟩ := by
  intro h
  have hmiddle := h 1 (by decide) (by decide)
  exact absurd hmiddle (by decide)

end Dsp
end Chem
