import ChemEmulator.Dsp.CentredFilter
import Mathlib.Algebra.Algebra.Defs

/-!
# The two overloads of the filter

`src/chem/dsp/signal.cpp`, `fir_filter` with float taps, loop by loop, beside
the overload with complex taps.  The float overload cuts the signal to `size`
samples, continues it by the last of them and writes `size` results.  The other
one copies `size` samples too, but continues the whole vector and writes a
result for every element of it: the elements from `size` on have become zeros.

The overloads agree on signals of a given length exactly if `size` is that
length.
-/

namespace Chem
namespace Dsp

open Convolution

variable {R K : Type}

/-! ## Float taps -/

/-- `volk_32fc_32f_dot_prod_32fc`. -/
abbrev FloatDotProd (R K : Type) := (ℕ → K) → (ℕ → R) → ℕ → K

/-- Sums of products without rounding. -/
def FloatDotProd.Exact [AddCommMonoid K] [SMul R K] (D : FloatDotProd R K) :
    Prop :=
  ∀ x y n, D x y n = ∑ i ∈ Finset.range n, y i • x i

/-- `fir_filter` with float taps. -/
def Operands.firFilterFloat [Zero R] [Zero K] (D : FloatDotProd R K)
    (o : Operands K) (coeffs : List R) (size : ℕ) : Operands K :=
  let coeffLen := coeffs.length
  if coeffLen = 0 ∨ size = 0 then o
  else
    let delay := (coeffLen - 1) / 2
    let right := coeffLen - 1 - delay
    let extendedSignal := extendedSignal ⟨size, o.input.data⟩ delay right size
    let paddedCoeffs := paddedCoeffs coeffs
    (List.range size).foldl (fun o i => o.write (·.set i
      (D (fun j => extendedSignal.data (i + j)) paddedCoeffs.data
        (numPoints coeffLen)))) o

section Overloads

variable [CommRing R] [CommRing K] [Algebra R K]

/-- The taps as complex numbers. -/
def embedded (K : Type) [CommRing K] [Algebra R K] (taps : List R) : List K :=
  taps.map (algebraMap R K)

@[simp] theorem length_embedded (taps : List R) :
    (embedded K taps).length = taps.length := List.length_map ..

theorem embedded_ne_nil {taps : List R} (htaps : taps ≠ []) :
    embedded K taps ≠ [] := by
  rwa [embedded, ne_eq, List.map_eq_nil_iff]

theorem getD_embedded (taps : List R) (j : ℕ) :
    (embedded K taps).getD j 0 = algebraMap R K (taps.getD j 0) := by
  rw [embedded, ← map_zero (algebraMap R K), List.getD_map]

/-- A float tap weighs a sample as its embedding does. -/
theorem floatDotProd_eq_window {D : FloatDotProd R K} (hD : D.Exact)
    (taps : List R) (signal : ℕ → K) (i : ℕ) :
    D (fun j => signal (i + j)) (paddedCoeffs taps).data
        (numPoints taps.length) =
      window (countedTap (embedded K taps)) taps.length signal i := by
  have hsum := sum_counted_eq_window (embedded K taps) signal i
  rw [length_embedded] at hsum
  rw [hD, ← hsum]
  apply Finset.sum_congr rfl
  intro j _
  rw [getD_embedded, mul_comm, ← Algebra.smul_def]
  rfl

namespace Operands

/-- The loops with float taps compute one window for each of the samples that
count. -/
theorem firFilterFloat_eq_write {D : FloatDotProd R K} (hD : D.Exact)
    (o : Operands K) {taps : List R} (htaps : taps ≠ []) {size : ℕ}
    (hsize : size ≠ 0) :
    o.firFilterFloat D taps size =
      o.write (·.fill size (window (countedTap (embedded K taps)) taps.length
        (extendedSignal ⟨size, o.input.data⟩ ((taps.length - 1) / 2)
          (taps.length - 1 - (taps.length - 1) / 2) size).data)) := by
  have hlen : taps.length ≠ 0 := fun h => htaps (List.length_eq_zero_iff.mp h)
  rw [firFilterFloat]
  dsimp only
  rw [if_neg (not_or_intro hlen hsize), foldl_write_set]
  simp only [floatDotProd_eq_window hD]

/-- As long as the count fits, the loops compute what the kernel computes at
once. -/
theorem firFilterFloat_eq {D : FloatDotProd R K} (hD : D.Exact)
    (o : Operands K) {taps : List R} (hfits : taps.length < 2 ^ 32)
    (size : ℕ) :
    o.firFilterFloat D taps size =
      o.write fun v => Dsp.firFilter o.input taps v size := by
  by_cases hnone : taps = [] ∨ size = 0
  · have hloop : taps.length = 0 ∨ size = 0 := by
      rwa [List.length_eq_zero_iff]
    have hkernel : taps.isEmpty = true ∨ size = 0 := by
      rwa [List.isEmpty_iff]
    simp only [firFilterFloat, if_pos hloop, Dsp.firFilter, if_pos hkernel]
    exact o.write_self.symm
  · obtain ⟨htaps, hsize⟩ := not_or.mp hnone
    have hkernel : ¬(taps.isEmpty = true ∨ size = 0) := by
      rwa [List.isEmpty_iff]
    rw [firFilterFloat_eq_write hD o htaps hsize]
    simp only [Dsp.firFilter, if_neg hkernel]
    congr 1
    funext v
    apply RawVector.fill_congr
    intro i hi
    rw [sum_mapIdx _ _ 0, window]
    apply Finset.sum_congr rfl
    intro j hj
    have hj := Finset.mem_range.mp hj
    rw [countedTap_of_lt (by rwa [length_embedded]), getD_embedded,
      data_extendedSignal, Algebra.smul_def, mul_comm]
    congr 1
    dsimp only
    split_ifs <;> first | rfl | omega

end Operands

/-! ## Agreement -/

/-- Both overloads write the same values to the first `size` elements, and
nothing else. -/
structure FiltersAgree (V : Volk K) (D : FloatDotProd R K) (taps : List R)
    (o : Operands K) (size : ℕ) : Prop where
  values : ∀ i, i < size →
    (o.firFilter V (embedded K taps) size).output.data i =
      (o.firFilterFloat D taps size).output.data i
  complexTaps : ∀ i, size ≤ i →
    (o.firFilter V (embedded K taps) size).output.data i = o.output.data i
  floatTaps : ∀ i, size ≤ i →
    (o.firFilterFloat D taps size).output.data i = o.output.data i

/-- The signal as the windows with complex taps see it. -/
def continued (signal : SignalV K) (delay size m : ℕ) : K :=
  if m < delay then signal.data 0
  else if m < delay + size then signal.data (m - delay)
  else if m < delay + signal.size then 0
  else signal.data (signal.size - 1)

/-- What the windows with complex taps see more than the ones with float
taps. -/
def paddingGap (signal : SignalV K) (delay size m : ℕ) : K :=
  if m < delay + size then 0
  else if m < delay + signal.size then -signal.data (size - 1)
  else signal.data (signal.size - 1) - signal.data (size - 1)

/-- The taps weigh the difference of the paddings to zero, and the elements
from `size` on have been written before. -/
structure PaddingUnnoticed (taps : List K) (o : Operands K) (size : ℕ) :
    Prop where
  front : ∀ i, i < size →
    window (countedTap taps) taps.length
      (paddingGap o.input ((taps.length - 1) / 2) size) i = 0
  behind : ∀ i, size ≤ i → i < o.input.size →
    window (countedTap taps) taps.length
      (continued o.input ((taps.length - 1) / 2) size) i = o.output.data i

theorem continued_eq (signal : SignalV K) {delay right size m : ℕ}
    (hm : m < delay + signal.size + right) (hsize : size ≤ signal.size) :
    (extendedSignal signal delay right size).data m =
      continued signal delay size m := by
  rw [data_extendedSignal, continued]
  split_ifs <;> first | rfl | omega

theorem paddingGap_eq (signal : SignalV K) {delay right size m : ℕ}
    (hm : m < delay + size + right) (hsize : size ≤ signal.size) :
    (extendedSignal signal delay right size).data m -
        (extendedSignal ⟨size, signal.data⟩ delay right size).data m =
      paddingGap signal delay size m := by
  have hm' : m < delay + signal.size + right := by omega
  rw [continued_eq signal hm' hsize, continued_eq _ hm le_rfl, paddingGap]
  unfold continued
  dsimp only
  split_ifs <;> first | exact sub_self _ | exact zero_sub _ | rfl | omega

section Equivalence

variable {V : Volk K} {D : FloatDotProd R K} {taps : List R} {size : ℕ}

/-- What the filter with complex taps leaves behind. -/
theorem data_firFilter (hV : V.Exact) (htaps : taps ≠ []) (o : Operands K)
    (hsize : 0 < size) (hle : size ≤ o.input.size) (i : ℕ) :
    (o.firFilter V (embedded K taps) size).output.data i =
      if i < o.input.size then
        window (countedTap (embedded K taps)) taps.length
          (continued o.input ((taps.length - 1) / 2) size) i
      else o.output.data i := by
  have hinput : o.input.size ≠ 0 := by omega
  rw [Operands.firFilter_eq_write hV o (embedded_ne_nil htaps) hinput,
    Operands.output_write, length_embedded]
  by_cases hi : i < o.input.size
  · rw [if_pos hi, RawVector.data_fill_of_lt _ hi]
    apply window_congr
    intro j hj
    exact continued_eq o.input (by omega) hle
  · rw [if_neg hi, RawVector.data_fill_of_le _ (Nat.le_of_not_lt hi)]

/-- What the filter with float taps leaves behind. -/
theorem data_firFilterFloat (hD : D.Exact) (htaps : taps ≠ [])
    (o : Operands K) (hsize : 0 < size) (i : ℕ) :
    (o.firFilterFloat D taps size).output.data i =
      if i < size then
        window (countedTap (embedded K taps)) taps.length
          (extendedSignal ⟨size, o.input.data⟩ ((taps.length - 1) / 2)
            (taps.length - 1 - (taps.length - 1) / 2) size).data i
      else o.output.data i := by
  rw [Operands.firFilterFloat_eq_write hD o htaps (Nat.ne_of_gt hsize),
    Operands.output_write]
  rfl

/-- The results differ by the window over the difference of the paddings. -/
theorem data_firFilter_sub (hV : V.Exact) (hD : D.Exact) (htaps : taps ≠ [])
    (o : Operands K) (hle : size ≤ o.input.size) {i : ℕ} (hi : i < size) :
    (o.firFilter V (embedded K taps) size).output.data i -
        (o.firFilterFloat D taps size).output.data i =
      window (countedTap (embedded K taps)) taps.length
        (paddingGap o.input ((taps.length - 1) / 2) size) i := by
  have hsize : 0 < size := by omega
  have hlen : 0 < taps.length := List.length_pos_iff.mpr htaps
  have hin : i < o.input.size := by omega
  rw [data_firFilter hV htaps o hsize hle, if_pos hin,
    data_firFilterFloat hD htaps o hsize, if_pos hi, ← window_signal_sub]
  apply window_congr
  intro j hj
  have hm : i + j < (taps.length - 1) / 2 + size +
      (taps.length - 1 - (taps.length - 1) / 2) := by omega
  rw [← paddingGap_eq o.input hm hle, continued_eq o.input (by omega) hle]

theorem filtersAgree_iff_unnoticed (hV : V.Exact) (hD : D.Exact)
    (htaps : taps ≠ []) (o : Operands K) (hsize : 0 < size)
    (hle : size ≤ o.input.size) :
    FiltersAgree V D taps o size ↔
      PaddingUnnoticed (embedded K taps) o size := by
  constructor
  · intro h
    constructor
    · intro i hi
      rw [length_embedded, ← data_firFilter_sub hV hD htaps o hle hi,
        h.values i hi, sub_self]
    · intro i hi hin
      rw [← h.complexTaps i hi, data_firFilter hV htaps o hsize hle,
        if_pos hin, length_embedded]
  · intro h
    constructor
    · intro i hi
      have hfront := h.front i hi
      rw [length_embedded, ← data_firFilter_sub hV hD htaps o hle hi]
        at hfront
      exact sub_eq_zero.mp hfront
    · intro i hi
      rw [data_firFilter hV htaps o hsize hle]
      by_cases hin : i < o.input.size
      · have hbehind := h.behind i hi hin
        rw [length_embedded] at hbehind
        rw [if_pos hin, hbehind]
      · rw [if_neg hin]
    · intro i hi
      rw [data_firFilterFloat hD htaps o hsize,
        if_neg (Nat.not_lt_of_le hi)]

/-- A vector that counts as a whole is padded in one way. -/
theorem paddingUnnoticed_whole (taps : List K) (o : Operands K) :
    PaddingUnnoticed taps o o.input.size where
  front i _ := by
    have hgap : paddingGap o.input ((taps.length - 1) / 2) o.input.size =
        fun _ => 0 := by
      funext m
      unfold paddingGap
      split_ifs
      · rfl
      · exact sub_self _
    rw [hgap]
    apply Finset.sum_eq_zero
    intro j _
    exact zero_mul _
  behind i hi hin := absurd hin (Nat.not_lt_of_le hi)

/-- The overloads agree on an input exactly if the taps do not notice the
difference of the paddings, and on the inputs of a given length exactly if all
of it counts. -/
theorem filtersAgree_iff [Nontrivial K] (hV : V.Exact) (hD : D.Exact)
    (htaps : taps ≠ []) :
    (∀ (o : Operands K) size, 0 < size → size ≤ o.input.size →
      o.input.size ≤ o.output.size →
      (FiltersAgree V D taps o size ↔
        PaddingUnnoticed (embedded K taps) o size)) ∧
    ∀ n size, 0 < size → size ≤ n →
      ((∀ o : Operands K, o.input.size = n → n ≤ o.output.size →
        FiltersAgree V D taps o size) ↔ size = n) := by
  refine ⟨fun o size hsize hle _ =>
    filtersAgree_iff_unnoticed hV hD htaps o hsize hle, ?_⟩
  intro n size hsize hle
  constructor
  · intro h
    by_contra hne
    -- Silence is filtered to zeros, also where a one has to stay.
    have hsilence := h (.separate ⟨n, fun _ => 0⟩ ⟨n, fun _ => 1⟩) rfl le_rfl
    have hbehind := ((filtersAgree_iff_unnoticed hV hD htaps
      (.separate ⟨n, fun _ => 0⟩ ⟨n, fun _ => 1⟩) hsize hle).mp
        hsilence).behind size le_rfl (Nat.lt_of_le_of_ne hle hne)
    have hzero : ∀ delay, continued (⟨n, fun _ => 0⟩ : SignalV K) delay size =
        fun _ => 0 := by
      intro delay
      funext m
      unfold continued
      dsimp only
      simp only [ite_self]
    change window _ _ (continued ⟨n, fun _ => 0⟩ _ size) size = 1 at hbehind
    rw [hzero, window, Finset.sum_eq_zero fun j _ => zero_mul _] at hbehind
    exact zero_ne_one hbehind
  · rintro rfl o rfl _
    exact (filtersAgree_iff_unnoticed hV hD htaps o hsize le_rfl).mpr
      (paddingUnnoticed_whole (embedded K taps) o)

end Equivalence

end Overloads

/-- Exact products of integers. -/
def intDotProd : FloatDotProd ℤ ℤ :=
  fun x y n => ∑ i ∈ Finset.range n, y i • x i

theorem exact_intDotProd : intDotProd.Exact := fun _ _ _ => rfl

/-- Two taps over three samples, all of which count. -/
theorem filtersAgree_whole :
    FiltersAgree intVolk intDotProd [2, 3]
      (.separate ⟨3, fun i => i + 1⟩ ⟨3, fun _ => 7⟩) 3 :=
  ((filtersAgree_iff exact_intVolk exact_intDotProd (by decide)).2 3 3
    (by decide) le_rfl).mpr rfl _ rfl le_rfl

/-- Two samples, of which one is to be filtered. -/
def oneOfTwo : Operands ℤ := .separate ⟨2, fun _ => 1⟩ ⟨2, fun _ => 5⟩

/-- The complex overload overwrites the second element, and two taps give
another value for the first one. -/
theorem not_filtersAgree_oneOfTwo :
    ¬FiltersAgree intVolk intDotProd [1] oneOfTwo 1 ∧
      ¬FiltersAgree intVolk intDotProd [1, 1] oneOfTwo 1 := by
  constructor
  · intro h
    exact absurd (h.complexTaps 1 le_rfl) (by decide)
  · intro h
    exact absurd (h.values 0 (by decide)) (by decide)

end Dsp
end Chem
