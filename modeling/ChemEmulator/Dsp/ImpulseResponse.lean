import ChemEmulator.Dsp.Kernels
import ChemEmulator.Support.Convolution

/-!
# Impulse responses

`src/chem/dsp/channel.cpp`, `apply_cir` and the two methods of causal
convolution, loop by loop.  Input and output are references and may be the same
vector.

`apply_cir_fir_causal` reverses the taps, puts zeros in front of the signal and
takes one dot product for each sample; one tap is a multiplication of the whole
vector.  `apply_cir_direct_conv` is a double loop.  Both compute the causal
convolution, the second one only into a vector of its own, since it reads
samples that it has overwritten otherwise.

The kernels of VOLK are parameters.  They take a 32-bit count.
-/

namespace Chem
namespace Dsp

open Convolution

variable {K : Type}

/-! ## References -/

/-- The vectors behind `input` and `output`. -/
inductive Operands (K : Type) where
  | separate (input output : SignalV K)
  | inPlace (signal : SignalV K)

namespace Operands

def input : Operands K → SignalV K
  | separate input _ => input
  | inPlace signal => signal

def output : Operands K → SignalV K
  | separate _ output => output
  | inPlace signal => signal

/-- A change of the vector behind `output`. -/
def write (o : Operands K) (f : SignalV K → SignalV K) : Operands K :=
  match o with
  | separate input output => separate input (f output)
  | inPlace signal => inPlace (f signal)

/-- `std::copy_n`, left out where both are one vector. -/
def copyInput (o : Operands K) (n : ℕ) : Operands K :=
  match o with
  | separate input output => separate input (output.fill n input.data)
  | inPlace signal => inPlace signal

@[simp] theorem output_write (f : SignalV K → SignalV K) :
    ∀ o : Operands K, (o.write f).output = f o.output
  | separate _ _ => rfl
  | inPlace _ => rfl

theorem write_write (f g : SignalV K → SignalV K) :
    ∀ o : Operands K, (o.write f).write g = o.write fun v => g (f v)
  | separate _ _ => rfl
  | inPlace _ => rfl

@[simp] theorem write_self : ∀ o : Operands K, (o.write fun v => v) = o
  | separate _ _ => rfl
  | inPlace _ => rfl

theorem copyInput_eq_write (n : ℕ) :
    ∀ o : Operands K, o.copyInput n = o.write (·.fill n o.input.data)
  | separate _ _ => rfl
  | inPlace signal => congrArg inPlace (signal.fill_data n).symm

/-- Growing the output to no more than the size of the input does not change
the input, even if it is the same vector. -/
theorem input_write_grow {n : ℕ} (a : K) : ∀ o : Operands K,
    n ≤ o.input.size → (o.write (·.grow n a)).input = o.input
  | separate _ _, _ => rfl
  | inPlace signal, hn => signal.grow_of_le hn a

/-- A loop whose values do not depend on what it has written. -/
theorem foldl_write_set (o : Operands K) (n : ℕ) (f : ℕ → K) :
    (List.range n).foldl (fun o i => o.write (·.set i (f i))) o =
      o.write (·.fill n f) := by
  induction n with
  | zero => exact o.write_self.symm
  | succ n ih =>
      rw [List.range_succ, List.foldl_append, ih]
      change (o.write _).write _ = _
      rw [write_write]
      congr 1
      funext v
      exact v.set_fill n f

/-- With an output of its own, the values may depend on the input. -/
theorem foldl_write_separate (input : SignalV K) (g : SignalV K → ℕ → K)
    (is : List ℕ) (v : SignalV K) :
    is.foldl (fun o i => o.write (·.set i (g o.input i))) (separate input v) =
      separate input (is.foldl (fun v i => v.set i (g input i)) v) := by
  induction is generalizing v with
  | nil => rfl
  | cons i is ih => exact ih (v.set i (g input i))

end Operands

/-! ## The kernels of VOLK -/

structure Volk (K : Type) where
  /-- `volk_32fc_s32fc_multiply_32fc`: the vectors behind its pointers, the
  factor and the number of points. -/
  multiply : Operands K → K → ℕ → Operands K
  /-- `volk_32fc_x2_dot_prod_32fc`. -/
  dotProd : (ℕ → K) → (ℕ → K) → ℕ → K

/-- Products and sums of products without rounding. -/
structure Volk.Exact [CommRing K] (V : Volk K) : Prop where
  multiply : ∀ o s n, V.multiply o s n =
    o.write (·.fill n fun i => o.input.data i * s)
  dotProd : ∀ x y n, V.dotProd x y n = ∑ i ∈ Finset.range n, x i * y i

/-- `static_cast<unsigned int>` of a size. -/
def numPoints (n : ℕ) : ℕ := n % 2 ^ 32

/-! ## The two methods -/

section Methods

variable [CommRing K]

/-- `rev_taps`. -/
def revTaps (taps : List K) : SignalV K :=
  (RawVector.replicate taps.length 0).fill taps.length fun j =>
    taps.getD (taps.length - 1 - j) 0

/-- `extended`: `pad` zeros and the first `size` samples. -/
def extended (input : SignalV K) (pad size : ℕ) : SignalV K where
  size := size + pad
  data i := if pad ≤ i ∧ i < pad + size then input.data (i - pad) else 0

namespace Operands

/-- `apply_cir_fir_causal`. -/
def applyCirFirCausal (V : Volk K) (o : Operands K) (taps : List K)
    (size : ℕ) : Operands K :=
  if size = 0 then o
  else if taps.isEmpty then o.copyInput size
  else
    let inSize := min size o.input.size
    let o := o.write (·.grow inSize 0)
    let tapLen := taps.length
    if tapLen = 1 then V.multiply o (taps.getD 0 0) (numPoints inSize)
    else
      let revTaps := revTaps taps
      let extended := extended o.input (tapLen - 1) inSize
      (List.range inSize).foldl (fun o i => o.write (·.set i
        (V.dotProd (fun j => extended.data (i + j)) revTaps.data
          (numPoints tapLen)))) o

/-- `acc` after the inner loop of `apply_cir_direct_conv`. -/
def accumulate (taps : List K) (input : SignalV K) (n : ℕ) : K :=
  (List.range (min n (taps.length - 1) + 1)).foldl
    (fun acc k => acc + taps.getD k 0 * input.data (n - k)) 0

/-- `apply_cir_direct_conv`. -/
def applyCirDirectConv (o : Operands K) (taps : List K) (size : ℕ) :
    Operands K :=
  if size = 0 then o
  else
    let inSize := min size o.input.size
    let o := o.write (·.grow inSize 0)
    if taps.isEmpty then o.copyInput inSize
    else (List.range inSize).foldl (fun o n => o.write (·.set n
      (accumulate taps o.input n))) o

/-- `apply_cir`. -/
def applyCir (V : Volk K) (o : Operands K) (taps : List K) (size : ℕ)
    (method : CIRApplyMethod) : Operands K :=
  if size = 0 then o
  else
    let inSize := min size o.input.size
    match method with
    | .none =>
        match o with
        | separate input output =>
            (separate input (output.grow inSize 0)).copyInput inSize
        | inPlace signal => inPlace signal
    | .firCentered => o.write fun output =>
        firFilterTaps o.input taps output inSize
    | .directConv => o.applyCirDirectConv taps size
    | .firCausal => o.applyCirFirCausal V taps size

end Operands

/-- The number of points in a call to VOLK fits into its count: one call over
all samples for one tap, one call over all taps for each sample otherwise. -/
def CountFits (taps : List K) (size : ℕ) : Prop :=
  (if taps.length = 1 then size else taps.length) < 2 ^ 32

/-! ## The convolution -/

section Kernels

variable {input output : SignalV K} {taps : List K} {size : ℕ}

theorem applyCirFirCausal_eq (htaps : taps ≠ []) :
    Dsp.applyCirFirCausal input output taps size =
      (output.grow (min size input.size) 0).fill (min size input.size)
        (causal taps input.data) := by
  have hwindow : ∀ n, (taps.reverse.mapIdx fun j c =>
      (if n + j < taps.length - 1 then 0
        else input.data (n + j - (taps.length - 1))) * c).sum =
        causal taps input.data n := by
    intro n
    rw [sum_mapIdx _ _ 0, List.length_reverse, ← causal_eq_window taps htaps
      fun i => if i < taps.length - 1 then 0
        else input.data (i - (taps.length - 1))]
    · apply Finset.sum_congr rfl
      intro j hj
      rw [List.getD_reverse j (Finset.mem_range.mp hj)]
    · intro i hi
      exact if_pos hi
    · intro i _
      rw [if_neg (by omega), Nat.add_sub_cancel_left]
  unfold Dsp.applyCirFirCausal
  match taps, htaps with
  | [tap], _ =>
      apply RawVector.fill_congr
      intro i _
      exact (causal_singleton tap input.data i).symm
  | tap :: tap' :: taps, _ =>
      apply RawVector.fill_congr
      intro i _
      exact hwindow i

theorem applyCirDirectConv_eq (htaps : taps ≠ []) :
    Dsp.applyCirDirectConv input output taps size =
      (output.grow (min size input.size) 0).fill (min size input.size)
        (causal taps input.data) := by
  unfold Dsp.applyCirDirectConv
  have hne : taps.isEmpty = false := List.isEmpty_eq_false_iff.mpr htaps
  have hlen : 0 < taps.length := List.length_pos_iff.mpr htaps
  apply RawVector.fill_congr
  intro n _
  rw [hne, if_neg Bool.false_ne_true, sum_mapIdx _ _ 0, List.length_take,
    show min (n + 1) taps.length = min n (taps.length - 1) + 1 by omega]
  apply Finset.sum_congr rfl
  intro k hk
  rw [Finset.mem_range] at hk
  rw [List.getD_eq_getElem?_getD, List.getElem?_take_of_lt (by omega),
    ← List.getD_eq_getElem?_getD]

end Kernels

theorem data_extended_of_lt (input : SignalV K) {pad size i : ℕ}
    (hi : i < pad) : (extended input pad size).data i = 0 :=
  if_neg fun hin => Nat.not_lt_of_le hin.1 hi

theorem data_extended_add (input : SignalV K) {pad size i : ℕ}
    (hi : i < size) :
    (extended input pad size).data (pad + i) = input.data i := by
  have hin : pad ≤ pad + i ∧ pad + i < pad + size := by omega
  unfold extended
  dsimp only
  rw [if_pos hin, Nat.add_sub_cancel_left]

section Volk

variable {V : Volk K} {taps : List K} {size : ℕ}

/-- One step of the loop of `apply_cir_fir_causal`. -/
theorem dotProd_window (hV : V.Exact) (input : SignalV K) (htaps : taps ≠ [])
    (hfits : taps.length < 2 ^ 32) {i : ℕ} (hi : i < size) :
    V.dotProd
        (fun j => (extended input (taps.length - 1) size).data (i + j))
        (revTaps taps).data (numPoints taps.length) =
      causal taps input.data i := by
  rw [hV.dotProd, numPoints, Nat.mod_eq_of_lt hfits, ← causal_eq_window taps
    htaps (extended input (taps.length - 1) size).data]
  · apply Finset.sum_congr rfl
    intro j hj
    rw [revTaps, RawVector.data_fill_of_lt _ (Finset.mem_range.mp hj)]
  · intro j hj
    exact data_extended_of_lt input hj
  · intro j hj
    exact data_extended_add input (Nat.lt_of_le_of_lt hj hi)

namespace Operands

/-- The loops of `apply_cir_fir_causal` compute what the kernel computes at
once. -/
theorem applyCirFirCausal_eq_write (hV : V.Exact) (o : Operands K)
    (hfits : CountFits taps (min size o.input.size)) (hsize : size ≠ 0) :
    o.applyCirFirCausal V taps size =
      o.write fun v => Dsp.applyCirFirCausal o.input v taps size := by
  have hgrow := input_write_grow (0 : K) o (Nat.min_le_right size o.input.size)
  unfold applyCirFirCausal
  rw [if_neg hsize]
  by_cases htaps : taps = []
  · rw [htaps]
    exact copyInput_eq_write size o
  · have hne : taps.isEmpty = false := List.isEmpty_eq_false_iff.mpr htaps
    have hkernel : ∀ v, Dsp.applyCirFirCausal o.input v taps size =
        (v.grow (min size o.input.size) 0).fill (min size o.input.size)
          (causal taps o.input.data) :=
      fun v => Dsp.applyCirFirCausal_eq htaps
    simp only [hne, Bool.false_eq_true, if_false, hgrow, hkernel]
    unfold CountFits at hfits
    by_cases hone : taps.length = 1
    · obtain ⟨tap, rfl⟩ := List.length_eq_one_iff.mp hone
      rw [if_pos hone] at hfits ⊢
      rw [hV.multiply, hgrow, write_write, numPoints, Nat.mod_eq_of_lt hfits]
      congr 1
      funext v
      apply RawVector.fill_congr
      intro i _
      rw [causal_singleton, mul_comm]
      rfl
    · rw [if_neg hone] at hfits ⊢
      rw [foldl_write_set, write_write]
      congr 1
      funext v
      apply RawVector.fill_congr
      intro i hi
      exact dotProd_window hV o.input htaps hfits hi

/-- The double loop, with an output of its own. -/
theorem applyCirDirectConv_separate (input output : SignalV K)
    (hsize : size ≠ 0) :
    (separate input output).applyCirDirectConv taps size =
      separate input (Dsp.applyCirDirectConv input output taps size) := by
  unfold applyCirDirectConv
  rw [if_neg hsize]
  by_cases htaps : taps = []
  · rw [htaps]
    rfl
  · have hne : taps.isEmpty = false := List.isEmpty_eq_false_iff.mpr htaps
    simp only [hne, Bool.false_eq_true, if_false]
    refine (foldl_write_separate input (accumulate taps) _ _).trans ?_
    rw [RawVector.foldl_set_range, Dsp.applyCirDirectConv_eq htaps]
    congr 1
    apply RawVector.fill_congr
    intro n _
    exact foldl_range_add _ _

/-- `apply_cir` with these loops is `apply_cir` as `processChannel` uses it. -/
theorem applyCir_eq_write (hV : V.Exact) (o : Operands K)
    (method : CIRApplyMethod)
    (hfits : method = .firCausal → CountFits taps (min size o.input.size))
    (hdirect : method = .directConv → ∃ input output,
      o = separate input output) :
    o.applyCir V taps size method =
      o.write fun v => Dsp.applyCir o.input v taps size method := by
  unfold applyCir Dsp.applyCir
  by_cases hsize : size = 0
  · simp only [hsize, if_true]
    exact o.write_self.symm
  · simp only [hsize, if_false]
    cases method with
    | none =>
        cases o with
        | separate _ _ => rfl
        | inPlace signal =>
            have hgrow := signal.grow_of_le (Nat.min_le_right size signal.size)
              (0 : K)
            change inPlace signal = inPlace ((signal.grow _ 0).fill _ _)
            rw [input, hgrow, RawVector.fill_data]
    | firCentered => rfl
    | directConv =>
        obtain ⟨input, output, rfl⟩ := hdirect rfl
        exact applyCirDirectConv_separate input output hsize
    | firCausal => exact applyCirFirCausal_eq_write hV o (hfits rfl) hsize

/-- The first `size` samples behind `output` are the convolution of a signal
with the taps. -/
def Holds (o : Operands K) (taps : List K) (signal : ℕ → K) (size : ℕ) : Prop :=
  size ≤ o.output.size ∧ ∀ n, n < size → o.output.data n = causal taps signal n

theorem holds_fill (o : Operands K) (taps : List K) (signal : ℕ → K)
    (size : ℕ) :
    (o.write fun v => (v.grow size 0).fill size (causal taps signal)).Holds
      taps signal size := by
  unfold Holds
  rw [output_write]
  refine ⟨Nat.le_max_right _ _, ?_⟩
  intro n hn
  exact RawVector.data_fill_of_lt _ hn _

/-- Both methods compute the causal convolution: `FIR_CAUSAL` into a vector of
its own or into the input, as long as VOLK is called with the right count,
`DIRECT_CONV` into a vector of its own. -/
theorem applyCir_holds (hV : V.Exact) (htaps : taps ≠ []) :
    (∀ o : Operands K, size ≤ o.input.size → CountFits taps size →
      (o.applyCir V taps size .firCausal).Holds taps o.input.data size) ∧
    ∀ input output : SignalV K, size ≤ input.size →
      ((separate input output).applyCir V taps size .directConv).Holds
        taps input.data size := by
  by_cases hsize : size = 0
  · subst hsize
    have hnone : ∀ (o : Operands K) (signal : ℕ → K), o.Holds taps signal 0 :=
      fun o signal => ⟨Nat.zero_le _, fun n hn => absurd hn n.not_lt_zero⟩
    exact ⟨fun o _ _ => hnone _ _, fun input output _ => hnone _ _⟩
  · constructor
    · intro o hle hfits
      have hmin := Nat.min_eq_left hle
      rw [applyCir_eq_write hV o .firCausal (fun _ => by rwa [hmin])
        fun h => by cases h]
      have hkernel : ∀ v, Dsp.applyCir o.input v taps size .firCausal =
          (v.grow size 0).fill size (causal taps o.input.data) := by
        intro v
        rw [Dsp.applyCir, if_neg hsize, applyCirFirCausal_eq htaps, hmin]
      simp only [hkernel]
      exact holds_fill o taps o.input.data size
    · intro input output hle
      rw [applyCir, if_neg hsize]
      change ((separate input output).applyCirDirectConv taps size).Holds _ _ _
      rw [applyCirDirectConv_separate input output hsize,
        applyCirDirectConv_eq htaps, Nat.min_eq_left hle]
      exact holds_fill (separate input output) taps input.data size

end Operands

end Volk

end Methods

/-! ## Counts -/

/-- Kernels over the integers that compute what they are asked for. -/
def intVolk : Volk ℤ where
  multiply o s n := o.write (·.fill n fun i => o.input.data i * s)
  dotProd x y n := ∑ i ∈ Finset.range n, x i * y i

theorem exact_intVolk : intVolk.Exact := ⟨fun _ _ _ => rfl, fun _ _ _ => rfl⟩

/-- Two samples. -/
def twoSamples : SignalV ℤ := ⟨2, fun i => i + 1⟩

/-- Three taps over two samples, in place and through the double loop. -/
theorem applyCir_holds_twoSamples :
    ((Operands.inPlace twoSamples).applyCir intVolk [2, 3, 5] 2
      .firCausal).Holds [2, 3, 5] twoSamples.data 2 ∧
    ((Operands.separate twoSamples ⟨0, fun _ => 0⟩).applyCir intVolk
      [2, 3, 5] 2 .directConv).Holds [2, 3, 5] twoSamples.data 2 := by
  have hboth := @Operands.applyCir_holds ℤ _ intVolk [2, 3, 5] 2 exact_intVolk
    (by decide)
  exact ⟨hboth.1 (.inPlace twoSamples) le_rfl (by unfold CountFits; decide),
    hboth.2 twoSamples ⟨0, fun _ => 0⟩ le_rfl⟩

/-- In place the double loop reads what it has written. -/
example : ((Operands.inPlace twoSamples).applyCirDirectConv [2, 3]
    2).output.data 1 ≠ causal [2, 3] twoSamples.data 1 := by decide

/-- The vectors of the two calls below: ones, and zeros that are overwritten
where VOLK is told to. -/
def onesToZeros (size : ℕ) : Operands ℤ :=
  .separate ⟨size, fun _ => 1⟩ ⟨size, fun _ => 0⟩

theorem output_of_no_points {size : ℕ} {taps : List ℤ} (hsize : size ≠ 0)
    (htaps : taps ≠ [])
    (hnone : numPoints (if taps.length = 1 then size else taps.length) = 0) :
    ((onesToZeros size).applyCir intVolk taps size .firCausal).output.data 0 =
      0 := by
  have hne : taps.isEmpty = false := List.isEmpty_eq_false_iff.mpr htaps
  have hmin : min size (onesToZeros size).input.size = size := Nat.min_self size
  have hgrow : (RawVector.mk size fun _ => (0 : ℤ)).grow size 0 =
      ⟨size, fun _ => 0⟩ := RawVector.grow_of_le _ le_rfl 0
  rw [Operands.applyCir, if_neg hsize]
  dsimp only
  rw [Operands.applyCirFirCausal, if_neg hsize]
  simp only [hne, Bool.false_eq_true, if_false, hmin]
  by_cases hone : taps.length = 1
  · rw [if_pos hone] at hnone ⊢
    rw [hnone]
    exact congrArg (RawVector.data · 0) hgrow
  · rw [if_neg hone] at hnone ⊢
    rw [hnone, Operands.foldl_write_set, Operands.output_write,
      RawVector.data_fill_of_lt _ (Nat.pos_of_ne_zero hsize)]
    rfl

/-- With one tap and `2 ^ 32` samples, or with `2 ^ 32` taps, the count of the
calls to VOLK is zero. -/
theorem count_wraps :
    ¬((onesToZeros (2 ^ 32)).applyCir intVolk [1] (2 ^ 32) .firCausal).Holds
        [1] (fun _ => 1) (2 ^ 32) ∧
    ¬((onesToZeros 1).applyCir intVolk (List.replicate (2 ^ 32) 1) 1
        .firCausal).Holds (List.replicate (2 ^ 32) 1) (fun _ => 1) 1 := by
  constructor
  · intro hholds
    have hzero := hholds.2 0 (by decide)
    rw [output_of_no_points (by decide) (by decide) (by decide),
      causal_singleton] at hzero
    exact absurd hzero (by decide)
  · obtain ⟨n, hn⟩ : ∃ n, 2 ^ 32 = n + 1 := ⟨2 ^ 32 - 1, by norm_num⟩
    intro hholds
    have hzero := hholds.2 0 (by decide)
    have hlen : (List.replicate (n + 1) (1 : ℤ)).length = n + 1 :=
      List.length_replicate
    have hnone : numPoints (n + 1) = 0 := by
      rw [← hn]
      decide
    rw [hn, output_of_no_points (by decide)] at hzero
    · simp [causal, List.replicate_succ] at hzero
    · exact List.cons_ne_nil _ _
    · rw [hlen, if_neg (by omega)]
      exact hnone

end Dsp
end Chem
