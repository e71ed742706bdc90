import Mathlib.Algebra.BigOperators.Intervals
import Mathlib.Algebra.BigOperators.GroupWithZero.Action
import Mathlib.Algebra.BigOperators.Ring.Finset
import Mathlib.Data.List.GetD

/-!
# Causal convolution

A signal is a function of the sample index and has no samples before index `0`.
The taps form a list; what lies behind its end counts as zero.

A filter that starts anew at index `b` sees the samples from `b` on only.  What
it misses is the echo of the earlier ones, and the convolution of the whole
signal is the sum of the two.
-/

namespace Convolution

open Finset

variable {K : Type*}

/-! ## Sums over lists -/

section Sums

variable [AddCommMonoid K]

/-- A loop that accumulates. -/
theorem foldl_range_add (f : ℕ → K) (n : ℕ) :
    (List.range n).foldl (fun acc k => acc + f k) 0 = ∑ k ∈ range n, f k := by
  induction n with
  | zero => rfl
  | succ n ih =>
      rw [List.range_succ, List.foldl_append, ih, sum_range_succ]
      rfl

theorem sum_mapIdx {α : Type*} (f : ℕ → α → K) (l : List α) (d : α) :
    (l.mapIdx f).sum = ∑ k ∈ range l.length, f k (l.getD k d) := by
  induction l generalizing f with
  | nil => rfl
  | cons a l ih =>
      rw [List.mapIdx_cons, List.sum_cons, ih, List.length_cons,
        sum_range_succ', add_comm]
      rfl

end Sums

/-! ## The convolution -/

section Ring

variable [CommRing K] (taps : List K)

/-- The convolution of a signal with taps at index `n`. -/
def causal (signal : ℕ → K) (n : ℕ) : K :=
  ∑ k ∈ range (min n (taps.length - 1) + 1), taps.getD k 0 * signal (n - k)

/-- Taps behind the end of the list contribute nothing. -/
theorem causal_eq_sum (signal : ℕ → K) (n : ℕ) :
    causal taps signal n =
      ∑ k ∈ range (n + 1), taps.getD k 0 * signal (n - k) := by
  apply sum_subset
  · intro k hk
    rw [mem_range] at hk ⊢
    omega
  · intro k hk hnot
    rw [mem_range] at hk hnot
    rw [List.getD_eq_default taps 0 (by omega), zero_mul]

theorem causal_congr {signal signal' : ℕ → K} {n : ℕ}
    (h : ∀ i, i ≤ n → signal i = signal' i) :
    causal taps signal n = causal taps signal' n := by
  apply sum_congr rfl
  intro k _
  rw [h (n - k) (Nat.sub_le n k)]

theorem causal_smul {R : Type*} [DistribSMul R K] [SMulCommClass R K K] (c : R)
    (signal : ℕ → K) (n : ℕ) :
    causal taps (fun i => c • signal i) n = c • causal taps signal n := by
  unfold causal
  rw [smul_sum]
  apply sum_congr rfl
  intro k _
  exact mul_smul_comm c _ _

theorem causal_singleton (tap : K) (signal : ℕ → K) (n : ℕ) :
    causal [tap] signal n = tap * signal n := by
  simp [causal]

/-- The sliding window: reversed taps over the signal with zeros in front. -/
theorem causal_eq_window (htaps : taps ≠ []) (extended : ℕ → K)
    {signal : ℕ → K} {n : ℕ}
    (hpad : ∀ i, i < taps.length - 1 → extended i = 0)
    (hsignal : ∀ i, i ≤ n → extended (taps.length - 1 + i) = signal i) :
    ∑ j ∈ range taps.length,
        extended (n + j) * taps.getD (taps.length - 1 - j) 0 =
      causal taps signal n := by
  have hlen : 0 < taps.length := List.length_pos_iff.mpr htaps
  have hreflect := sum_range_reflect
    (fun k => extended (n + (taps.length - 1 - k)) * taps.getD k 0) taps.length
  have hwindow : ∑ j ∈ range taps.length,
        extended (n + j) * taps.getD (taps.length - 1 - j) 0 =
      ∑ k ∈ range taps.length,
        extended (n + (taps.length - 1 - k)) * taps.getD k 0 := by
    rw [← hreflect]
    apply sum_congr rfl
    intro j hj
    rw [mem_range] at hj
    rw [show taps.length - 1 - (taps.length - 1 - j) = j by omega]
  rw [hwindow]
  symm
  calc causal taps signal n
      = ∑ k ∈ range (min n (taps.length - 1) + 1),
          extended (n + (taps.length - 1 - k)) * taps.getD k 0 := by
        apply sum_congr rfl
        intro k hk
        rw [mem_range] at hk
        rw [← hsignal (n - k) (Nat.sub_le n k), mul_comm]
        congr 2
        omega
    _ = ∑ k ∈ range taps.length,
          extended (n + (taps.length - 1 - k)) * taps.getD k 0 := by
        apply sum_subset
        · intro k hk
          rw [mem_range] at hk ⊢
          omega
        · intro k hk hnot
          rw [mem_range] at hk hnot
          rw [hpad _ (by omega), zero_mul]

/-! ## Windows

The same products without a reversal, which is the correlation of the signal
with the coefficients. -/

/-- The `n` samples from index `i` on, weighted in their order. -/
def window (c : ℕ → K) (n : ℕ) (signal : ℕ → K) (i : ℕ) : K :=
  ∑ j ∈ range n, signal (i + j) * c j

/-- The coefficients of a window that convolves. -/
def reversed (j : ℕ) : K := taps.getD (taps.length - 1 - j) 0

theorem window_sub (c c' : ℕ → K) (n : ℕ) (signal : ℕ → K) (i : ℕ) :
    window (fun j => c j - c' j) n signal i =
      window c n signal i - window c' n signal i := by
  unfold window
  rw [← sum_sub_distrib]
  apply sum_congr rfl
  intro j _
  exact mul_sub _ _ _

theorem window_signal_sub (c : ℕ → K) (n : ℕ) (signal signal' : ℕ → K)
    (i : ℕ) :
    window c n (fun k => signal k - signal' k) i =
      window c n signal i - window c n signal' i := by
  unfold window
  rw [← sum_sub_distrib]
  apply sum_congr rfl
  intro j _
  exact sub_mul _ _ _

theorem window_congr (c : ℕ → K) {n : ℕ} {signal signal' : ℕ → K} {i : ℕ}
    (h : ∀ j, j < n → signal (i + j) = signal' (i + j)) :
    window c n signal i = window c n signal' i := by
  apply sum_congr rfl
  intro j hj
  rw [h j (mem_range.mp hj)]

/-- Where the window lies inside the signal, the convolution at its last sample
is the window with the taps reversed. -/
theorem window_reversed (htaps : taps ≠ []) (signal : ℕ → K) (i : ℕ) :
    window (reversed taps) taps.length signal i =
      causal taps signal (i + (taps.length - 1)) := by
  have hlen : 0 < taps.length := List.length_pos_iff.mpr htaps
  rw [causal, Nat.min_eq_right (Nat.le_add_left _ _),
    Nat.sub_add_cancel hlen, window, ← sum_range_reflect]
  apply sum_congr rfl
  intro k hk
  have hk := mem_range.mp hk
  rw [reversed, mul_comm, show taps.length - 1 - (taps.length - 1 - k) = k by
    omega, Nat.add_sub_assoc (by omega)]

/-- A window over one sample reads one coefficient. -/
theorem window_single (c : ℕ → K) {n j : ℕ} (hj : j < n) (i : ℕ) :
    window c n (fun k => if k = i + j then 1 else 0) i = c j := by
  unfold window
  rw [sum_eq_single_of_mem j (mem_range.mpr hj)]
  · simp only [if_true, one_mul]
  · intro k _ hne
    have hother : i + k ≠ i + j := by omega
    simp only [hother, if_false, zero_mul]

/-! ## Starting anew -/

/-- What the samples before `b` contribute at index `n`. -/
def echo (signal : ℕ → K) (b n : ℕ) : K :=
  ∑ k ∈ Ico (n - b + 1) (n + 1), taps.getD k 0 * signal (n - k)

/-- The convolution is that of the samples from `b` on and the echo of the ones
before. -/
theorem causal_eq_add_echo (signal : ℕ → K) {b n : ℕ} (hn : b ≤ n) :
    causal taps signal n =
      causal taps (fun i => signal (b + i)) (n - b) +
        echo taps signal b n := by
  rw [causal_eq_sum, causal_eq_sum, echo,
    ← sum_range_add_sum_Ico _ (show n - b + 1 ≤ n + 1 by omega)]
  congr 1
  apply sum_congr rfl
  intro k hk
  rw [mem_range] at hk
  rw [show b + (n - b - k) = n - k by omega]

/-- Taps that do not reach back behind `b` leave no echo. -/
theorem echo_eq_zero_of_length_le (signal : ℕ → K) {b n : ℕ}
    (h : taps.length ≤ n - b + 1) : echo taps signal b n = 0 := by
  apply sum_eq_zero
  intro k hk
  rw [mem_Ico] at hk
  rw [List.getD_eq_default taps 0 (by omega), zero_mul]

/-! ## Blocks

A signal cut into blocks of the given sizes, from index `b` on. -/

/-- What a filter computes that starts anew at every block. -/
def blockwise (signal : ℕ → K) : ℕ → List ℕ → List K
  | _, [] => []
  | b, size :: sizes =>
      ((List.range size).map (causal taps fun i => signal (b + i))) ++
        blockwise signal (b + size) sizes

/-- At no sample of a block is there an echo of the samples before it. -/
def EchoFree (signal : ℕ → K) : ℕ → List ℕ → Prop
  | _, [] => True
  | b, size :: sizes =>
      (∀ i, i < size → echo taps signal b (b + i) = 0) ∧
        EchoFree signal (b + size) sizes

@[simp] theorem length_blockwise (signal : ℕ → K) (b : ℕ) (sizes : List ℕ) :
    (blockwise taps signal b sizes).length = sizes.sum := by
  induction sizes generalizing b with
  | nil => rfl
  | cons size sizes ih => simp [blockwise, ih]

/-- The blocks together give the convolution of the whole signal exactly where
no echo is missed. -/
theorem blockwise_eq_iff (signal : ℕ → K) (b : ℕ) (sizes : List ℕ) :
    blockwise taps signal b sizes =
        (List.range sizes.sum).map (fun i => causal taps signal (b + i)) ↔
      EchoFree taps signal b sizes := by
  induction sizes generalizing b with
  | nil => exact iff_of_true rfl trivial
  | cons size sizes ih =>
      have hrest : ((List.range sizes.sum).map fun i =>
          causal taps signal (b + (size + i))) =
            (List.range sizes.sum).map fun i =>
              causal taps signal (b + size + i) := by
        simp only [Nat.add_assoc]
      have hblock : (List.range size).map
            (causal taps fun i => signal (b + i)) =
          (List.range size).map (fun i => causal taps signal (b + i)) ↔
            ∀ i, i < size → echo taps signal b (b + i) = 0 := by
        rw [List.map_inj_left]
        constructor
        · intro h i hi
          have hsplit := causal_eq_add_echo taps signal (Nat.le_add_right b i)
          rw [Nat.add_sub_cancel_left, h i (List.mem_range.mpr hi)] at hsplit
          exact left_eq_add.mp hsplit
        · intro h i hi
          rw [causal_eq_add_echo taps signal (Nat.le_add_right b i),
            Nat.add_sub_cancel_left, h i (List.mem_range.mp hi), add_zero]
      rw [List.sum_cons, List.range_add, List.map_append, List.map_map,
        blockwise, EchoFree, ← hblock, ← ih]
      constructor
      · intro h
        obtain ⟨hleft, hright⟩ := List.append_inj h (by simp)
        exact ⟨hleft, hright.trans hrest⟩
      · rintro ⟨hleft, hright⟩
        rw [hleft, hright]
        exact congrArg _ hrest.symm

/-- One tap misses nothing. -/
theorem echoFree_of_length_le_one (h : taps.length ≤ 1) (signal : ℕ → K)
    (b : ℕ) (sizes : List ℕ) : EchoFree taps signal b sizes := by
  induction sizes generalizing b with
  | nil => trivial
  | cons size sizes ih =>
      exact ⟨fun i _ => echo_eq_zero_of_length_le taps signal (by omega),
        ih (b + size)⟩

end Ring

end Convolution
