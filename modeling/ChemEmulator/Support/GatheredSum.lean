import Mathlib.Algebra.BigOperators.Group.Finset.Basic
import Mathlib.Algebra.Module.BigOperators
import Mathlib.Algebra.Module.Torsion.Field
import Mathlib.Data.Finset.Lattice.Fold

/-!
# Sums over picked elements

A linear combination in which every coefficient is applied to an element of a
sequence that is picked by position, or to nothing.  One element may be picked
several times; its weight is the sum of the coefficients that pick it.  The
combination is determined by a part of the sequence exactly if no other element
has a weight.
-/

namespace GatheredSum

open Finset

variable {R K : Type*}

/-- The picked element, or zero. -/
def pickFrom [Zero K] (x : ℕ → K) (p : Option ℕ) : K := (p.map x).getD 0

/-- The combination of `len` elements. -/
def gather [AddCommMonoid K] [SMul R K] (len : ℕ) (coeff : ℕ → R)
    (pick : ℕ → Option ℕ) (x : ℕ → K) : K :=
  ∑ j ∈ range len, coeff j • pickFrom x (pick j)

/-- The weight of element `i`. -/
def weight [AddCommMonoid R] (len : ℕ) (coeff : ℕ → R) (pick : ℕ → Option ℕ)
    (i : ℕ) : R :=
  ∑ j ∈ range len, if pick j = some i then coeff j else 0

theorem weight_eq_zero [AddCommMonoid R] {len : ℕ} (coeff : ℕ → R)
    {pick : ℕ → Option ℕ} {i : ℕ} (h : ∀ j, j < len → pick j ≠ some i) :
    weight len coeff pick i = 0 := by
  apply sum_eq_zero
  intro j hj
  exact if_neg (h j (mem_range.mp hj))

theorem exists_bound (len : ℕ) (pick : ℕ → Option ℕ) :
    ∃ B, ∀ j, j < len → ∀ i, pick j = some i → i < B := by
  refine ⟨(range len).sup fun j => (pick j).elim 0 (· + 1), ?_⟩
  intro j hj i hi
  have hle := le_sup (f := fun j => (pick j).elim 0 (· + 1)) (mem_range.mpr hj)
  rw [hi] at hle
  exact hle

section

variable [Ring R] [AddCommGroup K] [Module R K] {len : ℕ} {coeff : ℕ → R}
variable {pick : ℕ → Option ℕ}

/-- Coefficients of one element put together. -/
theorem gather_eq_sum_weight {B : ℕ}
    (hB : ∀ j, j < len → ∀ i, pick j = some i → i < B) (x : ℕ → K) :
    gather len coeff pick x =
      ∑ i ∈ range B, weight len coeff pick i • x i := by
  have hterm : ∀ j ∈ range len, coeff j • pickFrom x (pick j) =
      ∑ i ∈ range B, (if pick j = some i then coeff j else 0) • x i := by
    intro j hj
    have hbound := hB j (mem_range.mp hj)
    match hpick : pick j with
    | none => simp [pickFrom]
    | some i =>
        rw [sum_eq_single i]
        · simp [pickFrom]
        · intro k _ hk
          rw [if_neg (by simpa using hk.symm), zero_smul]
        · intro hi
          exact absurd (mem_range.mpr (hbound i hpick)) hi
  calc gather len coeff pick x
      = ∑ j ∈ range len, ∑ i ∈ range B,
          (if pick j = some i then coeff j else 0) • x i := sum_congr rfl hterm
    _ = ∑ i ∈ range B, ∑ j ∈ range len,
          (if pick j = some i then coeff j else 0) • x i := sum_comm
    _ = ∑ i ∈ range B, weight len coeff pick i • x i := by
        apply sum_congr rfl
        intro i _
        rw [weight, sum_smul]

/-- One element alone. -/
theorem gather_single (i : ℕ) (k : K) :
    gather len coeff pick (Pi.single i k) = weight len coeff pick i • k := by
  rw [weight, sum_smul]
  apply sum_congr rfl
  intro j _
  match pick j with
  | none => simp [pickFrom]
  | some m =>
      by_cases hm : m = i
      · simp [pickFrom, hm]
      · simp [pickFrom, hm]

end

/-- The first `n` elements determine the combination exactly if the others have
no weight. -/
theorem gather_congr_iff [Field R] [AddCommGroup K] [Module R K] [Nontrivial K]
    {len : ℕ} {coeff : ℕ → R} {pick : ℕ → Option ℕ} {n : ℕ} :
    (∀ x y : ℕ → K, (∀ i, i < n → x i = y i) →
      gather len coeff pick x = gather len coeff pick y) ↔
        ∀ i, n ≤ i → weight len coeff pick i = 0 := by
  constructor
  · intro h i hi
    obtain ⟨k, hk⟩ := exists_ne (0 : K)
    have hsame := h (Pi.single i k) (Pi.single i 0) fun m hm => by
      rw [Pi.single_eq_of_ne (by omega), Pi.single_eq_of_ne (by omega)]
    rw [gather_single, gather_single, smul_zero] at hsame
    exact (smul_eq_zero.mp hsame).resolve_right hk
  · intro h x y hxy
    obtain ⟨B, hB⟩ := exists_bound len pick
    rw [gather_eq_sum_weight hB, gather_eq_sum_weight hB]
    apply sum_congr rfl
    intro i _
    by_cases hi : i < n
    · rw [hxy i hi]
    · rw [h i (Nat.le_of_not_lt hi), zero_smul, zero_smul]

end GatheredSum
