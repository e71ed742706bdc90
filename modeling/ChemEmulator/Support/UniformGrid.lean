import Mathlib.Algebra.Order.Round
import Mathlib.Algebra.Ring.Int.Parity
import Mathlib.Data.List.Chain
import Mathlib.Tactic.Linarith
import Mathlib.Tactic.Ring

/-!
# Points at equal distances

Measured points that lie on a line at equal distances, up to a tolerance, and
the integers nearest to a number.  A point of a grid is found again from its
distance to the first one, as long as the tolerances do not add up to half a
step; how ties are rounded does not matter.
-/

namespace UniformGrid

variable {R : Type*} [Field R] [LinearOrder R] [IsStrictOrderedRing R]

/-! ## Nearest integers -/

section Rounding

variable [FloorRing R]

/-- Ties go away from zero. -/
def roundHalfAway (x : R) : ℤ :=
  if 0 ≤ x then round x else -round (-x)

/-- Ties go to the even number. -/
def roundHalfEven (x : R) : ℤ :=
  if Int.fract x < 1 - Int.fract x ∨
    (Int.fract x = 1 - Int.fract x ∧ Even ⌊x⌋) then ⌊x⌋
  else ⌊x⌋ + 1

omit [IsStrictOrderedRing R] [FloorRing R] in
/-- A function that takes every number to one of its nearest integers. -/
def IsRounding (f : R → ℤ) : Prop := ∀ x (n : ℤ), |x - f x| ≤ |x - n|

theorem IsRounding.abs_sub_le {f : R → ℤ} (hf : IsRounding f) (x : R) :
    |x - f x| ≤ 1 / 2 :=
  (hf x (round x)).trans (abs_sub_round x)

theorem IsRounding.eq_of_near {f : R → ℤ} (hf : IsRounding f) {x : R} {k : ℤ}
    (h : |x - k| < 1 / 2) : f x = k := by
  have hfx := hf.abs_sub_le x
  have hlt : |((f x - k : ℤ) : R)| < 1 := by
    rw [Int.cast_sub]
    calc |(f x : R) - k| = |(f x - x) + (x - k)| := by ring_nf
      _ ≤ |f x - x| + |x - k| := abs_add_le _ _
      _ < 1 / 2 + 1 / 2 := by
        rw [abs_sub_comm]
        exact add_lt_add_of_le_of_lt hfx h
      _ = 1 := by ring
  rw [← Int.cast_abs, ← Int.cast_one, Int.cast_lt, Int.abs_lt_one_iff] at hlt
  exact sub_eq_zero.mp hlt

/-- In steps, nothing is further away than half a step. -/
theorem IsRounding.abs_sub_mul_le {f : R → ℤ} (hf : IsRounding f) {step : R}
    (hstep : 0 < step) (x : R) : |x - f (x / step) * step| ≤ step / 2 := by
  calc |x - f (x / step) * step| = |x / step - f (x / step)| * step := by
        rw [← abs_of_pos hstep, ← abs_mul, abs_of_pos hstep, sub_mul,
          div_mul_cancel₀ x hstep.ne']
    _ ≤ 1 / 2 * step :=
        mul_le_mul_of_nonneg_right (hf.abs_sub_le _) hstep.le
    _ = step / 2 := by ring

theorem isRounding_roundHalfAway : IsRounding (roundHalfAway (R := R)) := by
  intro x n
  unfold roundHalfAway
  split_ifs with hx
  · exact round_le x n
  · have hle := round_le (-x) (-n)
    rw [Int.cast_neg, sub_neg_eq_add]
    rw [Int.cast_neg, sub_neg_eq_add, ← neg_add', abs_neg, neg_add_eq_sub,
      abs_sub_comm] at hle
    exact hle

theorem isRounding_roundHalfEven : IsRounding (roundHalfEven (R := R)) := by
  intro x n
  refine le_trans ?_ (round_le x n)
  have hfract := Int.fract_add_floor x
  have hnonneg := Int.fract_nonneg x
  have hlt := Int.fract_lt_one x
  rw [abs_sub_round_eq_min, le_min_iff]
  unfold roundHalfEven
  split_ifs with h
  · have hle : Int.fract x ≤ 1 - Int.fract x := h.elim le_of_lt fun h => h.1.le
    have habs : |x - ⌊x⌋| = Int.fract x := abs_of_nonneg hnonneg
    rw [habs]
    exact ⟨le_rfl, hle⟩
  · have hle : 1 - Int.fract x ≤ Int.fract x := not_lt.mp fun hx => h (Or.inl hx)
    have habs : |x - (⌊x⌋ + 1 : ℤ)| = 1 - Int.fract x := by
      rw [abs_sub_comm, abs_of_nonneg]
      · push_cast
        linarith
      · push_cast
        linarith
    rw [habs]
    exact ⟨hle, le_rfl⟩

theorem roundHalfAway_nonneg {x : R} (hx : 0 ≤ x) : 0 ≤ roundHalfAway x := by
  rw [roundHalfAway, if_pos hx, round_eq]
  exact Int.floor_nonneg.mpr (by linarith)

theorem roundHalfAway_le {x : R} {n : ℕ} (hx : 0 ≤ x) (h : x ≤ n) :
    roundHalfAway x ≤ n := by
  rw [roundHalfAway, if_pos hx, round_eq, ← Int.lt_add_one_iff, Int.floor_lt]
  push_cast
  linarith

end Rounding

/-! ## Merged points -/

/-- The points that are further than `tol` from the last one that was kept. -/
def mergeFrom (tol last : R) : List R → List R
  | [] => []
  | v :: rest =>
      if tol < |v - last| then v :: mergeFrom tol v rest
      else mergeFrom tol last rest

/-- `v` is kept, or it is a little above a point that is kept. -/
def Above (tol v r : R) : Prop := r ≤ v ∧ v - r ≤ tol

omit [IsStrictOrderedRing R] in
theorem exists_above_mergeFrom {tol last : R} (htol : 0 ≤ tol) {values : List R}
    (hsorted : (last :: values).Pairwise (· ≤ ·)) {v : R}
    (hv : v ∈ last :: values) :
    ∃ r ∈ last :: mergeFrom tol last values, Above tol v r := by
  induction values generalizing last with
  | nil =>
      obtain rfl := List.mem_singleton.mp hv
      exact ⟨v, List.mem_cons_self, le_rfl, by rwa [sub_self]⟩
  | cons w rest ih =>
      obtain ⟨hlast, hrest⟩ := List.pairwise_cons.mp hsorted
      rw [mergeFrom]
      rcases List.mem_cons.mp hv with rfl | hv
      · exact ⟨v, List.mem_cons_self, le_rfl, by rwa [sub_self]⟩
      split_ifs with hfar
      · obtain ⟨r, hr, habove⟩ := ih hrest hv
        exact ⟨r, List.mem_cons_of_mem _ hr, habove⟩
      · have hsorted' : (last :: rest).Pairwise (· ≤ ·) :=
          List.pairwise_cons.mpr ⟨fun u hu =>
            hlast u (List.mem_cons_of_mem _ hu),
            (List.pairwise_cons.mp hrest).2⟩
        rcases List.mem_cons.mp hv with rfl | hv
        · refine ⟨last, List.mem_cons_self, hlast v List.mem_cons_self, ?_⟩
          exact (le_abs_self _).trans (not_lt.mp hfar)
        · exact ih hsorted' (List.mem_cons_of_mem _ hv)

theorem isChain_mergeFrom {tol last : R} {values : List R}
    (hsorted : (last :: values).Pairwise (· ≤ ·)) :
    (last :: mergeFrom tol last values).IsChain fun a b => tol < b - a := by
  induction values generalizing last with
  | nil => exact List.isChain_singleton _
  | cons w rest ih =>
      obtain ⟨hlast, hrest⟩ := List.pairwise_cons.mp hsorted
      rw [mergeFrom]
      split_ifs with hfar
      · rw [abs_of_nonneg (sub_nonneg.mpr (hlast w List.mem_cons_self))] at hfar
        exact List.isChain_cons_cons.mpr ⟨hfar, ih hrest⟩
      · exact ih (List.pairwise_cons.mpr ⟨fun u hu =>
          hlast u (List.mem_cons_of_mem _ hu), (List.pairwise_cons.mp hrest).2⟩)

/-! ## Steps -/

/-- The distances between neighbours. -/
def differences (values : List R) : List R :=
  List.zipWith (fun a b => b - a) values values.tail

omit [LinearOrder R] [IsStrictOrderedRing R] in
theorem forall_differences {P : R → Prop} (values : List R) :
    (∀ s ∈ differences values, P s) ↔ values.IsChain fun a b => P (b - a) := by
  induction values with
  | nil => exact iff_of_true (fun _ h => (by cases h)) List.isChain_nil
  | cons a rest ih =>
      cases rest with
      | nil =>
          exact iff_of_true (fun _ h => (by cases h)) (List.isChain_singleton a)
      | cons b rest =>
          rw [List.isChain_cons_cons, ← ih]
          exact List.forall_mem_cons

/-- Neighbours are a step apart, up to the tolerance. -/
def NearlyUniform (tol step : R) (values : List R) : Prop :=
  values.IsChain fun a b => |b - a - step| ≤ tol

theorem NearlyUniform.getElem {tol step first : R} {rest : List R}
    (h : NearlyUniform tol step (first :: rest)) {k : ℕ} {v : R}
    (hv : (first :: rest)[k]? = some v) :
    |v - first - k * step| ≤ k * tol := by
  induction k generalizing first rest with
  | zero =>
      cases hv
      simp
  | succ k ih =>
      cases rest with
      | nil => cases hv
      | cons second rest =>
          obtain ⟨hfirst, hrest⟩ := List.isChain_cons_cons.mp h
          have hk := ih hrest hv
          push_cast
          calc |v - first - (k + 1) * step|
              = |(v - second - k * step) + (second - first - step)| := by
                ring_nf
            _ ≤ |v - second - k * step| + |second - first - step| :=
                abs_add_le _ _
            _ ≤ k * tol + tol := add_le_add hk hfirst
            _ = (k + 1) * tol := by ring

/-- A value a little above the point `k` of a grid is not far from where the
point should be. -/
theorem NearlyUniform.drift {tol step first v r : R} {rest : List R} {k : ℕ}
    (h : NearlyUniform tol step (first :: rest))
    (hr : (first :: rest)[k]? = some r) (habove : Above tol v r) :
    |v - first - k * step| ≤ (first :: rest).length * tol := by
  have htol : 0 ≤ tol := (sub_nonneg.mpr habove.1).trans habove.2
  have hk : ((k + 1 : ℕ) : R) ≤ (first :: rest).length :=
    Nat.cast_le.mpr (List.getElem?_eq_some_iff.mp hr).1
  calc |v - first - k * step| = |(r - first - k * step) + (v - r)| := by
        ring_nf
    _ ≤ |r - first - k * step| + |v - r| := abs_add_le _ _
    _ ≤ k * tol + tol := by
        rw [abs_of_nonneg (sub_nonneg.mpr habove.1)]
        exact add_le_add (h.getElem hr) habove.2
    _ = ((k + 1 : ℕ) : R) * tol := by
        push_cast
        ring
    _ ≤ (first :: rest).length * tol := mul_le_mul_of_nonneg_right hk htol

/-- A distance close to `k` steps is rounded to `k`. -/
theorem IsRounding.index_eq [FloorRing R] {f : R → ℤ} (hf : IsRounding f)
    {step x slack : R} {k : ℤ} (hstep : 0 < step)
    (hx : |x - k * step| ≤ slack) (hslack : 2 * slack < step) :
    f (x / step) = k := by
  refine hf.eq_of_near ?_
  rw [← mul_div_cancel_right₀ (k : R) hstep.ne', ← sub_div, abs_div,
    abs_of_pos hstep, div_lt_div_iff₀ hstep two_pos]
  linarith

end UniformGrid
