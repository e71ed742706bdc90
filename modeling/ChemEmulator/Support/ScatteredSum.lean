import Mathlib.Algebra.BigOperators.Group.List.Basic

/-!
# Sums scattered over a list

A loop that adds amounts to the entries of a list, each at its own index.  An
index behind the end changes nothing.  Every entry collects the amounts of its
index, and as long as all indices are in range nothing is lost.
-/

namespace ScatteredSum

variable {K : Type*}

/-- `entries[i] += a` for every pair. -/
def scatter [Add K] (entries : List K) (amounts : List (ℕ × K)) : List K :=
  amounts.foldl (fun entries p => entries.modify p.1 (· + p.2)) entries

theorem length_scatter [Add K] (entries : List K) (amounts : List (ℕ × K)) :
    (scatter entries amounts).length = entries.length := by
  induction amounts generalizing entries with
  | nil => rfl
  | cons p amounts ih =>
      exact (ih _).trans (List.length_modify _ _ _)

variable [AddCommMonoid K]

theorem sum_modify (entries : List K) {i : ℕ} (h : i < entries.length) (a : K) :
    (entries.modify i (· + a)).sum = entries.sum + a := by
  induction entries generalizing i with
  | nil => exact absurd h (Nat.not_lt_zero i)
  | cons b entries ih =>
      match i with
      | 0 =>
          rw [List.modify_zero_cons, List.sum_cons, List.sum_cons,
            add_right_comm]
      | i + 1 =>
          rw [List.modify_succ_cons, List.sum_cons, List.sum_cons,
            ih (Nat.lt_of_succ_lt_succ h), add_assoc]

/-- What an entry has collected. -/
theorem getElem?_scatter (entries : List K) (amounts : List (ℕ × K)) (i : ℕ) :
    (scatter entries amounts)[i]? = entries[i]?.map
      (· + ((amounts.filter fun p => p.1 = i).map Prod.snd).sum) := by
  induction amounts generalizing entries with
  | nil =>
      simp only [List.filter_nil, List.map_nil, List.sum_nil, add_zero]
      exact Option.map_id'.symm
  | cons p amounts ih =>
      refine (ih _).trans ?_
      rw [List.getElem?_modify]
      refine (Option.map_map _ _ _).trans ?_
      by_cases hp : p.1 = i
      · rw [List.filter_cons_of_pos (by simpa using hp), List.map_cons,
          List.sum_cons]
        congr 1
        funext b
        simp only [Function.comp_apply, hp, if_true, add_assoc]
      · rw [List.filter_cons_of_neg (by simpa using hp)]
        congr 1
        funext b
        simp only [Function.comp_apply, hp, if_false]

/-- Nothing is lost. -/
theorem sum_scatter (entries : List K) {amounts : List (ℕ × K)}
    (h : ∀ p ∈ amounts, p.1 < entries.length) :
    (scatter entries amounts).sum =
      entries.sum + (amounts.map Prod.snd).sum := by
  induction amounts generalizing entries with
  | nil => exact (add_zero _).symm
  | cons p amounts ih =>
      have hp := h p List.mem_cons_self
      refine (ih (entries.modify p.1 (· + p.2)) ?_).trans ?_
      · intro q hq
        rw [List.length_modify]
        exact h q (.tail p hq)
      · rw [sum_modify entries hp, List.map_cons, List.sum_cons, add_assoc]

end ScatteredSum
