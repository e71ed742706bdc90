import Mathlib.Algebra.BigOperators.Group.Finset.Basic
import Mathlib.Algebra.BigOperators.Group.List.Basic
import Mathlib.Data.Fintype.Basic
import Mathlib.Tactic.Abel

/-!
# Sums over the entries of a collection

The total of a quantity over a list or over a family, and how it changes when
one entry is replaced.  Conservation arguments use it with a weight: what one
component loses another one gains, so the totals before and after agree.
-/

namespace Tally

variable {α M : Type*} [AddCommMonoid M]

/-- The total of `f` over a list. -/
def tally (f : α → M) (l : List α) : M := (l.map f).sum

@[simp] theorem tally_nil (f : α → M) : tally f [] = 0 := rfl

@[simp] theorem tally_cons (f : α → M) (a : α) (l : List α) :
    tally f (a :: l) = f a + tally f l := by
  simp [tally]

@[simp] theorem tally_append (f : α → M) (l l' : List α) :
    tally f (l ++ l') = tally f l + tally f l' := by
  simp [tally]

/-- A list of which every entry has total zero. -/
theorem tally_eq_zero {f : α → M} {l : List α} (h : ∀ a ∈ l, f a = 0) :
    tally f l = 0 := by
  induction l with
  | nil => rfl
  | cons a l ih =>
      rw [tally_cons, h a List.mem_cons_self,
        ih fun b hb => h b (List.mem_cons_of_mem a hb), add_zero]

/-- One entry replaced. -/
theorem tally_set (f : α → M) {l : List α} {i : ℕ} {a : α}
    (h : l[i]? = some a) (b : α) :
    tally f (l.set i b) + f a = tally f l + f b := by
  induction l generalizing i with
  | nil => cases h
  | cons c l ih =>
      cases i with
      | zero =>
          cases h
          simp only [List.set_cons_zero, tally_cons]
          abel
      | succ i =>
          have htail := ih (i := i) (by simpa using h)
          simp only [List.set_cons_succ, tally_cons]
          rw [add_assoc, htail, add_assoc]

/-- One entry taken out. -/
theorem tally_eraseIdx (f : α → M) {l : List α} {i : ℕ} {a : α}
    (h : l[i]? = some a) :
    tally f (l.eraseIdx i) + f a = tally f l := by
  induction l generalizing i with
  | nil => cases h
  | cons c l ih =>
      cases i with
      | zero =>
          cases h
          rw [List.eraseIdx_cons_zero, tally_cons, add_comm]
      | succ i =>
          have htail := ih (i := i) (by simpa using h)
          rw [List.eraseIdx_cons_succ, tally_cons, tally_cons, add_assoc, htail]

theorem tally_perm (f : α → M) {l l' : List α} (h : l.Perm l') :
    tally f l = tally f l' :=
  (h.map f).sum_eq

theorem tally_flatMap {β : Type*} (f : β → M) (g : α → List β) (l : List α) :
    tally f (l.flatMap g) = tally (fun a => tally f (g a)) l := by
  induction l with
  | nil => rfl
  | cons a l ih => rw [List.flatMap_cons, tally_append, tally_cons, ih]

theorem tally_map {β : Type*} (f : β → M) (g : α → β) (l : List α) :
    tally f (l.map g) = tally (fun a => f (g a)) l := by
  rw [tally, List.map_map]
  rfl

/-- A list summed up by its positions. -/
theorem tally_range (f : α → M) (g : ℕ → M) (l : List α)
    (h : ∀ i a, l[i]? = some a → g i = f a) :
    tally g (List.range l.length) = tally f l := by
  induction l generalizing g with
  | nil => rfl
  | cons a l ih =>
      rw [List.length_cons, List.range_succ_eq_map, tally_cons, tally_map,
        tally_cons, h 0 a rfl, ih]
      intro i b hb
      exact h (i + 1) b hb

/-- Two lists with the same total for every weight have the same entries. -/
theorem perm_of_tally [DecidableEq α] {l l' : List α}
    (h : ∀ w : α → ℕ, tally w l = tally w l') : l.Perm l' := by
  have hcount : ∀ (b : α) (l : List α),
      tally (fun a => if a = b then 1 else 0) l = l.count b := by
    intro b l
    induction l with
    | nil => rfl
    | cons a l ih =>
        rw [tally_cons, ih, List.count_cons, Nat.add_comm]
        simp only [beq_iff_eq]
  rw [List.perm_iff_count]
  intro b
  rw [← hcount, ← hcount, h]

/-- The total over a family of which one member is replaced. -/
theorem sum_update {ι : Type*} [Fintype ι] [DecidableEq ι] (f : α → M)
    (g : ι → α) (i : ι) (a : α) :
    ∑ j, f (Function.update g i a j) + f (g i) = ∑ j, f (g j) + f a := by
  have hrest : ∑ j ∈ Finset.univ.erase i, f (Function.update g i a j) =
      ∑ j ∈ Finset.univ.erase i, f (g j) := by
    apply Finset.sum_congr rfl
    intro j hj
    rw [Function.update_of_ne (Finset.ne_of_mem_erase hj)]
  rw [← Finset.add_sum_erase _ _ (Finset.mem_univ i), hrest,
    ← Finset.add_sum_erase _ (fun j => f (g j)) (Finset.mem_univ i),
    Function.update_self]
  abel

end Tally
