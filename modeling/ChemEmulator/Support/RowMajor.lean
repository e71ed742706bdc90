import Mathlib.Data.Finset.Prod
import Mathlib.Data.List.Basic

/-!
# Rows of equal length

A rectangle of cells, kept row by row, and the list of all its cells.
-/

/-- `m` rows of `n` cells. -/
structure RowMajor (m n : ℕ) (α : Type*) where
  rows : List (List α)
  height : rows.length = m
  width : ∀ row ∈ rows, row.length = n

namespace RowMajor

variable {m n : ℕ} {α : Type*}

/-- Every cell has one value. -/
def replicate (v : α) : RowMajor m n α where
  rows := List.replicate m (List.replicate n v)
  height := List.length_replicate
  width := by
    intro row hrow
    rw [List.eq_of_mem_replicate hrow, List.length_replicate]

/-- The cell in row `t` and column `p`. -/
def get? (c : RowMajor m n α) (t p : ℕ) : Option α :=
  c.rows[t]?.bind fun row => row[p]?

/-- Write one cell. -/
def set (c : RowMajor m n α) (t p : ℕ) (v : α) : RowMajor m n α where
  rows := c.rows.modify t fun row => row.set p v
  height := by rw [List.length_modify, c.height]
  width := by
    intro row hrow
    obtain ⟨i, hi⟩ := List.mem_iff_getElem?.mp hrow
    rw [List.getElem?_modify, Option.map_eq_map, Option.map_eq_some_iff] at hi
    obtain ⟨old, hold, rfl⟩ := hi
    have hwidth := c.width old (List.mem_of_getElem? hold)
    split_ifs
    · rw [List.length_set, hwidth]
    · exact hwidth

def flat (c : RowMajor m n α) : List α := c.rows.flatten

theorem get?_set {c : RowMajor m n α} {t p : ℕ} (ht : t < m) (hp : p < n)
    (v : α) (i j : ℕ) :
    (c.set t p v).get? i j = if i = t ∧ j = p then some v else c.get? i j := by
  unfold get? set
  rw [List.getElem?_modify, Option.map_eq_map]
  by_cases hi : i = t
  · subst hi
    obtain ⟨row, hrow⟩ : ∃ row, c.rows[i]? = some row :=
      ⟨_, List.getElem?_eq_getElem (c.height.symm ▸ ht)⟩
    have hwidth := c.width row (List.mem_of_getElem? hrow)
    rw [hrow, Option.map_some, Option.bind_some, Option.bind_some, if_pos rfl,
      List.getElem?_set]
    by_cases hj : j = p
    · subst hj
      rw [if_pos rfl, if_pos (hwidth.symm ▸ hp), if_pos ⟨rfl, rfl⟩]
    · rw [if_neg (Ne.symm hj), if_neg fun hand => hj hand.2]
  · rw [if_neg fun hand => hi hand.1]
    cases c.rows[i]? with
    | none => rfl
    | some row => rw [Option.map_some, if_neg (Ne.symm hi)]

theorem getElem?_flatten {rows : List (List α)}
    (h : ∀ row ∈ rows, row.length = n) {p : ℕ} (hp : p < n) (t : ℕ) :
    rows.flatten[t * n + p]? = rows[t]?.bind fun row => row[p]? := by
  induction rows generalizing t with
  | nil => rfl
  | cons row rows ih =>
      obtain ⟨hrow, hrest⟩ := List.forall_mem_cons.mp h
      rw [List.flatten_cons]
      cases t with
      | zero =>
          rw [Nat.zero_mul, Nat.zero_add,
            List.getElem?_append_left (hrow.symm ▸ hp)]
          rfl
      | succ t =>
          have hindex : (t + 1) * n + p - row.length = t * n + p := by
            rw [hrow, Nat.succ_mul]
            omega
          rw [List.getElem?_append_right (by rw [hrow, Nat.succ_mul]; omega),
            hindex, ih hrest, List.getElem?_cons_succ]

theorem length_flat (c : RowMajor m n α) : c.flat.length = m * n := by
  have hrow : c.rows.map List.length = List.replicate c.rows.length n := by
    rw [List.eq_replicate_iff, List.length_map]
    refine ⟨rfl, fun k hk => ?_⟩
    obtain ⟨row, hrow, rfl⟩ := List.mem_map.mp hk
    exact c.width row hrow
  rw [flat, List.length_flatten, hrow, c.height, List.sum_replicate_nat]

theorem getElem?_flat (c : RowMajor m n α) {p : ℕ} (hp : p < n) (t : ℕ) :
    c.flat[t * n + p]? = c.get? t p :=
  getElem?_flatten c.width hp t

/-- As many different cells as there are in a rectangle are all of them. -/
theorem mem_of_length_eq {cells : List (ℕ × ℕ)} (hnodup : cells.Nodup)
    (hin : ∀ cell ∈ cells, cell.1 < m ∧ cell.2 < n)
    (hlength : cells.length = m * n) {t p : ℕ} (ht : t < m) (hp : p < n) :
    (t, p) ∈ cells := by
  have hsubset : cells.toFinset ⊆ Finset.range m ×ˢ Finset.range n := by
    intro cell hcell
    obtain ⟨ht, hp⟩ := hin cell (List.mem_toFinset.mp hcell)
    exact Finset.mem_product.mpr
      ⟨Finset.mem_range.mpr ht, Finset.mem_range.mpr hp⟩
  have hcard : (Finset.range m ×ˢ Finset.range n).card ≤
      cells.toFinset.card := by
    rw [Finset.card_product, Finset.card_range, Finset.card_range,
      List.toFinset_card_of_nodup hnodup, hlength]
  rw [← List.mem_toFinset, Finset.eq_of_subset_of_card_le hsubset hcard]
  exact Finset.mem_product.mpr
    ⟨Finset.mem_range.mpr ht, Finset.mem_range.mpr hp⟩

end RowMajor
