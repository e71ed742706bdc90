import Mathlib.Data.List.Basic

/-!
# Vectors behind a raw pointer

A vector whose elements are also read and written through a pointer that knows
nothing of its size.  `data` is the memory from the first element on; what lies
at `size` and behind it does not belong to the vector.  Operations that go
through the pointer are total and leave the size alone, so that it can be said
separately whether they stay inside.

Two vectors agree up to `n` when a reader of `n` elements cannot tell them
apart.
-/

structure RawVector (α : Type*) where
  size : ℕ
  data : ℕ → α

namespace RawVector

variable {α : Type*} {v w v' w' : RawVector α} {m n : ℕ}

def replicate (n : ℕ) (a : α) : RawVector α := ⟨n, fun _ => a⟩

/-- `v[i] = a` through the pointer. -/
def set (v : RawVector α) (i : ℕ) (a : α) : RawVector α :=
  { v with data := fun j => if j = i then a else v.data j }

/-- `v[i] = f i` for the first `n` indices. -/
def fill (v : RawVector α) (n : ℕ) (f : ℕ → α) : RawVector α :=
  { v with data := fun i => if i < n then f i else v.data i }

/-- `v = w`: the size is taken over, and the memory behind the new end stays
as it was. -/
def assign (v w : RawVector α) : RawVector α where
  size := w.size
  data i := if i < w.size then w.data i else v.data i

/-- `resize` to at least `n` elements, the new ones equal to `a`. -/
def grow (v : RawVector α) (n : ℕ) (a : α) : RawVector α where
  size := max v.size n
  data i := if v.size ≤ i ∧ i < n then a else v.data i

/-- The first `n` elements. -/
def take (v : RawVector α) (n : ℕ) : List α := (List.range n).map v.data

@[simp] theorem size_replicate (n : ℕ) (a : α) :
    (replicate n a).size = n := rfl

@[simp] theorem size_set (v : RawVector α) (i : ℕ) (a : α) :
    (v.set i a).size = v.size := rfl

@[simp] theorem size_fill (v : RawVector α) (n : ℕ) (f : ℕ → α) :
    (v.fill n f).size = v.size := rfl

@[simp] theorem size_assign (v w : RawVector α) :
    (v.assign w).size = w.size := rfl

theorem size_foldl_set (f : ℕ → ℕ) (g : ℕ → α) (is : List ℕ)
    (v : RawVector α) :
    (is.foldl (fun v i => v.set (f i) (g i)) v).size = v.size := by
  induction is generalizing v with
  | nil => rfl
  | cons i is ih => exact ih (v.set (f i) (g i))

theorem data_fill_of_lt (v : RawVector α) {i : ℕ} (h : i < n) (f : ℕ → α) :
    (v.fill n f).data i = f i := if_pos h

theorem data_fill_of_le (v : RawVector α) {i : ℕ} (h : n ≤ i) (f : ℕ → α) :
    (v.fill n f).data i = v.data i := if_neg (Nat.not_lt_of_le h)

@[simp] theorem fill_zero (v : RawVector α) (f : ℕ → α) : v.fill 0 f = v :=
  rfl

/-- One more element. -/
theorem set_fill (v : RawVector α) (n : ℕ) (f : ℕ → α) :
    (v.fill n f).set n (f n) = v.fill (n + 1) f := by
  unfold set fill
  congr 1
  funext i
  by_cases hi : i = n
  · rw [hi]
    simp
  · have hlt : i < n + 1 ↔ i < n := by omega
    simp only [hi, hlt, if_false]

/-- A loop over the first `n` elements. -/
theorem foldl_set_range (v : RawVector α) (n : ℕ) (f : ℕ → α) :
    (List.range n).foldl (fun v i => v.set i (f i)) v = v.fill n f := by
  induction n with
  | zero => rfl
  | succ n ih =>
      rw [List.range_succ, List.foldl_append, ih]
      exact set_fill v n f

/-- A loop over `n` elements from index `b` on. -/
theorem data_foldl_set_add (v : RawVector α) (b n : ℕ) (f : ℕ → α) (i : ℕ) :
    ((List.range n).foldl (fun v i => v.set (b + i) (f i)) v).data i =
      if b ≤ i ∧ i < b + n then f (i - b) else v.data i := by
  induction n with
  | zero =>
      rw [if_neg (by omega)]
      rfl
  | succ n ih =>
      rw [List.range_succ, List.foldl_append]
      change (if i = b + n then f n else _) = _
      rw [ih]
      by_cases hi : i = b + n
      · rw [if_pos hi, if_pos (by omega), hi, Nat.add_sub_cancel_left]
      · have hlast : b ≤ i ∧ i < b + n ↔ b ≤ i ∧ i < b + (n + 1) := by omega
        rw [if_neg hi]
        simp only [hlast]

theorem fill_congr (v : RawVector α) {f g : ℕ → α}
    (h : ∀ i, i < n → f i = g i) : v.fill n f = v.fill n g := by
  unfold fill
  congr 1
  funext i
  by_cases hi : i < n
  · rw [if_pos hi, if_pos hi, h i hi]
  · rw [if_neg hi, if_neg hi]

@[simp] theorem fill_data (v : RawVector α) (n : ℕ) : v.fill n v.data = v := by
  unfold fill
  simp only [ite_self]

theorem data_assign_of_lt (v : RawVector α) {i : ℕ} (h : i < w.size) :
    (v.assign w).data i = w.data i := if_pos h

theorem grow_of_le (v : RawVector α) (h : n ≤ v.size) (a : α) :
    v.grow n a = v := by
  cases v with
  | mk size data =>
      have hnone : ∀ i, ¬(size ≤ i ∧ i < n) := by
        intro i hi
        have hle : n ≤ size := h
        omega
      simp only [grow, hnone, if_false, Nat.max_eq_left h]

/-! ## Agreement -/

/-- The first `n` elements are the same. -/
def Agree (n : ℕ) (v w : RawVector α) : Prop :=
  ∀ i, i < n → v.data i = w.data i

theorem Agree.mono (h : Agree n v w) (hmn : m ≤ n) : Agree m v w :=
  fun i hi => h i (Nat.lt_of_lt_of_le hi hmn)

theorem Agree.take_eq (h : Agree n v w) : v.take n = w.take n := by
  apply List.map_congr_left
  intro i hi
  exact h i (List.mem_range.mp hi)

/-- Filling the same elements with the same values makes two vectors agree. -/
theorem agree_fill (v w : RawVector α) {f g : ℕ → α}
    (h : ∀ i, i < n → f i = g i) : Agree n (v.fill n f) (w.fill n g) := by
  intro i hi
  rw [data_fill_of_lt v hi, data_fill_of_lt w hi, h i hi]

/-- Filling the front keeps what agreed behind it. -/
theorem Agree.fill (hvw : Agree m v w) {f g : ℕ → α}
    (h : ∀ i, i < n → f i = g i) : Agree m (v.fill n f) (w.fill n g) := by
  intro i hi
  by_cases hin : i < n
  · rw [data_fill_of_lt v hin, data_fill_of_lt w hin, h i hin]
  · have hle := Nat.le_of_not_lt hin
    rw [data_fill_of_le v hle, data_fill_of_le w hle, hvw i hi]

/-- Changing the front element by element keeps what agreed. -/
theorem Agree.update (hvw : Agree m v w) (n : ℕ) (f : ℕ → α → α) :
    Agree m (v.fill n fun i => f i (v.data i))
      (w.fill n fun i => f i (w.data i)) := by
  intro i hi
  by_cases hin : i < n
  · rw [data_fill_of_lt v hin, data_fill_of_lt w hin, hvw i hi]
  · have hle := Nat.le_of_not_lt hin
    rw [data_fill_of_le v hle, data_fill_of_le w hle, hvw i hi]

/-- Copies of vectors of one size agree as far as the originals, up to that
size. -/
theorem Agree.assign (hvw : Agree m v w) (hsize : v.size = w.size)
    (hm : m ≤ v.size) (v' w' : RawVector α) :
    Agree m (v'.assign v) (w'.assign w) := by
  intro i hi
  rw [data_assign_of_lt v' (Nat.lt_of_lt_of_le hi hm),
    data_assign_of_lt w' (by omega), hvw i hi]

end RawVector
