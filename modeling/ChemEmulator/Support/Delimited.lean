import Mathlib.Data.List.Basic
import Mathlib.Tactic.TypeStar

/-!
# Streams of delimited frames

A stream of symbols in which a delimiter ends every frame.  `frames` lists the
complete frames; what stands behind the last delimiter is not one.
-/

namespace Delimited

variable {α : Type*} [DecidableEq α] (d : α)

/-- The complete frames of a stream that continues the frame `started`. -/
def framesFrom (started : List α) : List α → List (List α)
  | [] => []
  | x :: xs =>
      if x = d then started :: framesFrom [] xs
      else framesFrom (started ++ [x]) xs

def frames (xs : List α) : List (List α) := framesFrom d [] xs

/-- The symbols before the first delimiter. -/
def firstFrame (xs : List α) : List α := xs.takeWhile (· ≠ d)

/-- The symbols behind the first delimiter. -/
def afterFrame (xs : List α) : List α := (xs.dropWhile (· ≠ d)).tail

variable {d}

/-- A stream without a delimiter completes nothing. -/
theorem framesFrom_of_not_mem {started xs : List α} (h : d ∉ xs) :
    framesFrom d started xs = [] := by
  induction xs generalizing started with
  | nil => rfl
  | cons x xs ih =>
      rw [List.mem_cons, not_or] at h
      obtain ⟨hx, hxs⟩ := h
      rw [framesFrom, if_neg (Ne.symm hx)]
      exact ih hxs

/-- The first delimiter completes the frame that was started. -/
theorem framesFrom_of_mem (started : List α) {xs : List α} (h : d ∈ xs)
    (ys : List α) :
    framesFrom d started (xs ++ ys) =
      (started ++ firstFrame d xs) :: frames d (afterFrame d xs ++ ys) := by
  induction xs generalizing started with
  | nil => cases h
  | cons x xs ih =>
      by_cases hx : x = d
      · simp [framesFrom, frames, firstFrame, afterFrame, hx]
      · have hxs : d ∈ xs := by
          rcases List.mem_cons.mp h with heq | hmem
          · exact absurd heq.symm hx
          · exact hmem
        rw [List.cons_append, framesFrom, if_neg hx, ih _ hxs]
        simp [firstFrame, afterFrame, hx]

theorem frames_of_mem {xs : List α} (h : d ∈ xs) :
    frames d xs = firstFrame d xs :: frames d (afterFrame d xs) := by
  have hframes := framesFrom_of_mem [] h []
  rwa [List.append_nil, List.append_nil, List.nil_append] at hframes

theorem frames_eq_nil_iff {xs : List α} : frames d xs = [] ↔ d ∉ xs := by
  constructor
  · intro hnil hmem
    rw [frames_of_mem hmem] at hnil
    cases hnil
  · exact framesFrom_of_not_mem

/-- There are as many frames as delimiters. -/
theorem length_framesFrom (started xs : List α) :
    (framesFrom d started xs).length = xs.count d := by
  induction xs generalizing started with
  | nil => rfl
  | cons x xs ih =>
      by_cases hx : x = d
      · rw [framesFrom, if_pos hx, List.length_cons, ih, hx,
          List.count_cons_self]
      · rw [framesFrom, if_neg hx, ih, List.count_cons_of_ne hx]

theorem firstFrame_append {xs : List α} (h : d ∉ xs) (ys : List α) :
    firstFrame d (xs ++ ys) = xs ++ firstFrame d ys := by
  have hall : ∀ x ∈ xs, decide (x ≠ d) = true := by
    intro x hx
    rw [decide_eq_true_iff]
    rintro rfl
    exact h hx
  exact List.takeWhile_append_of_pos hall

theorem afterFrame_append {xs : List α} (h : d ∉ xs) (ys : List α) :
    afterFrame d (xs ++ ys) = afterFrame d ys := by
  have hall : ∀ x ∈ xs, decide (x ≠ d) = true := by
    intro x hx
    rw [decide_eq_true_iff]
    rintro rfl
    exact h hx
  rw [afterFrame, List.dropWhile_append_of_pos hall, afterFrame]

/-- What follows the first delimiter does not belong to the first frame. -/
theorem firstFrame_append_of_mem {xs : List α} (h : d ∈ xs) (ys : List α) :
    firstFrame d (xs ++ ys) = firstFrame d xs := by
  have hmem : d ∈ xs ++ ys := List.mem_append_left ys h
  have hframes := framesFrom_of_mem [] h ys
  change frames d (xs ++ ys) = _ at hframes
  rw [frames_of_mem hmem, List.nil_append] at hframes
  exact (List.cons.inj hframes).1

end Delimited
