import Mathlib.Data.List.Perm.Basic
import Mathlib.Order.Defs.LinearOrder

/-!
# Queues with a limit

A queue that has reached its limit gives up one of its elements when a new one
arrives.  `pick` says which one, and what stays.  `displace` inserts the new
element into the room that is made; `forgo` gives the new one up as well.

A queue from which elements are displaced keeps its length at the limit, and if
the longest waiting element goes first, it holds the most recent ones.
-/

namespace BoundedQueue

variable {α : Type*}

/-- `pick` finds an element in every queue that has one. -/
structure Picks (pick : List α → Option (α × List α)) : Prop where
  eq_nil : ∀ {queue}, pick queue = none → queue = []
  perm : ∀ {queue a rest}, pick queue = some (a, rest) → queue.Perm (a :: rest)

/-- The element that has waited longest. -/
def front : List α → Option (α × List α)
  | [] => none
  | a :: rest => some (a, rest)

theorem picks_front : Picks (front (α := α)) where
  eq_nil {queue} h := by
    match queue with
    | [] => rfl
  perm {queue a rest} h := by
    match queue with
    | b :: queue =>
        cases h
        exact List.Perm.refl _

section Policies

variable (pick : List α → Option (α × List α)) (limit : ℕ)

/-- What stays when an element has been picked. -/
def others (queue : List α) : List α :=
  match pick queue with
  | none => queue
  | some (_, rest) => rest

/-- Room is made for the new element. -/
def displace (queue : List α) (a : α) : List α :=
  if limit ≤ queue.length then others pick queue ++ [a] else queue ++ [a]

/-- Room is made, but the new element is given up. -/
def forgo (queue : List α) (a : α) : List α :=
  if limit ≤ queue.length then others pick queue else queue ++ [a]

variable {pick limit}

theorem length_others (h : Picks pick) (queue : List α) :
    (others pick queue).length = queue.length - 1 := by
  unfold others
  split
  next hnone =>
    rw [h.eq_nil hnone]
    rfl
  next a rest hsome =>
    rw [(h.perm hsome).length_eq]
    rfl

theorem length_displace (h : Picks pick) (hlimit : 0 < limit) (queue : List α)
    (a : α) :
    (displace pick limit queue a).length =
      if limit ≤ queue.length then queue.length else queue.length + 1 := by
  unfold displace
  split_ifs with hfull
  · rw [List.length_append, length_others h, List.length_singleton]
    omega
  · rw [List.length_append, List.length_singleton]

theorem displace_of_lt {queue : List α} (h : queue.length < limit) (a : α) :
    displace pick limit queue a = queue ++ [a] :=
  if_neg (Nat.not_le_of_lt h)

theorem mem_of_mem_others (h : Picks pick) {queue : List α} {b : α}
    (hb : b ∈ others pick queue) : b ∈ queue := by
  unfold others at hb
  split at hb
  next => exact hb
  next a rest hsome => exact (h.perm hsome).mem_iff.mpr (.tail a hb)

/-- A displacement invents nothing. -/
theorem mem_of_mem_displace (h : Picks pick) {queue : List α} {a b : α}
    (hb : b ∈ displace pick limit queue a) : b ∈ queue ∨ b = a := by
  unfold displace at hb
  split_ifs at hb with hfull
  · rcases List.mem_append.mp hb with hold | hnew
    · exact .inl (mem_of_mem_others h hold)
    · exact .inr (List.mem_singleton.mp hnew)
  · rcases List.mem_append.mp hb with hold | hnew
    · exact .inl hold
    · exact .inr (List.mem_singleton.mp hnew)

/-- At the limit the two policies differ by one element. -/
theorem not_perm_of_le (h : Picks pick) (hlimit : 0 < limit) {queue : List α}
    (hfull : limit ≤ queue.length) (a : α) :
    ¬(forgo pick limit queue a).Perm (displace pick limit queue a) := by
  intro hperm
  have hlength := hperm.length_eq
  rw [length_displace h hlimit, forgo, if_pos hfull, if_pos hfull,
    length_others h] at hlength
  omega

end Policies

/-- Displacing the longest waiting element leaves the most recent ones. -/
theorem foldl_displace_front {limit : ℕ} (hlimit : 0 < limit)
    {queue : List α} (hqueue : queue.length ≤ limit) (as : List α) :
    as.foldl (displace front limit) queue =
      (queue ++ as).drop (queue.length + as.length - limit) := by
  induction as generalizing queue with
  | nil =>
      rw [List.append_nil, List.length_nil, Nat.add_zero,
        Nat.sub_eq_zero_of_le hqueue]
      rfl
  | cons a as ih =>
      have hstep : displace front limit queue a =
          (queue ++ [a]).drop (queue.length + 1 - limit) := by
        unfold displace
        split_ifs with hfull
        · match queue with
          | [] => exact absurd hfull (Nat.not_le_of_lt hlimit)
          | b :: queue =>
              rw [List.length_cons] at hqueue hfull
              rw [List.length_cons, show queue.length + 1 + 1 - limit = 1 by
                omega]
              rfl
        · rw [show queue.length + 1 - limit = 0 by omega]
          rfl
      have hlength := length_displace picks_front hlimit queue a
      have hle : (displace front limit queue a).length ≤ limit := by
        rw [hlength]
        split_ifs <;> omega
      have hdrop : queue.length + 1 - limit ≤ (queue ++ [a]).length := by
        rw [List.length_append, List.length_singleton]
        omega
      rw [List.foldl_cons, ih hle, hlength, hstep,
        ← List.drop_append_of_le_length hdrop, List.drop_drop,
        List.append_assoc, List.singleton_append, List.length_cons]
      congr 1
      split_ifs <;> omega

end BoundedQueue
