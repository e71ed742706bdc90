import ChemEmulator.Support.BoundedQueue
import ChemEmulator.Support.EarlyExit
import Mathlib.Data.List.Basic
import Mathlib.Data.Nat.ModEq

/-!
# Ring buffers

A queue in a vector: the elements stand from `head` up to `tail`, round the end
of the vector.  One cell stays free, so that a full buffer is told from an
empty one.  Pushing onto a full buffer drops the oldest element.

`contents` is the queue that a buffer stands for.  Pushing is
`BoundedQueue.displace`, and reading the last elements never looks outside the
vector.
-/

structure RingBuffer (α : Type*) where
  maxItems : ℕ
  head : ℕ
  tail : ℕ
  overrun : ℕ
  cells : List α

namespace RingBuffer

open BoundedQueue

variable {α : Type*}

def create (capacity : ℕ) (blank : α) : RingBuffer α where
  maxItems := capacity + 1
  head := 0
  tail := 0
  overrun := 0
  cells := List.replicate (capacity + 1) blank

/-- A write outside the vector has no result. -/
def push (q : RingBuffer α) (a : α) : Option (RingBuffer α) :=
  if 0 < q.maxItems then
    if q.tail < q.cells.length then
      let tail := (q.tail + 1) % q.maxItems
      let q := { q with cells := q.cells.set q.tail a, tail := tail }
      if tail = q.head then
        some { q with
          head := (q.head + 1) % q.maxItems
          overrun := q.overrun + 1 }
      else some q
    else none
  else some q

def size (q : RingBuffer α) : ℕ :=
  if q.head ≤ q.tail then q.tail - q.head
  else q.maxItems - (q.head - q.tail)

/-- The cell of the `i`-th element. -/
def cell (q : RingBuffer α) (i : ℕ) : ℕ := (q.head + i) % q.maxItems

/-- The `i`-th element; there is none where the index is outside the vector. -/
def elem (q : RingBuffer α) (i : ℕ) : Option α := q.cells[q.cell i]?

/-- The loop that collects the last elements, or all of them if the limit is
zero. -/
def last (q : RingBuffer α) (limit : ℕ) : Option (List α) :=
  let count := if 0 < limit then min limit q.size else q.size
  (List.range' (q.size - count) count).mapM q.elem

/-! ## What a buffer stands for -/

/-- The vector has its size, and both ends are in it. -/
structure Wellformed (q : RingBuffer α) : Prop where
  positive : 0 < q.maxItems
  head : q.head < q.maxItems
  tail : q.tail < q.maxItems
  cells : q.cells.length = q.maxItems

/-- The elements, the oldest first. -/
def contents (q : RingBuffer α) : List α := (List.range q.size).filterMap q.elem

theorem wellformed_create (capacity : ℕ) (blank : α) :
    (create capacity blank).Wellformed where
  positive := Nat.succ_pos capacity
  head := Nat.succ_pos capacity
  tail := Nat.succ_pos capacity
  cells := List.length_replicate

theorem contents_create (capacity : ℕ) (blank : α) :
    (create capacity blank).contents = [] := rfl

/-- Different elements have different cells. -/
theorem cell_injective {q : RingBuffer α} {i j : ℕ} (hi : i < q.maxItems)
    (hj : j < q.maxItems) (hij : q.cell i = q.cell j) : i = j := by
  have hmod : i % q.maxItems = j % q.maxItems :=
    Nat.ModEq.add_left_cancel' q.head hij
  rwa [Nat.mod_eq_of_lt hi, Nat.mod_eq_of_lt hj] at hmod

namespace Wellformed

variable {q : RingBuffer α} (h : q.Wellformed)

include h

theorem cell_lt (i : ℕ) : q.cell i < q.maxItems := Nat.mod_lt _ h.positive

/-- The end is as far behind the front as the size says. -/
theorem size_spec : q.size < q.maxItems ∧ q.cell q.size = q.tail := by
  have hhead := h.head
  have htail := h.tail
  unfold size cell
  split_ifs with hle
  · refine ⟨by omega, ?_⟩
    rw [Nat.add_sub_cancel' hle, Nat.mod_eq_of_lt htail]
  · refine ⟨by omega, ?_⟩
    have hsum : q.head + (q.maxItems - (q.head - q.tail)) =
        q.tail + q.maxItems := by
      omega
    rw [hsum, Nat.add_mod_right, Nat.mod_eq_of_lt htail]

/-- No other size goes with the two ends. -/
theorem size_eq {n : ℕ} (hn : n < q.maxItems) (hcell : q.cell n = q.tail) :
    q.size = n :=
  cell_injective h.size_spec.1 hn (h.size_spec.2.trans hcell.symm)

theorem exists_elem (i : ℕ) : ∃ a, q.elem i = some a :=
  ⟨_, List.getElem?_eq_getElem (h.cells ▸ h.cell_lt i)⟩

end Wellformed

variable {q q' : RingBuffer α}

theorem contents_eq {f : ℕ → α} {n : ℕ} (hsize : q.size = n)
    (helem : ∀ i < n, q.elem i = some (f i)) :
    q.contents = (List.range n).map f := by
  rw [contents, hsize, List.filterMap_eq_map_iff_forall_eq_some]
  intro i hi
  exact helem i (List.mem_range.mp hi)

theorem length_contents (h : q.Wellformed) : q.contents.length = q.size := by
  choose f hf using h.exists_elem
  rw [contents_eq rfl fun i _ => hf i, List.length_map, List.length_range]

/-- What is collected are the last elements; the vector is not left. -/
theorem last_eq (h : q.Wellformed) (limit : ℕ) :
    q.last limit = some (if 0 < limit then
      q.contents.drop (q.contents.length - limit) else q.contents) := by
  choose f hf using h.exists_elem
  have hcontents : q.contents = (List.range q.size).map f :=
    contents_eq rfl fun i _ => hf i
  rw [last, EarlyExit.mapM_eq_some_map fun i _ => hf i, hcontents]
  split_ifs with hlimit
  · rw [List.length_map, List.length_range, ← List.map_drop,
      List.range_eq_range', List.drop_range']
    congr 3 <;> omega
  · rw [Nat.sub_self, List.range_eq_range']

theorem map_range_succ_if (f : ℕ → α) (a : α) (n : ℕ) :
    (List.range (n + 1)).map (fun i => if i = n then a else f i) =
      (List.range n).map f ++ [a] := by
  rw [List.range_succ, List.map_append, List.map_singleton, if_pos rfl]
  congr 1
  refine List.map_congr_left fun i hi => if_neg ?_
  exact Nat.ne_of_lt (List.mem_range.mp hi)

/-- There is room for one element more. -/
theorem push_of_room (h : q.Wellformed) (a : α) {f : ℕ → α}
    (hset : ∀ i < q.maxItems, (q.cells.set q.tail a)[q.cell i]? =
      some (if i = q.size then a else f i))
    (hroom : q.size + 1 < q.maxItems)
    (hnext : q.cell (q.size + 1) = (q.tail + 1) % q.maxItems) :
    let q' : RingBuffer α := { q with
      cells := q.cells.set q.tail a
      tail := (q.tail + 1) % q.maxItems }
    q'.Wellformed ∧ q'.contents = (List.range q.size).map f ++ [a] := by
  intro q'
  have hq' : q'.Wellformed :=
    ⟨h.positive, h.head, Nat.mod_lt _ h.positive,
      (List.length_set ..).trans h.cells⟩
  have hsize : q'.size = q.size + 1 := hq'.size_eq hroom hnext
  refine ⟨hq', ?_⟩
  rw [← map_range_succ_if]
  exact contents_eq hsize fun i hi => hset i (by omega)

/-- There is none, and the first element goes. -/
theorem push_of_full (h : q.Wellformed) (a : α) {f : ℕ → α}
    (hset : ∀ i < q.maxItems, (q.cells.set q.tail a)[q.cell i]? =
      some (if i = q.size then a else f i))
    {n : ℕ} (hn : q.size = n + 1) (hlt : q.size < q.maxItems)
    (hnext : q.cell (q.size + 1) = (q.tail + 1) % q.maxItems) :
    let q' : RingBuffer α := { q with
      cells := q.cells.set q.tail a
      tail := (q.tail + 1) % q.maxItems
      head := (q.head + 1) % q.maxItems
      overrun := q.overrun + 1 }
    q'.Wellformed ∧
      q'.contents = (List.range n).map (fun i => f (i + 1)) ++ [a] := by
  intro q'
  have hq' : q'.Wellformed :=
    ⟨h.positive, Nat.mod_lt _ h.positive, Nat.mod_lt _ h.positive,
      (List.length_set ..).trans h.cells⟩
  have hcell : ∀ i, q'.cell i = q.cell (i + 1) := by
    intro i
    change ((q.head + 1) % q.maxItems + i) % q.maxItems =
      (q.head + (i + 1)) % q.maxItems
    rw [Nat.mod_add_mod, Nat.add_right_comm, Nat.add_assoc]
  have hsize : q'.size = n + 1 := by
    refine hq'.size_eq (hn ▸ hlt) ?_
    rw [hcell, ← hn]
    exact hnext
  refine ⟨hq', ?_⟩
  rw [← map_range_succ_if]
  refine contents_eq hsize fun i hi => ?_
  have helem := hset (i + 1) (by omega)
  rw [hn, ← hcell] at helem
  simp only [Nat.add_right_cancel_iff] at helem
  exact helem

/-- A push makes the new element the last one, and drops the first one if the
buffer is full. -/
theorem push_spec (h : q.Wellformed) (hcapacity : 1 < q.maxItems) (a : α) :
    ∃ q', q.push a = some q' ∧ q'.Wellformed ∧ q'.maxItems = q.maxItems ∧
      q'.contents = displace front (q.maxItems - 1) q.contents a := by
  choose f hf using h.exists_elem
  obtain ⟨hlt, htail⟩ := h.size_spec
  have hlength := length_contents h
  have hcontents : q.contents = (List.range q.size).map f :=
    contents_eq rfl fun i _ => hf i
  have hroom : q.tail < q.cells.length := h.cells ▸ h.tail
  -- what is found behind the write
  have hset : ∀ i < q.maxItems, (q.cells.set q.tail a)[q.cell i]? =
      some (if i = q.size then a else f i) := by
    intro i hi
    by_cases hsize : i = q.size
    · rw [hsize, htail, List.getElem?_set_self hroom, if_pos rfl]
    · have hne : q.tail ≠ q.cell i := fun heq =>
        hsize (cell_injective hi hlt (heq.symm.trans htail.symm))
      rw [List.getElem?_set_ne hne, if_neg hsize]
      exact hf i
  have hnext : q.cell (q.size + 1) = (q.tail + 1) % q.maxItems := by
    rw [← htail, cell, cell, Nat.mod_add_mod, Nat.add_assoc]
  have hstart : q.cell 0 = q.head := Nat.mod_eq_of_lt h.head
  rw [push, if_pos h.positive, if_pos hroom]
  by_cases hfull : q.size + 1 < q.maxItems
  · have hne : (q.tail + 1) % q.maxItems ≠ q.head := by
      rw [← hnext, ← hstart]
      intro heq
      exact absurd (cell_injective hfull h.positive heq) (Nat.succ_ne_zero _)
    obtain ⟨hq', hpushed⟩ := push_of_room h a hset hfull hnext
    refine ⟨_, if_neg hne, hq', rfl, ?_⟩
    rw [hpushed, displace_of_lt (by omega), hcontents]
  · have hround : (q.tail + 1) % q.maxItems = q.head := by
      have hsize : q.size + 1 = q.maxItems := by omega
      rw [← hnext, ← hstart, hsize, cell, cell, Nat.add_zero,
        Nat.add_mod_right]
    obtain ⟨n, hn⟩ : ∃ n, q.size = n + 1 := ⟨q.size - 1, by omega⟩
    obtain ⟨hq', hpushed⟩ := push_of_full h a hset hn hlt hnext
    refine ⟨_, if_pos hround, hq', rfl, ?_⟩
    have hlimit : q.maxItems - 1 ≤ q.contents.length := by omega
    rw [hpushed, displace, if_pos hlimit, hcontents, hn,
      List.range_succ_eq_map, List.map_cons, List.map_map]
    rfl

/-- The buffer has the last ones of the elements that were pushed. -/
structure Recent (capacity : ℕ) (as : List α) (q : RingBuffer α) : Prop where
  wellformed : q.Wellformed
  maxItems : q.maxItems = capacity + 1
  contents : q.contents = as.drop (as.length - capacity)

theorem recent_create (capacity : ℕ) (blank : α) :
    Recent capacity [] (create capacity blank) where
  wellformed := wellformed_create capacity blank
  maxItems := rfl
  contents := (contents_create capacity blank).trans List.drop_nil.symm

theorem Recent.push {capacity : ℕ} (hcapacity : 0 < capacity) {as : List α}
    (h : Recent capacity as q) (a : α) :
    ∃ q', q.push a = some q' ∧ Recent capacity (as ++ [a]) q' := by
  have hall : ∀ as : List α, as.foldl (displace front capacity) [] =
      as.drop (as.length - capacity) := by
    intro as
    rw [foldl_displace_front hcapacity (Nat.zero_le _), List.nil_append,
      List.length_nil, Nat.zero_add]
  have hmax := h.maxItems
  obtain ⟨q', hpush, hq', hmax', hcontents⟩ :=
    push_spec h.wellformed (by omega) a
  refine ⟨q', hpush, hq', hmax'.trans hmax, ?_⟩
  rw [hcontents, h.contents, ← hall, ← hall, hmax, Nat.add_sub_cancel,
    List.foldl_append]
  rfl

/-- What is read are the last elements that were pushed. -/
theorem Recent.last {capacity : ℕ} {as : List α} (h : Recent capacity as q)
    (limit : ℕ) :
    q.last limit = some (as.drop (as.length -
      if 0 < limit then min limit capacity else capacity)) := by
  rw [last_eq h.wellformed, h.contents]
  split_ifs
  · rw [List.length_drop, List.drop_drop]
    congr 2
    omega
  · rfl

end RingBuffer
