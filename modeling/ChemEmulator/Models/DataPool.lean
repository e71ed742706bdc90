import ChemEmulator.Common
import ChemEmulator.Support.ByteMemory
import Mathlib.Data.Multiset.AddSub

/-!
# Buffer pools

`include/chem/models/data_pool.hpp`.  A `DataArrayPool` is a FIFO queue of
heap arrays, each owned by exactly one `unique_ptr`.  An array is modelled by
its identity and its content, so that ownership can be followed through the
program independently of what is written into the buffer.

A pool operation returns its result together with the pool it leaves behind:
the operations that throw still change the queue.
-/

namespace Chem

open ByteMemory

/-- The array behind a `dArray_uptr`: which allocation it is, and its bytes. -/
structure DArray where
  ident : ℕ
  mem : Mem

structure DataArrayPool where
  /-- The `tbb::concurrent_queue`, front first. -/
  pool : List DArray
  itemSize : ℕ
  zeroOnRelease : Bool
  id : String

namespace DataArrayPool

/-- A pool of `poolSize` zeroed arrays, numbered from `fresh` on. -/
def filled (poolSize itemSize : ℕ) (id : String) (zeroOnRelease : Bool)
    (fresh : ℕ) : DataArrayPool where
  pool := (List.range poolSize).map fun i => ⟨fresh + i, fun _ => 0⟩
  itemSize := itemSize
  zeroOnRelease := zeroOnRelease
  id := id

/-- The constructors. -/
def create (poolSize itemSize : ℕ) (id : String) (zeroOnRelease : Bool)
    (fresh : ℕ) : Except String DataArrayPool :=
  if poolSize = 0 then
    .error ("Pool size must be greater than zero. ID:" ++ id)
  else .ok (filled poolSize itemSize id zeroOnRelease fresh)

def acquire (p : DataArrayPool) : Except String DArray × DataArrayPool :=
  match p.pool with
  | [] => (.error ("No available items in the pool. ID:" ++ p.id), p)
  | item :: rest => (.ok item, { p with pool := rest })

/-- The loop of `acquireBatch`: `batch` has been taken, `n` are missing. -/
def acquireLoop (p : DataArrayPool) (batch : List DArray) :
    ℕ → Except String (List DArray) × DataArrayPool
  | 0 => (.ok batch, p)
  | n + 1 =>
      match p.pool with
      | [] =>
          (.error ("Not enough items in the pool for batch acquire. ID:" ++ p.id),
            { p with pool := p.pool ++ batch })
      | item :: rest => acquireLoop { p with pool := rest } (batch ++ [item]) n

def acquireBatch (p : DataArrayPool) (n : ℕ) :
    Except String (List DArray) × DataArrayPool :=
  acquireLoop p [] n

def available (p : DataArrayPool) : ℕ := p.pool.length

/-- `memset(item, 0, m_itemSize)`. -/
def zeroed (p : DataArrayPool) (item : DArray) : DArray :=
  { item with mem := fun a => if a < p.itemSize then 0 else item.mem a }

def release (p : DataArrayPool) (item : Option DArray) :
    Except String Unit × DataArrayPool :=
  match item with
  | none => (.error ("Cannot release a null. ID:" ++ p.id), p)
  | some item =>
      let item := if p.zeroOnRelease then p.zeroed item else item
      (.ok (), { p with pool := p.pool ++ [item] })

/-- The identities of the arrays in a pool. -/
def idents (p : DataArrayPool) : Multiset ℕ :=
  ↑(p.pool.map DArray.ident)

/-! ## What the operations do to the queue -/

theorem acquire_ok {p p' : DataArrayPool} {item : DArray}
    (h : p.acquire = (.ok item, p')) :
    p.pool = item :: p'.pool := by
  unfold acquire at h
  split at h
  · cases h
  next head rest hpool =>
    cases h
    exact hpool

theorem acquire_error {p p' : DataArrayPool} {msg : String}
    (h : p.acquire = (.error msg, p')) :
    p.pool = [] ∧ p' = p := by
  unfold acquire at h
  split at h
  next hpool =>
    cases h
    exact ⟨hpool, rfl⟩
  · cases h

theorem acquire_of_pos {p : DataArrayPool} (h : 0 < p.available) :
    ∃ item rest, p.acquire = (.ok item, { p with pool := rest }) := by
  cases hpool : p.pool with
  | nil => simp [available, hpool] at h
  | cons item rest => exact ⟨item, rest, by simp [acquire, hpool]⟩

theorem acquire_of_zero {p : DataArrayPool} (h : p.available = 0) :
    ∃ msg, p.acquire = (.error msg, p) := by
  have hpool : p.pool = [] := List.eq_nil_of_length_eq_zero h
  simp only [acquire, hpool]
  exact ⟨_, rfl⟩

theorem acquireLoop_of_le {p : DataArrayPool} (batch : List DArray) {n : ℕ}
    (h : n ≤ p.pool.length) :
    p.acquireLoop batch n =
      (.ok (batch ++ p.pool.take n), { p with pool := p.pool.drop n }) := by
  induction n generalizing p batch with
  | zero => simp [acquireLoop]
  | succ n ih =>
      cases hpool : p.pool with
      | nil => simp [hpool] at h
      | cons item rest =>
          have hrest : n ≤ ({ p with pool := rest } : DataArrayPool).pool.length := by
            simpa [hpool] using h
          simp only [acquireLoop, hpool]
          rw [ih _ hrest]
          simp

theorem acquireLoop_of_lt {p : DataArrayPool} (batch : List DArray) {n : ℕ}
    (h : p.pool.length < n) :
    ∃ msg, p.acquireLoop batch n =
      (.error msg, { p with pool := batch ++ p.pool }) := by
  induction n generalizing p batch with
  | zero => omega
  | succ n ih =>
      cases hpool : p.pool with
      | nil => simp [acquireLoop, hpool]
      | cons item rest =>
          have hrest : ({ p with pool := rest } : DataArrayPool).pool.length < n := by
            simpa [hpool] using h
          obtain ⟨msg, hmsg⟩ := ih (batch ++ [item]) hrest
          refine ⟨msg, ?_⟩
          simp only [acquireLoop, hpool]
          rw [hmsg]
          simp

/-- A batch that the pool can serve is its front, taken in order. -/
theorem acquireBatch_of_le {p : DataArrayPool} {n : ℕ}
    (h : n ≤ p.available) :
    p.acquireBatch n =
      (.ok (p.pool.take n), { p with pool := p.pool.drop n }) := by
  simpa [acquireBatch] using acquireLoop_of_le [] h

/-- A batch that the pool cannot serve leaves the pool exactly as it was. -/
theorem acquireBatch_of_lt {p : DataArrayPool} {n : ℕ}
    (h : p.available < n) :
    ∃ msg, p.acquireBatch n = (.error msg, p) := by
  obtain ⟨msg, hmsg⟩ := acquireLoop_of_lt [] h
  exact ⟨msg, by simpa [acquireBatch] using hmsg⟩

@[simp] theorem available_release_some (p : DataArrayPool) (item : DArray) :
    (p.release (some item)).2.available = p.available + 1 := by
  simp [release, available]

end DataArrayPool

end Chem
