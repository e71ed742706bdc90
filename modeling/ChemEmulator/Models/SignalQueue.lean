import ChemEmulator.Models.Signal

/-!
# Queues of signals

The receivers and the workers keep their signals in a
`tbb::concurrent_bounded_queue` of `QUEUE_CAP` places, the transmitters in a
`tbb::concurrent_priority_queue` ordered by the start time.  A queue is the
list of its signals; the array of a signal that is dropped goes to a pool.
-/

namespace Chem

/-- Why an operation does not end normally: it cannot run in this state, or an
exception leaves it. -/
inductive Halt where
  | blocked
  | threw (msg : String)
deriving DecidableEq

/-- `release`, as a computation that may throw. -/
def DataArrayPool.giveBack (p : DataArrayPool) (item : Option DArray) :
    Except Halt DataArrayPool :=
  match p.release item with
  | (.error msg, _) => .error (.threw msg)
  | (.ok (), p) => .ok p

namespace SignalQueue

/-- `try_pop` of the oldest signal, which goes back to `pool`. -/
def dropOldest (pool : DataArrayPool) (queue : List Signal) :
    Except Halt (DataArrayPool × List Signal) :=
  match queue with
  | [] => .ok (pool, [])
  | oldest :: rest => do
      let pool ← pool.giveBack oldest.iqData
      .ok (pool, rest)

/-- A queue that has reached `limit` loses its oldest signal. -/
def makeRoom (limit : ℕ) (pool : DataArrayPool) (queue : List Signal) :
    Except Halt (DataArrayPool × List Signal) :=
  if limit ≤ queue.length then dropOldest pool queue else .ok (pool, queue)

/-- `try_push`; a signal that finds no place goes back to `pool`. -/
def pushOrRelease (pool : DataArrayPool) (queue : List Signal) (sig : Signal) :
    Except Halt (DataArrayPool × List Signal) :=
  if queue.length < queueCap then .ok (pool, queue ++ [sig])
  else do
    let pool ← pool.giveBack sig.iqData
    .ok (pool, queue)

/-- `try_pop` until the queue is empty. -/
def drain (pool : DataArrayPool) : List Signal → Except Halt DataArrayPool
  | [] => .ok pool
  | sig :: rest => do
      let pool ← pool.giveBack sig.iqData
      drain pool rest

/-- `try_pop` of a priority queue: a signal with the earliest start, and the
signals that stay. -/
def popEarliest : List Signal → Option (Signal × List Signal)
  | [] => none
  | sig :: rest =>
      match popEarliest rest with
      | none => some (sig, [])
      | some (earliest, others) =>
          if earliest.header.start < sig.header.start then
            some (earliest, sig :: others)
          else some (sig, rest)

theorem eq_nil_of_popEarliest_none {queue : List Signal}
    (h : popEarliest queue = none) : queue = [] := by
  cases queue with
  | nil => rfl
  | cons first tail =>
      rw [popEarliest] at h
      split at h
      · cases h
      · split at h
        · cases h
        · cases h

/-- Nothing is lost and nothing is invented by a pop. -/
theorem popEarliest_perm {queue rest : List Signal} {sig : Signal}
    (h : popEarliest queue = some (sig, rest)) :
    queue.Perm (sig :: rest) := by
  induction queue generalizing sig rest with
  | nil => cases h
  | cons first tail ih =>
      rw [popEarliest] at h
      split at h
      next hnone =>
        cases h
        rw [eq_nil_of_popEarliest_none hnone]
      next earliest others hsome =>
        split at h
        · cases h
          exact ((ih hsome).cons first).trans (List.Perm.swap _ _ _)
        · cases h
          exact List.Perm.refl _

end SignalQueue

end Chem
