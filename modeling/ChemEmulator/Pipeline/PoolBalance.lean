import ChemEmulator.Pipeline.BufferOwnership

/-!
# Balance of the IQ pools

The controller creates one IQ pool for every NUMA node and gives one of them,
`iq_pool`, to all receivers and transmitters.  The others choose differently: a
worker takes and returns buffers by the node it runs on and falls back to any
pool that can serve it, callbacks and `DetachSource` return to the first pool.

`KeepsPools` says of a step, by what it finds, that no pool other than
`iq_pool` gains or loses a buffer.  In a run of such steps every pool is full
again whenever all buffers are at rest.
-/

namespace Chem

open Outcome PartialRuns

private theorem forall_mem_some_iff {α : Type} {P : α → Prop} {a : α} :
    (∀ b ∈ some a, P b) ↔ P a := by
  simp

/-! ## Counting what is left in a pool -/

theorem DataArrayPool.available_giveBack {p p' : DataArrayPool}
    {item : Option DArray} (h : p.giveBack item = .ok p') :
    p'.available = p.available + 1 := by
  cases item with
  | none => cases h
  | some a =>
      cases h
      exact available_release_some p a

namespace SignalQueue

variable {pool pool' : DataArrayPool} {queue queue' : List Signal}

theorem available_makeRoom {limit : ℕ} (hlimit : 0 < limit)
    (h : makeRoom limit pool queue = .ok (pool', queue')) :
    pool'.available =
      pool.available + if limit ≤ queue.length then 1 else 0 := by
  unfold makeRoom at h
  split at h
  next hfull =>
    cases queue with
    | nil => exact absurd hfull (Nat.not_le_of_lt hlimit)
    | cons oldest rest =>
        obtain ⟨p, hback, hrest⟩ := exists_of_bind_eq_ok h
        cases hrest
        rw [if_pos hfull, DataArrayPool.available_giveBack hback]
  next hroom =>
    cases h
    rw [if_neg hroom, Nat.add_zero]

theorem available_pushOrRelease {sig : Signal}
    (h : pushOrRelease pool queue sig = .ok (pool', queue')) :
    pool'.available =
      pool.available + if queue.length < queueCap then 0 else 1 := by
  unfold pushOrRelease at h
  split at h
  next hroom =>
    cases h
    rw [if_pos hroom, Nat.add_zero]
  next hfull =>
    obtain ⟨p, hback, hrest⟩ := exists_of_bind_eq_ok h
    cases hrest
    rw [if_neg hfull, DataArrayPool.available_giveBack hback]

theorem available_drain (h : drain pool queue = .ok pool') :
    pool'.available = pool.available + queue.length := by
  induction queue generalizing pool with
  | nil =>
      cases h
      rfl
  | cons sig rest ih =>
      obtain ⟨p, hback, hrest⟩ := exists_of_bind_eq_ok h
      rw [ih hrest, DataArrayPool.available_giveBack hback, List.length_cons]
      omega

end SignalQueue

namespace Pipeline

variable {n : ℕ}

namespace IqPools

variable {p q i : Fin (n + 1)} {pools pools' pools'' : IqPools n}

/-- The pools other than `p` hold as many buffers as before. -/
def SameExcept (p : Fin (n + 1)) (pools pools' : IqPools n) : Prop :=
  ∀ i, i ≠ p → (pools' i).available = (pools i).available

theorem sameExcept_update_iff (p : Fin (n + 1)) (pools : IqPools n)
    (i : Fin (n + 1)) (pool : DataArrayPool) :
    SameExcept p pools (Function.update pools i pool) ↔
      i = p ∨ pool.available = (pools i).available := by
  constructor
  · intro h
    by_cases hi : i = p
    · exact Or.inl hi
    · have hsame := h i hi
      rw [Function.update_self] at hsame
      exact Or.inr hsame
  · intro h j hj
    by_cases hji : j = i
    · subst hji
      rw [Function.update_self]
      exact h.resolve_left hj
    · rw [Function.update_of_ne hji]

theorem available_giveBack {item : Option DArray}
    (h : pools.giveBack i item = .ok pools') (j : Fin (n + 1)) :
    (pools' j).available = (pools j).available + if j = i then 1 else 0 := by
  obtain ⟨pool, hback, hrest⟩ := exists_of_bind_eq_ok h
  cases hrest
  by_cases hj : j = i
  · subst hj
    rw [Function.update_self, if_pos rfl,
      DataArrayPool.available_giveBack hback]
  · rw [Function.update_of_ne hj, if_neg hj, Nat.add_zero]

theorem sameExcept_giveBack_iff {item : Option DArray}
    (h : pools.giveBack i item = .ok pools') :
    SameExcept p pools pools' ↔ i = p := by
  constructor
  · intro hsame
    by_contra hi
    have hcount := available_giveBack h i
    rw [hsame i hi, if_pos rfl] at hcount
    omega
  · rintro rfl j hj
    rw [available_giveBack h j, if_neg hj, Nat.add_zero]

/-! ## Taking a batch -/

/-- `pools'` is `pools` with `count` buffers of pool `i` taken. -/
def Took (i : Fin (n + 1)) (count : ℕ) (pools pools' : IqPools n) : Prop :=
  ∀ j, (pools' j).available + (if j = i then count else 0) =
    (pools j).available

theorem acquireFrom_cons_of_le {count : ℕ} {is : List (Fin (n + 1))}
    (h : count ≤ (pools i).available) :
    ∃ batch pools', pools.acquireFrom count (i :: is) = (some batch, pools') ∧
      Took i count pools pools' := by
  rw [acquireFrom, DataArrayPool.acquireBatch_of_le h]
  refine ⟨_, _, rfl, ?_⟩
  intro j
  by_cases hj : j = i
  · subst hj
    have hle : count ≤ (pools j).pool.length := h
    simp only [Function.update_self, if_pos, DataArrayPool.available,
      List.length_drop]
    omega
  · rw [Function.update_of_ne hj, if_neg hj, Nat.add_zero]

theorem acquireFrom_cons_of_lt {count : ℕ} {is : List (Fin (n + 1))}
    (h : (pools i).available < count) :
    pools.acquireFrom count (i :: is) = pools.acquireFrom count is := by
  obtain ⟨msg, hmsg⟩ := DataArrayPool.acquireBatch_of_lt h
  rw [acquireFrom, hmsg]
  simp only [Function.update_eq_self]

/-- A batch comes from one of the listed pools, or none of them can serve
it. -/
theorem acquireFrom_cases (pools : IqPools n) (count : ℕ)
    (is : List (Fin (n + 1))) :
    (∃ i ∈ is, ∃ batch pools', pools.acquireFrom count is =
      (some batch, pools') ∧ Took i count pools pools') ∨
    ((∀ i ∈ is, (pools i).available < count) ∧
      pools.acquireFrom count is = (none, pools)) := by
  induction is with
  | nil => exact Or.inr ⟨fun _ h => absurd h List.not_mem_nil, rfl⟩
  | cons i is ih =>
      rcases Nat.lt_or_ge (pools i).available count with hlt | hle
      · rw [acquireFrom_cons_of_lt hlt]
        rcases ih with ⟨j, hj, htook⟩ | ⟨hall, hnone⟩
        · exact Or.inl ⟨j, List.mem_cons_of_mem i hj, htook⟩
        · exact Or.inr ⟨List.forall_mem_cons.mpr ⟨hlt, hall⟩, hnone⟩
      · exact Or.inl ⟨i, List.mem_cons_self, acquireFrom_cons_of_le hle⟩

/-- The local pool serves a batch if it can; otherwise another one does, or
nobody can. -/
theorem acquireBuffers_cases (pools : IqPools n) (q : Fin (n + 1))
    (count : ℕ) :
    (count ≤ (pools q).available ∧ ∃ batch pools',
      pools.acquireBuffers q count = (some batch, pools') ∧
        Took q count pools pools') ∨
    ((pools q).available < count ∧ ∃ i, i ≠ q ∧ ∃ batch pools',
      pools.acquireBuffers q count = (some batch, pools') ∧
        Took i count pools pools') ∨
    ((∀ i, (pools i).available < count) ∧
      pools.acquireBuffers q count = (none, pools)) := by
  unfold acquireBuffers
  rcases Nat.lt_or_ge (pools q).available count with hlt | hle
  · rw [acquireFrom_cons_of_lt hlt]
    rcases acquireFrom_cases pools count
      ((List.finRange (n + 1)).filter (· ≠ q)) with ⟨i, hi, htook⟩ | ⟨hall, hnone⟩
    · have hne : i ≠ q := of_decide_eq_true (List.mem_filter.mp hi).2
      exact Or.inr (Or.inl ⟨hlt, i, hne, htook⟩)
    · refine Or.inr (Or.inr ⟨?_, hnone⟩)
      intro i
      by_cases hi : i = q
      · rw [hi]
        exact hlt
      · apply hall i
        exact List.mem_filter.mpr ⟨List.mem_finRange i, decide_eq_true hi⟩
  · exact Or.inl ⟨hle, acquireFrom_cons_of_le hle⟩

end IqPools

/-! ## Workers -/

namespace WorkerContext

variable {p : Fin (n + 1)} {ctx ctx' : WorkerContext n}
variable {pools pools' : IqPools n}

/-- The callback keeps the signal that it is given, and every other one. -/
def Accepts (ctx : WorkerContext n) : Prop :=
  ctx.runningFlag = true ∧ ctx.queue.length < queueCap - 1

instance (ctx : WorkerContext n) : Decidable ctx.Accepts :=
  inferInstanceAs (Decidable (_ ∧ _))

theorem callback_available_iff {pool pool' : DataArrayPool} {sig : Signal}
    (h : ctx.callback pool sig = .ok (pool', ctx')) :
    pool'.available = pool.available ↔ ctx.Accepts := by
  unfold callback at h
  split at h
  next hstopped =>
    obtain ⟨p, hback, hrest⟩ := exists_of_bind_eq_ok h
    cases hrest
    have hcount := DataArrayPool.available_giveBack hback
    refine ⟨fun hsame => by omega, ?_⟩
    rintro ⟨hrunning, -⟩
    rw [hrunning] at hstopped
    cases hstopped
  next hrunning =>
    obtain ⟨⟨pool₁, queue₁⟩, hroom, hrest⟩ := exists_of_bind_eq_ok h
    obtain ⟨⟨pool₂, queue₂⟩, hpush, hrest⟩ := exists_of_bind_eq_ok hrest
    cases hrest
    have hroomCount := SignalQueue.available_makeRoom (by decide) hroom
    have hpushCount := SignalQueue.available_pushOrRelease hpush
    constructor
    · intro hsame
      refine ⟨eq_true_of_ne_false hrunning, ?_⟩
      by_contra hfull
      rw [if_pos (Nat.le_of_not_lt hfull)] at hroomCount
      omega
    · rintro ⟨-, hlength⟩
      have hspace : ¬queueCap - 1 ≤ ctx.queue.length := Nat.not_le_of_lt hlength
      have hkept : SignalQueue.makeRoom (queueCap - 1) pool ctx.queue =
          .ok (pool, ctx.queue) := if_neg hspace
      rw [hkept] at hroom
      cases hroom
      rw [hpushCount, if_pos (by omega), Nat.add_zero]

theorem shutdown_available_iff {pool pool' : DataArrayPool}
    (h : ctx.shutdown pool = .ok (pool', ctx')) :
    pool'.available = pool.available ↔ ctx.queue.isEmpty = true := by
  obtain ⟨p, hdrain, hrest⟩ := exists_of_bind_eq_ok h
  cases hrest
  rw [SignalQueue.available_drain hdrain, List.isEmpty_iff,
    ← List.length_eq_zero_iff]
  omega

/-- A signal that the worker takes out of its queue is processed. -/
def Processes (ctx : WorkerContext n) (sig : Signal)
    (now maxLatencyNs : Int64) : Prop :=
  ¬sig.header.start < now - maxLatencyNs ∧ ctx.converterRx = true

instance (ctx : WorkerContext n) (sig : Signal) (now maxLatencyNs : Int64) :
    Decidable (ctx.Processes sig now maxLatencyNs) :=
  inferInstanceAs (Decidable (_ ∧ _))

/-- On the node of pool `p`, a worker must not need a batch of another pool.
On any other node the input goes to the pool from which the outputs come, and
the numbers agree for one destination only. -/
def KeepsPools (p : Fin (n + 1)) (pools : IqPools n) (ctx : WorkerContext n)
    (sig : Signal) (now maxLatencyNs : Int64)
    (destinations : List DestInfo) : Prop :=
  if ctx.numaNode = p then
    ctx.Processes sig now maxLatencyNs →
      destinations.length ≤ (pools p).available + 1 ∨
        ∀ i, i ≠ p → (pools i).available < destinations.length
  else ctx.Processes sig now maxLatencyNs ∧ destinations.length = 1

instance (p : Fin (n + 1)) (pools : IqPools n) (ctx : WorkerContext n)
    (sig : Signal) (now maxLatencyNs : Int64)
    (destinations : List DestInfo) :
    Decidable (ctx.KeepsPools p pools sig now maxLatencyNs destinations) :=
  inferInstanceAs (Decidable (ite _ _ _))

/-- The input goes to the local pool and a batch comes from pool `i`. -/
theorem sameExcept_of_took_iff {i : Fin (n + 1)} {count : ℕ}
    {pools₁ : IqPools n} {q : Fin (n + 1)} {item : Option DArray}
    (hback : pools.giveBack q item = .ok pools₁) (hcount : 0 < count)
    (htook : IqPools.Took i count pools₁ pools') :
    IqPools.SameExcept p pools pools' ↔
      (q = p ∧ i = p) ∨ (q ≠ p ∧ i = q ∧ count = 1) := by
  have htotal : ∀ j, (pools' j).available + (if j = i then count else 0) =
      (pools j).available + if j = q then 1 else 0 := by
    intro j
    rw [htook j, IqPools.available_giveBack hback j]
  constructor
  · intro hsame
    by_cases hq : q = p
    · refine Or.inl ⟨hq, ?_⟩
      by_contra hi
      have hi' := htotal i
      rw [hsame i hi, if_pos rfl, if_neg (fun h => hi (h.trans hq))] at hi'
      omega
    · have hq' := htotal q
      rw [hsame q hq, if_pos rfl] at hq'
      split_ifs at hq' with hqi
      · exact Or.inr ⟨hq, hqi.symm, by omega⟩
      · omega
  · rintro (⟨rfl, rfl⟩ | ⟨-, rfl, rfl⟩)
    · intro j hj
      have hj' := htotal j
      rw [if_neg hj, if_neg hj] at hj'
      omega
    · intro j _
      have hj' := htotal j
      omega

/-- The input goes to the local pool, and a batch for the destinations comes
from the first pool that can serve it. -/
theorem acquireBuffers_sameExcept_iff {sig : Signal}
    {destinations : List DestInfo} {now maxLatencyNs : Int64}
    {pools₁ : IqPools n}
    (hprocesses : ctx.Processes sig now maxLatencyNs)
    (hback : pools.giveBack ctx.numaNode sig.iqData = .ok pools₁)
    (hpos : 0 < destinations.length) :
    IqPools.SameExcept p pools
        (pools₁.acquireBuffers ctx.numaNode destinations.length).2 ↔
      ctx.KeepsPools p pools sig now maxLatencyNs destinations := by
  have hcount := IqPools.available_giveBack hback
  rcases IqPools.acquireBuffers_cases pools₁ ctx.numaNode
      destinations.length with
    ⟨hle, batch, pools₂, hbatch, htook⟩ |
      ⟨hlt, i, hi, batch, pools₂, hbatch, htook⟩ | ⟨hall, hnone⟩
  · -- the local pool
    rw [hbatch, sameExcept_of_took_iff hback hpos htook, KeepsPools]
    rw [hcount, if_pos rfl] at hle
    split_ifs with hnode
    · subst hnode
      simp [hle]
    · simp [hnode, hprocesses]
  · -- another pool
    rw [hbatch, sameExcept_of_took_iff hback hpos htook, KeepsPools]
    rw [hcount, if_pos rfl] at hlt
    have hserved : destinations.length ≤ (pools i).available := by
      have hi' := htook i
      rw [hcount, if_pos rfl, if_neg hi] at hi'
      omega
    split_ifs with hnode
    · subst hnode
      have hnotall : ¬∀ j, j ≠ ctx.numaNode →
          (pools j).available < destinations.length :=
        fun hall => absurd (hall i hi) (Nat.not_lt_of_le hserved)
      simp [hi, hprocesses, hnotall]
      omega
    · simp [hnode, hi]
      omega
  · -- no pool
    rw [hnone, IqPools.sameExcept_giveBack_iff hback, KeepsPools]
    split_ifs with hnode
    · subst hnode
      refine ⟨fun _ _ => Or.inr ?_, fun _ => rfl⟩
      intro j hj
      have hj' := hall j
      rw [hcount, if_neg hj] at hj'
      exact hj'
    · refine ⟨fun h => absurd h hnode, ?_⟩
      rintro ⟨-, hone⟩
      have hlocal := hall ctx.numaNode
      rw [hcount, if_pos rfl] at hlocal
      omega

theorem processSignal_sameExcept_iff {sig : Signal}
    {destinations : List DestInfo} (now maxLatencyNs : Int64)
    (hfresh : ¬sig.header.start < now - maxLatencyNs)
    (h : ctx.processSignal pools sig destinations = .ok (pools', ctx')) :
    IqPools.SameExcept p pools pools' ↔
      ctx.KeepsPools p pools sig now maxLatencyNs destinations := by
  rw [processSignal] at h
  split at h
  next hconverter =>
    obtain ⟨pools₁, hback, hrest⟩ := exists_of_bind_eq_ok h
    cases hrest
    have hidle : ¬ctx.Processes sig now maxLatencyNs := by
      rintro ⟨-, htrue⟩
      rw [htrue] at hconverter
      cases hconverter
    rw [IqPools.sameExcept_giveBack_iff hback, KeepsPools]
    split_ifs with hnode
    · simp [hidle, hnode]
    · simp [hidle, hnode]
  next hconverter =>
    obtain ⟨pools₁, hback, hrest⟩ := exists_of_bind_eq_ok h
    split at hrest
    next hempty =>
      cases hrest
      rw [IqPools.sameExcept_giveBack_iff hback, KeepsPools, hempty]
      split_ifs with hnode
      · simp [hnode]
      · simp [hnode]
    next hsome =>
      have hacquired : pools' =
          (pools₁.acquireBuffers ctx.numaNode destinations.length).2 := by
        split at hrest
        all_goals
          next hbatch =>
            cases hrest
            exact (congrArg Prod.snd hbatch).symm
      rw [hacquired]
      exact acquireBuffers_sameExcept_iff
        ⟨hfresh, eq_true_of_ne_false hconverter⟩ hback
        (List.length_pos_iff.mpr hsome)

theorem workerLoop_sameExcept_iff {now maxLatencyNs : Int64}
    {destinations : List DestInfo}
    (h : ctx.workerLoop pools now maxLatencyNs destinations =
      .ok (pools', ctx')) :
    IqPools.SameExcept p pools pools' ↔
      ∀ sig ∈ ctx.queue.head?,
        ctx.KeepsPools p pools sig now maxLatencyNs destinations := by
  unfold workerLoop at h
  split at h
  · cases h
  · split at h
    · cases h
    next sig rest hqueue =>
      rw [hqueue, List.head?_cons, forall_mem_some_iff]
      split at h
      next hold =>
        obtain ⟨pools₁, hback, hrest⟩ := exists_of_bind_eq_ok h
        cases hrest
        have hdropped : ¬ctx.Processes sig now maxLatencyNs :=
          fun hprocesses => hprocesses.1 hold
        rw [IqPools.sameExcept_giveBack_iff hback, KeepsPools]
        split_ifs with hnode
        · simp [hdropped, hnode]
        · simp [hdropped, hnode]
      next hfresh =>
        have hprocess := processSignal_sameExcept_iff (p := p) now maxLatencyNs
          hfresh h
        exact hprocess

theorem processDestinationSignal_sameExcept_iff {k : ℕ}
    {distance : FloatValue} {samples : ByteMemory.Mem}
    (h : ctx.processDestinationSignal pools k distance samples =
      .ok (pools', ctx')) :
    IqPools.SameExcept p pools pools' ↔
      ∀ item ∈ ctx.pending[k]?,
        ctx.numaNode = p ∨ sampleRatio ctx.sigCtx item.1 ≠ .finite 0 := by
  unfold processDestinationSignal at h
  split at h
  · cases h
  next dest buffer hk =>
    rw [hk, forall_mem_some_iff]
    split at h
    next hzero =>
      obtain ⟨pools₁, hback, hrest⟩ := exists_of_bind_eq_ok h
      cases hrest
      simp [IqPools.sameExcept_giveBack_iff hback, hzero]
    next hratio =>
      cases h
      exact ⟨fun _ => Or.inr hratio, fun _ _ _ => rfl⟩

end WorkerContext

/-! ## Steps -/

namespace State

variable {p : Fin (n + 1)} {s t : State n}

/-- All receivers and transmitters work with pool `p`. -/
structure SharedPool (p : Fin (n + 1)) (s : State n) : Prop where
  receivers : ∀ rx ∈ s.receivers, rx.iqPool = p
  transmitters : ∀ tx ∈ s.transmitters, tx.iqPool = p

/-- What a signal meets at the callback of its receiver stays out of the first
pool, unless that is pool `p`. -/
def CallbackKeeps (p : Fin (n + 1)) (s : State n) : Callback → Prop
  | .unset => True
  | .discard => p.val = 0
  | .worker w => ∀ ctx ∈ s.workers[w]?, p.val = 0 ∨ ctx.Accepts

/-- By what it finds, the step leaves the numbers of buffers in the pools other
than `p` as they are. -/
def KeepsPools (p : Fin (n + 1)) (s : State n) : Step → Prop
  | .deliver r | .add2Local r =>
      ∀ rx ∈ s.receivers[r]?, s.CallbackKeeps p rx.add2Queue
  | .workerLoop w now maxLatencyNs destinations =>
      ∀ ctx ∈ s.workers[w]?, ∀ sig ∈ ctx.queue.head?,
        ctx.KeepsPools p s.pools sig now maxLatencyNs destinations
  | .processDestinationSignal w k _ _ =>
      ∀ ctx ∈ s.workers[w]?, ∀ item ∈ ctx.pending[k]?,
        ctx.numaNode = p ∨
          WorkerContext.sampleRatio ctx.sigCtx item.1 ≠ .finite 0
  | .detachSource i r =>
      ∀ rx ∈ s.receivers[r]?, ∀ w ∈ s.sources.lookup (i, rx.nodeId),
        ∀ ctx ∈ s.workers[w]?, p.val = 0 ∨ ctx.queue.isEmpty = true
  | .recv .. | .add2Buff .. | .transmit .. | .attachSource .. => True

instance (p : Fin (n + 1)) (s : State n) (callback : Callback) :
    Decidable (s.CallbackKeeps p callback) :=
  match callback with
  | .unset => isTrue trivial
  | .discard => inferInstanceAs (Decidable (p.val = 0))
  | .worker w => inferInstanceAs (Decidable (∀ ctx ∈ s.workers[w]?, _ ∨ _))

instance (p : Fin (n + 1)) (s : State n) (a : Step) :
    Decidable (s.KeepsPools p a) :=
  match a with
  | .deliver r | .add2Local r =>
      inferInstanceAs
        (Decidable (∀ rx ∈ s.receivers[r]?, s.CallbackKeeps p rx.add2Queue))
  | .workerLoop w now maxLatencyNs destinations =>
      inferInstanceAs
        (Decidable (∀ ctx ∈ s.workers[w]?, ∀ sig ∈ ctx.queue.head?,
          ctx.KeepsPools p s.pools sig now maxLatencyNs destinations))
  | .processDestinationSignal w k _ _ =>
      inferInstanceAs
        (Decidable (∀ ctx ∈ s.workers[w]?, ∀ item ∈ ctx.pending[k]?, _ ∨ _))
  | .detachSource i r =>
      inferInstanceAs
        (Decidable (∀ rx ∈ s.receivers[r]?,
          ∀ w ∈ s.sources.lookup (i, rx.nodeId),
            ∀ ctx ∈ s.workers[w]?, _ ∨ _))
  | .recv .. | .add2Buff .. | .transmit .. | .attachSource .. => isTrue trivial

theorem forall_mem_set {α : Type} {P : α → Prop} {l : List α} {i : ℕ} {a : α}
    (hl : ∀ b ∈ l, P b) (ha : P a) : ∀ b ∈ l.set i a, P b := by
  intro b hb
  rcases List.mem_or_eq_of_mem_set hb with hmem | rfl
  · exact hl b hmem
  · exact ha

/-- An operation of a receiver on its own pool. -/
theorem SharedPool.atReceiver {r : ℕ}
    {op : DataArrayPool → Receiver n → Except Halt (DataArrayPool × Receiver n)}
    (hs : SharedPool p s)
    (hop : ∀ pool rx pool' rx', op pool rx = .ok (pool', rx') →
      rx'.iqPool = rx.iqPool ∧ rx'.add2Queue = rx.add2Queue)
    (h : s.atReceiver r op = .ok t) :
    SharedPool p t ∧ IqPools.SameExcept p s.pools t.pools ∧
      t.workers = s.workers ∧
      t.receivers[r]?.map Receiver.add2Queue =
        s.receivers[r]?.map Receiver.add2Queue := by
  unfold State.atReceiver at h
  split at h
  · cases h
  next rx hrx =>
    obtain ⟨⟨pool, rx'⟩, hcall, hrest⟩ := exists_of_bind_eq_ok h
    cases hrest
    obtain ⟨hpool, hcallback⟩ := hop _ _ _ _ hcall
    have hshared := hs.receivers rx (List.mem_of_getElem? hrx)
    have hlt := (List.getElem?_eq_some_iff.mp hrx).1
    refine ⟨⟨?_, hs.transmitters⟩, ?_, rfl, ?_⟩
    · exact forall_mem_set hs.receivers (hpool.trans hshared)
    · exact (IqPools.sameExcept_update_iff p _ _ _).mpr (Or.inl hshared)
    · rw [List.getElem?_set_self hlt, hrx, Option.map_some, Option.map_some,
        hcallback]

theorem SharedPool.atTransmitter {k : ℕ}
    {op : DataArrayPool → Transmitter n →
      Except Halt (DataArrayPool × Transmitter n)}
    (hs : SharedPool p s)
    (hop : ∀ pool tx pool' tx', op pool tx = .ok (pool', tx') →
      tx'.iqPool = tx.iqPool)
    (h : s.atTransmitter k op = .ok t) :
    SharedPool p t ∧ IqPools.SameExcept p s.pools t.pools := by
  unfold State.atTransmitter at h
  split at h
  · cases h
  next tx htx =>
    obtain ⟨⟨pool, tx'⟩, hcall, hrest⟩ := exists_of_bind_eq_ok h
    cases hrest
    have hshared := hs.transmitters tx (List.mem_of_getElem? htx)
    refine ⟨⟨hs.receivers, ?_⟩, ?_⟩
    · exact forall_mem_set hs.transmitters
        ((hop _ _ _ _ hcall).trans hshared)
    · exact (IqPools.sameExcept_update_iff p _ _ _).mpr (Or.inl hshared)

/-- An operation of a worker, which may use any pool. -/
theorem SharedPool.atWorker {w : ℕ}
    {op : IqPools n → WorkerContext n →
      Except Halt (IqPools n × WorkerContext n)}
    {Keeps : WorkerContext n → Prop} (hs : SharedPool p s)
    (hop : ∀ ctx pools' ctx', op s.pools ctx = .ok (pools', ctx') →
      (IqPools.SameExcept p s.pools pools' ↔ Keeps ctx))
    (h : s.atWorker w op = .ok t) :
    SharedPool p t ∧ (IqPools.SameExcept p s.pools t.pools ↔
      ∀ ctx ∈ s.workers[w]?, Keeps ctx) := by
  unfold State.atWorker at h
  split at h
  · cases h
  next ctx hctx =>
    obtain ⟨⟨pools', ctx'⟩, hcall, hrest⟩ := exists_of_bind_eq_ok h
    cases hrest
    rw [hctx, forall_mem_some_iff]
    exact ⟨⟨hs.receivers, hs.transmitters⟩, hop _ _ _ hcall⟩

theorem zero_eq_iff : 0 = p ↔ p.val = 0 :=
  eq_comm.trans Fin.val_eq_zero_iff.symm

/-- An operation on the first pool. -/
theorem sameExcept_onFirstPool_iff {Keeps : Prop}
    {op : DataArrayPool → WorkerContext n →
      Except Halt (DataArrayPool × WorkerContext n)}
    {pools pools' : IqPools n} {ctx ctx' : WorkerContext n}
    (hop : ∀ pool' ctx', op (pools 0) ctx = .ok (pool', ctx') →
      (pool'.available = (pools 0).available ↔ Keeps))
    (h : onFirstPool op pools ctx = .ok (pools', ctx')) :
    IqPools.SameExcept p pools pools' ↔ p.val = 0 ∨ Keeps := by
  obtain ⟨⟨pool, ctx₁⟩, hcall, hrest⟩ := exists_of_bind_eq_ok h
  cases hrest
  rw [IqPools.sameExcept_update_iff, hop _ _ hcall, zero_eq_iff]

/-! ## Handing a signal on -/

theorem SharedPool.handOver {r : ℕ} {callback : Callback} {sig : Signal}
    {enqueue : DataArrayPool → Receiver n → Signal →
      Except Halt (DataArrayPool × Receiver n)}
    (hs : SharedPool p s)
    (henqueue : ∀ pool rx pool' rx', enqueue pool rx sig = .ok (pool', rx') →
      rx'.iqPool = rx.iqPool ∧ rx'.add2Queue = rx.add2Queue)
    (h : s.handOver r callback sig enqueue = .ok t) :
    SharedPool p t ∧ (IqPools.SameExcept p s.pools t.pools ↔
      s.CallbackKeeps p callback) := by
  cases callback with
  | unset =>
      obtain ⟨hshared, hsame, -, -⟩ := hs.atReceiver henqueue h
      exact ⟨hshared, fun _ => trivial, fun _ => hsame⟩
  | worker w =>
      refine hs.atWorker (fun ctx pools' ctx' hcall => ?_) h
      exact sameExcept_onFirstPool_iff
        (fun _ _ hback => WorkerContext.callback_available_iff hback) hcall
  | discard =>
      obtain ⟨pools', hback, hrest⟩ := exists_of_bind_eq_ok h
      cases hrest
      exact ⟨⟨hs.receivers, hs.transmitters⟩,
        (IqPools.sameExcept_giveBack_iff hback).trans zero_eq_iff⟩

theorem SharedPool.takeReceived {r : ℕ} {callback : Callback} {sig : Signal}
    (hs : SharedPool p s)
    (h : s.takeReceived r = .ok (callback, sig, t)) :
    SharedPool p t ∧ t.pools = s.pools ∧ t.workers = s.workers ∧
      s.receivers[r]?.map Receiver.add2Queue = some callback := by
  unfold State.takeReceived at h
  split at h
  · cases h
  next rx hrx =>
    split at h
    · cases h
    · cases h
      refine ⟨⟨?_, hs.transmitters⟩, rfl, rfl, ?_⟩
      · exact forall_mem_set hs.receivers
          (hs.receivers rx (List.mem_of_getElem? hrx))
      · rw [hrx]
        rfl

theorem callbackKeeps_congr {callback : Callback}
    (h : t.workers = s.workers) :
    t.CallbackKeeps p callback ↔ s.CallbackKeeps p callback := by
  cases callback <;> simp only [CallbackKeeps, h]

theorem forall_callbackKeeps_iff {r : ℕ} {callback : Callback}
    (h : s.receivers[r]?.map Receiver.add2Queue = some callback) :
    (∀ rx ∈ s.receivers[r]?, s.CallbackKeeps p rx.add2Queue) ↔
      s.CallbackKeeps p callback := by
  obtain ⟨rx, hrx, rfl⟩ := Option.map_eq_some_iff.mp h
  rw [hrx, forall_mem_some_iff]

theorem receiver_recv_same {pool pool' : DataArrayPool} {rx rx' : Receiver n}
    {hdr : Header} {os : List UDPServer.SocketOutcome}
    (h : rx.recv pool hdr os = .ok (pool', rx')) :
    rx'.iqPool = rx.iqPool ∧ rx'.add2Queue = rx.add2Queue := by
  unfold Receiver.recv at h
  split at h
  · cases h
  · dsimp only at h
    split at h
    · cases h
    · cases h
      exact ⟨rfl, rfl⟩
    · cases h
      exact ⟨rfl, rfl⟩

theorem receiver_makeRoom_same {pool pool' : DataArrayPool}
    {rx rx' : Receiver n} (h : rx.makeRoom pool = .ok (pool', rx')) :
    rx'.iqPool = rx.iqPool ∧ rx'.add2Queue = rx.add2Queue := by
  obtain ⟨⟨pool₁, queue⟩, -, hrest⟩ := exists_of_bind_eq_ok h
  cases hrest
  exact ⟨rfl, rfl⟩

theorem receiver_enqueue_same {pool pool' : DataArrayPool}
    {rx rx' : Receiver n} {sig : Signal}
    (h : rx.enqueue pool sig = .ok (pool', rx')) :
    rx'.iqPool = rx.iqPool ∧ rx'.add2Queue = rx.add2Queue := by
  obtain ⟨⟨pool₁, queue⟩, -, hrest⟩ := exists_of_bind_eq_ok h
  cases hrest
  exact ⟨rfl, rfl⟩

theorem receiver_add2Buff_same {pool pool' : DataArrayPool}
    {rx rx' : Receiver n} {sig : Signal}
    (h : rx.add2Buff pool sig = .ok (pool', rx')) :
    rx'.iqPool = rx.iqPool ∧ rx'.add2Queue = rx.add2Queue := by
  unfold Receiver.add2Buff at h
  split at h
  · obtain ⟨⟨pool₁, queue⟩, -, hrest⟩ := exists_of_bind_eq_ok h
    obtain ⟨pool₂, -, hrest⟩ := exists_of_bind_eq_ok hrest
    cases hrest
    exact ⟨rfl, rfl⟩
  · cases h
    exact ⟨rfl, rfl⟩

theorem transmitter_add2Buff_same {pool pool' : DataArrayPool}
    {tx tx' : Transmitter n} {sig : Signal}
    (h : tx.add2Buff pool sig = .ok (pool', tx')) :
    tx'.iqPool = tx.iqPool := by
  unfold Transmitter.add2Buff at h
  split at h
  · split at h
    · obtain ⟨pool₁, -, hrest⟩ := exists_of_bind_eq_ok h
      cases hrest
      rfl
    · obtain ⟨pool₁, -, hrest⟩ := exists_of_bind_eq_ok h
      obtain ⟨pool₂, -, hrest⟩ := exists_of_bind_eq_ok hrest
      cases hrest
      rfl
  · cases h
    rfl

theorem transmitter_transmit_same {pool pool' : DataArrayPool}
    {tx tx' : Transmitter n} {sendTime : Int64} {env : UDPClient.SendEnv}
    (h : tx.transmit pool sendTime env = .ok (pool', tx')) :
    tx'.iqPool = tx.iqPool := by
  unfold Transmitter.transmit at h
  split at h
  · cases h
  · split at h
    · cases h
    · split at h
      · obtain ⟨pool₁, -, hrest⟩ := exists_of_bind_eq_ok h
        cases hrest
        rfl
      · split at h
        · cases h
          rfl
        · cases h

/-! ## What a step does to the other pools -/

theorem SharedPool.deliver {r : ℕ} (hs : SharedPool p s)
    (h : s.deliver r = .ok t) :
    SharedPool p t ∧ (IqPools.SameExcept p s.pools t.pools ↔
      KeepsPools p s (.deliver r)) := by
  obtain ⟨s₁, hroom, hrest⟩ := exists_of_bind_eq_ok h
  obtain ⟨⟨callback, sig, s₂⟩, htake, hrest⟩ := exists_of_bind_eq_ok hrest
  obtain ⟨hs₁, hsame, hworkers, hcallbacks⟩ :=
    hs.atReceiver (fun _ _ _ _ => receiver_makeRoom_same) hroom
  obtain ⟨hs₂, hpools, hworkers', hcallback⟩ := hs₁.takeReceived htake
  obtain ⟨ht, hiff⟩ :=
    hs₂.handOver (fun _ _ _ _ => receiver_enqueue_same) hrest
  refine ⟨ht, ?_⟩
  rw [hcallbacks] at hcallback
  rw [KeepsPools, forall_callbackKeeps_iff hcallback,
    ← callbackKeeps_congr (hworkers'.trans hworkers), ← hiff, hpools]
  -- making room in the receiver's own queue changes pool `p` only
  constructor
  · intro hall i hi
    rw [hall i hi, hsame i hi]
  · intro hall i hi
    rw [hall i hi, hsame i hi]

theorem SharedPool.add2Local {r : ℕ} (hs : SharedPool p s)
    (h : s.add2Local r = .ok t) :
    SharedPool p t ∧ (IqPools.SameExcept p s.pools t.pools ↔
      KeepsPools p s (.add2Local r)) := by
  obtain ⟨⟨callback, sig, s₁⟩, htake, hrest⟩ := exists_of_bind_eq_ok h
  obtain ⟨hs₁, hpools, hworkers, hcallback⟩ := hs.takeReceived htake
  obtain ⟨ht, hiff⟩ :=
    hs₁.handOver (fun _ _ _ _ => receiver_add2Buff_same) hrest
  refine ⟨ht, ?_⟩
  rw [KeepsPools, forall_callbackKeeps_iff hcallback,
    ← callbackKeeps_congr hworkers, ← hiff, hpools]

theorem SharedPool.add2Buff {w k : ℕ} (hs : SharedPool p s)
    (h : s.add2Buff w k = .ok t) :
    SharedPool p t ∧ IqPools.SameExcept p s.pools t.pools := by
  unfold State.add2Buff at h
  split at h
  · cases h
  next ctx hctx =>
    split at h
    · cases h
    · refine SharedPool.atTransmitter (s := { s with
          workers := s.workers.set w
            { ctx with outgoing := ctx.outgoing.eraseIdx k } })
        ⟨hs.receivers, hs.transmitters⟩ ?_ h
      intro pool tx pool' tx' hcall
      exact transmitter_add2Buff_same hcall

theorem SharedPool.attachSource {i r : ℕ} {node : ℤ} (hs : SharedPool p s)
    (h : s.attachSource i r node = .ok t) :
    SharedPool p t ∧ t.pools = s.pools := by
  unfold State.attachSource at h
  split at h
  · cases h
  next rx hrx =>
    have hshared := hs.receivers rx (List.mem_of_getElem? hrx)
    split at h
    · cases h
      exact ⟨hs, rfl⟩
    · cases h
      exact ⟨⟨forall_mem_set hs.receivers hshared, hs.transmitters⟩, rfl⟩

theorem SharedPool.detachSource {i r : ℕ} (hs : SharedPool p s)
    (h : s.detachSource i r = .ok t) :
    SharedPool p t ∧ (IqPools.SameExcept p s.pools t.pools ↔
      KeepsPools p s (.detachSource i r)) := by
  unfold State.detachSource at h
  split at h
  · cases h
  next rx hrx =>
    have hshared := hs.receivers rx (List.mem_of_getElem? hrx)
    split at h
    next hnone =>
      cases h
      refine ⟨hs, fun _ => ?_, fun _ _ _ => rfl⟩
      simp [KeepsPools, hrx, hnone]
    next w hw =>
      have hs' : SharedPool p { s with
          receivers := s.receivers.set r { rx with add2Queue := .discard }
          sources := s.sources.erase (i, rx.nodeId) } :=
        ⟨forall_mem_set hs.receivers hshared, hs.transmitters⟩
      obtain ⟨ht, hiff⟩ := hs'.atWorker
        (fun _ _ _ hcall => sameExcept_onFirstPool_iff
          (fun _ _ hstop => WorkerContext.shutdown_available_iff hstop) hcall) h
      rw [KeepsPools, hrx, forall_mem_some_iff, hw, forall_mem_some_iff]
      exact ⟨ht, hiff⟩

/-- A step leaves the other pools as they are exactly when `KeepsPools` says
so of the state it starts in. -/
theorem SharedPool.perform {a : Step} (hs : SharedPool p s)
    (h : s.perform a = .ok t) :
    SharedPool p t ∧
      (IqPools.SameExcept p s.pools t.pools ↔ KeepsPools p s a) := by
  cases a with
  | recv r hdr os =>
      have hcall : (s.atReceiver r fun pool rx => rx.recv pool hdr os) =
          .ok t := h
      obtain ⟨ht, hsame, -, -⟩ :=
        hs.atReceiver (fun _ _ _ _ => receiver_recv_same) hcall
      exact ⟨ht, fun _ => trivial, fun _ => hsame⟩
  | deliver r => exact hs.deliver h
  | add2Local r => exact hs.add2Local h
  | workerLoop w now maxLatencyNs destinations =>
      have hcall : (s.atWorker w fun pools ctx =>
          ctx.workerLoop pools now maxLatencyNs destinations) = .ok t := h
      exact hs.atWorker
        (fun _ _ _ => WorkerContext.workerLoop_sameExcept_iff) hcall
  | processDestinationSignal w k distance samples =>
      have hcall : (s.atWorker w fun pools ctx =>
          ctx.processDestinationSignal pools k distance samples) = .ok t := h
      exact hs.atWorker
        (fun _ _ _ =>
          WorkerContext.processDestinationSignal_sameExcept_iff) hcall
  | add2Buff w k =>
      obtain ⟨ht, hsame⟩ := hs.add2Buff h
      exact ⟨ht, fun _ => trivial, fun _ => hsame⟩
  | transmit k sendTime env =>
      have hcall : (s.atTransmitter k fun pool tx =>
          tx.transmit pool sendTime env) = .ok t := h
      obtain ⟨ht, hsame⟩ :=
        hs.atTransmitter (fun _ _ _ _ => transmitter_transmit_same) hcall
      exact ⟨ht, fun _ => trivial, fun _ => hsame⟩
  | attachSource i r node =>
      obtain ⟨ht, hpools⟩ := hs.attachSource h
      exact ⟨ht, fun _ => trivial, fun _ i _ => by rw [hpools]⟩
  | detachSource i r => exact hs.detachSource h

/-! ## Runs -/

/-- No buffer is queued or in use. -/
def Idle (s : State n) : Prop :=
  ∀ place : Place n, (∀ i, place ≠ .pool i) → s.contents place = []

/-- When no buffer is queued or in use, every pool holds as many buffers as it
was created with. -/
def Balanced (c : Config n) (s : State n) : Prop :=
  s.Idle → ∀ i, (s.contents (.pool i)).length = c.capacity i

theorem length_contents_pool (s : State n) (i : Fin (n + 1)) :
    (s.contents (.pool i)).length = (s.pools i).available := by
  simp [contents, DataArrayPool.available]

theorem idle_of_places (h : ∀ place ∈ s.places,
    match place with
    | .pool _ => True
    | place => s.contents place = []) : s.Idle := by
  intro place hplace
  apply List.eq_nil_iff_forall_not_mem.mpr
  intro b hb
  have hempty := h place (mem_places hb)
  cases place with
  | pool i => exact hplace i rfl
  | received r | localQueue r | workerQueue k | pending k | outgoing k
  | transmitterQueue k =>
      rw [hempty] at hb
      cases hb

/-- At rest, the pools hold all buffers. -/
theorem Idle.sum_pools (hs : s.Idle) :
    (s.places.map fun place => (s.contents place).length).sum =
      ∑ i, (s.pools i).available := by
  have hnone : ∀ place, (∀ i, place ≠ Place.pool i) →
      (s.contents place).length = 0 := by
    intro place hplace
    rw [hs place hplace, List.length_nil]
  have hpools : (((List.finRange (n + 1)).map Place.pool).map
      fun place => (s.contents place).length).sum =
        ∑ i, (s.pools i).available := by
    rw [List.map_map, Fin.sum_univ_def]
    simp only [Function.comp_def, length_contents_pool]
  have hrest : ∀ places : List (Place n),
      (∀ place ∈ places, ∀ i, place ≠ Place.pool i) →
      (places.map fun place => (s.contents place).length).sum = 0 := by
    intro places hplaces
    apply List.sum_eq_zero
    intro count hcount
    obtain ⟨place, hmem, rfl⟩ := List.mem_map.mp hcount
    exact hnone place (hplaces place hmem)
  rw [places, List.append_assoc, List.append_assoc, List.map_append,
    List.sum_append, hpools, hrest, Nat.add_zero]
  intro place hplace i heq
  subst heq
  simp at hplace

theorem Conserved.balanced {c : Config n} (hs : Conserved c s)
    (hothers : ∀ i, i ≠ p → (s.pools i).available = c.capacity i) :
    Balanced c s := by
  intro hidle i
  have htotal := hs.total
  rw [hidle.sum_pools] at htotal
  rw [length_contents_pool]
  by_cases hi : i = p
  · subst hi
    have hsum : ∑ j ∈ Finset.univ.erase i, (s.pools j).available =
        ∑ j ∈ Finset.univ.erase i, c.capacity j := by
      apply Finset.sum_congr rfl
      intro j hj
      exact hothers j (Finset.ne_of_mem_erase hj)
    have hleft := Finset.add_sum_erase Finset.univ
      (fun j => (s.pools j).available) (Finset.mem_univ i)
    have hright := Finset.add_sum_erase Finset.univ c.capacity
      (Finset.mem_univ i)
    omega
  · exact hothers i hi

end State

/-- The constructor of the controller: every receiver and every transmitter is
created with the one pool `iq_pool`. -/
def Config.shared (capacity : Fin (n + 1) → ℕ) (iqPool : Fin (n + 1))
    (receivers : List String) (ports : List UInt16) : Config n where
  capacity := capacity
  receivers := receivers.map fun id => (id, iqPool)
  transmitters := ports.map fun port => (iqPool, port)

/-- `per_node_cap` for `n + 1` nodes. -/
def perNodeCap (n : ℕ) : ℕ := max 1 (iqPoolCap / (n + 1))

namespace State

theorem sharedPool_initial (capacity : Fin (n + 1) → ℕ)
    (iqPool : Fin (n + 1)) (receivers : List String) (ports : List UInt16) :
    SharedPool iqPool (initial (.shared capacity iqPool receivers ports)) where
  receivers rx hrx := by
    obtain ⟨x, hx, rfl⟩ := List.mem_map.mp hrx
    obtain ⟨id, -, rfl⟩ := List.mem_map.mp hx
    rfl
  transmitters tx htx := by
    obtain ⟨x, hx, rfl⟩ := List.mem_map.mp htx
    obtain ⟨port, -, rfl⟩ := List.mem_map.mp hx
    rfl

/-- The pools that nobody is given keep their buffers along a run exactly when
every step does. -/
theorem othersFull_iff_keepsPools (capacity : Fin (n + 1) → ℕ)
    (iqPool : Fin (n + 1)) (receivers : List String) (ports : List UInt16)
    (steps : List Step) :
    EveryState step
      (fun s => ∀ i, i ≠ iqPool → (s.pools i).available = capacity i)
      (initial (.shared capacity iqPool receivers ports)) steps ↔
    EveryStep step
      (fun s a => (s.step a).isSome = true → KeepsPools iqPool s a)
      (initial (.shared capacity iqPool receivers ports)) steps := by
  have hshared : ∀ s a t, SharedPool iqPool s → step s a = some t →
      SharedPool iqPool t :=
    fun _ _ _ hs hstep => (hs.perform (perform_of_step hstep)).1
  refine everyState_iff_everyStep hshared ?_ ?_ ?_ ?_ steps
  · intro s a t hs hfull hstep
    rw [hstep, ← (hs.perform (perform_of_step hstep)).2]
    constructor
    · intro hfull' _ i hi
      rw [hfull' i hi, hfull i hi]
    · intro hsame i hi
      rw [hsame rfl i hi, hfull i hi]
  · intro s a _ hnone hsome
    rw [hnone] at hsome
    cases hsome
  · exact sharedPool_initial capacity iqPool receivers ports
  · intro i _
    simp [initial, Config.shared, DataArrayPool.filled,
      DataArrayPool.available]

/-- In a run of steps that leave the other pools alone, every pool is as full
as it was created whenever no buffer is queued or in use. -/
theorem pools_balanced (capacity : Fin (n + 1) → ℕ) (iqPool : Fin (n + 1))
    (receivers : List String) (ports : List UInt16) (steps : List Step)
    (hsteps : EveryStep step (KeepsPools iqPool)
      (initial (.shared capacity iqPool receivers ports)) steps) :
    EveryState step (Balanced (.shared capacity iqPool receivers ports))
      (initial (.shared capacity iqPool receivers ports)) steps := by
  have hfull := (othersFull_iff_keepsPools capacity iqPool receivers ports
    steps).mpr (hsteps.imp fun _ _ hkeeps _ => hkeeps)
  have hconserved :=
    buffers_conserved (.shared capacity iqPool receivers ports) steps
  apply (hconserved.and hfull).imp
  rintro s ⟨hs, hothers⟩
  exact hs.balanced hothers

/-- A run with two pools in which the second node's worker serves one
destination. -/
def balancedRun : List Step :=
  [.attachSource 0 0 1,
    .recv 0 Header.zero [.packets [UDPServer.twoByteStart 5 2]],
    .deliver 0,
    .workerLoop 0 0 10 [⟨0, 0, 1⟩],
    .processDestinationSignal 0 0 (.finite 0) fun _ => 0,
    .add2Buff 0 0,
    .transmit 0 0 ⟨fun _ => 0, ⟨0, 0, 0, 0, 0⟩, 0⟩]

theorem pools_balanced_two_nodes :
    EveryState step
      (Balanced (.shared (fun _ : Fin 2 => perNodeCap 1) 0 ["A"] [5000]))
      (initial (.shared (fun _ : Fin 2 => perNodeCap 1) 0 ["A"] [5000]))
      balancedRun :=
  pools_balanced (fun _ => perNodeCap 1) 0 ["A"] [5000] balancedRun
    (by decide +kernel)

/-- A burst that has become too old when the worker on the second node comes to
it: its buffer was taken from the first pool and is returned to the second. -/
theorem late_burst_drifts :
    ¬EveryState step
      (Balanced (.shared (fun _ : Fin 2 => perNodeCap 1) 0 ["A"] [5000]))
      (initial (.shared (fun _ : Fin 2 => perNodeCap 1) 0 ["A"] [5000]))
      [.attachSource 0 0 1,
        .recv 0 Header.zero [.packets [UDPServer.twoByteStart 5 2]],
        .deliver 0,
        .workerLoop 0 100 10 [⟨0, 0, 1⟩]] := by
  intro hbalanced
  have hcheck : (run step
      (initial (.shared (fun _ : Fin 2 => perNodeCap 1) 0 ["A"] [5000]))
      [.attachSource 0 0 1,
        .recv 0 Header.zero [.packets [UDPServer.twoByteStart 5 2]],
        .deliver 0,
        .workerLoop 0 100 10 [⟨0, 0, 1⟩]]).any (fun s =>
      (s.places.all fun
        | .pool _ => true
        | place => (s.contents place).isEmpty) &&
      decide ((s.contents (.pool 0)).length = 999) &&
      decide ((s.contents (.pool 1)).length = 1001)) = true := by
    decide +kernel
  obtain ⟨s, hrun, hs⟩ := (Option.any_eq_true _ _).mp hcheck
  simp only [Bool.and_eq_true, List.all_eq_true, decide_eq_true_eq] at hs
  obtain ⟨⟨hplaces, hfirst⟩, -⟩ := hs
  have hidle : s.Idle := by
    apply idle_of_places
    intro place hplace
    have hempty := hplaces place hplace
    cases place with
    | pool i => trivial
    | received r | localQueue r | workerQueue k | pending k | outgoing k
    | transmitterQueue k => exact List.isEmpty_iff.mp hempty
  have hcapacity := hbalanced.of_run hrun hidle 0
  rw [hfirst] at hcapacity
  exact absurd hcapacity (by decide)

end State

end Pipeline
end Chem
