import ChemEmulator.Pipeline.PoolBalance
import ChemEmulator.Support.BoundedQueue

/-!
# Overflow of the signal queues

`Transmitter::Add2Buff`, `Receiver::Add2Buff` of a receiver that is not
attached, and the callback that `AttachSource` installs, over any sequence of
signals that nobody takes out.  All three give up a signal when the queue has
`QUEUE_CAP - 1` of them: transmitters the one that starts first, the other two
the one that has waited longest.

The callback inserts the new signal then.  The two `Add2Buff` return before they
do, so two signals are lost at once.  A sequence of pushes leaves the most
recent signals exactly if none of them finds the queue at the limit.
-/

namespace Chem

open BoundedQueue Outcome

theorem SignalQueue.picks_popEarliest : Picks SignalQueue.popEarliest :=
  ⟨fun h => eq_nil_of_popEarliest_none h, fun h => popEarliest_perm h⟩

namespace Pipeline

variable {S : Type} {n : ℕ}

/-! ## Sequences of pushes -/

/-- One operation that inserts a signal into a queue; what it drops goes back
to the pool. -/
abbrev Push (S : Type) :=
  DataArrayPool → S → Signal → Except Halt (DataArrayPool × S)

def Push.all (push : Push S) :
    DataArrayPool → S → List Signal → Except Halt (DataArrayPool × S)
  | pool, s, [] => .ok (pool, s)
  | pool, s, sig :: sigs => do
      let (pool, s) ← push pool s sig
      all push pool s sigs

/-- After every signal of the sequence the queue holds what is left when each
overflow displaces one signal, and one buffer has gone back to the pool for
each signal that the queue does not hold. -/
def KeepsMostRecent (push : Push S) (queue : S → List Signal)
    (pick : List Signal → Option (Signal × List Signal)) (pool : DataArrayPool)
    (s : S) (sigs : List Signal) : Prop :=
  ∀ k, k ≤ sigs.length → ∃ pool' s',
    push.all pool s (sigs.take k) = .ok (pool', s') ∧
    (queue s').Perm
      ((sigs.take k).foldl (displace pick (queueCap - 1)) (queue s)) ∧
    pool'.available + (queue s').length =
      pool.available + (queue s).length + k

section Sequences

variable {push : Push S} {queue : S → List Signal}
variable {pick : List Signal → Option (Signal × List Signal)}
variable {pool : DataArrayPool} {s : S} {sig : Signal} {sigs : List Signal}

theorem keepsMostRecent_nil : KeepsMostRecent push queue pick pool s [] := by
  intro k hk
  obtain rfl := Nat.le_zero.mp hk
  exact ⟨pool, s, rfl, List.Perm.refl _, rfl⟩

/-- A push that does what it should hands the sequence on. -/
theorem keepsMostRecent_cons {pool' : DataArrayPool} {s' : S}
    (hpush : push pool s sig = .ok (pool', s'))
    (hqueue : queue s' = displace pick (queueCap - 1) (queue s) sig)
    (hpool : pool'.available + (queue s').length =
      pool.available + (queue s).length + 1) :
    KeepsMostRecent push queue pick pool s (sig :: sigs) ↔
      KeepsMostRecent push queue pick pool' s' sigs := by
  have hall : ∀ sigs, push.all pool s (sig :: sigs) =
      push.all pool' s' sigs := by
    intro sigs
    rw [Push.all, hpush]
    rfl
  constructor
  · intro h k hk
    obtain ⟨pool'', s'', hrun, hperm, hcount⟩ := h (k + 1)
      (Nat.succ_le_succ hk)
    rw [List.take_succ_cons] at hrun hperm
    refine ⟨pool'', s'', (hall _).symm.trans hrun, ?_, by omega⟩
    rwa [hqueue]
  · intro h k hk
    match k with
    | 0 => exact ⟨pool, s, rfl, List.Perm.refl _, rfl⟩
    | k + 1 =>
        obtain ⟨pool'', s'', hrun, hperm, hcount⟩ := h k
          (Nat.le_of_succ_le_succ hk)
        rw [List.take_succ_cons]
        refine ⟨pool'', s'', (hall _).trans hrun, ?_, by omega⟩
        rwa [hqueue] at hperm

/-! ## Giving up the new signal -/

/-- A push that gives up the new signal together with the picked one. -/
structure Forgoes (push : Push S) (queue : S → List Signal)
    (pick : List Signal → Option (Signal × List Signal)) : Prop where
  below : ∀ pool s sig, (queue s).length < queueCap - 1 →
    ∃ s', push pool s sig = .ok (pool, s') ∧ queue s' = queue s ++ [sig]
  full : ∀ {pool s sig pool' s'}, queueCap - 1 ≤ (queue s).length →
    push pool s sig = .ok (pool', s') →
    queue s' = forgo pick (queueCap - 1) (queue s) sig

/-- At the limit such a push goes wrong. -/
theorem Forgoes.not_keepsMostRecent (h : Forgoes push queue pick)
    (hpick : Picks pick) (hfull : queueCap - 1 ≤ (queue s).length) :
    ¬KeepsMostRecent push queue pick pool s (sig :: sigs) := by
  intro hkeeps
  obtain ⟨pool', s', hrun, hperm, -⟩ := hkeeps 1 (Nat.succ_le_succ
    (Nat.zero_le _))
  obtain ⟨⟨pool₁, s₁⟩, hpush, hrest⟩ := exists_of_bind_eq_ok hrun
  cases hrest
  rw [h.full hfull hpush] at hperm
  exact not_perm_of_le hpick (by decide) hfull sig hperm

theorem Forgoes.recent_iff (h : Forgoes push queue pick)
    (hpick : Picks pick) (pool : DataArrayPool) (s : S) (sigs : List Signal) :
    KeepsMostRecent push queue pick pool s sigs ↔
      sigs = [] ∨ (queue s).length + sigs.length ≤ queueCap - 1 := by
  induction sigs generalizing pool s with
  | nil => exact iff_of_true keepsMostRecent_nil (.inl rfl)
  | cons sig sigs ih =>
      rcases Nat.lt_or_ge (queue s).length (queueCap - 1) with hlt | hfull
      · obtain ⟨s', hpush, hqueue⟩ := h.below pool s sig hlt
        have hlength : (queue s').length = (queue s).length + 1 := by
          rw [hqueue, List.length_append, List.length_singleton]
        rw [keepsMostRecent_cons hpush
          (hqueue.trans (displace_of_lt hlt sig).symm) (by omega), ih, hlength]
        simp only [List.length_cons, reduceCtorEq, false_or]
        constructor
        · rintro (rfl | hle)
          · exact hlt
          · omega
        · intro hle
          right
          omega
      · refine iff_of_false (h.not_keepsMostRecent hpick hfull) ?_
        simp only [List.length_cons, reduceCtorEq, false_or]
        omega

end Sequences

/-! ## The three places -/

theorem Transmitter.add2Buff_forgoes :
    Forgoes (Transmitter.add2Buff (n := n)) Transmitter.queue
      SignalQueue.popEarliest where
  below pool tx sig hlt := by
    refine ⟨{ tx with queue := tx.queue ++ [sig] }, ?_, rfl⟩
    exact if_neg (Nat.not_le_of_lt hlt)
  full {pool tx sig pool' tx'} hfull h := by
    rw [add2Buff, if_pos hfull] at h
    rw [forgo, if_pos hfull, others]
    cases hpop : SignalQueue.popEarliest tx.queue with
    | none =>
        rw [hpop] at h
        obtain ⟨pool₁, -, hrest⟩ := exists_of_bind_eq_ok h
        cases hrest
        rfl
    | some popped =>
        obtain ⟨oldest, rest⟩ := popped
        rw [hpop] at h
        obtain ⟨pool₁, -, hrest⟩ := exists_of_bind_eq_ok h
        obtain ⟨pool₂, -, hrest⟩ := exists_of_bind_eq_ok hrest
        cases hrest
        rfl

theorem Receiver.add2Buff_forgoes :
    Forgoes (Receiver.add2Buff (n := n)) Receiver.queue front where
  below pool rx sig hlt := by
    refine ⟨{ rx with queue := rx.queue ++ [sig] }, ?_, rfl⟩
    exact if_neg (Nat.not_le_of_lt hlt)
  full {pool rx sig pool' rx'} hfull h := by
    rw [add2Buff, if_pos hfull] at h
    rw [forgo, if_pos hfull, others]
    obtain ⟨⟨pool₁, queue⟩, hdrop, hrest⟩ := exists_of_bind_eq_ok h
    obtain ⟨pool₂, -, hrest⟩ := exists_of_bind_eq_ok hrest
    cases hrest
    cases hqueue : rx.queue with
    | nil =>
        rw [hqueue] at hdrop
        cases hdrop
        rfl
    | cons oldest rest =>
        rw [hqueue] at hdrop
        obtain ⟨pool₃, -, hrest⟩ := exists_of_bind_eq_ok hdrop
        cases hrest
        rfl

theorem giveBack_of_isSome (pool : DataArrayPool) {item : Option DArray}
    (h : item.isSome = true) : ∃ pool', pool.giveBack item = .ok pool' ∧
      pool'.available = pool.available + 1 := by
  obtain ⟨a, rfl⟩ := Option.isSome_iff_exists.mp h
  exact ⟨_, rfl, DataArrayPool.available_release_some pool a⟩

/-- Making room and inserting. -/
theorem makeRoom_displaces (pool : DataArrayPool) {queue : List Signal}
    (hqueue : ∀ old ∈ queue, old.iqData.isSome = true)
    (hcap : queue.length ≤ queueCap) (sig : Signal) :
    ∃ pool' room, SignalQueue.makeRoom (queueCap - 1) pool queue =
        .ok (pool', room) ∧ room.length < queueCap ∧
      room ++ [sig] = displace front (queueCap - 1) queue sig ∧
      pool'.available + room.length = pool.available + queue.length := by
  rw [SignalQueue.makeRoom, displace, others]
  split_ifs with hfull
  · match queue with
    | [] => exact absurd hfull (by decide)
    | oldest :: rest =>
        obtain ⟨pool', hback, hcount⟩ :=
          giveBack_of_isSome pool (hqueue oldest List.mem_cons_self)
        rw [List.length_cons] at hcap
        refine ⟨pool', rest, ?_, hcap, rfl, ?_⟩
        · rw [SignalQueue.dropOldest, hback]
          rfl
        · rw [hcount, List.length_cons]
          omega
  · exact ⟨pool, queue, rfl, by omega, rfl, rfl⟩

namespace WorkerContext

/-- The callback of a running worker displaces the longest waiting signal. -/
theorem callback_displaces (pool : DataArrayPool) {ctx : WorkerContext n}
    (hrunning : ctx.runningFlag = true)
    (hqueue : ∀ old ∈ ctx.queue, old.iqData.isSome = true)
    (hcap : ctx.queue.length ≤ queueCap) (sig : Signal) :
    ∃ pool', ctx.callback pool sig = .ok (pool', { ctx with
        queue := displace front (queueCap - 1) ctx.queue sig }) ∧
      pool'.available + (displace front (queueCap - 1) ctx.queue sig).length =
        pool.available + ctx.queue.length + 1 := by
  obtain ⟨pool', room, hroom, hlength, hqueue, hcount⟩ :=
    makeRoom_displaces pool hqueue hcap sig
  refine ⟨pool', ?_, ?_⟩
  · rw [callback, if_neg (ne_false_of_eq_true hrunning), hroom]
    change (SignalQueue.pushOrRelease pool' room sig >>= _) = _
    rw [SignalQueue.pushOrRelease, if_pos hlength, ← hqueue]
    rfl
  · rw [← hqueue, List.length_append, List.length_singleton]
    omega

/-- The queue after a sequence of signals. -/
theorem callback_all (pool : DataArrayPool) {ctx : WorkerContext n}
    (hrunning : ctx.runningFlag = true)
    (hqueue : ∀ old ∈ ctx.queue, old.iqData.isSome = true)
    (hcap : ctx.queue.length ≤ queueCap) {sigs : List Signal}
    (hsigs : ∀ sig ∈ sigs, sig.iqData.isSome = true) :
    let queue := sigs.foldl (displace front (queueCap - 1)) ctx.queue
    ∃ pool', Push.all (fun pool ctx sig => ctx.callback pool sig) pool ctx
        sigs = .ok (pool', { ctx with queue := queue }) ∧
      pool'.available + queue.length =
        pool.available + ctx.queue.length + sigs.length := by
  induction sigs generalizing pool ctx with
  | nil => exact ⟨pool, rfl, rfl⟩
  | cons sig sigs ih =>
      obtain ⟨pool₁, hpush, hcount⟩ :=
        callback_displaces pool hrunning hqueue hcap sig
      have hlength := length_displace picks_front (show 0 < queueCap - 1 by
        decide) ctx.queue sig
      have hle : (displace front (queueCap - 1) ctx.queue sig).length ≤
          queueCap := by
        rw [hlength]
        split_ifs <;> omega
      have hloaded : ∀ old ∈ displace front (queueCap - 1) ctx.queue sig,
          old.iqData.isSome = true := by
        intro old hold
        rcases mem_of_mem_displace picks_front hold with hmem | rfl
        · exact hqueue old hmem
        · exact hsigs _ List.mem_cons_self
      obtain ⟨pool₂, hrun, hrest⟩ := @ih pool₁ { ctx with
          queue := displace front (queueCap - 1) ctx.queue sig } hrunning
        hloaded hle fun later hlater => hsigs later (.tail sig hlater)
      refine ⟨pool₂, ?_, ?_⟩
      · rw [Push.all, hpush]
        exact hrun
      · rw [List.foldl_cons, List.length_cons]
        dsimp only at hrest
        omega

theorem callback_keepsMostRecent (pool : DataArrayPool) {ctx : WorkerContext n}
    (hrunning : ctx.runningFlag = true)
    (hqueue : ∀ old ∈ ctx.queue, old.iqData.isSome = true)
    (hcap : ctx.queue.length ≤ queueCap) {sigs : List Signal}
    (hsigs : ∀ sig ∈ sigs, sig.iqData.isSome = true) :
    KeepsMostRecent (fun pool ctx sig => ctx.callback pool sig)
      WorkerContext.queue front pool ctx sigs := by
  intro k hk
  obtain ⟨pool', hrun, hcount⟩ := callback_all pool hrunning hqueue hcap
    fun sig hsig => hsigs sig (List.mem_of_mem_take hsig)
  rw [List.length_take, Nat.min_eq_left hk] at hcount
  exact ⟨pool', _, hrun, List.Perm.refl _, hcount⟩

/-- A worker is left with the last `QUEUE_CAP - 1` signals. -/
theorem callback_all_eq_drop (pool : DataArrayPool) {ctx : WorkerContext n}
    (hrunning : ctx.runningFlag = true)
    (hqueue : ∀ old ∈ ctx.queue, old.iqData.isSome = true)
    (hlimit : ctx.queue.length ≤ queueCap - 1) {sigs : List Signal}
    (hsigs : ∀ sig ∈ sigs, sig.iqData.isSome = true) :
    let count := ctx.queue.length + sigs.length - (queueCap - 1)
    ∃ pool', Push.all (fun pool ctx sig => ctx.callback pool sig) pool ctx
        sigs =
      .ok (pool', { ctx with queue := (ctx.queue ++ sigs).drop count }) := by
  obtain ⟨pool', hrun, -⟩ := callback_all pool hrunning hqueue (by omega) hsigs
  rw [foldl_displace_front (by decide) hlimit] at hrun
  exact ⟨pool', hrun⟩

end WorkerContext

/-! ## Overflow -/

/-- A sequence of pushes leaves the most recent signals in a transmitter and in
a receiver that is not attached exactly if no push finds the queue at the limit;
the queue of a worker always holds them. -/
theorem keepsMostRecent_iff (n : ℕ) (pool : DataArrayPool)
    (sigs : List Signal) :
    (∀ tx : Transmitter n,
      KeepsMostRecent Transmitter.add2Buff Transmitter.queue
          SignalQueue.popEarliest pool tx sigs ↔
        sigs = [] ∨ tx.queue.length + sigs.length ≤ queueCap - 1) ∧
    (∀ rx : Receiver n,
      KeepsMostRecent Receiver.add2Buff Receiver.queue front pool rx sigs ↔
        sigs = [] ∨ rx.queue.length + sigs.length ≤ queueCap - 1) ∧
    ∀ ctx : WorkerContext n, ctx.runningFlag = true →
      (∀ old ∈ ctx.queue, old.iqData.isSome = true) →
      ctx.queue.length ≤ queueCap →
      (∀ sig ∈ sigs, sig.iqData.isSome = true) →
      KeepsMostRecent (fun pool ctx sig => ctx.callback pool sig)
        WorkerContext.queue front pool ctx sigs :=
  ⟨fun tx => Transmitter.add2Buff_forgoes.recent_iff
      SignalQueue.picks_popEarliest pool tx sigs,
    fun rx => Receiver.add2Buff_forgoes.recent_iff picks_front pool rx
      sigs,
    fun _ hrunning hqueue hcap hsigs =>
      WorkerContext.callback_keepsMostRecent pool hrunning hqueue hcap hsigs⟩

/-- A burst and an empty pool. -/
def oneBurst : Signal := ⟨{ Header.zero with size := 4 }, some ⟨0, fun _ => 0⟩⟩

def emptyPool : DataArrayPool := ⟨[], 4, false, ""⟩

/-- Room for one more burst. -/
theorem keepsMostRecent_oneBurst :
    KeepsMostRecent Transmitter.add2Buff Transmitter.queue
        SignalQueue.popEarliest emptyPool
        (Transmitter.create 0 0 : Transmitter 0) [oneBurst] ∧
      KeepsMostRecent Receiver.add2Buff Receiver.queue front emptyPool
        (Receiver.create "rx" 0 0 : Receiver 0) [oneBurst] ∧
      KeepsMostRecent (fun pool ctx sig => ctx.callback pool sig)
        WorkerContext.queue front emptyPool
        (WorkerContext.create "rx" 0 : WorkerContext 0) [oneBurst] := by
  obtain ⟨htx, hrx, hctx⟩ := keepsMostRecent_iff 0 emptyPool [oneBurst]
  refine ⟨(htx _).mpr (.inr (by decide)), (hrx _).mpr (.inr (by decide)),
    hctx _ rfl ?_ (by decide) ?_⟩
  · intro old hold
    cases hold
  · intro sig hsig
    rw [List.mem_singleton.mp hsig]
    rfl

/-- With 499 bursts in the queue a further one is lost together with the
earliest. -/
theorem not_keepsMostRecent_full :
    ¬KeepsMostRecent Transmitter.add2Buff Transmitter.queue
        SignalQueue.popEarliest emptyPool
        { (Transmitter.create 0 0 : Transmitter 0) with
          queue := List.replicate 499 oneBurst } [oneBurst] ∧
      ¬KeepsMostRecent Receiver.add2Buff Receiver.queue front emptyPool
        { (Receiver.create "rx" 0 0 : Receiver 0) with
          queue := List.replicate 499 oneBurst } [oneBurst] :=
  ⟨Transmitter.add2Buff_forgoes.not_keepsMostRecent
      SignalQueue.picks_popEarliest (le_of_eq List.length_replicate.symm),
    Receiver.add2Buff_forgoes.not_keepsMostRecent picks_front
      (le_of_eq List.length_replicate.symm)⟩

end Pipeline
end Chem
