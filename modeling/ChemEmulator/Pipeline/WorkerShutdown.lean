import ChemEmulator.Pipeline.Worker
import ChemEmulator.Support.Outcome
import ChemEmulator.Support.PartialRuns

/-!
# Stopping a worker

`src/chem/channel/intermediate.cpp`: `WorkerLoop`, `DetachSource` and the
callback of the receiver as interleaved steps, from the moment the worker
thread exists.

`abort` wakes a worker that is blocked in `pop`; one that has passed its loop
test but not yet called `pop` does not notice it.
-/

namespace Chem
namespace Pipeline
namespace WorkerShutdown

open PartialRuns

/-! ## Program points -/

/-- The program points of `WorkerLoop`. -/
inductive Worker where
  | testingRunning
  | testingWork
  | testingDestinations
  | sleeping
  | popping
  | blocked
  | processing
  | exited
deriving DecidableEq

/-- The program points of `DetachSource`, each named after what comes next. -/
inductive Detacher where
  | idle
  | clearingFlag
  | replacing
  | aborting
  | clearingRunning
  | draining
  | joining
  | done
deriving DecidableEq

/-- The program points of one call of the callback. -/
inductive Producer where
  | idle
  | makingRoom (sig : Signal)
  | pushing (sig : Signal)

/-- `abort` has been called. -/
def Detacher.aborted : Detacher → Bool
  | .clearingRunning | .draining | .joining | .done => true
  | _ => false

/-- The callback has been replaced. -/
def Detacher.replaced : Detacher → Bool
  | .idle | .clearingFlag | .replacing => false
  | _ => true

structure State where
  running : Bool
  runningFlag : Bool
  work : Bool
  destCount : ℕ
  queue : List Signal
  worker : Worker
  detacher : Detacher
  producer : Producer

/-- `AttachSource` has started the thread. -/
def State.init (destCount : ℕ) : State where
  running := true
  runningFlag := true
  work := true
  destCount := destCount
  queue := []
  worker := .testingRunning
  detacher := .idle
  producer := .idle

/-- `worker`, `detach` and `produce` are the next steps of the three threads,
`callback sig` enters the callback.  `destinations n` and `clearWork` are what
other calls do to the intermediate meanwhile. -/
inductive Event where
  | worker
  | detach
  | callback (sig : Signal)
  | produce
  | destinations (n : ℕ)
  | clearWork

/-! ## Steps -/

def workerStep (s : State) : Option State :=
  match s.worker with
  | .testingRunning =>
      if s.running then some { s with worker := .testingWork }
      else some { s with worker := .exited }
  | .testingWork =>
      if s.work then some { s with worker := .testingDestinations }
      else some { s with worker := .exited }
  | .testingDestinations =>
      if s.destCount = 0 then some { s with worker := .sleeping }
      else some { s with worker := .popping }
  | .sleeping => some { s with worker := .testingRunning }
  | .popping =>
      match s.queue with
      | [] => some { s with worker := .blocked }
      | _ :: rest => some { s with queue := rest, worker := .processing }
  | .blocked =>
      match s.queue with
      | [] => none
      | _ :: rest => some { s with queue := rest, worker := .processing }
  | .processing => some { s with worker := .testingRunning }
  | .exited => none

/-- `queue.abort()`: the `pop` that is blocked throws `user_abort`. -/
def abort (s : State) : State :=
  if s.worker = .blocked then { s with worker := .exited } else s

def detachStep (s : State) : Option State :=
  match s.detacher with
  | .idle => some { s with detacher := .clearingFlag }
  | .clearingFlag =>
      some { s with runningFlag := false, detacher := .replacing }
  | .replacing => some { s with detacher := .aborting }
  | .aborting => some { abort s with detacher := .clearingRunning }
  | .clearingRunning =>
      some { s with running := false, detacher := .draining }
  | .draining =>
      match s.queue with
      | [] => some { s with detacher := .joining }
      | _ :: rest => some { s with queue := rest }
  | .joining =>
      if s.worker = .exited then some { s with detacher := .done } else none
  | .done => none

/-- No producer pushes once the callback is replaced. -/
def produceStep (s : State) : Option State :=
  match s.producer with
  | .idle => none
  | .makingRoom sig =>
      let queue :=
        if queueCap - 1 ≤ s.queue.length then s.queue.tail else s.queue
      some { s with queue := queue, producer := .pushing sig }
  | .pushing sig =>
      if s.detacher.replaced then none
      else
        let queue :=
          if s.queue.length < queueCap then s.queue ++ [sig] else s.queue
        some { s with queue := queue, producer := .idle }

def callbackStep (s : State) (sig : Signal) : Option State :=
  match s.producer with
  | .idle =>
      if s.detacher.replaced then none
      else if s.runningFlag then some { s with producer := .makingRoom sig }
      else some s
  | _ => none

def step (s : State) : Event → Option State
  | .worker => workerStep s
  | .detach => detachStep s
  | .callback sig => callbackStep s sig
  | .produce => produceStep s
  | .destinations n => some { s with destCount := n }
  | .clearWork => some { s with work := false }

/-! ## Hanging -/

/-- `DetachSource` waits for a worker that waits for a signal. -/
def Hangs (s : State) : Prop :=
  s.detacher = .joining ∧ s.worker = .blocked ∧ s.queue = []

/-- The worker does not call `pop` on an empty queue after `abort`. -/
def PopsInTime (s : State) : Event → Prop
  | .worker => s.worker = .popping → s.detacher.aborted → s.queue ≠ []
  | _ => True

instance (s : State) : ∀ e, Decidable (PopsInTime s e)
  | .worker =>
      have : Decidable (s.queue ≠ []) := decidable_of_iff
        (s.queue.isEmpty = false) (by cases s.queue <;> simp)
      inferInstanceAs (Decidable
        (s.worker = .popping → s.detacher.aborted → s.queue ≠ []))
  | .detach | .callback _ | .produce | .destinations _ | .clearWork =>
      isTrue trivial

/-- Nobody is blocked in `pop` once `abort` has been called. -/
def Unblocked (s : State) : Prop :=
  s.detacher.aborted → s.worker ≠ .blocked

theorem unblocked_workerStep {s t : State} (hpop : PopsInTime s .worker)
    (hstep : workerStep s = some t) : Unblocked t := by
  rw [workerStep] at hstep
  cases hw : s.worker with
  | testingRunning =>
      simp only [hw] at hstep
      split at hstep <;> cases hstep <;> simp [Unblocked]
  | testingWork =>
      simp only [hw] at hstep
      split at hstep <;> cases hstep <;> simp [Unblocked]
  | testingDestinations =>
      simp only [hw] at hstep
      split at hstep <;> cases hstep <;> simp [Unblocked]
  | sleeping | processing =>
      simp only [hw] at hstep
      cases hstep
      simp [Unblocked]
  | popping =>
      simp only [hw] at hstep
      split at hstep <;> cases hstep
      · next hempty =>
        intro haborted
        exact absurd hempty (hpop hw haborted)
      · simp [Unblocked]
  | blocked =>
      simp only [hw] at hstep
      split at hstep <;> cases hstep
      simp [Unblocked]
  | exited =>
      simp only [hw] at hstep
      cases hstep

theorem worker_abort_ne_blocked (s : State) : (abort s).worker ≠ .blocked := by
  rw [abort]
  split
  · nofun
  · assumption

theorem unblocked_detachStep {s t : State} (h : Unblocked s)
    (hstep : detachStep s = some t) : Unblocked t := by
  rw [detachStep] at hstep
  cases hd : s.detacher with
  | idle | clearingFlag | replacing =>
      simp only [hd] at hstep
      cases hstep
      nofun
  | aborting =>
      simp only [hd] at hstep
      cases hstep
      exact fun _ => worker_abort_ne_blocked s
  | clearingRunning =>
      simp only [hd] at hstep
      cases hstep
      exact fun _ => h (by rw [hd]; rfl)
  | draining =>
      simp only [hd] at hstep
      split at hstep <;> cases hstep
      · exact fun _ => h (by rw [hd]; rfl)
      · exact fun _ => h (by rw [hd]; rfl)
  | joining =>
      simp only [hd] at hstep
      split at hstep <;> cases hstep
      exact fun _ => h (by rw [hd]; rfl)
  | done =>
      simp only [hd] at hstep
      cases hstep

theorem unblocked_step {s t : State} (h : Unblocked s) {e : Event}
    (hpop : PopsInTime s e) (hstep : step s e = some t) : Unblocked t := by
  cases e with
  | worker => exact unblocked_workerStep hpop hstep
  | detach => exact unblocked_detachStep h hstep
  | callback sig =>
      simp only [step, callbackStep] at hstep
      split at hstep
      · split at hstep
        · cases hstep
        · split at hstep <;> cases hstep <;> exact h
      · cases hstep
  | produce =>
      simp only [step, produceStep] at hstep
      split at hstep
      · cases hstep
      · cases hstep
        exact h
      · split at hstep <;> cases hstep
        exact h
  | destinations n =>
      cases hstep
      exact h
  | clearWork =>
      cases hstep
      exact h

/-- A run in which the worker never pops an empty queue after `abort` does not
hang. -/
theorem not_hangs_of_popsInTime {destCount : ℕ} {es : List Event}
    (h : EveryStep step PopsInTime (State.init destCount) es) :
    EveryState step (fun s => ¬ Hangs s) (State.init destCount) es := by
  have hinit : Unblocked (State.init destCount) := by nofun
  have hunblocked : EveryState step Unblocked (State.init destCount) es := by
    refine everyState_of_everyStep ?_ hinit h
    intro s e t hs hpop hstep
    exact unblocked_step hs hpop hstep
  refine hunblocked.imp ?_
  rintro s hs ⟨hjoin, hblocked, -⟩
  exact hs (by rw [hjoin]; rfl) hblocked

/-- A worker that is blocked when `DetachSource` is called. -/
theorem not_hangs_when_blocked_before :
    EveryStep step PopsInTime (State.init 1)
        (List.replicate 4 .worker ++ List.replicate 7 .detach) ∧
      EveryState step (fun s => ¬ Hangs s) (State.init 1)
        (List.replicate 4 .worker ++ List.replicate 7 .detach) := by
  have hsteps : EveryStep step PopsInTime (State.init 1)
      (List.replicate 4 .worker ++ List.replicate 7 .detach) := by
    decide +kernel
  exact ⟨hsteps, not_hangs_of_popsInTime hsteps⟩

/-- The worker has passed its tests when `DetachSource` is called and pops
afterwards. -/
theorem hangs_when_popping_after :
    ¬ ∀ (destCount : ℕ) (es : List Event),
      EveryState step (fun s => ¬ Hangs s) (State.init destCount) es := by
  intro hall
  have hcheck :
      (run step (State.init 1) (List.replicate 3 .worker ++
        List.replicate 6 .detach ++ [.worker])).any
        (fun s => decide (s.detacher = .joining) &&
          decide (s.worker = .blocked) && s.queue.isEmpty) = true := by
    decide +kernel
  obtain ⟨t, hrun, ht⟩ := (Option.any_eq_true _ _).mp hcheck
  obtain ⟨ht, hempty⟩ := Bool.and_eq_true_iff.mp ht
  obtain ⟨hjoin, hblocked⟩ := Bool.and_eq_true_iff.mp ht
  refine (hall 1 _).of_run hrun ?_
  exact ⟨of_decide_eq_true hjoin, of_decide_eq_true hblocked,
    List.isEmpty_iff.mp hempty⟩

/-- A single pop of an empty queue after `abort` is enough: what is left of
`DetachSource` leads to the hang. -/
theorem hangs_of_late_pop {s t : State} (hw : s.worker = .popping)
    (haborted : s.detacher.aborted) (hjoined : s.detacher ≠ .done)
    (hempty : s.queue = []) (hstep : step s .worker = some t) :
    ∃ k u, run step t (List.replicate k .detach) = some u ∧ Hangs u := by
  have ht : t = { s with worker := .blocked } := by
    simpa [step, workerStep, hw, hempty] using hstep.symm
  subst ht
  cases hd : s.detacher with
  | idle | clearingFlag | replacing | aborting =>
      rw [hd] at haborted
      cases haborted
  | clearingRunning =>
      refine ⟨2, { s with
        running := false, worker := .blocked, detacher := .joining }, ?_,
        rfl, rfl, hempty⟩
      simp [run, step, detachStep, hempty]
  | draining =>
      refine ⟨1, { s with worker := .blocked, detacher := .joining }, ?_,
        rfl, rfl, hempty⟩
      simp [run, step, detachStep, hempty]
  | joining => exact ⟨0, _, rfl, rfl, rfl, hempty⟩
  | done => exact absurd hd hjoined

/-! ## A call of the callback that runs alone -/

theorem queue_makeRoom {limit : ℕ} {pool pool' : DataArrayPool}
    {queue queue' : List Signal}
    (h : SignalQueue.makeRoom limit pool queue = .ok (pool', queue')) :
    queue' = if limit ≤ queue.length then queue.tail else queue := by
  rw [SignalQueue.makeRoom] at h
  split at h
  · next hfull =>
    rw [if_pos hfull]
    cases queue with
    | nil =>
        cases h
        rfl
    | cons oldest rest =>
        obtain ⟨p, -, hok⟩ := Outcome.exists_of_bind_eq_ok h
        cases hok
        rfl
  · next hroom =>
    rw [if_neg hroom]
    cases h
    rfl

theorem queue_pushOrRelease {pool pool' : DataArrayPool}
    {queue queue' : List Signal} {sig : Signal}
    (h : SignalQueue.pushOrRelease pool queue sig = .ok (pool', queue')) :
    queue' = if queue.length < queueCap then queue ++ [sig] else queue := by
  rw [SignalQueue.pushOrRelease] at h
  split at h
  · next hroom =>
    rw [if_pos hroom]
    cases h
    rfl
  · next hfull =>
    rw [if_neg hfull]
    obtain ⟨p, -, hok⟩ := Outcome.exists_of_bind_eq_ok h
    cases hok
    rfl

/-- Undisturbed, the steps of a call leave the queue as
`WorkerContext.callback` does. -/
theorem callback_alone {n : ℕ} {pool pool' : DataArrayPool}
    {ctx ctx' : WorkerContext n} {s : State} {sig : Signal}
    (hqueue : s.queue = ctx.queue) (hflag : s.runningFlag = ctx.runningFlag)
    (hidle : s.producer = .idle) (hlive : s.detacher.replaced = false)
    (h : ctx.callback pool sig = .ok (pool', ctx')) :
    ∃ k t, run step s (.callback sig :: List.replicate k .produce) = some t ∧
      t.queue = ctx'.queue := by
  rw [WorkerContext.callback] at h
  split at h
  · next hstopped =>
    obtain ⟨p, -, hok⟩ := Outcome.exists_of_bind_eq_ok h
    cases hok
    refine ⟨0, s, ?_, hqueue⟩
    simp [run, step, callbackStep, hidle, hlive, hflag, hstopped]
  · next hrunning =>
    rw [← hflag, Bool.not_eq_false] at hrunning
    obtain ⟨⟨p, queue⟩, hroom, h⟩ := Outcome.exists_of_bind_eq_ok h
    obtain ⟨⟨p', queue'⟩, hpush, hok⟩ := Outcome.exists_of_bind_eq_ok h
    cases hok
    have hroom := queue_makeRoom hroom
    have hpush := queue_pushOrRelease hpush
    refine ⟨2, { s with queue := queue' }, ?_, rfl⟩
    simp only [run, List.replicate, step, callbackStep, produceStep, hidle,
      hlive, hrunning, Option.bind_some, if_true, hqueue, ← hroom, ← hpush,
      Bool.false_eq_true, if_false]

end WorkerShutdown
end Pipeline
end Chem
