import ChemEmulator.Channel.Intermediate
import ChemEmulator.Support.PartialRuns

/-!
# Shutting an intermediate down

`src/chem/channel/intermediate.cpp`: `Start`, `DetachSource` and
`DetachDestination` as interleaved steps.  `Start` waits with `src_mutex` for
`work` to become false; `EmptyChannelChecker` clears it and notifies, with
`src_mutex` held when it is called by `DetachSource` and only with
`dest_mutex` held when it is called by `DetachDestination`.

Any number of threads make detach calls, one after another or at once.
-/

namespace Chem
namespace ChannelShutdown

open PartialRuns

/-! ## Program points -/

/-- The program points of `Start`. -/
inductive Start where
  | locking
  | testing
  -- `work` was true and the lock is not yet given back.
  | toWait
  | waiting
  | notified
  | finished
deriving DecidableEq

/-- The mutex that a detach call holds. -/
inductive Mutex where
  | src
  | dest
deriving DecidableEq

/-- The program points of a detach call.  The last four belong to
`EmptyChannelChecker` and the return; they name the mutex that is held. -/
inductive Call where
  | idle
  | srcLocking (receiver : Receiver)
  | srcFinding (receiver : Receiver)
  -- `running_flag`, the callback, `abort`, `running`, the queue and `join`.
  | srcStopping (receiver : Receiver)
  | srcDestLocking (receiver : Receiver)
  | srcUnlinking (receiver : Receiver)
  | srcErasing (receiver : Receiver)
  | destLocking (transmitter : Transmitter)
  | destFinding (transmitter : Transmitter)
  | destErasing (transmitter : Transmitter)
  | checking (held : Mutex)
  | clearing (held : Mutex)
  | notifying (held : Mutex)
  | returning (held : Mutex)
deriving DecidableEq

/-- The call has `src_mutex`. -/
def Call.holdsSrc : Call → Bool
  | .srcFinding _ | .srcStopping _ | .srcDestLocking _ | .srcUnlinking _
  | .srcErasing _ => true
  | .checking m | .clearing m | .notifying m | .returning m => m = .src
  | _ => false

inductive Thread (ι : Type*) where
  | start
  | detach (p : ι)
deriving DecidableEq

structure State (ι : Type*) where
  channel : Intermediate
  srcMutex : Option (Thread ι)
  destMutex : Option ι
  start : Start
  call : ι → Call

inductive Event (ι : Type*) where
  | detachSource (p : ι) (receiver : Receiver)
  | detachDestination (p : ι) (transmitter : Transmitter)
  /-- The next step of the call that thread `p` makes. -/
  | detach (p : ι)
  | start
  /-- A wake-up without a notification. -/
  | spurious

variable {ι : Type*} [DecidableEq ι]

namespace State

/-- An intermediate that `Start` has just been called on. -/
def init (channel : Intermediate) : State ι where
  channel := channel
  srcMutex := none
  destMutex := none
  start := .locking
  call := fun _ => .idle

/-- Thread `p` goes on at `pc`. -/
def goto (s : State ι) (p : ι) (pc : Call) : State ι :=
  { s with call := Function.update s.call p pc }

/-- `cv.notify_all()`; only `Start` waits. -/
def notifyAll (s : State ι) : State ι :=
  if s.start = .waiting then { s with start := .notified } else s

def unlock (s : State ι) : Mutex → State ι
  | .src => { s with srcMutex := none }
  | .dest => { s with destMutex := none }

end State

/-! ## Steps -/

def detachStep (s : State ι) (p : ι) : Option (State ι) :=
  match s.call p with
  | .idle => none
  | .srcLocking r =>
      if s.srcMutex = none then
        some (({ s with srcMutex := some (.detach p) }).goto p (.srcFinding r))
      else none
  | .srcFinding r =>
      if r.id ∈ s.channel.sourceMap then some (s.goto p (.srcStopping r))
      else some (s.goto p (.returning .src))
  | .srcStopping r =>
      let channel := { s.channel with
        workers := s.channel.workers.erase r.id }
      some (({ s with channel := channel }).goto p (.srcDestLocking r))
  | .srcDestLocking r =>
      if s.destMutex = none then
        some (({ s with destMutex := some p }).goto p (.srcUnlinking r))
      else none
  | .srcUnlinking r =>
      let channel := s.channel.removeChannel r.id
      let channel := { channel with destVersion := channel.destVersion + 1 }
      some (({ s with channel := channel, destMutex := none }).goto p
        (.srcErasing r))
  | .srcErasing r =>
      let channel := { s.channel with
        sourceMap := s.channel.sourceMap.erase r.id }
      some (({ s with channel := channel }).goto p (.checking .src))
  | .destLocking t =>
      if s.destMutex = none then
        some (({ s with destMutex := some p }).goto p (.destFinding t))
      else none
  | .destFinding t =>
      if t.id ∈ s.channel.destinationMap then some (s.goto p (.destErasing t))
      else some (s.goto p (.returning .dest))
  | .destErasing t =>
      let channel := s.channel.removeChannel t.id
      let channel := { channel with
        destinationMap := channel.destinationMap.erase t.id
        destCount := channel.destCount - 1
        destVersion := channel.destVersion + 1 }
      some (({ s with channel := channel }).goto p (.checking .dest))
  | .checking m =>
      if s.channel.isEmpty then some (s.goto p (.clearing m))
      else some (s.goto p (.returning m))
  | .clearing m =>
      let channel := { s.channel with work := false }
      some (({ s with channel := channel }).goto p (.notifying m))
  | .notifying m => some (s.notifyAll.goto p (.returning m))
  | .returning m => some ((s.unlock m).goto p .idle)

def startStep (s : State ι) : Option (State ι) :=
  match s.start with
  | .locking | .notified =>
      if s.srcMutex = none then
        some { s with srcMutex := some .start, start := .testing }
      else none
  | .testing =>
      if s.channel.work then some { s with start := .toWait }
      else some { s with srcMutex := none, start := .finished }
  | .toWait => some { s with srcMutex := none, start := .waiting }
  | .waiting | .finished => none

def step (s : State ι) : Event ι → Option (State ι)
  | .detachSource p r =>
      if s.call p = .idle then some (s.goto p (.srcLocking r)) else none
  | .detachDestination p t =>
      if s.call p = .idle then some (s.goto p (.destLocking t)) else none
  | .detach p => detachStep s p
  | .start => startStep s
  | .spurious =>
      if s.start = .waiting then some { s with start := .notified } else none

/-! ## Lost wake-ups -/

/-- Unless a call is still in progress, `Start` does not wait for a flag that
is already cleared. -/
def Woken (s : State ι) : Prop :=
  ¬ (s.channel.work = false ∧ (∀ p, s.call p = .idle) ∧ s.start = .waiting)

/-- `DetachDestination` does not notify between `Start`'s test and its
wait. -/
def NotifiesOutsideWindow (s : State ι) : Event ι → Prop
  | .detach p => s.call p = .notifying .dest → s.start ≠ .toWait
  | _ => True

instance (s : State ι) : ∀ e, Decidable (NotifiesOutsideWindow s e)
  | .detach p => inferInstanceAs
      (Decidable (s.call p = .notifying .dest → s.start ≠ .toWait))
  | .detachSource .. | .detachDestination .. | .start | .spurious =>
      isTrue trivial

/-- `Start` has `src_mutex`. -/
def Start.holds : Start → Bool
  | .testing | .toWait => true
  | _ => false

/-- `Start` has seen that `work` is true and will not look again unless it is
notified. -/
def Start.relies : Start → Bool
  | .toWait | .waiting => true
  | _ => false

/-- Who has `src_mutex`, and who will notify `Start` once `work` is false. -/
structure Guarded (s : State ι) : Prop where
  start_holds : s.start.holds → s.srcMutex = some .start
  call_holds : ∀ p, (s.call p).holdsSrc → s.srcMutex = some (.detach p)
  pending : s.channel.work = false → s.start.relies →
    ∃ p m, s.call p = .notifying m

omit [DecidableEq ι] in
theorem guarded_init {channel : Intermediate} (hwork : channel.work = true) :
    Guarded (State.init channel : State ι) where
  start_holds := by nofun
  call_holds := by nofun
  pending := by
    intro hclear
    rw [State.init, hwork] at hclear
    cases hclear

omit [DecidableEq ι] in
theorem Guarded.not_holdsSrc {s : State ι} (h : Guarded s)
    (hs : s.start.holds) (p : ι) : ¬ (s.call p).holdsSrc := by
  intro hp
  have howner := (h.start_holds hs).symm.trans (h.call_holds p hp)
  cases howner

omit [DecidableEq ι] in
theorem Guarded.woken {s : State ι} (h : Guarded s) : Woken s := by
  rintro ⟨hclear, hidle, hwaiting⟩
  obtain ⟨p, m, hp⟩ := h.pending hclear (by rw [hwaiting]; rfl)
  rw [hidle p] at hp
  cases hp

/-! ### Steps of a detach call -/

theorem call_goto_self (s : State ι) (p : ι) (pc : Call) :
    (s.goto p pc).call p = pc := by
  simp [State.goto]

theorem call_goto_of_ne {s : State ι} {p q : ι} (pc : Call) (h : q ≠ p) :
    (s.goto p pc).call q = s.call q := by
  simp [State.goto, h]

/-- Whoever is about to notify stays there while another thread moves. -/
theorem exists_notifying_goto {s : State ι} {p : ι} (pc : Call)
    (hp : ∀ m, s.call p ≠ .notifying m)
    (h : ∃ q m, s.call q = .notifying m) :
    ∃ q m, (s.goto p pc).call q = .notifying m := by
  obtain ⟨q, m, hq⟩ := h
  have hne : q ≠ p := by
    rintro rfl
    exact hp m hq
  exact ⟨q, m, by rw [call_goto_of_ne pc hne, hq]⟩

theorem Guarded.holds_goto {s : State ι} (h : Guarded s) {p : ι} {pc : Call}
    (hpc : pc.holdsSrc → (s.call p).holdsSrc) (q : ι)
    (hq : ((s.goto p pc).call q).holdsSrc) :
    s.srcMutex = some (.detach q) := by
  by_cases hqp : q = p
  · subst hqp
    rw [call_goto_self] at hq
    exact h.call_holds q (hpc hq)
  · rw [call_goto_of_ne pc hqp] at hq
    exact h.call_holds q hq

/-- A step of a call that neither takes nor gives back `src_mutex`, leaves
`work` alone and is not the notification. -/
theorem Guarded.move {s : State ι} (h : Guarded s) {p : ι} {pc : Call}
    {channel : Intermediate} {destMutex : Option ι}
    (hwork : channel.work = s.channel.work)
    (hp : ∀ m, s.call p ≠ .notifying m)
    (hpc : pc.holdsSrc → (s.call p).holdsSrc) :
    Guarded (({ s with channel := channel, destMutex := destMutex }).goto p
      pc) where
  start_holds := h.start_holds
  call_holds := h.holds_goto hpc
  pending := by
    intro hclear hrelies
    exact exists_notifying_goto pc hp
      (h.pending (hwork.symm.trans hclear) hrelies)

theorem Guarded.lockSrc {s : State ι} (h : Guarded s) {p : ι} {r : Receiver}
    (hp : s.call p = .srcLocking r) (hfree : s.srcMutex = none) :
    Guarded (({ s with srcMutex := some (.detach p) }).goto p
      (.srcFinding r)) where
  start_holds := by
    intro hs
    have howner := h.start_holds hs
    rw [hfree] at howner
    cases howner
  call_holds := by
    intro q hq
    by_cases hqp : q = p
    · rw [hqp]
      rfl
    · rw [call_goto_of_ne _ hqp] at hq
      have howner := h.call_holds q hq
      rw [hfree] at howner
      cases howner
  pending := by
    intro hclear hrelies
    refine exists_notifying_goto _ ?_ (h.pending hclear hrelies)
    change ∀ m, s.call p ≠ .notifying m
    rw [hp]
    nofun

theorem Guarded.unlockSrc {s : State ι} (h : Guarded s) {p : ι}
    (hp : s.call p = .returning .src) :
    Guarded (({ s with srcMutex := none }).goto p .idle) := by
  have howner : s.srcMutex = some (.detach p) :=
    h.call_holds p (by rw [hp]; rfl)
  refine ⟨?_, ?_, ?_⟩
  · intro hs
    have := howner.symm.trans (h.start_holds hs)
    cases this
  · intro q hq
    by_cases hqp : q = p
    · subst hqp
      rw [call_goto_self] at hq
      cases hq
    · rw [call_goto_of_ne _ hqp] at hq
      have hqowner := howner.symm.trans (h.call_holds q hq)
      cases hqowner
      exact absurd rfl hqp
  · intro hclear hrelies
    refine exists_notifying_goto _ ?_ (h.pending hclear hrelies)
    change ∀ m, s.call p ≠ .notifying m
    rw [hp]
    nofun

theorem Guarded.clear {s : State ι} (h : Guarded s) {p : ι} {m : Mutex}
    (hp : s.call p = .clearing m) :
    Guarded (({ s with channel := { s.channel with work := false } }).goto p
      (.notifying m)) where
  start_holds := h.start_holds
  call_holds := by
    refine h.holds_goto ?_
    rw [hp]
    exact id
  pending := fun _ _ => ⟨p, m, call_goto_self _ p _⟩

/-- The notification reaches a `Start` that waits.  With `src_mutex` held,
`Start` cannot be in its window; with `dest_mutex` alone it can. -/
theorem Guarded.notify {s : State ι} (h : Guarded s) {p : ι} {m : Mutex}
    (hp : s.call p = .notifying m)
    (hwindow : m = .dest → s.start ≠ .toWait) :
    Guarded (s.notifyAll.goto p (.returning m)) := by
  have hholds : (Call.returning m).holdsSrc → (s.call p).holdsSrc := by
    rw [hp]
    exact id
  rw [State.notifyAll]
  split
  · exact ⟨by nofun, h.holds_goto hholds, by nofun⟩
  · next hawake =>
    refine ⟨h.start_holds, h.holds_goto hholds, ?_⟩
    intro _ hrelies
    have htoWait : s.start = .toWait := by
      change s.start.relies = true at hrelies
      cases hs : s.start <;> simp_all [Start.relies]
    cases m with
    | dest => exact absurd htoWait (hwindow rfl)
    | src =>
        refine absurd ?_ (h.not_holdsSrc (by rw [htoWait]; rfl) p)
        rw [hp]
        rfl

theorem guarded_detachStep {s t : State ι} (h : Guarded s) {p : ι}
    (hwindow : s.call p = .notifying .dest → s.start ≠ .toWait)
    (hstep : detachStep s p = some t) : Guarded t := by
  rw [detachStep] at hstep
  cases hp : s.call p with
  | idle =>
      simp only [hp] at hstep
      cases hstep
  | srcLocking r =>
      simp only [hp] at hstep
      split at hstep
      · next hfree =>
        cases hstep
        exact h.lockSrc hp hfree
      · cases hstep
  | srcFinding r =>
      simp only [hp] at hstep
      split at hstep <;> cases hstep
      · exact h.move rfl (by simp [hp]) (by simp [hp, Call.holdsSrc])
      · exact h.move rfl (by simp [hp]) (by simp [hp, Call.holdsSrc])
  | srcStopping r =>
      simp only [hp] at hstep
      cases hstep
      exact h.move rfl (by simp [hp]) (by simp [hp, Call.holdsSrc])
  | srcDestLocking r =>
      simp only [hp] at hstep
      split at hstep
      · cases hstep
        exact h.move rfl (by simp [hp]) (by simp [hp, Call.holdsSrc])
      · cases hstep
  | srcUnlinking r =>
      simp only [hp] at hstep
      cases hstep
      exact h.move rfl (by simp [hp]) (by simp [hp, Call.holdsSrc])
  | srcErasing r =>
      simp only [hp] at hstep
      cases hstep
      exact h.move rfl (by simp [hp]) (by simp [hp, Call.holdsSrc])
  | destLocking t =>
      simp only [hp] at hstep
      split at hstep
      · cases hstep
        exact h.move rfl (by simp [hp]) (by simp [Call.holdsSrc])
      · cases hstep
  | destFinding t =>
      simp only [hp] at hstep
      split at hstep <;> cases hstep
      · exact h.move rfl (by simp [hp]) (by simp [Call.holdsSrc])
      · exact h.move rfl (by simp [hp]) (by simp [Call.holdsSrc])
  | destErasing t =>
      simp only [hp] at hstep
      cases hstep
      exact h.move rfl (by simp [hp]) (by simp [Call.holdsSrc])
  | checking m =>
      simp only [hp] at hstep
      split at hstep <;> cases hstep
      · exact h.move rfl (by simp [hp]) (by simp [hp, Call.holdsSrc])
      · exact h.move rfl (by simp [hp]) (by simp [hp, Call.holdsSrc])
  | clearing m =>
      simp only [hp] at hstep
      cases hstep
      exact h.clear hp
  | notifying m =>
      simp only [hp] at hstep
      cases hstep
      refine h.notify hp ?_
      rintro rfl
      exact hwindow hp
  | returning m =>
      simp only [hp] at hstep
      cases hstep
      cases m with
      | src => exact h.unlockSrc hp
      | dest => exact h.move rfl (by simp [hp]) (by simp [Call.holdsSrc])

/-! ### Steps of `Start` -/

omit [DecidableEq ι] in
theorem guarded_startStep {s t : State ι} (h : Guarded s)
    (hstep : startStep s = some t) : Guarded t := by
  rw [startStep] at hstep
  cases hs : s.start with
  | locking | notified =>
      simp only [hs] at hstep
      split at hstep
      · next hfree =>
        cases hstep
        refine ⟨fun _ => rfl, ?_, by nofun⟩
        intro p hp
        have howner := h.call_holds p hp
        rw [hfree] at howner
        cases howner
      · cases hstep
  | testing =>
      have hholds : s.start.holds := by rw [hs]; rfl
      simp only [hs] at hstep
      split at hstep
      · next hwork =>
        cases hstep
        refine ⟨fun _ => h.start_holds hholds, h.call_holds, ?_⟩
        intro hclear
        rw [hwork] at hclear
        cases hclear
      · cases hstep
        exact ⟨by nofun, fun p hp => absurd hp (h.not_holdsSrc hholds p),
          by nofun⟩
  | toWait =>
      have hholds : s.start.holds := by rw [hs]; rfl
      simp only [hs] at hstep
      cases hstep
      refine ⟨by nofun, fun p hp => absurd hp (h.not_holdsSrc hholds p), ?_⟩
      intro hclear _
      exact h.pending hclear (by rw [hs]; rfl)
  | waiting | finished =>
      simp only [hs] at hstep
      cases hstep

theorem guarded_step {s t : State ι} (h : Guarded s) {e : Event ι}
    (hwindow : NotifiesOutsideWindow s e) (hstep : step s e = some t) :
    Guarded t := by
  cases e with
  | detachSource p r =>
      simp only [step] at hstep
      split at hstep
      · next hidle =>
        cases hstep
        exact h.move rfl (by simp [hidle]) (by simp [Call.holdsSrc])
      · cases hstep
  | detachDestination p t =>
      simp only [step] at hstep
      split at hstep
      · next hidle =>
        cases hstep
        exact h.move rfl (by simp [hidle]) (by simp [Call.holdsSrc])
      · cases hstep
  | detach p => exact guarded_detachStep h hwindow hstep
  | start => exact guarded_startStep h hstep
  | spurious =>
      simp only [step] at hstep
      split at hstep
      · cases hstep
        exact ⟨by nofun, h.call_holds, by nofun⟩
      · cases hstep

/-- A run in which no `DetachDestination` notifies inside the window of
`Start` loses no wake-up. -/
theorem woken_of_notifiesOutsideWindow {channel : Intermediate}
    (hwork : channel.work = true) {es : List (Event ι)}
    (h : EveryStep step NotifiesOutsideWindow (State.init channel) es) :
    EveryState step Woken (State.init channel) es := by
  have hguarded : EveryState step Guarded (State.init channel) es := by
    refine everyState_of_everyStep ?_ (guarded_init hwork) h
    intro s e t hs hwindow hstep
    exact guarded_step hs hwindow hstep
  exact hguarded.imp fun s hs => hs.woken

/-- An intermediate with one transmitter and no receiver. -/
def loneTransmitter : Transmitter := ⟨0, "n", "n", 1, "n", rfl⟩

def loneDestination : Intermediate :=
  { Intermediate.create 2400000000 with
    destinationMap := AList.insert "n" loneTransmitter ∅
    destCount := 1
    destVersion := 1 }

theorem woken_of_detach_while_waiting :
    EveryStep step NotifiesOutsideWindow
        (State.init loneDestination : State Unit)
        (List.replicate 3 .start ++ .detachDestination () loneTransmitter ::
          List.replicate 7 (.detach ())) ∧
      EveryState step Woken (State.init loneDestination : State Unit)
        (List.replicate 3 .start ++ .detachDestination () loneTransmitter ::
          List.replicate 7 (.detach ())) := by
  have hsteps : EveryStep step NotifiesOutsideWindow
      (State.init loneDestination : State Unit)
      (List.replicate 3 .start ++ .detachDestination () loneTransmitter ::
        List.replicate 7 (.detach ())) := by
    decide +kernel
  exact ⟨hsteps, woken_of_notifiesOutsideWindow rfl hsteps⟩

/-- The whole of a `DetachDestination` call falls between the test and the
wait. -/
theorem wakeup_lost_in_window :
    ¬ ∀ (channel : Intermediate), channel.work = true →
      ∀ es : List (Event Unit),
        EveryState step Woken (State.init channel) es := by
  intro hall
  have hcheck :
      (run step (State.init loneDestination : State Unit)
        (.start :: .start :: .detachDestination () loneTransmitter ::
          (List.replicate 7 (.detach ()) ++ [.start]))).any
        (fun s => decide (s.channel.work = false ∧ (∀ p, s.call p = .idle) ∧
          s.start = .waiting)) = true := by
    decide +kernel
  obtain ⟨t, hrun, ht⟩ := (Option.any_eq_true _ _).mp hcheck
  exact (hall loneDestination rfl _).of_run hrun (of_decide_eq_true ht)

/-! ## Calls that run alone -/

/-- Steps of thread `p` alone lead from `s` to a state with this intermediate
in which its call has returned. -/
def Returns (p : ι) (s : State ι) (channel : Intermediate) : Prop :=
  ∃ k t, run step s (List.replicate k (.detach p)) = some t ∧
    t.channel = channel ∧ t.call p = .idle

theorem Returns.step {p : ι} {s t : State ι} {channel : Intermediate}
    (hstep : detachStep s p = some t) (h : Returns p t channel) :
    Returns p s channel := by
  obtain ⟨k, u, hrun, hu⟩ := h
  refine ⟨k + 1, u, ?_, hu⟩
  change (detachStep s p).bind _ = some u
  rw [hstep]
  exact hrun

theorem returns_returning {p : ι} {s : State ι} {m : Mutex}
    (hp : s.call p = .returning m) : Returns p s s.channel := by
  refine ⟨1, (s.unlock m).goto p .idle, ?_, ?_, call_goto_self _ p _⟩
  · simp [run, ChannelShutdown.step, detachStep, hp]
  · cases m <;> rfl

omit [DecidableEq ι] in
theorem channel_notifyAll (s : State ι) : s.notifyAll.channel = s.channel := by
  rw [State.notifyAll]
  split <;> rfl

theorem returns_notifying {p : ι} {s : State ι} {m : Mutex}
    (hp : s.call p = .notifying m) : Returns p s s.channel := by
  refine Returns.step (by simp only [detachStep, hp]; rfl) ?_
  rw [← channel_notifyAll s]
  exact returns_returning (call_goto_self _ p _)

theorem returns_emptyChannelChecker {p : ι} {s : State ι} {m : Mutex}
    (hp : s.call p = .checking m) :
    Returns p s s.channel.emptyChannelChecker := by
  by_cases hempty : s.channel.isEmpty
  · have hcheck : detachStep s p = some (s.goto p (.clearing m)) := by
      simp [detachStep, hp, hempty]
    refine Returns.step hcheck ?_
    rw [Intermediate.emptyChannelChecker, if_pos hempty]
    refine Returns.step (by simp only [detachStep, call_goto_self]; rfl) ?_
    exact returns_notifying (call_goto_self _ p _)
  · have hcheck : detachStep s p = some (s.goto p (.returning m)) := by
      simp [detachStep, hp, hempty]
    refine Returns.step hcheck ?_
    rw [Intermediate.emptyChannelChecker, if_neg hempty]
    exact returns_returning (call_goto_self s p _)

/-- Undisturbed, the steps of the call have the effect of
`Intermediate.detachDestination`. -/
theorem returns_detachDestination {p : ι} {s : State ι} {t : Transmitter}
    (hp : s.call p = .destLocking t) (hdest : s.destMutex = none) :
    Returns p s (s.channel.detachDestination t).2 := by
  refine Returns.step (by simp only [detachStep, hp, if_pos hdest]; rfl) ?_
  by_cases hfound : t.id ∈ s.channel.destinationMap
  · rw [Intermediate.detachDestination, if_pos hfound]
    refine Returns.step
      (by simp only [detachStep, call_goto_self]; exact if_pos hfound) ?_
    refine Returns.step (by simp only [detachStep, call_goto_self]; rfl) ?_
    exact returns_emptyChannelChecker (call_goto_self _ p _)
  · rw [Intermediate.detachDestination, if_neg hfound]
    refine Returns.step
      (by simp only [detachStep, call_goto_self]; exact if_neg hfound) ?_
    exact returns_returning (call_goto_self _ p _)

/-- Undisturbed, the steps of the call have the effect of
`Intermediate.detachSource`. -/
theorem returns_detachSource {p : ι} {s : State ι} {r : Receiver}
    (hp : s.call p = .srcLocking r) (hsrc : s.srcMutex = none)
    (hdest : s.destMutex = none) :
    Returns p s (s.channel.detachSource r).2 := by
  refine Returns.step (by simp only [detachStep, hp, if_pos hsrc]; rfl) ?_
  by_cases hfound : r.id ∈ s.channel.sourceMap
  · rw [Intermediate.detachSource, if_pos hfound]
    refine Returns.step
      (by simp only [detachStep, call_goto_self]; exact if_pos hfound) ?_
    refine Returns.step (by simp only [detachStep, call_goto_self]; rfl) ?_
    refine Returns.step
      (by simp only [detachStep, call_goto_self]; exact if_pos hdest) ?_
    refine Returns.step (by simp only [detachStep, call_goto_self]; rfl) ?_
    refine Returns.step (by simp only [detachStep, call_goto_self]; rfl) ?_
    exact returns_emptyChannelChecker (call_goto_self _ p _)
  · rw [Intermediate.detachSource, if_neg hfound]
    refine Returns.step
      (by simp only [detachStep, call_goto_self]; exact if_neg hfound) ?_
    exact returns_returning (call_goto_self _ p _)

end ChannelShutdown
end Chem
