import ChemEmulator.Pipeline.Transmitter
import ChemEmulator.Support.Outcome
import ChemEmulator.Support.PartialRuns

/-!
# Waking the transmitter

`src/chem/node/transmitter.cpp`: `Add2Buff` and `Start` as interleaved steps.
Any number of producers call `Add2Buff`; one consumer runs `Start`.  Each
operation of the queue, of the mutex and of the condition variable is one
step.

The push takes place outside the mutex.  What keeps its notification from
falling between the consumer's test and its wait is the pair of lock and
unlock that the producer passes through after the push.
-/

namespace Chem
namespace Pipeline
namespace TransmitterWakeup

open PartialRuns

/-! ## Program points -/

/-- The program points of `Start`. -/
inductive Consumer where
  | looping
  | locking
  | testing
  -- `m_queue.empty()` was true; `_working` is read next.
  | foundEmpty
  -- The predicate was false and the lock is not yet given back.
  | toWait
  | waiting
  | notified
  -- `wait` has returned, with the lock.
  | awake
  | popping
  | sending (sig : Signal)
  | stopped

/-- The program points of one call of `Add2Buff`. -/
inductive Producer where
  | idle
  | testing (sig : Signal)
  | dropping
  | pushing (sig : Signal)
  | pushed
  | locked
  | unlocked

/-- The consumer has `m_queue_mutex`. -/
def Consumer.holds : Consumer → Bool
  | .testing | .foundEmpty | .toWait | .awake => true
  | _ => false

/-- The consumer has seen an empty queue and still has the lock. -/
def Consumer.inWindow : Consumer → Bool
  | .foundEmpty | .toWait => true
  | _ => false

/-- The producer is between its push and its `notify_one`. -/
def Producer.owesNotify : Producer → Bool
  | .pushed | .locked | .unlocked => true
  | _ => false

inductive Thread (ι : Type*) where
  | start
  | add2Buff (p : ι)
deriving DecidableEq

structure State (ι : Type*) where
  queue : List Signal
  working : Bool
  mutex : Option (Thread ι)
  consumer : Consumer
  producer : ι → Producer

variable {ι : Type*} [DecidableEq ι]

namespace State

def init : State ι where
  queue := []
  working := true
  mutex := none
  consumer := .looping
  producer := fun _ => .idle

/-- Producer `p` goes on at `pc`. -/
def goto (s : State ι) (p : ι) (pc : Producer) : State ι :=
  { s with producer := Function.update s.producer p pc }

/-- `m_queue_cv.notify_one()`; only the consumer waits. -/
def notifyOne (s : State ι) : State ι :=
  match s.consumer with
  | .waiting => { s with consumer := .notified }
  | _ => s

/-- `try_pop` whose signal is not looked at. -/
def discard (s : State ι) : State ι :=
  match SignalQueue.popEarliest s.queue with
  | none => s
  | some (_, rest) => { s with queue := rest }

end State

/-- `call p sig` enters `Add2Buff`, `add2Buff p` is the next step of the call.
`start threw` is the next step of the consumer; `threw` says whether `Send`
throws, should that be the step.  `spurious` is a wake-up without a
notification. -/
inductive Event (ι : Type*) where
  | call (p : ι) (sig : Signal)
  | add2Buff (p : ι)
  | start (threw : Bool)
  | spurious

open Chem.Pipeline.TransmitterWakeup.State

/-- The next step of a call of `Add2Buff`. -/
def add2BuffStep (s : State ι) (p : ι) : Option (State ι) :=
  match s.producer p with
  | .idle => none
  | .testing sig =>
      if queueCap - 1 ≤ s.queue.length then some (s.goto p .dropping)
      else some (s.goto p (.pushing sig))
  | .dropping => some (s.discard.goto p .idle)
  | .pushing sig =>
      some (({ s with queue := s.queue ++ [sig] }).goto p .pushed)
  | .pushed =>
      if s.mutex = none then
        some (({ s with mutex := some (.add2Buff p) }).goto p .locked)
      else none
  | .locked => some (({ s with mutex := none }).goto p .unlocked)
  | .unlocked => some (s.notifyOne.goto p .idle)

/-- The next step of `Start`. -/
def startStep (s : State ι) (threw : Bool) : Option (State ι) :=
  match s.consumer with
  | .looping =>
      if s.working then some { s with consumer := .locking }
      else some { s with consumer := .stopped }
  | .locking | .notified =>
      if s.mutex = none then
        some { s with mutex := some .start, consumer := .testing }
      else none
  | .testing =>
      if s.queue.isEmpty then some { s with consumer := .foundEmpty }
      else some { s with consumer := .awake }
  | .foundEmpty =>
      if s.working then some { s with consumer := .toWait }
      else some { s with consumer := .awake }
  | .toWait => some { s with mutex := none, consumer := .waiting }
  | .waiting => none
  | .awake =>
      if !s.working && s.queue.isEmpty then
        some { s with mutex := none, consumer := .stopped }
      else some { s with mutex := none, consumer := .popping }
  | .popping =>
      match SignalQueue.popEarliest s.queue with
      | none => some { s with consumer := .looping }
      | some (sig, rest) =>
          some { s with queue := rest, consumer := .sending sig }
  | .sending _ =>
      if threw then some { s with working := false, consumer := .stopped }
      else some { s with consumer := .looping }
  | .stopped => none

def step (s : State ι) : Event ι → Option (State ι)
  | .call p sig =>
      match s.producer p with
      | .idle => some (s.goto p (.testing sig))
      | _ => none
  | .add2Buff p => add2BuffStep s p
  | .start threw => startStep s threw
  | .spurious =>
      match s.consumer with
      | .waiting => some { s with consumer := .notified }
      | _ => none

/-! ## The invariant -/

/-- Who has the mutex, and who will wake the consumer.  While the consumer has
the lock, a producer that has pushed cannot get past it, so in the window it
is still in front of the lock. -/
structure Guarded (s : State ι) : Prop where
  start_holds : s.consumer.holds → s.mutex = some .start
  add2Buff_holds : ∀ p, s.producer p = .locked → s.mutex = some (.add2Buff p)
  window : s.consumer.inWindow → s.queue ≠ [] → ∃ p, s.producer p = .pushed
  asleep : s.consumer = .waiting → s.queue ≠ [] →
    ∃ p, (s.producer p).owesNotify

omit [DecidableEq ι] in
theorem guarded_init : Guarded (State.init : State ι) where
  start_holds := by intro h; cases h
  add2Buff_holds := by intro p h; cases h
  window := by intro h; cases h
  asleep := by intro h; cases h

omit [DecidableEq ι] in
theorem Guarded.not_locked {s : State ι} (h : Guarded s)
    (hc : s.consumer.holds) (p : ι) : s.producer p ≠ .locked := by
  intro hp
  have howner := (h.start_holds hc).symm.trans (h.add2Buff_holds p hp)
  cases howner

/-! ### Steps of a producer -/

theorem producer_goto_self (s : State ι) (p : ι) (pc : Producer) :
    (s.goto p pc).producer p = pc := by
  simp [State.goto]

theorem producer_goto_of_ne {s : State ι} {p q : ι} (pc : Producer)
    (h : q ≠ p) : (s.goto p pc).producer q = s.producer q := by
  simp [State.goto, h]

/-- The other producers stay where they are. -/
theorem exists_goto {P : Producer → Prop} {s : State ι} {p : ι}
    (pc : Producer) (hp : ¬ P (s.producer p)) (h : ∃ q, P (s.producer q)) :
    ∃ q, P ((s.goto p pc).producer q) := by
  obtain ⟨q, hq⟩ := h
  have hne : q ≠ p := by
    rintro rfl
    exact hp hq
  refine ⟨q, ?_⟩
  rw [producer_goto_of_ne pc hne]
  exact hq

theorem locked_goto {s : State ι} {p q : ι} {pc : Producer}
    (hpc : pc ≠ .locked) (h : (s.goto p pc).producer q = .locked) :
    q ≠ p ∧ s.producer q = .locked := by
  by_cases hqp : q = p
  · subst hqp
    rw [producer_goto_self] at h
    exact absurd h hpc
  · rw [producer_goto_of_ne pc hqp] at h
    exact ⟨hqp, h⟩

/-- Before its push a producer neither holds the lock nor owes a
notification. -/
theorem Guarded.goto_of_not_owesNotify {s : State ι} (h : Guarded s) {p : ι}
    {pc : Producer} (hp : (s.producer p).owesNotify = false)
    (hpc : pc ≠ .locked) : Guarded (s.goto p pc) where
  start_holds := h.start_holds
  add2Buff_holds := by
    intro q hq
    exact h.add2Buff_holds q (locked_goto hpc hq).2
  window := by
    intro hc hqueue
    refine exists_goto (P := (· = .pushed)) pc ?_ (h.window hc hqueue)
    intro hpushed
    rw [hpushed] at hp
    cases hp
  asleep := by
    intro hc hqueue
    refine exists_goto (P := (·.owesNotify)) pc ?_ (h.asleep hc hqueue)
    simp [hp]

omit [DecidableEq ι] in
theorem Guarded.shrink {s : State ι} (h : Guarded s) {queue : List Signal}
    (hqueue : queue ≠ [] → s.queue ≠ []) :
    Guarded { s with queue := queue } where
  start_holds := h.start_holds
  add2Buff_holds := h.add2Buff_holds
  window := fun hc hne => h.window hc (hqueue hne)
  asleep := fun hc hne => h.asleep hc (hqueue hne)

omit [DecidableEq ι] in
theorem Guarded.discard {s : State ι} (h : Guarded s) : Guarded s.discard := by
  rw [State.discard]
  split
  · exact h
  · next sig rest hpop =>
    refine h.shrink fun _ hnil => ?_
    rw [hnil] at hpop
    cases hpop

omit [DecidableEq ι] in
theorem producer_discard (s : State ι) : s.discard.producer = s.producer := by
  rw [State.discard]
  split <;> rfl

theorem Guarded.push {s : State ι} (h : Guarded s) {p : ι} {sig : Signal} :
    Guarded (({ s with queue := s.queue ++ [sig] }).goto p .pushed) where
  start_holds := h.start_holds
  add2Buff_holds := by
    intro q hq
    exact h.add2Buff_holds q (locked_goto (by nofun) hq).2
  window := fun _ _ => ⟨p, producer_goto_self _ p _⟩
  asleep := fun _ _ => ⟨p, by rw [producer_goto_self]; rfl⟩

theorem Guarded.lock {s : State ι} (h : Guarded s) {p : ι}
    (hfree : s.mutex = none) :
    Guarded (({ s with mutex := some (.add2Buff p) }).goto p .locked) := by
  have hout : ¬ s.consumer.holds := by
    intro hc
    rw [h.start_holds hc] at hfree
    cases hfree
  refine ⟨fun hc => absurd hc hout, ?_, ?_, ?_⟩
  · intro q hq
    by_cases hqp : q = p
    · rw [hqp]
      rfl
    · rw [producer_goto_of_ne _ hqp] at hq
      have := h.add2Buff_holds q hq
      rw [hfree] at this
      cases this
  · intro hc _
    refine absurd ?_ hout
    change s.consumer.inWindow = true at hc
    revert hc
    cases s.consumer <;> simp [Consumer.inWindow, Consumer.holds]
  · intro _ _
    exact ⟨p, by rw [producer_goto_self]; rfl⟩

theorem Guarded.unlock {s : State ι} (h : Guarded s) {p : ι}
    (hp : s.producer p = .locked) :
    Guarded (({ s with mutex := none }).goto p .unlocked) := by
  have howner := h.add2Buff_holds p hp
  have hout : ¬ s.consumer.holds := fun hc => h.not_locked hc p hp
  refine ⟨fun hc => absurd hc hout, ?_, ?_, ?_⟩
  · intro q hq
    obtain ⟨hqp, hq⟩ := locked_goto (by nofun) hq
    have := howner.symm.trans (h.add2Buff_holds q hq)
    cases this
    exact absurd rfl hqp
  · intro hc hqueue
    refine exists_goto (P := (· = .pushed)) _ ?_ (h.window hc hqueue)
    change s.producer p ≠ .pushed
    rw [hp]
    nofun
  · intro _ _
    exact ⟨p, by rw [producer_goto_self]; rfl⟩

/-- The notification reaches the consumer if it is asleep. -/
theorem Guarded.notify {s : State ι} (h : Guarded s) {p : ι}
    (hp : s.producer p = .unlocked) : Guarded (s.notifyOne.goto p .idle) := by
  rw [State.notifyOne]
  split
  · refine ⟨by nofun, ?_, by nofun, by nofun⟩
    intro q hq
    exact h.add2Buff_holds q (locked_goto (by nofun) hq).2
  · next hawake =>
    refine ⟨h.start_holds, ?_, ?_, fun hc => absurd hc hawake⟩
    · intro q hq
      exact h.add2Buff_holds q (locked_goto (by nofun) hq).2
    · intro hc hqueue
      refine exists_goto (P := (· = .pushed)) _ ?_ (h.window hc hqueue)
      rw [hp]
      nofun

theorem guarded_add2BuffStep {s t : State ι} (h : Guarded s) {p : ι}
    (hstep : add2BuffStep s p = some t) : Guarded t := by
  rw [add2BuffStep] at hstep
  cases hp : s.producer p with
  | idle =>
      rw [hp] at hstep
      cases hstep
  | testing sig =>
      have howes : (s.producer p).owesNotify = false := by rw [hp]; rfl
      simp only [hp] at hstep
      split at hstep
      · cases hstep
        exact h.goto_of_not_owesNotify howes (by nofun)
      · cases hstep
        exact h.goto_of_not_owesNotify howes (by nofun)
  | dropping =>
      simp only [hp] at hstep
      cases hstep
      refine h.discard.goto_of_not_owesNotify ?_ (by nofun)
      rw [producer_discard, hp]
      rfl
  | pushing sig =>
      simp only [hp] at hstep
      cases hstep
      exact h.push
  | pushed =>
      simp only [hp] at hstep
      split at hstep
      · next hfree =>
        cases hstep
        exact h.lock hfree
      · cases hstep
  | locked =>
      simp only [hp] at hstep
      cases hstep
      exact h.unlock hp
  | unlocked =>
      simp only [hp] at hstep
      cases hstep
      exact h.notify hp

/-! ### Steps of the consumer -/

omit [DecidableEq ι] in
/-- The consumer is where it holds no lock and has nothing to wait for. -/
theorem Guarded.move {s : State ι} (h : Guarded s) {c : Consumer}
    (hholds : c.holds = false) (hwaits : c ≠ .waiting) (working : Bool) :
    Guarded { s with working := working, consumer := c } where
  start_holds := by
    intro hc
    change c.holds = true at hc
    rw [hholds] at hc
    cases hc
  add2Buff_holds := h.add2Buff_holds
  window := by
    intro hc
    change c.inWindow = true at hc
    revert hc hholds
    cases c <;> simp [Consumer.inWindow, Consumer.holds]
  asleep := fun hc => absurd hc hwaits

omit [DecidableEq ι] in
/-- The consumer gives the lock back and goes on. -/
theorem Guarded.free {s : State ι} (h : Guarded s) {c : Consumer}
    (hc : s.consumer.holds) (hholds : c.holds = false)
    (hwaits : c ≠ .waiting) :
    Guarded { s with mutex := none, consumer := c } := by
  have hnone : Guarded { s with mutex := none, consumer := .popping } :=
    ⟨by nofun, fun p hp => absurd hp (h.not_locked hc p), by nofun, by nofun⟩
  exact hnone.move hholds hwaits s.working

omit [DecidableEq ι] in
/-- The consumer takes a free lock. -/
theorem Guarded.take {s : State ι} (h : Guarded s) (hfree : s.mutex = none) :
    Guarded { s with mutex := some .start, consumer := .testing } where
  start_holds := fun _ => rfl
  add2Buff_holds := by
    intro p hp
    have howner := h.add2Buff_holds p hp
    rw [hfree] at howner
    cases howner
  window := by nofun
  asleep := by nofun

omit [DecidableEq ι] in
/-- With the lock, a producer owes a notification only for what it pushed
after the lock was taken. -/
theorem Guarded.keep {s : State ι} (h : Guarded s) {c : Consumer}
    (hc : s.consumer.holds) (hwaits : c ≠ .waiting)
    (hwindow : c.inWindow → s.queue = [] ∨ s.consumer.inWindow) :
    Guarded { s with consumer := c } where
  start_holds := fun _ => h.start_holds hc
  add2Buff_holds := h.add2Buff_holds
  window := by
    intro hin hqueue
    rcases hwindow hin with hempty | hold
    · exact absurd hempty hqueue
    · exact h.window hold hqueue
  asleep := fun hin => absurd hin hwaits

omit [DecidableEq ι] in
/-- `wait` gives the lock back and falls asleep in one step, so whoever was in
front of the lock is still to come. -/
theorem Guarded.sleep {s : State ι} (h : Guarded s)
    (hc : s.consumer = .toWait) :
    Guarded { s with mutex := none, consumer := .waiting } where
  start_holds := by nofun
  add2Buff_holds := by
    intro p hp
    refine absurd hp (h.not_locked ?_ p)
    rw [hc]
    rfl
  window := by nofun
  asleep := by
    intro _ hqueue
    have hin : s.consumer.inWindow := by rw [hc]; rfl
    obtain ⟨p, hp⟩ := h.window hin hqueue
    refine ⟨p, ?_⟩
    change (s.producer p).owesNotify = true
    rw [hp]
    rfl

omit [DecidableEq ι] in
theorem guarded_startStep {s t : State ι} (h : Guarded s) {threw : Bool}
    (hstep : startStep s threw = some t) : Guarded t := by
  rw [startStep] at hstep
  cases hc : s.consumer with
  | looping =>
      simp only [hc] at hstep
      split at hstep <;> cases hstep
      · exact h.move rfl (by nofun) s.working
      · exact h.move rfl (by nofun) s.working
  | locking | notified =>
      simp only [hc] at hstep
      split at hstep
      · next hfree =>
        cases hstep
        exact h.take hfree
      · cases hstep
  | testing =>
      have hholds : s.consumer.holds := by rw [hc]; rfl
      simp only [hc] at hstep
      split at hstep
      · next hempty =>
        cases hstep
        refine h.keep hholds (by nofun) fun _ => Or.inl ?_
        exact List.isEmpty_iff.mp hempty
      · cases hstep
        exact h.keep hholds (by nofun) (by nofun)
  | foundEmpty =>
      have hholds : s.consumer.holds := by rw [hc]; rfl
      simp only [hc] at hstep
      split at hstep <;> cases hstep
      · exact h.keep hholds (by nofun) fun _ => Or.inr (by rw [hc]; rfl)
      · exact h.keep hholds (by nofun) (by nofun)
  | toWait =>
      simp only [hc] at hstep
      cases hstep
      exact h.sleep hc
  | waiting =>
      simp only [hc] at hstep
      cases hstep
  | awake =>
      have hholds : s.consumer.holds := by rw [hc]; rfl
      simp only [hc] at hstep
      split at hstep <;> cases hstep
      · exact h.free hholds rfl (by nofun)
      · exact h.free hholds rfl (by nofun)
  | popping =>
      simp only [hc] at hstep
      split at hstep
      · cases hstep
        exact h.move rfl (by nofun) s.working
      · next sig rest hpop =>
        cases hstep
        have hrest : Guarded { s with queue := rest } := by
          refine h.shrink fun _ hnil => ?_
          rw [hnil] at hpop
          cases hpop
        exact hrest.move rfl (by nofun) s.working
  | sending sig =>
      simp only [hc] at hstep
      split at hstep <;> cases hstep
      · exact h.move rfl (by nofun) false
      · exact h.move rfl (by nofun) s.working
  | stopped =>
      simp only [hc] at hstep
      cases hstep

theorem guarded_step {s t : State ι} (h : Guarded s) {e : Event ι}
    (hstep : step s e = some t) : Guarded t := by
  cases e with
  | call p sig =>
      rw [step] at hstep
      split at hstep
      · next hidle =>
        cases hstep
        refine h.goto_of_not_owesNotify ?_ (by nofun)
        rw [hidle]
        rfl
      · cases hstep
  | add2Buff p => exact guarded_add2BuffStep h hstep
  | start threw => exact guarded_startStep h hstep
  | spurious =>
      rw [step] at hstep
      split at hstep
      · cases hstep
        exact h.move rfl (by nofun) s.working
      · cases hstep

/-- In every state of every interleaving: if the consumer sleeps while a
signal is queued, some producer is still to notify it. -/
theorem asleep_has_waker (es : List (Event ι)) :
    EveryState step
      (fun s : State ι => s.consumer = .waiting → s.queue ≠ [] →
        ∃ p, (s.producer p).owesNotify)
      State.init es := by
  have hguarded : EveryState step Guarded (State.init : State ι) es := by
    refine everyState_of_invariant ?_ guarded_init es
    intro s e t h hstep
    exact guarded_step h hstep
  exact hguarded.imp fun s h => h.asleep

/-! ## A call that runs alone -/

/-- The signals that `add2Buff` leaves in the queue. -/
theorem queue_add2Buff {n : ℕ} {pool pool' : DataArrayPool}
    {tx tx' : Transmitter n} {sig : Signal}
    (h : Transmitter.add2Buff pool tx sig = .ok (pool', tx')) :
    tx'.queue =
      if queueCap - 1 ≤ tx.queue.length then
        match SignalQueue.popEarliest tx.queue with
        | none => tx.queue
        | some (_, rest) => rest
      else tx.queue ++ [sig] := by
  rw [Transmitter.add2Buff] at h
  split at h
  · next hfull =>
    rw [if_pos hfull]
    cases hpop : SignalQueue.popEarliest tx.queue with
    | none =>
      rw [hpop] at h
      obtain ⟨p, -, hok⟩ := Outcome.exists_of_bind_eq_ok h
      cases hok
      rfl
    | some popped =>
      obtain ⟨oldest, rest⟩ := popped
      rw [hpop] at h
      obtain ⟨p, -, h⟩ := Outcome.exists_of_bind_eq_ok h
      obtain ⟨p, -, hok⟩ := Outcome.exists_of_bind_eq_ok h
      cases hok
      rfl
  · next hroom =>
    rw [if_neg hroom]
    cases h
    rfl

theorem goto_goto (s : State ι) (p : ι) (pc pc' : Producer) :
    (s.goto p pc).goto p pc' = s.goto p pc' := by
  simp [State.goto]

theorem discard_goto (s : State ι) (p : ι) (pc : Producer) :
    (s.goto p pc).discard = s.discard.goto p pc := by
  simp only [State.discard, State.goto]
  split <;> rfl

theorem notifyOne_goto (s : State ι) (p : ι) (pc : Producer) :
    (s.goto p pc).notifyOne = s.notifyOne.goto p pc := by
  simp only [State.notifyOne, State.goto]
  split <;> rfl

theorem run_add2Buff_full {s : State ι} {sig : Signal} {p : ι}
    (hidle : s.producer p = .idle) (hfull : queueCap - 1 ≤ s.queue.length) :
    run step s [.call p sig, .add2Buff p, .add2Buff p] =
      some (s.discard.goto p .idle) := by
  have htest : add2BuffStep (s.goto p (.testing sig)) p =
      some (s.goto p .dropping) := by
    simp only [add2BuffStep, producer_goto_self, goto_goto]
    exact if_pos hfull
  have hdrop : add2BuffStep (s.goto p .dropping) p =
      some (s.discard.goto p .idle) := by
    simp only [add2BuffStep, producer_goto_self, discard_goto, goto_goto]
  simp [run, step, hidle, htest, hdrop]

theorem run_add2Buff_room {s : State ι} {sig : Signal} {p : ι}
    (hidle : s.producer p = .idle) (hfree : s.mutex = none)
    (hroom : ¬ queueCap - 1 ≤ s.queue.length) :
    run step s (.call p sig :: List.replicate 5 (.add2Buff p)) =
      some (({ s with queue := s.queue ++ [sig] }).notifyOne.goto p .idle) := by
  have htest : add2BuffStep (s.goto p (.testing sig)) p =
      some (s.goto p (.pushing sig)) := by
    simp only [add2BuffStep, producer_goto_self, goto_goto]
    exact if_neg hroom
  set u := { s with queue := s.queue ++ [sig] } with hu
  have hpush : add2BuffStep (s.goto p (.pushing sig)) p =
      some (u.goto p .pushed) := by
    simp only [add2BuffStep, producer_goto_self]
    exact congrArg some (goto_goto u p (.pushing sig) .pushed)
  have hlock : add2BuffStep (u.goto p .pushed) p =
      some (({ u with mutex := some (.add2Buff p) }).goto p .locked) := by
    simp only [add2BuffStep, producer_goto_self]
    refine (if_pos hfree).trans (congrArg some ?_)
    exact goto_goto { u with mutex := some (.add2Buff p) } p .pushed .locked
  have hunlock :
      add2BuffStep (({ u with mutex := some (.add2Buff p) }).goto p .locked) p =
        some (u.goto p .unlocked) := by
    simp only [add2BuffStep, producer_goto_self]
    have hnone : { u with mutex := none } = u := by simp [hu, hfree]
    rw [← hnone]
    exact congrArg some (goto_goto { u with mutex := none } p .locked .unlocked)
  have hnotify : add2BuffStep (u.goto p .unlocked) p =
      some (u.notifyOne.goto p .idle) := by
    simp only [add2BuffStep, producer_goto_self, notifyOne_goto, goto_goto]
  simp [run, step, hidle, htest, hpush, hlock, hunlock, hnotify,
    List.replicate]

/-- Undisturbed, the steps of a call leave the queue as
`Transmitter.add2Buff` does. -/
theorem add2Buff_alone {n : ℕ} {pool pool' : DataArrayPool}
    {tx tx' : Transmitter n} {s : State ι} {sig : Signal} {p : ι}
    (hqueue : s.queue = tx.queue) (hidle : s.producer p = .idle)
    (hfree : s.mutex = none)
    (hadd : Transmitter.add2Buff pool tx sig = .ok (pool', tx')) :
    ∃ k t, run step s (.call p sig :: List.replicate k (.add2Buff p)) = some t ∧
      t.queue = tx'.queue ∧ t.producer p = .idle := by
  rw [queue_add2Buff hadd, ← hqueue]
  by_cases hfull : queueCap - 1 ≤ s.queue.length
  · refine ⟨2, _, run_add2Buff_full hidle hfull, ?_, producer_goto_self _ p _⟩
    rw [if_pos hfull]
    simp only [State.goto, State.discard]
    split <;> rfl
  · refine ⟨5, _, run_add2Buff_room hidle hfree hfull, ?_,
      producer_goto_self _ p _⟩
    rw [if_neg hfull]
    simp only [State.goto, State.notifyOne]
    split <;> rfl

end TransmitterWakeup
end Pipeline
end Chem
