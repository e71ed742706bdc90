import ChemEmulator.Models.NodeConfig
import ChemEmulator.Support.PartialRuns

/-!
# Vehicle handlers

`src/chem/vehicle/handler.cpp`: the thread of `Handler::Start`, the telemetry
callbacks and `Handler::Stop` as interleaved steps.  The handler reports to its
node with `setLocation` and `setVelocity`; of the node only the logical node in
its configuration is read.

What MAVSDK answers is an input: whether the connection succeeds, and when a
system is discovered, which then stays.  A callback tests the flag and the
update interval in one step and calls the node in another.  The printed lines
and the telemetry rate are left out.

A thread that cannot move lets the step pass, so every list of events is an
interleaving.
-/

namespace Chem

/-- `chem::Velocity`. -/
structure Velocity where
  east : FloatValue
  north : FloatValue
  up : FloatValue
deriving DecidableEq

/-- `Telemetry::VelocityNed`. -/
structure VelocityNed where
  north : FloatValue
  east : FloatValue
  down : FloatValue
deriving DecidableEq

namespace Vehicle

/-! ## Program points -/

/-- The program points of `Start`, each named after what comes next; `cnt`
counts the seconds that it has waited for a system. -/
inductive Thread where
  | connecting
  | fallback
  | waiting (cnt : ℕ)
  | sleeping (cnt : ℕ)
  | checking (cnt : ℕ)
  | deciding (cnt : ℕ)
  | selecting
  | enabling
  | subscribingPosition
  | subscribingVelocity
  | looping
  | resting
  | returned
deriving DecidableEq

/-- A call on the node. -/
inductive NodeCall where
  | setLocation (location : Location) (logicalNode : UInt8)
  | setVelocity (velocity : Velocity)
deriving DecidableEq

structure Handler where
  running : Bool
  /-- `Stop` has returned. -/
  stopped : Bool
  thread : Thread
  /-- The number of systems that MAVSDK has discovered. -/
  systems : ℕ
  positionSubscribed : Bool
  velocitySubscribed : Bool
  /-- In nanoseconds of the steady clock. -/
  lastPositionUpdate : ℤ
  lastVelocityUpdate : ℤ
  /-- The logical node in the configuration of the node. -/
  logicalNode : ℤ
  /-- The calls of the callbacks that have passed their tests. -/
  pending : List NodeCall
  /-- The calls made so far, each with whether `Stop` had returned. -/
  calls : List (NodeCall × Bool)
deriving DecidableEq

/-- `thread connected` is the next step of `Start`, with the result of
`Connect` if it asks for it; `deliver i` is the call of a callback that has
passed its tests.  `discover` and `configure` are what happens meanwhile to
MAVSDK and to the configuration of the node. -/
inductive Event where
  | thread (connected : Bool)
  | position (location : Location) (now pollRateMs : ℤ)
  | velocity (velocity : VelocityNed) (now pollRateMs : ℤ)
  | deliver (i : ℕ)
  | discover
  | configure (logicalNode : ℤ)
  | stop
deriving DecidableEq

namespace Handler

/-- The constructor. -/
def create (logicalNode : ℤ) : Handler where
  running := false
  stopped := false
  thread := .connecting
  systems := 0
  positionSubscribed := false
  velocitySubscribed := false
  lastPositionUpdate := 0
  lastVelocityUpdate := 0
  logicalNode := logicalNode
  pending := []
  calls := []

/-! ## Steps -/

def goto (s : Handler) (thread : Thread) : Handler :=
  { s with thread := thread }

def call (s : Handler) (c : NodeCall) : Handler :=
  { s with calls := s.calls ++ [(c, s.stopped)] }

/-- The logical node that goes with a location. -/
def logicalNumber (s : Handler) : UInt8 :=
  if 0 ≤ s.logicalNode then UInt8.ofInt s.logicalNode else 0

/-- `setFallbackLocation`. -/
def setFallbackLocation (s : Handler) : Handler :=
  match resolveAerpawLocation "LW-1" with
  | some location => s.call (.setLocation location s.logicalNumber)
  | none => s

/-- `minUpdateInterval`, in nanoseconds. -/
def minUpdateInterval (pollRateMs : ℤ) : ℤ := max 20 pollRateMs * 1000000

/-- The next step of `Start`. -/
def threadStep (s : Handler) (connected : Bool) : Handler :=
  match s.thread with
  | .connecting => s.goto (if connected then .waiting 0 else .fallback)
  | .fallback => s.setFallbackLocation.goto .returned
  | .waiting cnt =>
      s.goto (if s.systems = 0 ∧ cnt < 6 then .sleeping cnt
        else .checking cnt)
  | .sleeping cnt => s.goto (.waiting (cnt + 1))
  | .checking cnt =>
      s.goto (if s.systems = 0 then .fallback else .deciding cnt)
  | .deciding cnt => s.goto (if 5 ≤ cnt then .returned else .selecting)
  | .selecting => s.goto (if s.systems = 0 then .returned else .enabling)
  | .enabling => { s with running := true, thread := .subscribingPosition }
  | .subscribingPosition =>
      { s with positionSubscribed := true, thread := .subscribingVelocity }
  | .subscribingVelocity =>
      { s with velocitySubscribed := true, thread := .looping }
  | .looping => s.goto (if s.running then .resting else .returned)
  | .resting => s.goto .looping
  | .returned => s

/-- The position callback up to its call. -/
def onPosition (s : Handler) (location : Location) (now pollRateMs : ℤ) :
    Handler :=
  if s.positionSubscribed = false ∨ s.running = false then s
  else if now - s.lastPositionUpdate < minUpdateInterval pollRateMs then s
  else
    { s with
      lastPositionUpdate := now
      pending := s.pending ++ [.setLocation location s.logicalNumber] }

/-- The velocity callback up to its call. -/
def onVelocity (s : Handler) (velocity : VelocityNed) (now pollRateMs : ℤ) :
    Handler :=
  if s.velocitySubscribed = false ∨ s.running = false then s
  else if now - s.lastVelocityUpdate < minUpdateInterval pollRateMs then s
  else
    { s with
      lastVelocityUpdate := now
      pending := s.pending ++
        [.setVelocity ⟨velocity.east, velocity.north, velocity.down.neg⟩] }

def deliver (s : Handler) (i : ℕ) : Handler :=
  match s.pending[i]? with
  | none => s
  | some c => { s with pending := s.pending.eraseIdx i }.call c

def step (s : Handler) : Event → Handler
  | .thread connected => s.threadStep connected
  | .position location now rate => s.onPosition location now rate
  | .velocity velocity now rate => s.onVelocity velocity now rate
  | .deliver i => s.deliver i
  | .discover => { s with systems := s.systems + 1 }
  | .configure logicalNode => { s with logicalNode := logicalNode }
  | .stop => { s with running := false, stopped := true }

/-- The handler after a list of events. -/
def after (s : Handler) (es : List Event) : Handler := es.foldl step s

/-- No call on the node is made after `Stop` has returned. -/
def NoLateCall (s : Handler) : Prop := ∀ c ∈ s.calls, c.2 = false

/-- The thread will neither fall back nor set the flag anymore. -/
def Settled (s : Handler) : Prop :=
  match s.thread with
  | .connecting | .fallback | .selecting | .enabling => False
  | .waiting cnt | .checking cnt => 0 < s.systems ∧ 5 ≤ cnt
  | .sleeping cnt => 0 < s.systems ∧ 4 ≤ cnt
  | .deciding cnt => 5 ≤ cnt
  | .subscribingPosition | .subscribingVelocity | .looping | .resting
  | .returned => True

/-- A moment at which `Stop` may be called: the thread is settled, and no
callback that has passed its tests is still to call the node. -/
structure Quiet (s : Handler) : Prop where
  settled : s.Settled
  idle : s.pending = []

instance (s : Handler) : Decidable s.NoLateCall :=
  inferInstanceAs (Decidable (∀ c ∈ s.calls, c.2 = false))

/-! ## After a stop at a quiet moment -/

/-- The state that such a stop leaves. -/
structure Silent (s : Handler) : Prop where
  quiet : s.Quiet
  off : s.running = false
  clean : s.NoLateCall

theorem settled_threadStep {s : Handler} (h : s.Settled) (connected : Bool) :
    (s.threadStep connected).Settled := by
  unfold Settled at h
  unfold threadStep
  cases hthread : s.thread with
  | connecting | fallback | selecting | enabling =>
      rw [hthread] at h
      exact h.elim
  | waiting cnt =>
      simp only [hthread] at h ⊢
      rw [if_neg (by omega)]
      exact h
  | sleeping cnt =>
      simp only [hthread] at h ⊢
      exact ⟨h.1, by omega⟩
  | checking cnt =>
      simp only [hthread] at h ⊢
      rw [if_neg (by omega)]
      exact h.2
  | deciding cnt =>
      simp only [hthread] at h ⊢
      rw [if_pos h]
      trivial
  | subscribingPosition | subscribingVelocity | resting => trivial
  | looping =>
      dsimp only
      cases s.running <;> trivial
  | returned =>
      dsimp only
      unfold Settled
      rw [hthread]
      trivial

/-- A settled thread calls the node no more and leaves the flag alone. -/
theorem threadStep_eq {s : Handler} (h : s.Settled) (connected : Bool) :
    (s.threadStep connected).pending = s.pending ∧
      (s.threadStep connected).running = s.running ∧
      (s.threadStep connected).calls = s.calls := by
  unfold Settled at h
  unfold threadStep
  cases hthread : s.thread with
  | connecting | fallback | selecting | enabling =>
      rw [hthread] at h
      exact h.elim
  | waiting _ | sleeping _ | checking _ | deciding _ | subscribingPosition
  | subscribingVelocity | looping | resting | returned =>
      exact ⟨rfl, rfl, rfl⟩

/-- The thread is as before, and as many systems are known. -/
theorem Settled.congr {s t : Handler} (h : s.Settled)
    (hthread : t.thread = s.thread) (hsystems : s.systems ≤ t.systems) :
    t.Settled := by
  unfold Settled at h ⊢
  rw [hthread]
  cases hs : s.thread with
  | waiting cnt | sleeping cnt | checking cnt =>
      simp only [hs] at h ⊢
      exact ⟨Nat.lt_of_lt_of_le h.1 hsystems, h.2⟩
  | deciding cnt =>
      simp only [hs] at h ⊢
      exact h
  | connecting | fallback | selecting | enabling =>
      rw [hs] at h
      exact h.elim
  | subscribingPosition | subscribingVelocity | looping | resting
  | returned => trivial

theorem silent_step {s : Handler} (h : s.Silent) {e : Event} :
    (s.step e).Silent := by
  cases e with
  | thread connected =>
      obtain ⟨hpending, hrunning, hcalls⟩ :=
        threadStep_eq h.quiet.settled connected
      refine ⟨⟨settled_threadStep h.quiet.settled connected, ?_⟩, ?_, ?_⟩
      · exact hpending.trans h.quiet.idle
      · exact hrunning.trans h.off
      · unfold NoLateCall
        rw [step, hcalls]
        exact h.clean
  | position location now rate =>
      have hsame : s.onPosition location now rate = s := by
        rw [onPosition, if_pos (Or.inr h.off)]
      rw [step, hsame]
      exact h
  | velocity velocity now rate =>
      have hsame : s.onVelocity velocity now rate = s := by
        rw [onVelocity, if_pos (Or.inr h.off)]
      rw [step, hsame]
      exact h
  | deliver i =>
      have hsame : s.deliver i = s := by
        rw [deliver, h.quiet.idle, List.getElem?_nil]
      rw [step, hsame]
      exact h
  | discover =>
      exact ⟨⟨h.quiet.settled.congr rfl (Nat.le_succ _), h.quiet.idle⟩, h.off,
        h.clean⟩
  | configure logicalNode =>
      exact ⟨⟨h.quiet.settled.congr rfl (Nat.le_refl _), h.quiet.idle⟩, h.off,
        h.clean⟩
  | stop =>
      exact ⟨⟨h.quiet.settled.congr rfl (Nat.le_refl _), h.quiet.idle⟩, rfl,
        h.clean⟩

/-! ## Before the stop -/

/-- No call has been made late, because nothing has been stopped. -/
structure Live (s : Handler) : Prop where
  live : s.stopped = false
  clean : s.NoLateCall

theorem noLateCall_call {s : Handler} (h : s.Live) (c : NodeCall) :
    (s.call c).NoLateCall := by
  intro d hd
  rcases List.mem_append.mp hd with hold | hnew
  · exact h.clean d hold
  · rw [List.mem_singleton.mp hnew]
    exact h.live

theorem live_step {s : Handler} (h : s.Live) {e : Event} (he : e ≠ .stop) :
    (s.step e).Live := by
  cases e with
  | stop => exact absurd rfl he
  | thread connected =>
      unfold step threadStep
      dsimp only
      split
      case h_2 =>
        unfold setFallbackLocation
        split
        · exact ⟨h.live, noLateCall_call h _⟩
        · exact ⟨h.live, h.clean⟩
      all_goals exact ⟨h.live, h.clean⟩
  | position location now rate =>
      unfold step onPosition
      dsimp only
      split_ifs <;> exact ⟨h.live, h.clean⟩
  | velocity velocity now rate =>
      unfold step onVelocity
      dsimp only
      split_ifs <;> exact ⟨h.live, h.clean⟩
  | deliver i =>
      unfold step deliver
      dsimp only
      split
      · exact ⟨h.live, h.clean⟩
      · exact ⟨h.live, noLateCall_call ⟨h.live, h.clean⟩ _⟩
  | discover | configure _ => exact ⟨h.live, h.clean⟩

/-! ## After a stop at another moment -/

/-- Some interleaving of what is left makes a call after the stop. -/
def Spoils (s : Handler) : Prop :=
  ∃ es, Event.stop ∉ es ∧ ¬(s.after es).NoLateCall

theorem Spoils.of_step {s : Handler} {e : Event} (he : e ≠ .stop)
    (h : (s.step e).Spoils) : s.Spoils := by
  obtain ⟨es, hes, hlate⟩ := h
  refine ⟨e :: es, ?_, hlate⟩
  rw [List.mem_cons]
  rintro (rfl | hmem)
  · exact he rfl
  · exact hes hmem

theorem Spoils.of_thread {s : Handler} (connected : Bool)
    (h : (s.threadStep connected).Spoils) : s.Spoils :=
  Spoils.of_step (Event.noConfusion : Event.thread connected ≠ .stop) h

theorem spoils_of_call {s : Handler} (hstopped : s.stopped = true)
    (c : NodeCall) : ¬(s.call c).NoLateCall := by
  intro h
  have hlate := h (c, s.stopped) (List.mem_append_right _ (by simp))
  rw [hstopped] at hlate
  cases hlate

theorem spoils_of_pending {s : Handler} (hstopped : s.stopped = true)
    (hpending : s.pending ≠ []) : s.Spoils := by
  refine ⟨[.deliver 0], by simp, ?_⟩
  obtain ⟨c, rest, hcons⟩ := List.exists_cons_of_ne_nil hpending
  have hdeliver : s.after [.deliver 0] =
      { s with pending := rest }.call c := by
    change s.deliver 0 = _
    rw [deliver, hcons]
    rfl
  rw [hdeliver]
  exact spoils_of_call hstopped c

theorem spoils_of_fallback {s : Handler} (hstopped : s.stopped = true)
    (hthread : s.thread = .fallback) : s.Spoils := by
  refine ⟨[.thread false], by simp, ?_⟩
  have hfallback : ∃ location, resolveAerpawLocation "LW-1" = some location :=
    Option.isSome_iff_exists.mp (by decide +kernel)
  obtain ⟨location, hlocation⟩ := hfallback
  have hcall : s.after [.thread false] =
      (s.call (.setLocation location s.logicalNumber)).goto .returned := by
    change s.threadStep false = _
    rw [threadStep, hthread]
    dsimp only
    rw [setFallbackLocation, hlocation]
  rw [hcall]
  exact spoils_of_call hstopped _

/-- A position that is due is reported. -/
theorem spoils_of_subscribed {s : Handler} (hstopped : s.stopped = true)
    (hrunning : s.running = true) (hposition : s.positionSubscribed = true) :
    s.Spoils := by
  let location : Location := ⟨.finite 0, .finite 0, .finite 0⟩
  let now := s.lastPositionUpdate + minUpdateInterval 0
  have hdue : ¬now - s.lastPositionUpdate < minUpdateInterval 0 := by
    simp only [now]
    omega
  have hpending : s.onPosition location now 0 = { s with
      lastPositionUpdate := now
      pending := s.pending ++ [.setLocation location s.logicalNumber] } := by
    rw [onPosition, if_neg (by simp [hrunning, hposition]), if_neg hdue]
  refine Spoils.of_step
    (Event.noConfusion : Event.position location now 0 ≠ .stop) ?_
  rw [step, hpending]
  exact spoils_of_pending hstopped (by simp)

/-- The thread sets the flag and subscribes. -/
theorem spoils_of_enabling {s : Handler} (hstopped : s.stopped = true)
    (hthread : s.thread = .enabling) : s.Spoils := by
  apply Spoils.of_thread false
  apply Spoils.of_thread false
  have hsteps : (s.threadStep false).threadStep false = { s with
      running := true
      thread := .subscribingVelocity
      positionSubscribed := true } := by
    simp only [threadStep, hthread]
  rw [hsteps]
  exact spoils_of_subscribed hstopped rfl rfl

theorem spoils_of_selecting {s : Handler} (hstopped : s.stopped = true)
    (hthread : s.thread = .selecting) : s.Spoils := by
  refine Spoils.of_step (Event.noConfusion : Event.discover ≠ .stop) ?_
  apply Spoils.of_thread false
  refine spoils_of_enabling ?_ ?_
  · simp [step, threadStep, hthread, goto, hstopped]
  · simp [step, threadStep, hthread, goto]

theorem spoils_of_deciding {s : Handler} (hstopped : s.stopped = true)
    {cnt : ℕ} (hthread : s.thread = .deciding cnt) (hcnt : ¬5 ≤ cnt) :
    s.Spoils := by
  apply Spoils.of_thread false
  have hstep : s.threadStep false = s.goto .selecting := by
    simp only [threadStep, hthread, if_neg hcnt]
  rw [hstep]
  exact spoils_of_selecting hstopped rfl

theorem spoils_of_checking {s : Handler} (hstopped : s.stopped = true)
    {cnt : ℕ} (hthread : s.thread = .checking cnt)
    (hopen : ¬(0 < s.systems ∧ 5 ≤ cnt)) : s.Spoils := by
  apply Spoils.of_thread false
  by_cases hnone : s.systems = 0
  · have hstep : s.threadStep false = s.goto .fallback := by
      simp only [threadStep, hthread, if_pos hnone]
    rw [hstep]
    exact spoils_of_fallback hstopped rfl
  · have hstep : s.threadStep false = s.goto (.deciding cnt) := by
      simp only [threadStep, hthread, if_neg hnone]
    rw [hstep]
    exact spoils_of_deciding hstopped rfl (by omega)

/-- The loop ends with a system, or after six seconds. -/
theorem spoils_of_waiting {s : Handler} (hstopped : s.stopped = true)
    {cnt : ℕ} (hthread : s.thread = .waiting cnt)
    (hopen : ¬(0 < s.systems ∧ 5 ≤ cnt)) : s.Spoils := by
  induction hrest : 6 - cnt generalizing s cnt with
  | zero =>
      apply Spoils.of_thread false
      have hstep : s.threadStep false = s.goto (.checking cnt) := by
        simp only [threadStep, hthread]
        rw [if_neg (by omega)]
      rw [hstep]
      exact spoils_of_checking hstopped rfl hopen
  | succ rest ih =>
      by_cases hnone : s.systems = 0
      · apply Spoils.of_thread false
        apply Spoils.of_thread false
        have hsteps : (s.threadStep false).threadStep false =
            s.goto (.waiting (cnt + 1)) := by
          have hsleep : s.threadStep false = s.goto (.sleeping cnt) := by
            simp only [threadStep, hthread]
            rw [if_pos ⟨hnone, by omega⟩]
          rw [hsleep]
          rfl
        rw [hsteps]
        refine ih hstopped rfl ?_ (by omega)
        rintro ⟨hsome, -⟩
        exact absurd hnone (Nat.pos_iff_ne_zero.mp hsome)
      · apply Spoils.of_thread false
        have hstep : s.threadStep false = s.goto (.checking cnt) := by
          simp only [threadStep, hthread]
          rw [if_neg (by omega)]
        rw [hstep]
        exact spoils_of_checking hstopped rfl hopen

theorem spoils_of_not_settled {s : Handler} (hstopped : s.stopped = true)
    (hopen : ¬s.Settled) : s.Spoils := by
  unfold Settled at hopen
  cases hthread : s.thread with
  | connecting =>
      apply Spoils.of_thread false
      have hstep : s.threadStep false = s.goto .fallback := by
        simp [threadStep, hthread]
      rw [hstep]
      exact spoils_of_fallback hstopped rfl
  | fallback => exact spoils_of_fallback hstopped hthread
  | waiting cnt =>
      rw [hthread] at hopen
      exact spoils_of_waiting hstopped hthread hopen
  | sleeping cnt =>
      rw [hthread] at hopen
      apply Spoils.of_thread false
      have hstep : s.threadStep false = s.goto (.waiting (cnt + 1)) := by
        simp only [threadStep, hthread]
      rw [hstep]
      refine spoils_of_waiting hstopped rfl ?_
      rintro ⟨hsome, hcnt⟩
      exact hopen ⟨hsome, Nat.le_of_succ_le_succ hcnt⟩
  | checking cnt =>
      rw [hthread] at hopen
      exact spoils_of_checking hstopped hthread hopen
  | deciding cnt =>
      rw [hthread] at hopen
      exact spoils_of_deciding hstopped hthread hopen
  | selecting => exact spoils_of_selecting hstopped hthread
  | enabling => exact spoils_of_enabling hstopped hthread
  | subscribingPosition | subscribingVelocity | looping | resting
  | returned =>
      rw [hthread] at hopen
      exact absurd trivial hopen

/-! ## Runs -/

theorem silent_after {s : Handler} (h : s.Silent) (es : List Event) :
    (s.after es).Silent := by
  induction es generalizing s with
  | nil => exact h
  | cons e es ih => exact ih (silent_step h)

theorem live_after {s : Handler} (h : s.Live) {es : List Event}
    (hes : Event.stop ∉ es) : (s.after es).Live := by
  induction es generalizing s with
  | nil => exact h
  | cons e es ih =>
      rw [List.mem_cons, not_or] at hes
      exact ih (live_step h (Ne.symm hes.1)) hes.2

/-- Whatever has happened before a call of `Stop`, no interleaving of what
follows makes a call on the node exactly when `Stop` is called at a quiet
moment. -/
theorem noLateCall_iff_quiet (logicalNode : ℤ) (es : List Event)
    (hes : Event.stop ∉ es) :
    (∀ rest, Event.stop ∉ rest →
      ((create logicalNode).after (es ++ .stop :: rest)).NoLateCall) ↔
      ((create logicalNode).after es).Quiet := by
  have hstart : (create logicalNode).Live := ⟨rfl, by simp [create, NoLateCall]⟩
  have hlive := live_after hstart hes
  generalize hs : (create logicalNode).after es = s at hlive
  have hafter : ∀ rest, (create logicalNode).after (es ++ .stop :: rest) =
      (s.step .stop).after rest := by
    intro rest
    rw [after, List.foldl_append, ← hs]
    rfl
  simp only [hafter]
  constructor
  · intro hclean
    by_contra hloud
    have hspoils : (s.step .stop).Spoils := by
      by_cases hidle : s.pending = []
      · refine spoils_of_not_settled rfl fun hsettled => hloud ⟨?_, hidle⟩
        exact hsettled.congr rfl (Nat.le_refl _)
      · exact spoils_of_pending rfl hidle
    obtain ⟨rest, hrest, hlate⟩ := hspoils
    exact hlate (hclean rest hrest)
  · intro hquiet rest _
    have hsilent : (s.step .stop).Silent := by
      refine ⟨⟨?_, hquiet.idle⟩, rfl, hlive.clean⟩
      exact hquiet.settled.congr rfl (Nat.le_refl _)
    exact (silent_after hsilent rest).clean

/-- The steps of a thread that connects and finds a system at once, up to the
store of the flag. -/
def connects : List Event :=
  [.discover, .thread true, .thread false, .thread false, .thread false,
    .thread false]

/-- The steps from there to the loop. -/
def subscribes : List Event := List.replicate 3 (.thread false)

/-- `Stop` is called when the thread is in its loop, and a position is reported
afterwards. -/
theorem noLateCall_when_looping :
    ((create 0).after (connects ++ subscribes ++ .stop ::
      [.position ⟨.finite 1, .finite 1, .finite 1⟩ 100000000 100,
        .deliver 0])).NoLateCall := by
  have hquiet : ((create 0).after (connects ++ subscribes)).Quiet :=
    ⟨trivial, rfl⟩
  exact (noLateCall_iff_quiet 0 (connects ++ subscribes) (by decide)).mpr hquiet
    _ (by decide)

/-- `Stop` is called right before the thread sets the flag. -/
theorem late_call_when_enabling :
    ¬∀ (logicalNode : ℤ) (es rest : List Event), Event.stop ∉ es →
      Event.stop ∉ rest →
      ((create logicalNode).after (es ++ .stop :: rest)).NoLateCall := by
  intro hall
  have hlate : ¬((create 0).after (connects ++ .stop ::
      [.thread false, .thread false,
        .position ⟨.finite 1, .finite 1, .finite 1⟩ 100000000 100,
        .deliver 0])).NoLateCall := by
    decide
  exact hlate (hall 0 connects _ (by decide) (by decide))

end Handler
end Vehicle
end Chem
