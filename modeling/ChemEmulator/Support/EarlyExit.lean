import Mathlib.Data.List.Basic

/-!
# Loops with an early exit

A `for` loop whose body may leave the loop is a left fold that stops at the
first element for which the body says so.  `Flow` is the verdict of one
execution of the body and `runLoop` the loop over a list of inputs.

The two rules `runLoop_next` and `runLoop_stop` are how properties of a whole
loop are derived from a property of its body: the invariant speaks about the
inputs consumed so far as well as about the state.
-/

namespace EarlyExit

/-- What one execution of a loop body decides. -/
inductive Flow (σ : Type*) where
  /-- Go on with the next input. -/
  | next (s : σ)
  /-- Leave the loop. -/
  | stop (s : σ)

namespace Flow

variable {σ : Type*}

/-- The state in which the body ended, whatever it decided. -/
def state : Flow σ → σ
  | next s => s
  | stop s => s

@[simp] theorem state_next (s : σ) : (next s).state = s := rfl

@[simp] theorem state_stop (s : σ) : (stop s).state = s := rfl

end Flow

variable {σ α : Type*}

/-- Run `body` over the inputs until it stops. -/
def runLoop (body : σ → α → Flow σ) : σ → List α → Flow σ
  | s, [] => .next s
  | s, a :: as =>
      match body s a with
      | .next s' => runLoop body s' as
      | .stop s' => .stop s'

@[simp] theorem runLoop_nil (body : σ → α → Flow σ) (s : σ) :
    runLoop body s [] = .next s := rfl

theorem runLoop_cons_next
    {body : σ → α → Flow σ} {s s' : σ} {a : α} (as : List α)
    (h : body s a = .next s') :
    runLoop body s (a :: as) = runLoop body s' as := by
  simp [runLoop, h]

theorem runLoop_cons_stop
    {body : σ → α → Flow σ} {s s' : σ} {a : α} (as : List α)
    (h : body s a = .stop s') :
    runLoop body s (a :: as) = .stop s' := by
  simp [runLoop, h]

theorem runLoop_append_next
    {body : σ → α → Flow σ} {s s' : σ} {as : List α} (bs : List α)
    (h : runLoop body s as = .next s') :
    runLoop body s (as ++ bs) = runLoop body s' bs := by
  induction as generalizing s with
  | nil =>
      cases h
      rfl
  | cons a as ih =>
      cases hbody : body s a with
      | next t =>
          rw [runLoop_cons_next as hbody] at h
          rw [List.cons_append, runLoop_cons_next _ hbody]
          exact ih h
      | stop t =>
          rw [runLoop_cons_stop as hbody] at h
          cases h

theorem runLoop_append_stop
    {body : σ → α → Flow σ} {s s' : σ} {as : List α} (bs : List α)
    (h : runLoop body s as = .stop s') :
    runLoop body s (as ++ bs) = .stop s' := by
  induction as generalizing s with
  | nil => cases h
  | cons a as ih =>
      cases hbody : body s a with
      | next t =>
          rw [runLoop_cons_next as hbody] at h
          rw [List.cons_append, runLoop_cons_next _ hbody]
          exact ih h
      | stop t =>
          rw [runLoop_cons_stop as hbody] at h
          rw [List.cons_append, runLoop_cons_stop _ hbody]
          exact h

/-! ## Invariant rules -/

/-- `Inv pre s` holds when the loop has consumed `pre` and is in state `s`. -/
def Preserves (body : σ → α → Flow σ) (Inv : List α → σ → Prop) : Prop :=
  ∀ pre s a s', Inv pre s → body s a = .next s' → Inv (pre ++ [a]) s'

/-- A loop that runs to the end keeps the invariant. -/
theorem runLoop_next
    {body : σ → α → Flow σ} {Inv : List α → σ → Prop}
    (hbody : Preserves body Inv) {pre as : List α} {s s' : σ}
    (hinv : Inv pre s) (h : runLoop body s as = .next s') :
    Inv (pre ++ as) s' := by
  induction as generalizing pre s with
  | nil =>
      cases h
      simpa using hinv
  | cons a as ih =>
      cases hstep : body s a with
      | next t =>
          rw [runLoop_cons_next as hstep] at h
          have htail := ih (hbody pre s a t hinv hstep) h
          simpa using htail
      | stop t =>
          rw [runLoop_cons_stop as hstep] at h
          cases h

/-- A loop that stops does so at one input, reached with the invariant. -/
theorem runLoop_stop
    {body : σ → α → Flow σ} {Inv : List α → σ → Prop}
    (hbody : Preserves body Inv) {pre as : List α} {s s' : σ}
    (hinv : Inv pre s) (h : runLoop body s as = .stop s') :
    ∃ front a rest t, as = front ++ a :: rest ∧
      Inv (pre ++ front) t ∧ body t a = .stop s' := by
  induction as generalizing pre s with
  | nil => cases h
  | cons a as ih =>
      cases hstep : body s a with
      | next t =>
          rw [runLoop_cons_next as hstep] at h
          obtain ⟨front, b, rest, u, rfl, hu, hstop⟩ :=
            ih (hbody pre s a t hinv hstep) h
          refine ⟨a :: front, b, rest, u, rfl, ?_, hstop⟩
          simpa using hu
      | stop t =>
          rw [runLoop_cons_stop as hstep] at h
          cases h
          exact ⟨[], a, as, s, rfl, by simpa using hinv, hstep⟩

/-! ## Counted loops -/

/-- Invariant rule for `for i in [0, n)`: either all rounds have run, or the
body stopped in one of them. -/
theorem runLoop_range
    {body : σ → ℕ → Flow σ} {Inv : ℕ → σ → Prop} {n : ℕ} {s : σ}
    (hbody : ∀ i < n, ∀ t t', Inv i t → body t i = .next t' → Inv (i + 1) t')
    (hinit : Inv 0 s) :
    (∃ t, runLoop body s (List.range n) = .next t ∧ Inv n t) ∨
      ∃ i < n, ∃ t t', Inv i t ∧ body t i = .stop t' ∧
        runLoop body s (List.range n) = .stop t' := by
  induction n with
  | zero => exact Or.inl ⟨s, rfl, hinit⟩
  | succ n ih =>
      have hprefix := ih fun i hi => hbody i (Nat.lt_succ_of_lt hi)
      rw [List.range_succ]
      rcases hprefix with ⟨t, hrun, ht⟩ | ⟨i, hi, t, t', ht, hstop, hrun⟩
      · rw [runLoop_append_next _ hrun]
        cases hlast : body t n with
        | next u =>
            left
            exact ⟨u, by simp [runLoop, hlast],
              hbody n (Nat.lt_succ_self n) t u ht hlast⟩
        | stop u =>
            right
            exact ⟨n, Nat.lt_succ_self n, t, u, ht, hlast,
              by simp [runLoop, hlast]⟩
      · right
        exact ⟨i, Nat.lt_succ_of_lt hi, t, t', ht, hstop,
          runLoop_append_stop _ hrun⟩

/-- Progress rule: a body that never stops runs all rounds. -/
theorem runLoop_range_progress
    {body : σ → ℕ → Flow σ} {Inv : ℕ → σ → Prop} {n : ℕ} {s : σ}
    (hbody : ∀ i < n, ∀ t, Inv i t → ∃ t', body t i = .next t' ∧ Inv (i + 1) t')
    (hinit : Inv 0 s) :
    ∃ t, runLoop body s (List.range n) = .next t ∧ Inv n t := by
  have hpreserved : ∀ i < n, ∀ t t', Inv i t → body t i = .next t' →
      Inv (i + 1) t' := by
    intro i hi t t' ht hnext
    obtain ⟨u, hu, hinv⟩ := hbody i hi t ht
    rw [hnext] at hu
    cases hu
    exact hinv
  rcases runLoop_range hpreserved hinit with h | ⟨i, hi, t, t', ht, hstop, _⟩
  · exact h
  · obtain ⟨u, hu, _⟩ := hbody i hi t ht
    rw [hstop] at hu
    cases hu

/-- A loop that collects values, and never has to leave early. -/
theorem mapM_eq_some_map {α β : Type*} {f : α → Option β} {g : α → β}
    {as : List α} (h : ∀ a ∈ as, f a = some (g a)) :
    as.mapM f = some (as.map g) := by
  induction as with
  | nil => rfl
  | cons a as ih =>
      obtain ⟨ha, has⟩ := List.forall_mem_cons.mp h
      rw [List.mapM_cons, ha, ih has]
      rfl

end EarlyExit
