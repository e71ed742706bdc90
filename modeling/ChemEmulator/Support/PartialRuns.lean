import Mathlib.Tactic.TypeStar

/-!
# Runs of a partial step function

A system whose operations may fail to produce a state is a step function into
`Option`.  `EveryState` says that a property holds in every state that a list
of operations reaches, `EveryStep` that every operation is started in a state
that meets a condition.  Both follow the run and end where it ends.
-/

namespace PartialRuns

variable {σ α : Type*}

/-- The state after a list of operations, if every one of them succeeds. -/
def run (step : σ → α → Option σ) : σ → List α → Option σ
  | s, [] => some s
  | s, a :: as => (step s a).bind fun t => run step t as

/-- `P` holds in `s` and in every state reached from it. -/
def EveryState (step : σ → α → Option σ) (P : σ → Prop) : σ → List α → Prop
  | s, [] => P s
  | s, a :: as => P s ∧ ∀ t, step s a = some t → EveryState step P t as

/-- Every operation of the run starts in a state that meets its condition. -/
def EveryStep (step : σ → α → Option σ) (Q : σ → α → Prop) :
    σ → List α → Prop
  | _, [] => True
  | s, a :: as => Q s a ∧ ∀ t, step s a = some t → EveryStep step Q t as

variable {step : σ → α → Option σ}

instance decidableEveryStep {Q : σ → α → Prop} [∀ s a, Decidable (Q s a)] :
    ∀ s as, Decidable (EveryStep step Q s as)
  | _, [] => isTrue trivial
  | s, a :: as =>
      have : ∀ t, Decidable (EveryStep step Q t as) :=
        fun t => decidableEveryStep t as
      inferInstanceAs
        (Decidable (Q s a ∧ ∀ t ∈ step s a, EveryStep step Q t as))

theorem run_concat {s : σ} (as : List α) (a : α) :
    run step s (as ++ [a]) = (run step s as).bind fun t => step t a := by
  induction as generalizing s with
  | nil =>
      rw [List.nil_append, run, run, Option.bind_some]
      exact Option.bind_fun_some (step s a)
  | cons b as ih =>
      rw [List.cons_append, run, run, Option.bind_assoc]
      exact Option.bind_congr fun t _ => ih

/-- A run of one kind of operations is a run of another kind, if each of its
operations is. -/
theorem exists_run_eq {β : Type*} {step' : σ → β → Option σ} {Q : β → Prop}
    {as : List α} (h : ∀ a ∈ as, ∃ b, Q b ∧ ∀ s, step' s b = step s a) :
    ∃ bs, (∀ b ∈ bs, Q b) ∧ ∀ s, run step' s bs = run step s as := by
  induction as with
  | nil => exact ⟨[], nofun, fun _ => rfl⟩
  | cons a as ih =>
      obtain ⟨ha, has⟩ := List.forall_mem_cons.mp h
      obtain ⟨b, hb, hstep⟩ := ha
      obtain ⟨bs, hbs, hrun⟩ := ih has
      refine ⟨b :: bs, List.forall_mem_cons.mpr ⟨hb, hbs⟩, fun s => ?_⟩
      rw [run, run, hstep]
      exact Option.bind_congr fun t _ => hrun t

theorem everyStep_of_forall {Q : α → Prop} {as : List α}
    (h : ∀ a ∈ as, Q a) {s : σ} : EveryStep step (fun _ a => Q a) s as := by
  induction as generalizing s with
  | nil => trivial
  | cons a as ih =>
      obtain ⟨ha, has⟩ := List.forall_mem_cons.mp h
      exact ⟨ha, fun t _ => ih has⟩

theorem EveryState.head {P : σ → Prop} {s : σ} {as : List α}
    (h : EveryState step P s as) : P s := by
  cases as with
  | nil => exact h
  | cons a as => exact h.1

theorem EveryState.of_run {P : σ → Prop} {s t : σ} {as : List α}
    (h : EveryState step P s as) (hrun : run step s as = some t) : P t := by
  induction as generalizing s with
  | nil =>
      cases hrun
      exact h
  | cons a as ih =>
      obtain ⟨u, hstep, htail⟩ := Option.bind_eq_some_iff.mp hrun
      exact ih (h.2 u hstep) htail

theorem EveryState.imp {P Q : σ → Prop} {s : σ} {as : List α}
    (h : EveryState step P s as) (hPQ : ∀ t, P t → Q t) :
    EveryState step Q s as := by
  induction as generalizing s with
  | nil => exact hPQ s h
  | cons a as ih => exact ⟨hPQ s h.1, fun t ht => ih (h.2 t ht)⟩

theorem EveryState.and {P Q : σ → Prop} {s : σ} {as : List α}
    (hP : EveryState step P s as) (hQ : EveryState step Q s as) :
    EveryState step (fun t => P t ∧ Q t) s as := by
  induction as generalizing s with
  | nil => exact ⟨hP, hQ⟩
  | cons a as ih =>
      exact ⟨⟨hP.1, hQ.1⟩, fun t ht => ih (hP.2 t ht) (hQ.2 t ht)⟩

theorem EveryStep.imp {Q R : σ → α → Prop} {s : σ} {as : List α}
    (h : EveryStep step Q s as) (hQR : ∀ t a, Q t a → R t a) :
    EveryStep step R s as := by
  induction as generalizing s with
  | nil => trivial
  | cons a as ih => exact ⟨hQR s a h.1, fun t ht => ih (h.2 t ht)⟩

theorem EveryStep.and {Q R : σ → α → Prop} {s : σ} {as : List α}
    (hQ : EveryStep step Q s as) (hR : EveryStep step R s as) :
    EveryStep step (fun t a => Q t a ∧ R t a) s as := by
  induction as generalizing s with
  | nil => trivial
  | cons a as ih =>
      exact ⟨⟨hQ.1, hR.1⟩, fun t ht => ih (hQ.2 t ht) (hR.2 t ht)⟩

/-- The last operation of a run starts in the state that the others leave. -/
theorem EveryStep.of_run {Q : σ → α → Prop} {s t : σ} {as : List α} {a : α}
    (h : EveryStep step Q s (as ++ [a])) (hrun : run step s as = some t) :
    Q t a := by
  induction as generalizing s with
  | nil =>
      cases hrun
      exact h.1
  | cons b as ih =>
      obtain ⟨u, hstep, htail⟩ := Option.bind_eq_some_iff.mp hrun
      exact ih (h.2 u hstep) htail

/-- Two conditions that agree wherever an invariant holds are met by the same
runs, if the steps that meet them keep the invariant. -/
theorem everyStep_congr {Inv : σ → Prop} {Q R : σ → α → Prop}
    (hstep : ∀ s a t, Inv s → R s a → step s a = some t → Inv t)
    (hQR : ∀ s a, Inv s → (Q s a ↔ R s a))
    {s : σ} (hs : Inv s) (as : List α) :
    EveryStep step Q s as ↔ EveryStep step R s as := by
  induction as generalizing s with
  | nil => exact Iff.rfl
  | cons a as ih =>
      rw [EveryStep, EveryStep, hQR s a hs]
      refine and_congr_right fun hR => forall₂_congr ?_
      intro t ht
      exact ih (hstep s a t hs hR ht)

/-- Along a run whose steps keep an invariant and never fail from it, there is
a last state. -/
theorem exists_run_of_invariant {Inv : σ → Prop}
    (hstep : ∀ s a, Inv s → ∃ t, step s a = some t ∧ Inv t)
    {s : σ} (hs : Inv s) (as : List α) : ∃ t, run step s as = some t := by
  induction as generalizing s with
  | nil => exact ⟨s, rfl⟩
  | cons a as ih =>
      obtain ⟨t, ht, hinv⟩ := hstep s a hs
      obtain ⟨u, hu⟩ := ih hinv
      exact ⟨u, by rw [run, ht, Option.bind_some, hu]⟩

/-- An invariant of the steps holds along every run. -/
theorem everyState_of_invariant {Inv : σ → Prop}
    (hstep : ∀ s a t, Inv s → step s a = some t → Inv t)
    {s : σ} (hs : Inv s) (as : List α) : EveryState step Inv s as := by
  induction as generalizing s with
  | nil => exact hs
  | cons a as ih => exact ⟨hs, fun t ht => ih (hstep s a t hs ht)⟩

/-- A property that every step keeps whose condition is met holds along a run
of such steps. -/
theorem everyState_of_everyStep {P : σ → Prop} {Q : σ → α → Prop}
    (hkeep : ∀ s a t, P s → Q s a → step s a = some t → P t)
    {s : σ} (hP : P s) {as : List α} (h : EveryStep step Q s as) :
    EveryState step P s as := by
  induction as generalizing s with
  | nil => exact hP
  | cons a as ih =>
      exact ⟨hP, fun t ht => ih (hkeep s a t hP h.1 ht) (h.2 t ht)⟩

/-- An invariant that a step keeps if its condition is met, and that gives a
property which shows after the step that the condition was met: the property
holds along a run exactly when every step of it meets the condition. -/
theorem everyState_iff_everyStep_of_strong {Inv P : σ → Prop}
    {Q : σ → α → Prop}
    (hkeep : ∀ s a t, Inv s → Q s a → step s a = some t → Inv t)
    (hgives : ∀ s, Inv s → P s)
    (hshows : ∀ s a t, Inv s → step s a = some t → P t → Q s a)
    (hfail : ∀ s a, step s a = none → Q s a)
    {s : σ} (hs : Inv s) (as : List α) :
    EveryState step P s as ↔ EveryStep step Q s as := by
  constructor
  · intro h
    induction as generalizing s with
    | nil => trivial
    | cons a as ih =>
        have hQ : Q s a := by
          cases hstep : step s a with
          | none => exact hfail s a hstep
          | some t => exact hshows s a t hs hstep (h.2 t hstep).head
        exact ⟨hQ, fun t ht => ih (hkeep s a t hs hQ ht) (h.2 t ht)⟩
  · intro h
    exact (everyState_of_everyStep hkeep hs h).imp hgives

/-- A property that holds before and after a step only if its condition was met
shows along a run whose steps meet a side condition that every step met it. -/
theorem everyStep_of_everyState {Inv P : σ → Prop} {Q S : σ → α → Prop}
    (hinv : ∀ s a t, Inv s → S s a → step s a = some t → Inv t)
    (hshows : ∀ s a t, Inv s → S s a → P s → step s a = some t → P t → Q s a)
    (hfail : ∀ s a, Inv s → step s a = none → Q s a)
    {s : σ} (hs : Inv s) {as : List α} (hS : EveryStep step S s as)
    (h : EveryState step P s as) : EveryStep step Q s as := by
  induction as generalizing s with
  | nil => trivial
  | cons a as ih =>
      obtain ⟨hside, hrest⟩ := hS
      obtain ⟨hP, htail⟩ := h
      refine ⟨?_, fun t ht => ih (hinv s a t hs hside ht) (hrest t ht)
        (htail t ht)⟩
      cases hstep : step s a with
      | none => exact hfail s a hs hstep
      | some t => exact hshows s a t hs hside hP hstep (htail t hstep).head

/-- Along a run whose steps meet a side condition, a property that such a step
keeps exactly when its condition is met holds in every state exactly when every
step meets that condition. -/
theorem everyState_iff_everyStep_of {Inv P : σ → Prop} {Q S : σ → α → Prop}
    (hinv : ∀ s a t, Inv s → S s a → step s a = some t → Inv t)
    (hkeep : ∀ s a t, Inv s → S s a → P s → step s a = some t →
      (P t ↔ Q s a))
    (hfail : ∀ s a, Inv s → step s a = none → Q s a)
    {s : σ} (hs : Inv s) (hP : P s) {as : List α}
    (hS : EveryStep step S s as) :
    EveryState step P s as ↔ EveryStep step Q s as := by
  constructor
  · intro h
    exact everyStep_of_everyState hinv
      (fun s a t hI hside hPs ht hPt => (hkeep s a t hI hside hPs ht).mp hPt)
      hfail hs hS h
  · intro hQ
    have hboth : EveryState step (fun t => Inv t ∧ P t) s as := by
      refine everyState_of_everyStep ?_ ⟨hs, hP⟩ (hS.and hQ)
      rintro s a t ⟨hI, hPs⟩ ⟨hside, hcond⟩ ht
      exact ⟨hinv s a t hI hside ht, (hkeep s a t hI hside hPs ht).mpr hcond⟩
    exact hboth.imp fun _ h => h.2

theorem everyStep_true (s : σ) (as : List α) :
    EveryStep step (fun _ _ => True) s as := by
  induction as generalizing s with
  | nil => trivial
  | cons a as ih => exact ⟨trivial, fun t _ => ih t⟩

/-- A property that a step keeps exactly when its condition is met holds along
a run exactly when every step of it meets the condition. -/
theorem everyState_iff_everyStep {Inv P : σ → Prop} {Q : σ → α → Prop}
    (hinv : ∀ s a t, Inv s → step s a = some t → Inv t)
    (hkeep : ∀ s a t, Inv s → P s → step s a = some t → (P t ↔ Q s a))
    (hfail : ∀ s a, Inv s → step s a = none → Q s a)
    {s : σ} (hs : Inv s) (hP : P s) (as : List α) :
    EveryState step P s as ↔ EveryStep step Q s as :=
  everyState_iff_everyStep_of (fun s a t hI _ h => hinv s a t hI h)
    (fun s a t hI _ hPs h => hkeep s a t hI hPs h) hfail hs hP
    (everyStep_true s as)

end PartialRuns
