import Mathlib.Data.List.Basic
import Mathlib.Logic.Function.Iterate

/-!
# Processing in chunks

A machine handles one element after the other and keeps a state.  A procedure
that handles a whole chunk at once can be called for one chunk after the other,
if it hands its state on.  Where it does to every chunk what the machine does,
up to a relation between the states, the cuts between the chunks cannot be seen.
-/

namespace Chunks

variable {α β σ τ : Type*}

/-- One element after the other. -/
def scan (step : τ → α → β × τ) : τ → List α → List β × τ
  | t, [] => ([], t)
  | t, a :: as =>
      let head := step t a
      let tail := scan step head.2 as
      (head.1 :: tail.1, tail.2)

/-- One chunk after the other. -/
def chunked (f : σ → List α → List β × σ) (s : σ) (chunks : List (List α)) :
    List β × σ :=
  let results := scan f s chunks
  (results.1.flatten, results.2)

/-- A procedure that keeps up with a machine: the states always, the output for
the chunks that are admissible. -/
structure Simulates (step : τ → α → β × τ) (rep : σ → τ → Prop)
    (ok : List α → Prop) (f : σ → List α → List β × σ) : Prop where
  state : ∀ s t chunk, rep s t → rep (f s chunk).2 (scan step t chunk).2
  output : ∀ s t chunk, rep s t → ok chunk →
    (f s chunk).1 = (scan step t chunk).1

variable {step : τ → α → β × τ}

theorem scan_append (t : τ) (as as' : List α) :
    scan step t (as ++ as') =
      ((scan step t as).1 ++ (scan step (scan step t as).2 as').1,
        (scan step (scan step t as).2 as').2) := by
  induction as generalizing t with
  | nil => rfl
  | cons a as ih => simp only [List.cons_append, scan, ih]

@[simp] theorem chunked_nil (f : σ → List α → List β × σ) (s : σ) :
    chunked f s [] = ([], s) := rfl

theorem chunked_cons (f : σ → List α → List β × σ) (s : σ) (chunk : List α)
    (chunks : List (List α)) :
    chunked f s (chunk :: chunks) =
      ((f s chunk).1 ++ (chunked f (f s chunk).2 chunks).1,
        (chunked f (f s chunk).2 chunks).2) := rfl

/-! ## States that do not depend on the elements -/

section Clocked

variable {next : τ → τ} {g : τ → α → β}

theorem scan_snd_of_clocked (hstep : ∀ t a, step t a = (g t a, next t))
    (t : τ) (as : List α) : (scan step t as).2 = next^[as.length] t := by
  induction as generalizing t with
  | nil => rfl
  | cons a as ih =>
      rw [scan, hstep]
      exact ih (next t)

theorem scan_fst_of_clocked (hstep : ∀ t a, step t a = (g t a, next t))
    (t : τ) (as : List α) :
    (scan step t as).1 = as.mapIdx fun i a => g (next^[i] t) a := by
  induction as generalizing t with
  | nil => rfl
  | cons a as ih =>
      rw [scan, hstep, List.mapIdx_cons]
      dsimp only
      rw [ih]
      rfl

end Clocked

/-! ## The cuts cannot be seen -/

namespace Simulates

variable {rep : σ → τ → Prop} {ok : List α → Prop}
variable {f : σ → List α → List β × σ}

/-- The state after all chunks. -/
theorem chunked_state (hf : Simulates step rep ok f) {s : σ} {t : τ}
    (hst : rep s t) (chunks : List (List α)) :
    rep (chunked f s chunks).2 (scan step t chunks.flatten).2 := by
  induction chunks generalizing s t with
  | nil => exact hst
  | cons chunk chunks ih =>
      rw [chunked_cons, List.flatten_cons, scan_append]
      exact ih (hf.state s t chunk hst)

/-- The output of all chunks, none of them inadmissible. -/
theorem chunked_output (hf : Simulates step rep ok f) {s : σ} {t : τ}
    (hst : rep s t) {chunks : List (List α)}
    (hok : ∀ chunk ∈ chunks, ok chunk) :
    (chunked f s chunks).1 = (scan step t chunks.flatten).1 := by
  induction chunks generalizing s t with
  | nil => rfl
  | cons chunk chunks ih =>
      obtain ⟨hchunk, hok⟩ := List.forall_mem_cons.mp hok
      rw [chunked_cons, List.flatten_cons, scan_append]
      dsimp only
      rw [hf.output s t chunk hst hchunk, ih (hf.state s t chunk hst) hok]

/-- Chunk by chunk the same comes out as for all at once. -/
theorem chunked_eq (hf : Simulates step rep ok f) {s : σ} {t : τ}
    (hst : rep s t) {chunks : List (List α)}
    (hok : ∀ chunk ∈ chunks, ok chunk) (hall : ok chunks.flatten) :
    (chunked f s chunks).1 = (f s chunks.flatten).1 := by
  rw [hf.chunked_output hst hok, hf.output s t _ hst hall]

end Simulates

end Chunks
