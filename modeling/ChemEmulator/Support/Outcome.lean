import Mathlib.Tactic.TypeStar

/-!
# Outcomes of computations that may fail

`Ends E Q r` says of a computation in `Except` that it either succeeds with a
value in `Q` or fails with an error in `E`.  Choosing `E` excludes kinds of
failure; the rules follow the structure of the computation.
-/

namespace Outcome

universe u

variable {ε : Type*} {α β : Type u}
variable {E : ε → Prop} {Q : α → Prop} {R : β → Prop}

def Ends (E : ε → Prop) (Q : α → Prop) : Except ε α → Prop
  | .ok a => Q a
  | .error e => E e

theorem Ends.bind {r : Except ε α} {f : α → Except ε β} (hr : Ends E Q r)
    (hf : ∀ a, Q a → Ends E R (f a)) : Ends E R (r >>= f) := by
  cases r with
  | error e => exact hr
  | ok a => exact hf a hr

theorem Ends.imp {Q' : α → Prop} {r : Except ε α} (hr : Ends E Q r)
    (h : ∀ a, Q a → Q' a) : Ends E Q' r := by
  cases r with
  | error e => exact hr
  | ok a => exact h a hr

theorem Ends.of_ok {r : Except ε α} {a : α} (hr : Ends E Q r)
    (h : r = .ok a) : Q a := by
  rw [h] at hr
  exact hr

theorem Ends.of_error {r : Except ε α} {e : ε} (hr : Ends E Q r)
    (h : r = .error e) : E e := by
  rw [h] at hr
  exact hr

theorem exists_of_bind_eq_ok {r : Except ε α} {f : α → Except ε β} {b : β}
    (h : (r >>= f) = .ok b) : ∃ a, r = .ok a ∧ f a = .ok b := by
  cases r with
  | error e => cases h
  | ok a => exact ⟨a, rfl, h⟩

end Outcome
