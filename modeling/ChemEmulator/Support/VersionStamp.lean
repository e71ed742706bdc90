import Mathlib.Order.Basic

/-!
# Caches with a version stamp

A value that is computed from a state is kept together with the version that
the state had.  The stamp is compared with the current version, and `fresh` is
the version that no state with content has.  The cache stays right as long as
every step that changes the value also moves the version forward.
-/

/-- A cached value and the version it was computed at. -/
structure Stamped (ν β : Type*) where
  version : ν
  value : β
deriving DecidableEq

namespace Stamped

variable {σ ν β : Type*} {version : σ → ν} {view : σ → β}

/-- What is looked at of the value. -/
def map {γ : Type*} (f : β → γ) (c : Stamped ν β) : Stamped ν γ :=
  ⟨c.version, f c.value⟩

/-- The stamp is the current version, which is not the initial one. -/
def Valid (c : Stamped ν β) (fresh current : ν) : Prop :=
  c.version = current ∧ current ≠ fresh

instance [DecidableEq ν] (c : Stamped ν β) (fresh current : ν) :
    Decidable (c.Valid fresh current) :=
  inferInstanceAs (Decidable (_ ∧ _))

variable [PartialOrder ν] {fresh : ν}

/-- The stamp is not from the future, and while it is valid the value is the
one that the state has. -/
structure Faithful (version : σ → ν) (view : σ → β) (fresh : ν)
    (c : Stamped ν β) (s : σ) : Prop where
  le : c.version ≤ version s
  value : c.Valid fresh (version s) → c.value = view s

theorem Faithful.initial {s : σ} (value : β) (h : fresh ≤ version s) :
    Faithful version view fresh ⟨fresh, value⟩ s :=
  ⟨h, fun hvalid => absurd hvalid.1.symm hvalid.2⟩

theorem Faithful.refreshed {c : Stamped ν β} {s : σ}
    (hversion : c.version = version s) (hvalue : c.value = view s) :
    Faithful version view fresh c s :=
  ⟨hversion.le, fun _ => hvalue⟩

/-- A step that does not move the version back, and forward whenever it
changes the value. -/
theorem Faithful.step {c : Stamped ν β} {s t : σ}
    (h : Faithful version view fresh c s) (hmono : version s ≤ version t)
    (hkept : version t = version s → view t = view s) :
    Faithful version view fresh c t := by
  refine ⟨h.le.trans hmono, ?_⟩
  rintro ⟨hstamp, hnonzero⟩
  -- a valid stamp leaves no room between the two versions
  have hsame : version t = version s :=
    le_antisymm (hstamp ▸ h.le) hmono
  rw [hkept hsame]
  exact h.value ⟨hstamp.trans hsame, hsame ▸ hnonzero⟩

end Stamped
