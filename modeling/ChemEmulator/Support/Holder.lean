import ChemEmulator.Support.Outcome
import ChemEmulator.Support.Tally

/-!
# Holders of items

A holder is a piece of state in which items, named by `ι`, can be: a list, a
record, a pair of them.  `weight w` adds up a weight over the items that are
in it; with the indicator of one item it counts that item, with the constant 1
it counts all of them.  `Loaded` says that every slot that should hold an item
does.

A computation that may fail `Conserves` a total if it ends in a loaded holder
of exactly that weight, for all weights at once.
-/

open Tally Outcome

class Holder (ι : outParam Type) (α : Type) where
  weight : (ι → ℕ) → α → ℕ
  Loaded : α → Prop

namespace Holder

variable {ι α β κ ε : Type}

instance [Holder ι α] : Holder ι (List α) where
  weight w l := tally (weight w) l
  Loaded l := ∀ a ∈ l, Loaded a

instance [Holder ι α] [Holder ι β] : Holder ι (α × β) where
  weight w x := weight w x.1 + weight w x.2
  Loaded x := Loaded x.1 ∧ Loaded x.2

instance [Fintype κ] [Holder ι α] : Holder ι (κ → α) where
  weight w g := ∑ k, weight w (g k)
  Loaded g := ∀ k, Loaded (g k)

/-! ## Lists -/

variable [Holder ι α] [Holder ι β]

theorem weight_list (w : ι → ℕ) (l : List α) :
    weight w l = tally (weight w) l := rfl

@[simp] theorem weight_nil (w : ι → ℕ) : weight w ([] : List α) = 0 := rfl

@[simp] theorem weight_cons (w : ι → ℕ) (a : α) (l : List α) :
    weight w (a :: l) = weight w a + weight w l :=
  tally_cons (weight w) a l

@[simp] theorem weight_append (w : ι → ℕ) (l l' : List α) :
    weight w (l ++ l') = weight w l + weight w l' :=
  tally_append (weight w) l l'

@[simp] theorem weight_pair (w : ι → ℕ) (a : α) (b : β) :
    weight w (a, b) = weight w a + weight w b := rfl

@[simp] theorem loaded_nil : Loaded ([] : List α) :=
  fun _ ha => absurd ha List.not_mem_nil

@[simp] theorem loaded_cons {a : α} {l : List α} :
    Loaded (a :: l) ↔ Loaded a ∧ Loaded l :=
  List.forall_mem_cons

@[simp] theorem loaded_append {l l' : List α} :
    Loaded (l ++ l') ↔ Loaded l ∧ Loaded l' :=
  List.forall_mem_append

theorem loaded_perm {l l' : List α} (h : l.Perm l') (hl : Loaded l) :
    Loaded l' :=
  fun a ha => hl a (h.mem_iff.mpr ha)

theorem loaded_getElem {l : List α} {i : ℕ} {a : α} (hl : Loaded l)
    (h : l[i]? = some a) : Loaded a :=
  hl a (List.mem_of_getElem? h)

theorem loaded_set {l : List α} (i : ℕ) {a : α} (hl : Loaded l)
    (ha : Loaded a) : Loaded (l.set i a) := by
  intro b hb
  rcases List.mem_or_eq_of_mem_set hb with hmem | rfl
  · exact hl b hmem
  · exact ha

theorem loaded_eraseIdx {l : List α} (i : ℕ) (hl : Loaded l) :
    Loaded (l.eraseIdx i) :=
  fun a ha => hl a (List.mem_of_mem_eraseIdx ha)

theorem weight_set (w : ι → ℕ) {l : List α} {i : ℕ} {a : α}
    (h : l[i]? = some a) (b : α) :
    weight w (l.set i b) + weight w a = weight w l + weight w b :=
  tally_set (weight w) h b

theorem weight_eraseIdx (w : ι → ℕ) {l : List α} {i : ℕ} {a : α}
    (h : l[i]? = some a) :
    weight w (l.eraseIdx i) + weight w a = weight w l :=
  tally_eraseIdx (weight w) h

/-! ## Families -/

variable [Fintype κ] [DecidableEq κ]

theorem weight_update (w : ι → ℕ) (g : κ → α) (k : κ) (a : α) :
    weight w (Function.update g k a) + weight w (g k) =
      weight w g + weight w a :=
  sum_update (weight w) g k a

/-! ## Conserving a total -/

/-- `r` fails only in a permitted way, and what it yields is loaded and has
the given weight. -/
def Conserves (E : ε → Prop) (total : (ι → ℕ) → ℕ) (r : Except ε α) : Prop :=
  Ends E (fun a => Loaded a ∧ ∀ w, weight w a = total w) r

variable {E : ε → Prop} {total total' : (ι → ℕ) → ℕ}

theorem conserves_ok {a : α} (ha : Loaded a)
    (hw : ∀ w, weight w a = total w) :
    Conserves E total (.ok a : Except ε α) :=
  ⟨ha, hw⟩

theorem Conserves.bind {r : Except ε α} {f : α → Except ε β}
    (hr : Conserves E total r)
    (hf : ∀ a, Loaded a → (∀ w, weight w a = total w) →
      Conserves E total' (f a)) :
    Conserves E total' (r >>= f) :=
  Ends.bind hr fun a ha => hf a ha.1 ha.2

theorem Conserves.of_total {r : Except ε α} (hr : Conserves E total r)
    (h : ∀ w, total w = total' w) : Conserves E total' r :=
  Ends.imp hr fun _ ha => ⟨ha.1, fun w => (ha.2 w).trans (h w)⟩

end Holder
