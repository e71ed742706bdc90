import Mathlib.Data.Nat.Digits.Defs
import Mathlib.Tactic.Ring

/-!
# Fixed-width little-endian fields

A structure that is sent over the wire as raw memory is a concatenation of
fixed-width unsigned fields, least significant byte first.  `leBytes` writes
one such field and `leField` reads the field that starts at a given offset.
Nothing here depends on a particular structure: a layout is decoded by
rewriting with `leField_leBytes_append` for the field in front and
`leField_skip` for every field before the one that is read.
-/

namespace LittleEndian

/-- The `w` little-endian bytes of `x`; higher bits are dropped. -/
def leBytes : ℕ → ℕ → List UInt8
  | 0, _ => []
  | w + 1, x => UInt8.ofNat x :: leBytes w (x / 256)

/-- The unsigned number stored in the bytes `bs`. -/
def leValue (bs : List UInt8) : ℕ :=
  Nat.ofDigits 256 (bs.map UInt8.toNat)

/-- The unsigned field of width `w` at byte offset `off`. -/
def leField (bs : List UInt8) (off w : ℕ) : ℕ :=
  leValue ((bs.drop off).take w)

@[simp] theorem length_leBytes (w x : ℕ) : (leBytes w x).length = w := by
  induction w generalizing x with
  | zero => rfl
  | succ w ih => simp [leBytes, ih]

theorem leValue_leBytes (w x : ℕ) :
    leValue (leBytes w x) = x % 256 ^ w := by
  induction w generalizing x with
  | zero => simp [leBytes, leValue, Nat.mod_one]
  | succ w ih =>
      have htail : leValue (leBytes (w + 1) x) =
          (UInt8.ofNat x).toNat + 256 * leValue (leBytes w (x / 256)) := by
        simp [leBytes, leValue, Nat.ofDigits_cons]
      rw [htail, ih, pow_succ', Nat.mod_mul]
      simp

/-- Reading back the field that was written in front. -/
theorem leField_leBytes_append (w x : ℕ) (rest : List UInt8) :
    leField (leBytes w x ++ rest) 0 w = x % 256 ^ w := by
  have htake : (leBytes w x ++ rest).take w = leBytes w x := by
    rw [List.take_append_of_le_length (by simp)]
    exact List.take_of_length_le (by simp)
  rw [leField, List.drop_zero, htake, leValue_leBytes]

/-- A field behind the bytes `front` is read from what follows them. -/
theorem leField_skip {front : List UInt8} {n : ℕ}
    (hn : front.length = n) (rest : List UInt8) (off w : ℕ) (hoff : n ≤ off) :
    leField (front ++ rest) off w = leField rest (off - n) w := by
  have hdrop : (front ++ rest).drop off = rest.drop (off - n) := by
    rw [List.drop_append, List.drop_of_length_le (by omega), hn]
    rfl
  rw [leField, leField, hdrop]

end LittleEndian
