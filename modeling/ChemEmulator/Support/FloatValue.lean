import Mathlib.Data.Rat.Floor
import Mathlib.Tactic.Positivity
import Mathlib.Tactic.Ring
import Mathlib.Tactic.GCongr

/-!
# Floating-point values

The values a `float` or a `double` can hold: a finite number, one of the two
infinities, or not a number.  A finite value is a rational number; the result
of an operation on finite values is the exact result rounded to a significand
of `p` binary digits, ties to even.  The exponent is not bounded: overflow and
gradual underflow are outside the model.  What is said of a setting that goes
through `float` is said of the numbers in its range; another one, such as
`1e300`, would become infinite on the way, and keeps its value here.

One rounding is off by no more than half of the number
(`abs_roundBinary_sub_le`), which bounds whole computations roughly.  A product
converted to an unsigned integer is either small or divisible by a power of two
(`toUnsigned_round_mul`): large floats have no low digits.
-/

inductive FloatValue where
  | finite (value : ℚ)
  | infinite (negative : Bool)
  | nan
deriving DecidableEq

namespace FloatValue

/-- `std::isfinite`. -/
def isfinite : FloatValue → Bool
  | finite _ => true
  | infinite _ => false
  | nan => false

/-- The integer nearest to `q`, the even one if there are two. -/
def roundHalfEven (q : ℚ) : ℤ :=
  let below := q.floor
  let rest := q - below
  if rest < 1 / 2 then below
  else if 1 / 2 < rest then below + 1
  else if below % 2 = 0 then below
  else below + 1

/-- The exponent of the leading binary digit of a number other than zero. -/
def leadingExponent (q : ℚ) : ℤ :=
  let e : ℤ := Nat.log2 q.num.natAbs - Nat.log2 q.den
  if (2 : ℚ) ^ e ≤ |q| then e else e - 1

/-- The nearest number with a significand of `p` binary digits. -/
def roundBinary (p : ℕ) (q : ℚ) : ℚ :=
  if q = 0 then 0
  else
    let ulp : ℚ := 2 ^ (leadingExponent q - (p - 1))
    roundHalfEven (q / ulp) * ulp

/-- The `double` that a decimal literal denotes. -/
def double (q : ℚ) : FloatValue := finite (roundBinary 53 q)

/-- An integer converted to a significand of `p` digits. -/
def ofInt (p : ℕ) (z : ℤ) : FloatValue := finite (roundBinary p z)

/-- A value converted to a significand of `p` digits. -/
def narrow (p : ℕ) : FloatValue → FloatValue
  | finite q => finite (roundBinary p q)
  | infinite neg => infinite neg
  | nan => nan

/-! ## Arithmetic -/

def neg : FloatValue → FloatValue
  | finite a => finite (-a)
  | infinite neg => infinite !neg
  | nan => nan

def mul (p : ℕ) : FloatValue → FloatValue → FloatValue
  | finite a, finite b => finite (roundBinary p (a * b))
  | finite a, infinite neg | infinite neg, finite a =>
      if a = 0 then nan else infinite (neg ^^ decide (a < 0))
  | infinite neg, infinite neg' => infinite (neg ^^ neg')
  | nan, _ | _, nan => nan

/-- A finite number divided by zero is infinite.  The sign of a zero is not
modelled. -/
def div (p : ℕ) : FloatValue → FloatValue → FloatValue
  | finite a, finite b =>
      if b = 0 then if a = 0 then nan else infinite (decide (a < 0))
      else finite (roundBinary p (a / b))
  | finite _, infinite _ => finite 0
  | infinite neg, finite b => infinite (neg ^^ decide (b < 0))
  | infinite _, infinite _ => nan
  | nan, _ | _, nan => nan

/-- `std::round`: the nearest integer, halves away from zero. -/
def round : FloatValue → FloatValue
  | finite q =>
      finite (if 0 ≤ q then ⌊q + 1 / 2⌋ else ⌈q - 1 / 2⌉ : ℤ)
  | infinite neg => infinite neg
  | nan => nan

/-- A number cut to its integer part. -/
def truncate (q : ℚ) : ℤ := if 0 ≤ q then ⌊q⌋ else ⌈q⌉

/-- `CVTTSS2SI`: the 64-bit pattern of the integer part, or the indefinite
integer when that does not fit. -/
def signedPattern : FloatValue → ℕ
  | finite q =>
      if -2 ^ 63 ≤ truncate q ∧ truncate q < 2 ^ 63 then
        (truncate q % 2 ^ 64).toNat
      else 2 ^ 63
  | infinite _ => 2 ^ 63
  | nan => 2 ^ 63

/-- Conversion to an unsigned 64-bit integer.  The language defines it only
for values in range; the code that x86-64 compilers emit goes through the
signed instruction, with values from `2 ^ 63` on shifted down and back up. -/
def toUnsigned : FloatValue → ℕ
  | finite q =>
      if q < 2 ^ 63 then signedPattern (finite q)
      else (signedPattern (finite (q - 2 ^ 63)) + 2 ^ 63) % 2 ^ 64
  | infinite neg => if neg then 2 ^ 63 else 0
  | nan => 2 ^ 63

@[simp] theorem roundBinary_zero (p : ℕ) : roundBinary p 0 = 0 := by
  simp [roundBinary]

/-! ## Numbers of limited precision -/

theorem lt_two_zpow_leadingExponent {q : ℚ} (hq : 0 < q) :
    q < 2 ^ (leadingExponent q + 1) := by
  unfold leadingExponent
  simp only []
  split
  · -- The numerator is below `2 ^ (log2 + 1)`, the denominator at least
    -- `2 ^ log2`.
    have hnum : ((q.num.natAbs : ℕ) : ℚ) < 2 ^ (q.num.natAbs.log2 + 1) := by
      exact_mod_cast Nat.lt_log2_self
    have hden : (2 : ℚ) ^ q.den.log2 ≤ (q.den : ℚ) := by
      exact_mod_cast Nat.log2_self_le q.den_nz
    have habs : ((q.num.natAbs : ℕ) : ℚ) = (q.num : ℚ) := by
      have hpos : 0 < q.num := Rat.num_pos.mpr hq
      rw [← Int.cast_natCast, Int.natAbs_of_nonneg hpos.le]
    have hdenpos : (0 : ℚ) < q.den := by exact_mod_cast q.den_pos
    rw [habs] at hnum
    have hsplit : (2 : ℚ) ^ ((q.num.natAbs.log2 : ℤ) - q.den.log2 + 1) =
        2 ^ (q.num.natAbs.log2 + 1) / 2 ^ q.den.log2 := by
      rw [show (q.num.natAbs.log2 : ℤ) - q.den.log2 + 1 =
        ((q.num.natAbs.log2 + 1 : ℕ) : ℤ) - ((q.den.log2 : ℕ) : ℤ) by
          push_cast; ring]
      rw [zpow_sub₀ (by norm_num), zpow_natCast, zpow_natCast]
    rw [hsplit]
    calc q = q.num / q.den := (Rat.num_div_den q).symm
      _ < 2 ^ (q.num.natAbs.log2 + 1) / q.den := by gcongr
      _ ≤ 2 ^ (q.num.natAbs.log2 + 1) / 2 ^ q.den.log2 := by gcongr
  next hsmall =>
    rw [abs_of_pos hq, not_le] at hsmall
    simpa using hsmall

theorem two_zpow_leadingExponent_le {q : ℚ} (hq : 0 < q) :
    2 ^ leadingExponent q ≤ q := by
  unfold leadingExponent
  simp only []
  split
  next hle =>
    rwa [abs_of_pos hq] at hle
  · -- The numerator is at least `2 ^ log2`, the denominator below
    -- `2 ^ (log2 + 1)`.
    have hpos : 0 < q.num := Rat.num_pos.mpr hq
    have hnum : (2 : ℚ) ^ q.num.natAbs.log2 ≤ q.num := by
      have habs : ((q.num.natAbs : ℕ) : ℚ) = (q.num : ℚ) := by
        rw [← Int.cast_natCast, Int.natAbs_of_nonneg hpos.le]
      rw [← habs]
      exact_mod_cast Nat.log2_self_le (by omega)
    have hden : (q.den : ℚ) ≤ 2 ^ (q.den.log2 + 1) := by
      exact_mod_cast (Nat.lt_log2_self (n := q.den)).le
    have hdenpos : (0 : ℚ) < q.den := by exact_mod_cast q.den_pos
    have hsplit : (2 : ℚ) ^ ((q.num.natAbs.log2 : ℤ) - q.den.log2 - 1) =
        2 ^ q.num.natAbs.log2 / 2 ^ (q.den.log2 + 1) := by
      rw [show (q.num.natAbs.log2 : ℤ) - q.den.log2 - 1 =
        ((q.num.natAbs.log2 : ℕ) : ℤ) - ((q.den.log2 + 1 : ℕ) : ℤ) by
          push_cast; ring]
      rw [zpow_sub₀ (by norm_num), zpow_natCast, zpow_natCast]
    rw [hsplit]
    calc (2 : ℚ) ^ q.num.natAbs.log2 / 2 ^ (q.den.log2 + 1)
        ≤ q.num / 2 ^ (q.den.log2 + 1) := by gcongr
      _ ≤ q.num / q.den := by
          have hcast : (0 : ℚ) ≤ q.num := by exact_mod_cast hpos.le
          gcongr
      _ = q := Rat.num_div_den q

theorem roundHalfEven_mem {q : ℚ} {n : ℕ} (hq : 0 ≤ q) (hn : q < n) :
    0 ≤ roundHalfEven q ∧ roundHalfEven q ≤ n := by
  have hlow : 0 ≤ ⌊q⌋ := Int.floor_nonneg.mpr hq
  have hhigh : ⌊q⌋ < n := Int.floor_lt.mpr (by exact_mod_cast hn)
  unfold roundHalfEven
  simp only []
  have hfloor : q.floor = ⌊q⌋ := rfl
  rw [hfloor]
  split_ifs <;> omega

/-- A rounded number is a small integer times a power of two. -/
theorem roundBinary_eq {p : ℕ} {q : ℚ} (hq : 0 ≤ q) :
    ∃ (m : ℕ) (e : ℤ), m ≤ 2 ^ p ∧ roundBinary p q = m * 2 ^ e := by
  unfold roundBinary
  split
  · exact ⟨0, 0, Nat.zero_le _, by simp⟩
  next hne =>
    have hpos : 0 < q := lt_of_le_of_ne hq (Ne.symm hne)
    obtain ⟨e, he⟩ : ∃ e : ℤ, leadingExponent q - ((p : ℤ) - 1) = e := ⟨_, rfl⟩
    simp only [he]
    have hulp : (0 : ℚ) < 2 ^ e := zpow_pos (by norm_num) e
    have hscaled : q / 2 ^ e < ((2 ^ p : ℕ) : ℚ) := by
      have hexp : (p : ℤ) + e = leadingExponent q + 1 := by omega
      rw [div_lt_iff₀ hulp, Nat.cast_pow, Nat.cast_ofNat, ← zpow_natCast,
        ← zpow_add₀ (by norm_num), hexp]
      exact lt_two_zpow_leadingExponent hpos
    obtain ⟨hlow, hhigh⟩ :=
      roundHalfEven_mem (div_nonneg hq hulp.le) hscaled
    refine ⟨(roundHalfEven (q / 2 ^ e)).toNat, e, by omega, ?_⟩
    rw [← Int.cast_natCast (R := ℚ), Int.toNat_of_nonneg hlow]

theorem roundHalfEven_intCast (z : ℤ) : roundHalfEven z = z := by
  have hfloor : (z : ℚ).floor = z := Rat.floor_intCast z
  simp only [roundHalfEven, hfloor, sub_self]
  norm_num

/-- A natural number that fits into the significand is not rounded. -/
theorem roundBinary_natCast {p m : ℕ} (h : m < 2 ^ p) :
    roundBinary p m = m := by
  by_cases hm : m = 0
  · subst hm
    exact_mod_cast roundBinary_zero p
  · have hne : (m : ℚ) ≠ 0 := by exact_mod_cast hm
    have hlog : m.log2 < p := (Nat.log2_lt hm).mpr h
    have hlead : leadingExponent (m : ℚ) = m.log2 := by
      have hlow : (2 : ℚ) ^ m.log2 ≤ |(m : ℚ)| := by
        rw [Nat.abs_cast]
        exact_mod_cast Nat.log2_self_le hm
      simp only [leadingExponent, Rat.num_natCast, Rat.den_natCast,
        Int.natAbs_natCast, show Nat.log2 1 = 0 by decide, Nat.cast_zero,
        sub_zero, zpow_natCast, if_pos hlow]
    obtain ⟨k, hk⟩ : ∃ k : ℕ, (m.log2 : ℤ) - (p - 1) = -k :=
      ⟨p - 1 - m.log2, by omega⟩
    have hscaled : (m : ℚ) / 2 ^ (-(k : ℤ)) = ((m * 2 ^ k : ℕ) : ℤ) := by
      rw [zpow_neg, div_inv_eq_mul, zpow_natCast]
      push_cast
      rfl
    rw [roundBinary, if_neg hne, hlead, hk]
    simp only [hscaled, roundHalfEven_intCast]
    rw [zpow_neg, zpow_natCast]
    push_cast
    field_simp

/-! ## Rounding errors -/

theorem abs_roundHalfEven_sub_le (q : ℚ) : |roundHalfEven q - q| ≤ 1 / 2 := by
  have hfloor : q.floor = ⌊q⌋ := rfl
  have hlow : (⌊q⌋ : ℚ) ≤ q := Int.floor_le q
  have hhigh : q < ⌊q⌋ + 1 := Int.lt_floor_add_one q
  simp only [roundHalfEven, hfloor]
  rw [abs_le]
  split_ifs
  all_goals
    push_cast
    constructor <;> linarith

/-- One rounding, with at least one digit, is off by at most a half. -/
theorem abs_roundBinary_sub_le {p : ℕ} (hp : 0 < p) {q : ℚ} (hq : 0 ≤ q) :
    |roundBinary p q - q| ≤ q / 2 := by
  obtain rfl | hpos := hq.eq_or_lt
  · simp
  · obtain ⟨e, he⟩ : ∃ e : ℤ, leadingExponent q - ((p : ℤ) - 1) = e := ⟨_, rfl⟩
    have hulp : (0 : ℚ) < 2 ^ e := zpow_pos (by norm_num) e
    have hsmall : (2 : ℚ) ^ e ≤ q :=
      (zpow_le_zpow_right₀ (by norm_num) (by omega)).trans
        (two_zpow_leadingExponent_le hpos)
    have hround : roundBinary p q - q =
        (roundHalfEven (q / 2 ^ e) - q / 2 ^ e) * 2 ^ e := by
      rw [roundBinary, if_neg hpos.ne', he, sub_mul, div_mul_cancel₀ _ hulp.ne']
    rw [hround, abs_mul, abs_of_pos hulp]
    calc |(roundHalfEven (q / 2 ^ e) : ℚ) - q / 2 ^ e| * 2 ^ e
        ≤ 1 / 2 * 2 ^ e := by
          gcongr
          exact abs_roundHalfEven_sub_le _
      _ ≤ q / 2 := by linarith

theorem roundBinary_le_two_mul {p : ℕ} (hp : 0 < p) {q : ℚ} (hq : 0 ≤ q) :
    roundBinary p q ≤ 2 * q := by
  have herror := (abs_le.mp (abs_roundBinary_sub_le hp hq)).2
  linarith

theorem half_le_roundBinary {p : ℕ} (hp : 0 < p) {q : ℚ} (hq : 0 ≤ q) :
    q / 2 ≤ roundBinary p q := by
  have herror := (abs_le.mp (abs_roundBinary_sub_le hp hq)).1
  linarith

theorem leadingExponent_eq {q : ℚ} {e : ℤ} (hlow : 2 ^ e ≤ q)
    (hhigh : q < 2 ^ (e + 1)) : leadingExponent q = e := by
  have hpos : 0 < q := (zpow_pos (by norm_num) e).trans_le hlow
  have htwo : (1 : ℚ) < 2 := by norm_num
  have hle : e < leadingExponent q + 1 := (zpow_lt_zpow_iff_right₀ htwo).mp
    (hlow.trans_lt (lt_two_zpow_leadingExponent hpos))
  have hge : leadingExponent q < e + 1 := (zpow_lt_zpow_iff_right₀ htwo).mp
    ((two_zpow_leadingExponent_le hpos).trans_lt hhigh)
  omega

theorem leadingExponent_abs (q : ℚ) :
    leadingExponent |q| = leadingExponent q := by
  obtain h | h := abs_choice q
  · rw [h]
  · rw [h, leadingExponent, leadingExponent, Rat.num_neg_eq_neg_num,
      Int.natAbs_neg, Rat.den_neg_eq_den, abs_neg]

theorem abs_lt_two_zpow {q : ℚ} (hq : q ≠ 0) :
    |q| < 2 ^ (leadingExponent q + 1) := by
  rw [← leadingExponent_abs]
  exact lt_two_zpow_leadingExponent (abs_pos.mpr hq)

theorem two_zpow_le_abs {q : ℚ} (hq : q ≠ 0) :
    2 ^ leadingExponent q ≤ |q| := by
  rw [← leadingExponent_abs]
  exact two_zpow_leadingExponent_le (abs_pos.mpr hq)

/-- A multiple of its last digit is not rounded. -/
theorem roundBinary_of_multiple {p : ℕ} {q : ℚ} {z : ℤ}
    (h : q = z * 2 ^ (leadingExponent q - (p - 1))) : roundBinary p q = q := by
  have hulp : (0 : ℚ) < 2 ^ (leadingExponent q - (p - 1)) :=
    zpow_pos (by norm_num) _
  have hscaled : q / 2 ^ (leadingExponent q - (p - 1)) = z :=
    (div_eq_iff hulp.ne').mpr h
  rw [roundBinary]
  split
  next hzero => exact hzero.symm
  · dsimp only
    rw [hscaled, roundHalfEven_intCast]
    exact h.symm

/-- The digits of a rounded number, and one digit more after a carry. -/
theorem abs_roundHalfEven_bounds {p : ℕ} {x : ℚ} (hlow : 2 ^ p ≤ |x|)
    (hhigh : |x| < 2 ^ (p + 1)) :
    2 ^ p ≤ |roundHalfEven x| ∧ |roundHalfEven x| ≤ 2 ^ (p + 1) := by
  have herror := abs_roundHalfEven_sub_le x
  have hbelow : |x| - 1 / 2 ≤ |(roundHalfEven x : ℚ)| := by
    have := abs_sub_abs_le_abs_sub x (roundHalfEven x)
    rw [abs_sub_comm] at this
    linarith
  have habove : |(roundHalfEven x : ℚ)| ≤ |x| + 1 / 2 := by
    have := abs_sub_abs_le_abs_sub (roundHalfEven x : ℚ) x
    linarith
  constructor
  · have hlt : (2 : ℤ) ^ p < |roundHalfEven x| + 1 := by
      have : (2 : ℚ) ^ p < |(roundHalfEven x : ℚ)| + 1 := by linarith
      exact_mod_cast this
    omega
  · have hlt : |roundHalfEven x| < (2 : ℤ) ^ (p + 1) + 1 := by
      have : |(roundHalfEven x : ℚ)| < 2 ^ (p + 1) + 1 := by linarith
      exact_mod_cast this
    omega

theorem roundBinary_int_mul {k : ℕ} {m e : ℤ} (hlow : 2 ^ k ≤ |m|)
    (hhigh : |m| ≤ 2 ^ (k + 1)) :
    roundBinary (k + 1) (m * 2 ^ e) = m * 2 ^ e := by
  have hulp : (0 : ℚ) < 2 ^ e := zpow_pos (by norm_num) e
  have hlead : ∀ i : ℕ, 2 ^ i ≤ |m| → |m| < 2 ^ (i + 1) →
      leadingExponent ((m : ℚ) * 2 ^ e) = i + e := by
    intro i hle hlt
    rw [← leadingExponent_abs, abs_mul, abs_of_pos hulp]
    apply leadingExponent_eq
    · rw [zpow_add₀ (by norm_num), zpow_natCast]
      gcongr
      exact_mod_cast hle
    · rw [add_right_comm, zpow_add₀ (by norm_num)]
      gcongr
      exact_mod_cast hlt
  obtain hlt | hcarry := hhigh.lt_or_eq
  · apply roundBinary_of_multiple (z := m)
    rw [hlead k hlow hlt]
    congr 2
    push_cast
    ring
  · -- a carry: the last digit is a zero
    have heven : (2 : ℤ) ∣ m := by
      rw [← dvd_abs, hcarry]
      exact dvd_pow_self 2 (Nat.succ_ne_zero k)
    obtain ⟨z, rfl⟩ := heven
    apply roundBinary_of_multiple (z := z)
    rw [hlead (k + 1) hcarry.ge (by rw [hcarry]; gcongr <;> omega)]
    rw [show ((k + 1 : ℕ) : ℤ) + e - (((k + 1 : ℕ) : ℤ) - 1) = e + 1 by ring,
      zpow_add₀ (by norm_num)]
    push_cast
    ring

/-- A number that has been rounded is not changed by another rounding. -/
theorem roundBinary_roundBinary {p : ℕ} (hp : 0 < p) (q : ℚ) :
    roundBinary p (roundBinary p q) = roundBinary p q := by
  obtain ⟨k, rfl⟩ : ∃ k, p = k + 1 := ⟨p - 1, by omega⟩
  by_cases hq : q = 0
  · rw [hq, roundBinary_zero, roundBinary_zero]
  obtain ⟨e, he⟩ : ∃ e : ℤ, leadingExponent q - (((k + 1 : ℕ) : ℤ) - 1) = e :=
    ⟨_, rfl⟩
  have hlead : leadingExponent q = k + e := by push_cast at he; omega
  have hulp : (0 : ℚ) < 2 ^ e := zpow_pos (by norm_num) e
  have hround : roundBinary (k + 1) q = roundHalfEven (q / 2 ^ e) * 2 ^ e := by
    rw [roundBinary, if_neg hq, he]
  obtain ⟨hlow, hhigh⟩ : 2 ^ k ≤ |roundHalfEven (q / 2 ^ e)| ∧
      |roundHalfEven (q / 2 ^ e)| ≤ 2 ^ (k + 1) := by
    apply abs_roundHalfEven_bounds
    · rw [abs_div, abs_of_pos hulp, le_div_iff₀ hulp, ← zpow_natCast,
        ← zpow_add₀ (by norm_num), ← hlead]
      exact two_zpow_le_abs hq
    · rw [abs_div, abs_of_pos hulp, div_lt_iff₀ hulp, ← zpow_natCast,
        ← zpow_add₀ (by norm_num)]
      have hexp : ((k + 1 : ℕ) : ℤ) + e = leadingExponent q + 1 := by
        push_cast
        omega
      rw [hexp]
      exact abs_lt_two_zpow hq
  rw [hround, roundBinary_int_mul hlow hhigh]

/-- Scaling by a power of two commutes with the rounding. -/
theorem roundBinary_two_pow_mul (p k : ℕ) {q : ℚ} (hq : 0 ≤ q) :
    roundBinary p (2 ^ k * q) = 2 ^ k * roundBinary p q := by
  obtain rfl | hpos := hq.eq_or_lt
  · simp
  · have hscale : (2 : ℚ) ^ k ≠ 0 := by positivity
    have hlead : leadingExponent (2 ^ k * q) = k + leadingExponent q := by
      apply leadingExponent_eq
      · rw [zpow_add₀ (by norm_num), zpow_natCast]
        gcongr
        exact two_zpow_leadingExponent_le hpos
      · rw [add_assoc, zpow_add₀ (by norm_num), zpow_natCast]
        gcongr
        exact lt_two_zpow_leadingExponent hpos
    have hulp : (2 : ℚ) ^ (k + leadingExponent q - (p - 1)) =
        2 ^ k * 2 ^ (leadingExponent q - (p - 1)) := by
      rw [add_sub_assoc, zpow_add₀ (by norm_num), zpow_natCast]
    rw [roundBinary, if_neg (by positivity), roundBinary, if_neg hpos.ne', hlead,
      hulp]
    simp only [mul_div_mul_left _ _ hscale]
    ring

/-! ## Conversion to an integer -/

/-- A float product rounded to an integer: below `2 ^ (p + k)`, or a multiple
of `2 ^ (k + 1)`. -/
theorem round_roundBinary (p k : ℕ) {q : ℚ} (hq : 0 ≤ q) :
    ∃ m : ℕ, round (finite (roundBinary p q)) = finite m ∧
      (m ≤ 2 ^ (p + k) ∨ 2 ^ (k + 1) ∣ m) := by
  obtain ⟨m, e, hm, hround⟩ := roundBinary_eq (p := p) hq
  have hpos : (0 : ℚ) < 2 ^ e := zpow_pos (by norm_num) e
  have hnonneg : (0 : ℚ) ≤ m * 2 ^ e := by positivity
  rw [hround, round, if_pos hnonneg]
  rcases le_or_gt 0 e with he | he
  · -- The number is an integer already.
    obtain ⟨j, rfl⟩ := Int.eq_ofNat_of_zero_le he
    have hint : ((m : ℚ) * 2 ^ (j : ℤ)) = ((m * 2 ^ j : ℕ) : ℤ) := by
      push_cast
      rw [zpow_natCast]
    have hfloor : ⌊(((m * 2 ^ j : ℕ) : ℤ) : ℚ) + 1 / 2⌋ =
        ((m * 2 ^ j : ℕ) : ℤ) := by
      rw [Int.floor_intCast_add]
      norm_num
    refine ⟨m * 2 ^ j, ?_, ?_⟩
    · rw [hint, hfloor, Int.cast_natCast]
    · rcases Nat.lt_or_ge k j with hj | hj
      · exact Or.inr ((pow_dvd_pow 2 hj).mul_left m)
      · left
        rw [pow_add]
        exact Nat.mul_le_mul hm (Nat.pow_le_pow_right (by norm_num) hj)
  · -- The number is at most `2 ^ p`, and so is its rounding.
    have hsmall : (2 : ℚ) ^ e ≤ 1 := zpow_le_one_of_nonpos₀ (by norm_num) he.le
    have hle : (m : ℚ) * 2 ^ e ≤ ((2 ^ p : ℕ) : ℤ) := by
      calc (m : ℚ) * 2 ^ e ≤ m * 1 := by gcongr
        _ ≤ ((2 ^ p : ℕ) : ℤ) := by
          rw [mul_one]
          exact_mod_cast hm
    have hlow : 0 ≤ ⌊(m : ℚ) * 2 ^ e + 1 / 2⌋ := by
      apply Int.floor_nonneg.mpr
      positivity
    have hhigh : ⌊(m : ℚ) * 2 ^ e + 1 / 2⌋ ≤ ((2 ^ p : ℕ) : ℤ) := by
      have hceil : ⌊(((2 ^ p : ℕ) : ℤ) : ℚ) + 1 / 2⌋ = ((2 ^ p : ℕ) : ℤ) := by
        rw [Int.floor_intCast_add]
        norm_num
      rw [← hceil]
      apply Int.floor_le_floor
      gcongr
    refine ⟨⌊(m : ℚ) * 2 ^ e + 1 / 2⌋.toNat, ?_, Or.inl ?_⟩
    · have hcast := Int.toNat_of_nonneg hlow
      exact congrArg finite (by exact_mod_cast hcast.symm)
    · have hpow : 2 ^ p ≤ 2 ^ (p + k) :=
        Nat.pow_le_pow_right (by norm_num) (Nat.le_add_right p k)
      omega

theorem toUnsigned_natCast (m : ℕ) :
    toUnsigned (finite m) = if m < 2 ^ 64 then m else 0 := by
  have hcut : ∀ j : ℕ, truncate (j : ℚ) = j := by
    intro j
    simp [truncate]
  rw [toUnsigned]
  split
  next hlow =>
    have hm : m < 2 ^ 63 := by exact_mod_cast hlow
    rw [signedPattern, hcut, if_pos (by omega), if_pos (by omega)]
    omega
  next hhigh =>
    have hm : 2 ^ 63 ≤ m := by exact_mod_cast not_lt.mp hhigh
    have hshift : (m : ℚ) - 2 ^ 63 = ((m - 2 ^ 63 : ℕ) : ℚ) := by
      rw [Nat.cast_sub hm]
      norm_num
    rw [hshift, signedPattern, hcut]
    split_ifs <;> omega

theorem toUnsigned_round {q : ℚ} (hq : 0 ≤ q) (hlt : q < 2 ^ 63) :
    toUnsigned (round (finite q)) = ⌊q + 1 / 2⌋₊ := by
  have hcast : ((⌊q + 1 / 2⌋ : ℤ) : ℚ) = (⌊q + 1 / 2⌋₊ : ℕ) := by
    rw [← Int.natCast_floor_eq_floor (by positivity), Int.cast_natCast]
  have hsmall : ⌊q + 1 / 2⌋₊ < 2 ^ 64 := by
    rw [Nat.floor_lt (by positivity)]
    push_cast
    linarith
  rw [round, if_pos hq, hcast, toUnsigned_natCast, if_pos hsmall]

/-- Not below zero; `nan` is not excluded. -/
def NonNeg : FloatValue → Prop
  | finite q => 0 ≤ q
  | infinite neg => neg = false
  | nan => True

theorem roundBinary_nonneg (p : ℕ) {q : ℚ} (hq : 0 ≤ q) :
    0 ≤ roundBinary p q := by
  obtain ⟨m, e, -, hround⟩ := roundBinary_eq (p := p) hq
  rw [hround]
  exact mul_nonneg (Nat.cast_nonneg m) (zpow_nonneg (by norm_num) e)

theorem nonNeg_ofInt (p : ℕ) {z : ℤ} (hz : 0 ≤ z) : (ofInt p z).NonNeg :=
  roundBinary_nonneg p (by exact_mod_cast hz)

theorem nonNeg_div {p : ℕ} {a b : FloatValue} (ha : a.NonNeg)
    (hb : b.NonNeg) : (div p a b).NonNeg := by
  match a, b with
  | finite x, finite y =>
      rw [div]
      split
      · split
        · trivial
        · exact decide_eq_false (not_lt.mpr ha)
      · exact roundBinary_nonneg p (div_nonneg ha hb)
  | finite x, infinite neg => exact le_refl (0 : ℚ)
  | infinite neg, finite y =>
      have hneg : neg = false := ha
      have hy : decide (y < 0) = false := decide_eq_false (not_lt.mpr hb)
      rw [div, hneg, hy]
      rfl
  | infinite _, infinite _ => trivial
  | nan, _ => trivial
  | finite _, nan => trivial
  | infinite _, nan => trivial

/-- What a product of two floats can become as an unsigned integer. -/
theorem toUnsigned_round_mul {p k : ℕ} (hk : k < 63) {a b : FloatValue}
    (ha : a.NonNeg) (hb : b.NonNeg) :
    toUnsigned (round (mul p a b)) ≤ 2 ^ (p + k) ∨
      2 ^ (k + 1) ∣ toUnsigned (round (mul p a b)) := by
  have htop : 2 ^ (k + 1) ∣ 2 ^ 63 := pow_dvd_pow 2 hk
  have hinf : ∀ neg, 2 ^ (k + 1) ∣ toUnsigned (round (infinite neg)) := by
    intro neg
    cases neg
    · exact dvd_zero _
    · exact htop
  match a, b with
  | finite x, finite y =>
      obtain ⟨m, hround, hm⟩ := round_roundBinary p k (mul_nonneg ha hb)
      rw [mul, hround, toUnsigned_natCast]
      split
      · exact hm
      · exact Or.inr (dvd_zero _)
  | finite x, infinite neg =>
      rw [mul]
      split
      · exact Or.inr htop
      · exact Or.inr (hinf _)
  | infinite neg, finite y =>
      rw [mul]
      split
      · exact Or.inr htop
      · exact Or.inr (hinf _)
  | infinite neg, infinite neg' => exact Or.inr (hinf _)
  | nan, _ => exact Or.inr htop
  | finite _, nan => exact Or.inr htop
  | infinite _, nan => exact Or.inr htop

end FloatValue
