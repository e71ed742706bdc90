import ChemEmulator.Pipeline.Samples
import ChemEmulator.Support.Convolution
import ChemEmulator.Support.GatheredSum
import Mathlib.Algebra.Order.Floor.Semifield

/-!
# Whether resampling fills the output

`processChannel` asks for `round (n * r)` samples of a burst of `n`, and
`resample` gets that number divided by `r`, cut to an integer.  In exact
arithmetic, for a ratio of at most three decimals, the two roundings fit
together only if the number of outputs is a multiple of the up factor;
otherwise the last outputs are not written and keep what they held.

When they fit together, the resampler may still read past the burst: rounding
up asks for more samples than there are, and an up factor that is 1 after the
cut to 16 bits copies the source vector as a whole.
-/

namespace Chem
namespace Dsp

open RawVector GatheredSum Convolution

/-! ## Exact counts -/

/-- A ratio of at most three decimals. -/
def thousandths (num : ℕ) : ℚ := num / 1000

def upOf (num : ℕ) : ℕ := num / Nat.gcd num 1000

def downOf (num : ℕ) : ℕ := 1000 / Nat.gcd num 1000

/-- `dest_per_buff`: the product is not below zero, so halves go up. -/
def outputCount (n num : ℕ) : ℕ := ⌊(n : ℚ) * thousandths num + 1 / 2⌋₊

/-- `s_perBuff / sample_ratio` as a `size_t`. -/
def inputCount (count num : ℕ) : ℕ := ⌊(count : ℚ) / thousandths num⌋₊

section Counts

variable {n num : ℕ}

theorem gcd_pos (num : ℕ) : 0 < Nat.gcd num 1000 :=
  Nat.gcd_pos_of_pos_right num (by decide)

theorem upOf_mul_gcd (num : ℕ) : upOf num * Nat.gcd num 1000 = num :=
  Nat.div_mul_cancel (Nat.gcd_dvd_left num 1000)

theorem downOf_mul_gcd (num : ℕ) : downOf num * Nat.gcd num 1000 = 1000 :=
  Nat.div_mul_cancel (Nat.gcd_dvd_right num 1000)

theorem downOf_pos (num : ℕ) : 0 < downOf num :=
  Nat.div_pos (Nat.gcd_le_right num (by decide)) (gcd_pos num)

theorem upOf_le (num : ℕ) : upOf num ≤ num := Nat.div_le_self _ _

theorem downOf_le (num : ℕ) : downOf num ≤ 1000 := Nat.div_le_self _ _

theorem coprime_factors (num : ℕ) : Nat.Coprime (upOf num) (downOf num) :=
  Nat.coprime_div_gcd_div_gcd (gcd_pos num)

theorem thousandths_eq (num : ℕ) :
    thousandths num = (upOf num : ℚ) / downOf num := by
  have hgcd : (Nat.gcd num 1000 : ℚ) ≠ 0 := by exact_mod_cast (gcd_pos num).ne'
  have hup : (upOf num : ℚ) * Nat.gcd num 1000 = num := by
    exact_mod_cast upOf_mul_gcd num
  have hdown : (downOf num : ℚ) * Nat.gcd num 1000 = 1000 := by
    exact_mod_cast downOf_mul_gcd num
  rw [thousandths, ← hup, ← hdown, mul_div_mul_right _ _ hgcd]

theorem outputCount_eq (n num : ℕ) :
    outputCount n num =
      (2 * n * upOf num + downOf num) / (2 * downOf num) := by
  have hdown : (downOf num : ℚ) ≠ 0 := by exact_mod_cast (downOf_pos num).ne'
  rw [outputCount, thousandths_eq, ← Nat.floor_div_eq_div (K := ℚ)]
  congr 1
  push_cast
  field_simp

theorem inputCount_eq (count num : ℕ) :
    inputCount count num = count * downOf num / upOf num := by
  rw [inputCount, thousandths_eq, div_div_eq_mul_div,
    ← Nat.floor_div_eq_div (K := ℚ)]
  push_cast
  rfl

/-- The factors that the code computes. -/
theorem computeResamplingFactors_thousandths (h : num < 2 ^ 31) :
    computeResamplingFactors (.finite (thousandths num)) =
      ((upOf num : ℤ), downOf num) := by
  have hexact : FloatValue.mul 53 (.finite (thousandths num))
      (.finite 1000) = .finite (num : ℚ) := by
    have hprod : thousandths num * 1000 = num := by
      rw [thousandths]
      norm_num
    rw [FloatValue.mul, hprod,
      FloatValue.roundBinary_natCast (h.trans (by norm_num))]
  have hround : FloatValue.round (.finite (num : ℚ)) = .finite (num : ℚ) := by
    have hfloor : ⌊(num : ℚ) + 1 / 2⌋ = (num : ℤ) := by
      rw [← Int.cast_natCast, Int.floor_intCast_add]
      norm_num
    rw [FloatValue.round, if_pos (Nat.cast_nonneg num), hfloor,
      Int.cast_natCast]
  have hint : toInt (.finite (num : ℚ)) = num := by
    have hcut : FloatValue.truncate (num : ℚ) = num := by
      rw [FloatValue.truncate, if_pos (Nat.cast_nonneg num), Int.floor_natCast]
    rw [toInt, hcut, if_pos (by omega)]
  have hgcd : Int.gcd (num : ℤ) 1000 = Nat.gcd num 1000 := rfl
  simp only [computeResamplingFactors, hexact, hround, hint, hgcd]
  rw [← Int.natCast_div]
  rfl

/-- The outputs that are asked for take no more samples than there are, up to
half a sample of the destination. -/
theorem outputCount_mul_le (n num : ℕ) :
    2 * (outputCount n num * downOf num) ≤
      2 * n * upOf num + downOf num := by
  have hle := Nat.div_mul_le_self (2 * n * upOf num + downOf num)
    (2 * downOf num)
  rw [← outputCount_eq] at hle
  calc 2 * (outputCount n num * downOf num)
      = outputCount n num * (2 * downOf num) := by ring
    _ ≤ 2 * n * upOf num + downOf num := hle

theorem inputCount_mul_le (count num : ℕ) :
    inputCount count num * upOf num ≤ count * downOf num := by
  rw [inputCount_eq]
  exact Nat.div_mul_le_self _ _

/-- `size * up` fits into a `size_t`. -/
theorem upsampledCount_eq (hnum : num < 2 ^ 31) (hn : n < 2 ^ 32) :
    upsampledCount (inputCount (outputCount n num) num)
        (.finite (thousandths num)) =
      inputCount (outputCount n num) num * upOf num := by
  have hout := outputCount_mul_le n num
  have hin := inputCount_mul_le (outputCount n num) num
  have hup := (upOf_le num).trans_lt hnum
  have hprod : n * upOf num ≤ 2 ^ 32 * 2 ^ 31 := Nat.mul_le_mul hn.le hup.le
  have hdown := downOf_le num
  have hlt : inputCount (outputCount n num) num * upOf num < 2 ^ 64 := by
    rw [mul_assoc] at hout
    omega
  rw [upsampledCount, computeResamplingFactors_thousandths hnum]
  have hcast : ((inputCount (outputCount n num) num : ℤ) * (upOf num : ℤ)) =
      ((inputCount (outputCount n num) num * upOf num : ℕ) : ℤ) := by
    push_cast
    rfl
  dsimp only
  rw [hcast]
  omega

theorem upFactor_eq (hnum : num < 2 ^ 31) :
    upFactor (.finite (thousandths num)) = upOf num % 2 ^ 16 := by
  rw [upFactor, computeResamplingFactors_thousandths hnum]
  dsimp only
  omega

/-- Nothing is cut off where the outputs are a multiple of the up factor. -/
theorem inputCount_mul_upOf {count : ℕ} (h : upOf num ∣ count) :
    inputCount count num * upOf num = count * downOf num := by
  rw [inputCount_eq]
  exact Nat.div_mul_cancel (h.mul_right (downOf num))

/-- An integer ratio always is such a case. -/
theorem upOf_dvd_of_downOf_eq_one (h : downOf num = 1) :
    upOf num ∣ outputCount n num := by
  rw [outputCount_eq, h]
  refine ⟨n, ?_⟩
  rw [mul_one, mul_assoc, Nat.mul_add_div (by decide), mul_comm n]
  rfl

/-- Otherwise the last output is missed. -/
theorem div_lt_of_not_dvd {count : ℕ} (h : ¬upOf num ∣ count) :
    inputCount count num * upOf num / downOf num < count := by
  rw [Nat.div_lt_iff_lt_mul (downOf_pos num)]
  refine lt_of_le_of_ne (inputCount_mul_le count num) fun heq => h ?_
  have hdvd : upOf num ∣ count * downOf num := ⟨_, by rw [← heq, mul_comm]⟩
  exact (coprime_factors num).dvd_of_dvd_mul_right hdvd

/-- The counts are the code's conversions without its rounding to floats. -/
theorem toUnsigned_round_mul (hnum : num < 2 ^ 31) (hn : n < 2 ^ 32) :
    (FloatValue.round (.finite (n * thousandths num))).toUnsigned =
      outputCount n num := by
  have hratio : thousandths num < 2 ^ 31 / 1000 := by
    rw [thousandths]
    gcongr
    exact_mod_cast hnum
  have hcount : (n : ℚ) ≤ 2 ^ 32 := by exact_mod_cast hn.le
  have hnonneg : (0 : ℚ) ≤ thousandths num := by
    rw [thousandths]
    positivity
  apply FloatValue.toUnsigned_round (by positivity)
  calc (n : ℚ) * thousandths num
      ≤ 2 ^ 32 * (2 ^ 31 / 1000) := by gcongr
    _ < 2 ^ 63 := by norm_num

end Counts

/-! ## The upsampled burst -/

section Upsampled

variable {K : Type} [Zero K]

/-- The source sample that is found at index `q` after the upsampling.  A
factor of 0 puts all of them at the same place. -/
def heldSample (up size srcSize q : ℕ) : Option ℕ :=
  if up = 1 then if q < srcSize then some q else none
  else if up = 0 then if q = 0 ∧ 0 < size then some (size - 1) else none
  else if up ∣ q ∧ q / up < size then some (q / up) else none

theorem heldSample_succ {up size srcSize : ℕ} (hup : up ≠ 1) (q : ℕ) :
    heldSample up (size + 1) srcSize q =
      if q = size * up then some size else heldSample up size srcSize q := by
  simp only [heldSample, if_neg hup]
  obtain rfl | hpos := Nat.eq_zero_or_pos up
  · by_cases hq : q = 0
    · simp [hq]
    · simp [hq]
  · rw [if_neg hpos.ne', if_neg hpos.ne']
    by_cases hq : q = size * up
    · have hdiv : size * up / up = size := Nat.mul_div_cancel size hpos
      have hlast : size * up / up < size + 1 := by omega
      rw [if_pos hq, hq, if_pos ⟨dvd_mul_left up size, hlast⟩, hdiv]
    · rw [if_neg hq]
      have hiff : (up ∣ q ∧ q / up < size + 1) ↔ up ∣ q ∧ q / up < size := by
        refine and_congr_right fun hdvd => ?_
        have hne : q / up ≠ size := fun h => hq (by
          rw [← h, Nat.div_mul_cancel hdvd])
        omega
      simp only [hiff]

theorem data_upsample (src : SignalV K) (count up size q : ℕ) :
    (upsample src (.replicate count 0) up size).data q =
      pickFrom src.data (heldSample up size src.size q) := by
  by_cases hup : up = 1
  · simp only [upsample, heldSample, if_pos hup, RawVector.assign]
    split
    · rfl
    · rfl
  · rw [upsample, if_neg hup]
    induction size with
    | zero =>
        have hnone : heldSample up 0 src.size q = none := by
          simp [heldSample, hup]
        rw [hnone]
        rfl
    | succ size ih =>
        rw [List.range_succ, List.foldl_append, heldSample_succ hup]
        change (if q = size * up then src.data size else _) = _
        rw [ih]
        split
        · rfl
        · rfl

/-- With the samples spread by the factor itself, no sample behind the `size`
first ones is looked at. -/
theorem heldSample_lt {up size srcSize q i : ℕ} (hup : up = 1 → q < size)
    (h : heldSample up size srcSize q = some i) : i < size := by
  unfold heldSample at h
  split_ifs at h with hone hq hzero hat hat
  · obtain rfl := Option.some.inj h
    exact hup hone
  · obtain rfl := Option.some.inj h
    omega
  · obtain rfl := Option.some.inj h
    exact hat.2

end Upsampled

/-! ## The filter -/

/-- The index of the upsampled burst under tap `j` at output `i`: the burst is
continued by its first and its last sample. -/
def windowIndex (len count i j : ℕ) : ℕ :=
  let delay := (len - 1) / 2
  if i + j < delay then 0
  else if i + j < delay + count then i + j - delay
  else count - 1

theorem windowIndex_lt {len count i j : ℕ} (h : 0 < count) :
    windowIndex len count i j < count := by
  simp only [windowIndex]
  split_ifs
  · exact h
  · omega
  · omega

section Filter

variable {R K : Type} [Ring R] [AddCommGroup K] [Module R K]

/-- Without taps nothing is filtered, as with a single tap of 1. -/
def effectiveTaps (A : Arithmetic R K) (ratio : FloatValue) : List R :=
  if (A.taps ratio).isEmpty then [1] else A.taps ratio

def tapAt (A : Arithmetic R K) (ratio : FloatValue) (j : ℕ) : R :=
  (effectiveTaps A ratio).getD j 0

/-- The source sample under tap `j` at index `i` of the filtered burst. -/
def sampleUnder (A : Arithmetic R K) (ratio : FloatValue)
    (size srcSize i j : ℕ) : Option ℕ :=
  heldSample (upFactor ratio) size srcSize
    (windowIndex (effectiveTaps A ratio).length (upsampledCount size ratio) i j)

variable (A : Arithmetic R K) (src dest : SignalV K)

theorem data_filteredUp (ratio : FloatValue) {size q : ℕ}
    (hq : q < upsampledCount size ratio) :
    (filteredUp A src ratio size).data q =
      gather (effectiveTaps A ratio).length (tapAt A ratio)
        (sampleUnder A ratio size src.size q) src.data := by
  have hheld := data_upsample src (upsampledCount size ratio) (upFactor ratio)
    size
  simp only [filteredUp, firFilter]
  by_cases hempty : (A.taps ratio).isEmpty
  · have htaps : effectiveTaps A ratio = [1] := if_pos hempty
    have hindex : windowIndex 1 (upsampledCount size ratio) q 0 = q := by
      simp [windowIndex, hq]
    rw [if_pos (Or.inl hempty), hheld]
    simp [gather, tapAt, sampleUnder, htaps, hindex]
  · have htaps : effectiveTaps A ratio = A.taps ratio := if_neg hempty
    have hrun : ¬((A.taps ratio).isEmpty ∨ upsampledCount size ratio = 0) :=
      not_or.mpr ⟨hempty, by omega⟩
    rw [if_neg hrun, data_fill_of_lt _ hq, sum_mapIdx _ _ 0, gather, htaps]
    apply Finset.sum_congr rfl
    intro j _
    rw [tapAt, sampleUnder, htaps, ← hheld, windowIndex]
    congr 1
    split_ifs
    · rfl
    · rfl
    · rfl

end Filter

/-! ## What is written -/

section Written

variable {R K : Type} [Ring R] [AddCommGroup K] [Module R K]
variable (A : Arithmetic R K) {num n srcSize m : ℕ}

/-- The resampling step for a burst of `n` samples. -/
def resampled (A : Arithmetic R K) (num n : ℕ) (src dest : SignalV K) :
    SignalV K :=
  resample A src dest (.finite (thousandths num))
    (inputCount (outputCount n num) num)

/-- The number of outputs is a multiple of the up factor, and no more than
there are samples in a vector that is copied as a whole. -/
def Reaches (num n srcSize : ℕ) : Prop :=
  upOf num ∣ outputCount n num ∧
    (downOf num = 1 → upOf num % 2 ^ 16 = 1 → outputCount n num ≤ srcSize)

/-- The burst that is upsampled makes just the outputs. -/
theorem upsampledCount_of_dvd (hnum : num < 2 ^ 31) (hn : n < 2 ^ 32)
    (h : upOf num ∣ outputCount n num) :
    upsampledCount (inputCount (outputCount n num) num)
        (.finite (thousandths num)) =
      outputCount n num * downOf num :=
  (upsampledCount_eq hnum hn).trans (inputCount_mul_upOf h)

theorem data_resampled (hnum : num < 2 ^ 31) (hn : n < 2 ^ 32)
    (h : Reaches num n srcSize) (hm : m < outputCount n num) {src : SignalV K}
    (hsrc : src.size = srcSize) (dest : SignalV K) :
    (resampled A num n src dest).data m =
      (filteredUp A src (.finite (thousandths num))
        (inputCount (outputCount n num) num)).data (m * downOf num) := by
  have hcount := upsampledCount_of_dvd hnum hn h.1
  have hdown : (computeResamplingFactors (.finite (thousandths num))).2 =
      downOf num := by
    rw [computeResamplingFactors_thousandths hnum]
  by_cases hone : downOf num = 1
  · have hinside : m < (filteredUp A src (.finite (thousandths num))
        (inputCount (outputCount n num) num)).size := by
      rw [size_filteredUp, upFactor_eq hnum, hcount, hone, mul_one, hsrc]
      split
      next hup => exact hm.trans_le (h.2 hone hup)
      next => exact hm
    rw [resampled, resample, downsample, hdown, if_pos hone,
      data_assign_of_lt dest hinside, hone, mul_one]
  · have hinside : m < outputCount n num * downOf num / downOf num := by
      rwa [Nat.mul_div_cancel _ (downOf_pos num)]
    rw [resampled, resample, downsample, hdown, if_neg hone, hcount,
      data_fill_of_lt dest hinside]

/-- Some output is not written. -/
theorem exists_data_resampled_eq (hnum : num < 2 ^ 31) (hn : n < 2 ^ 32)
    (h : ¬Reaches num n srcSize) :
    ∃ m, m < outputCount n num ∧ ∀ src dest : SignalV K, src.size = srcSize →
      (resampled A num n src dest).data m = dest.data m := by
  have hdown : (computeResamplingFactors (.finite (thousandths num))).2 =
      downOf num := by
    rw [computeResamplingFactors_thousandths hnum]
  by_cases hdvd : upOf num ∣ outputCount n num
  · -- The copied vector is too short.
    have hshort : downOf num = 1 ∧ upOf num % 2 ^ 16 = 1 ∧
        srcSize < outputCount n num := by
      simp only [Reaches, hdvd, true_and] at h
      push Not at h
      exact h
    obtain ⟨hone, hup, hlt⟩ := hshort
    refine ⟨srcSize, hlt, fun src dest hsrc => ?_⟩
    have hsize : (filteredUp A src (.finite (thousandths num))
        (inputCount (outputCount n num) num)).size = srcSize := by
      rw [size_filteredUp, upFactor_eq hnum, if_pos hup, hsrc]
    rw [resampled, resample, downsample, hdown, if_pos hone]
    exact if_neg (by rw [hsize]; exact lt_irrefl _)
  · have hone : downOf num ≠ 1 := fun hone =>
      hdvd (upOf_dvd_of_downOf_eq_one hone)
    refine ⟨_, div_lt_of_not_dvd hdvd, fun src dest _ => ?_⟩
    rw [resampled, resample, downsample, hdown, if_neg hone,
      upsampledCount_eq hnum hn]
    exact data_fill_of_le dest (le_refl _) _

end Written

/-! ## The outputs are determined -/

section Fills

variable {R K : Type} [Field R] [AddCommGroup K] [Module R K]
variable (A : Arithmetic R K) {num n srcSize : ℕ}

/-- The outputs that are asked for depend neither on what the destination held
nor on a sample behind the burst. -/
def Fills (A : Arithmetic R K) (num n srcSize : ℕ) : Prop :=
  ∀ src₁ src₂ dest₁ dest₂ : SignalV K, src₁.size = srcSize →
    src₂.size = srcSize → Agree n src₁ src₂ →
      Agree (outputCount n num) (resampled A num n src₁ dest₁)
        (resampled A num n src₂ dest₂)

/-- No more samples are asked for than there are, and they are spread by the
up factor itself. -/
def Within (num n : ℕ) : Prop :=
  inputCount (outputCount n num) num ≤ n ∧
    (upOf num % 2 ^ 16 = 1 → upOf num = 1)

/-- The taps over every sample behind the burst add up to zero. -/
def Silent (A : Arithmetic R K) (num n srcSize : ℕ) : Prop :=
  ∀ m, m < outputCount n num → ∀ p, n ≤ p →
    weight (effectiveTaps A (.finite (thousandths num))).length
      (tapAt A (.finite (thousandths num)))
      (sampleUnder A (.finite (thousandths num))
        (inputCount (outputCount n num) num) srcSize (m * downOf num)) p = 0

omit [AddCommGroup K] [Module R K] in
theorem silent_of_within (hnum : num < 2 ^ 31) (hn : n < 2 ^ 32)
    (hreach : Reaches num n srcSize) (h : Within num n) :
    Silent A num n srcSize := by
  intro m hm p hp
  have hcount := upsampledCount_of_dvd hnum hn hreach.1
  apply weight_eq_zero
  intro j _ hpick
  have hlt : p < inputCount (outputCount n num) num := by
    refine heldSample_lt (fun hup => ?_) hpick
    rw [upFactor_eq hnum] at hup
    have hone := h.2 hup
    have hsame := upsampledCount_eq hnum hn
    rw [hone, mul_one] at hsame
    have hpos : 0 < upsampledCount (inputCount (outputCount n num) num)
        (.finite (thousandths num)) := by
      rw [hcount]
      exact Nat.mul_pos (Nat.zero_lt_of_lt hm) (downOf_pos num)
    exact (windowIndex_lt hpos).trans_eq hsame
  have hle := h.1
  omega

theorem reaches_of_fills [Nontrivial K] (hnum : num < 2 ^ 31)
    (hn : n < 2 ^ 32) (h : Fills A num n srcSize) :
    Reaches num n srcSize := by
  by_contra hnot
  obtain ⟨m, hm, hkeep⟩ := exists_data_resampled_eq A hnum hn hnot
  obtain ⟨k, hk⟩ := exists_ne (0 : K)
  have hsame := h ⟨srcSize, fun _ => 0⟩ ⟨srcSize, fun _ => 0⟩
    (.replicate 0 k) (.replicate 0 0) rfl rfl (fun _ _ => rfl) m hm
  rw [hkeep _ _ rfl, hkeep _ _ rfl] at hsame
  exact hk hsame

/-- The outputs are determined by the burst exactly if all are written and no
sample behind the burst has a weight; the second holds in particular if no
such sample is asked for. -/
theorem fills_iff [Nontrivial K] (hnum : num < 2 ^ 31) (hn : n < 2 ^ 32) :
    Fills A num n srcSize ↔
      Reaches num n srcSize ∧ (Within num n ∨ Silent A num n srcSize) := by
  have hgather : Reaches num n srcSize → ∀ m, m < outputCount n num →
      ∀ src dest : SignalV K, src.size = srcSize →
        (resampled A num n src dest).data m =
          gather (effectiveTaps A (.finite (thousandths num))).length
            (tapAt A (.finite (thousandths num)))
            (sampleUnder A (.finite (thousandths num))
              (inputCount (outputCount n num) num) srcSize (m * downOf num))
            src.data := by
    intro hreach m hm src dest hsrc
    have hinside : m * downOf num < upsampledCount
        (inputCount (outputCount n num) num) (.finite (thousandths num)) := by
      rw [upsampledCount_of_dvd hnum hn hreach.1]
      exact Nat.mul_lt_mul_of_pos_right hm (downOf_pos num)
    rw [data_resampled A hnum hn hreach hm hsrc,
      data_filteredUp A src _ hinside, hsrc]
  constructor
  · intro h
    have hreach := reaches_of_fills A hnum hn h
    refine ⟨hreach, Or.inr fun m hm => ?_⟩
    apply (gather_congr_iff (K := K)).mp
    intro x y hxy
    have hsame := h ⟨srcSize, x⟩ ⟨srcSize, y⟩ (.replicate 0 0) (.replicate 0 0)
      rfl rfl hxy m hm
    rwa [hgather hreach m hm _ _ rfl, hgather hreach m hm _ _ rfl] at hsame
  · rintro ⟨hreach, hrest⟩ src₁ src₂ dest₁ dest₂ h₁ h₂ hagree m hm
    have hsilent : Silent A num n srcSize :=
      hrest.elim (silent_of_within A hnum hn hreach) id
    rw [hgather hreach m hm src₁ dest₁ h₁, hgather hreach m hm src₂ dest₂ h₂]
    exact (gather_congr_iff (K := K)).mpr (hsilent m hm) _ _ hagree

/-- Half the samples, and the number of samples is even. -/
theorem fills_half :
    Fills Pipeline.exactArithmetic 500 4 8 := by
  refine (fills_iff Pipeline.exactArithmetic (by norm_num)
    (by norm_num)).mpr ⟨?_, Or.inl ?_⟩
  · rw [Reaches, outputCount_eq]
    decide
  · rw [Within, inputCount_eq, outputCount_eq]
    decide

/-- Three samples for every two, and a single sample: of the two outputs only
the first is written. -/
theorem tail_not_written :
    0 < outputCount 1 1500 ∧ ¬Fills Pipeline.exactArithmetic 1500 1 8 := by
  constructor
  · rw [outputCount_eq]
    decide
  · intro h
    have hreach := reaches_of_fills _ (by norm_num) (by norm_num) h
    rw [Reaches, outputCount_eq] at hreach
    revert hreach
    decide

end Fills

end Dsp
end Chem
