import ChemEmulator.Net.ReassemblySoundness
import ChemEmulator.Pipeline.Samples

/-!
# Where a burst is read and written

`ProcessSignal` converts the received samples of every channel into vectors of
`MAX_NUM_SAMPLES`, and `ProcessDestinationSignal` converts its results into one
buffer of `IQ_SIZE` bytes.  The offsets are products of the sample count, the
byte count and the channel count of the header with the quotient of two sample
rates.  `Recv` compares none of these fields with another or with a buffer, and
the two products that become the width and the distance of the output channels
are rounded separately.

`Fits` says which headers and destinations stay in range.  A burst that fills
its lanes can still have overlapping output channels: that depends on the
fraction of a sample that the product leaves.
-/

namespace Chem
namespace Pipeline
namespace WorkerContext

open ByteMemory UDPServer FloatValue

/-! ## The accesses -/

/-- The bytes of `count` samples of type `sc16`. -/
def sampleBytes (count : ℕ) : ℕ := 4 * count

/-- The bytes of one channel of a burst, as `Recv` lays them out. -/
def laneStride (h : Header) : ℕ := h.size.toNat / h.numberOfChannels.toNat

/-- Every access that the two functions make for a signal and a destination
stays in range. -/
structure InRange (sig : Signal) (dest : DestInfo) : Prop where
  reads : ∀ ch < sig.getNumberOfChannels, ∀ p, sig.getData ch = some p →
    ∀ i < sampleBytes sig.getNumSampPerBuff,
      ch * laneStride sig.header ≤ p + i ∧
        p + i < (ch + 1) * laneStride sig.header ∧ p + i < iqSize
  source : sig.getNumSampPerBuff ≤ maxNumSamples
  divisor : destSrate dest ≠ sig.getSrate → sig.getSrate ≠ .finite 0
  perBuff : destPerBuff (.ofSignal sig) dest ≤ maxNumSamples
  /-- The function returns early for a ratio of zero. -/
  writes : sampleRatio (.ofSignal sig) dest ≠ .finite 0 →
    ∀ ch < dest.numChannels.toNat,
      ∀ i < sampleBytes (destPerBuff (.ofSignal sig) dest),
        outputPtr (.ofSignal sig) dest ch + i < iqSize ∧
          (ch + 1 < dest.numChannels.toNat →
            outputPtr (.ofSignal sig) dest ch + i <
              outputPtr (.ofSignal sig) dest (ch + 1))

/-! ## The condition -/

/-- A sample rate as a `float`. -/
def floatRate (rate : ℕ) : ℚ := roundBinary 24 rate

def rateQuotient (h : Header) (dest : DestInfo) : ℚ :=
  roundBinary 24
    (floatRate dest.sampleRate.toNat / floatRate h.sampleRate.toNat)

/-- `count` at the rate of the destination, in `float` arithmetic and before it
is rounded to an integer. -/
def atDestRate (h : Header) (dest : DestInfo) (count : ℕ) : ℚ :=
  if floatRate dest.sampleRate.toNat = floatRate h.sampleRate.toNat then count
  else roundBinary 24 (roundBinary 24 count * rateQuotient h dest)

/-- The nearest integer, halves up. -/
def nearest (q : ℚ) : ℕ := ⌊q + 1 / 2⌋₊

/-- `n` lanes of `width` bytes fit into a buffer. -/
def LanesFit (n stride width : ℕ) : Prop :=
  width ≤ stride ∧ (n - 1) * stride + width ≤ iqSize

/-- What the checks of `Recv` would have to add. -/
structure Fits (h : Header) (dest : DestInfo) : Prop where
  samples : h.numberOfSamples.toNat ≤ maxNumSamples
  input : h.numberOfSamples.toNat = 0 ∨
    LanesFit h.numberOfChannels.toNat (laneStride h)
      (sampleBytes h.numberOfSamples.toNat)
  rate : h.sampleRate = 0 → dest.sampleRate = 0
  upsampled : atDestRate h dest h.numberOfSamples.toNat < maxNumSamples + 1 / 2
  output : atDestRate h dest h.numberOfSamples.toNat < 1 / 2 ∨
    dest.numChannels.toNat ≤ 1 ∨
    LanesFit dest.numChannels.toNat (nearest (atDestRate h dest (laneStride h)))
      (sampleBytes (nearest (atDestRate h dest h.numberOfSamples.toNat)))

theorem lanesFit_iff_inside {n stride width : ℕ} (hn : 0 < n)
    (hwidth : 0 < width) :
    (∀ ch < n, ∀ i < width, ch * stride + i < (ch + 1) * stride ∧
        ch * stride + i < iqSize) ↔
      LanesFit n stride width := by
  rw [LanesFit, ← lanes_lt_iff hn hwidth]
  constructor
  · intro h
    exact ⟨(lane_lt_next_iff 0).mp fun i hi => (h 0 hn i hi).1,
      fun ch hch i hi => (h ch hch i hi).2⟩
  · rintro ⟨hnext, hlimit⟩ ch hch i hi
    exact ⟨(lane_lt_next_iff ch).mpr hnext i hi, hlimit ch hch i hi⟩

/-- The last lane may reach to the end of the buffer, but it is as wide as the
first. -/
theorem lanesFit_iff_apart {n stride width : ℕ} (hn : 1 < n)
    (hwidth : 0 < width) :
    (∀ ch < n, ∀ i < width, ch * stride + i < iqSize ∧
        (ch + 1 < n → ch * stride + i < (ch + 1) * stride)) ↔
      LanesFit n stride width := by
  rw [LanesFit, ← lanes_lt_iff (by omega) hwidth]
  constructor
  · intro h
    exact ⟨(lane_lt_next_iff 0).mp fun i hi => (h 0 (by omega) i hi).2 hn,
      fun ch hch i hi => (h ch hch i hi).1⟩
  · rintro ⟨hnext, hlimit⟩ ch hch i hi
    exact ⟨hlimit ch hch i hi,
      fun _ => (lane_lt_next_iff ch).mpr hnext i hi⟩

/-! ## Reading the burst -/

section Burst

variable {h : Header} {buf : Option DArray} {dest : DestInfo}

theorem getSizePerBuff_create (hok : AcceptableHeader h)
    (hsize : h.size.toNat < 2 ^ 32) :
    (Signal.create buf h).getSizePerBuff = laneStride h := by
  have hpos : 0 < (Signal.create buf h).getNumberOfChannels := hok.channels_pos
  have hcut : (Signal.create buf h).getSize = h.size.toNat :=
    Nat.mod_eq_of_lt hsize
  rw [Signal.getSizePerBuff_eq hpos, hcut]
  rfl

theorem getData_create (hok : AcceptableHeader h)
    (hsize : h.size.toNat < 2 ^ 32) {ch : ℕ}
    (hch : ch < h.numberOfChannels.toNat) :
    (Signal.create buf h).getData ch = some (ch * laneStride h) := by
  have hinside : ¬(Signal.create buf h).getNumberOfChannels ≤ ch :=
    Nat.not_le.mpr hch
  have hlane : ch * laneStride h ≤ h.size.toNat := by
    calc ch * laneStride h
        ≤ h.numberOfChannels.toNat * laneStride h :=
          Nat.mul_le_mul_right _ hch.le
      _ = h.size.toNat := Nat.mul_div_cancel' hok.channels_dvd
  rw [Signal.getData, if_neg hinside, getSizePerBuff_create hok hsize,
    sizeT_of_lt (by omega)]

theorem reads_iff (hok : AcceptableHeader h) (hsize : h.size.toNat < 2 ^ 32) :
    (∀ ch < h.numberOfChannels.toNat, ∀ p,
        (Signal.create buf h).getData ch = some p →
        ∀ i < sampleBytes h.numberOfSamples.toNat,
          ch * laneStride h ≤ p + i ∧ p + i < (ch + 1) * laneStride h ∧
            p + i < iqSize) ↔
      h.numberOfSamples.toNat = 0 ∨
        LanesFit h.numberOfChannels.toNat (laneStride h)
          (sampleBytes h.numberOfSamples.toNat) := by
  obtain hzero | hpos := Nat.eq_zero_or_pos h.numberOfSamples.toNat
  · simp [hzero, sampleBytes]
  · have hwidth : 0 < sampleBytes h.numberOfSamples.toNat :=
      Nat.mul_pos (by decide) hpos
    rw [or_iff_right hpos.ne', ← lanesFit_iff_inside hok.channels_pos hwidth]
    constructor
    · intro hreads ch hch i hi
      exact (hreads ch hch _ (getData_create hok hsize hch) i hi).2
    · intro hlanes ch hch p hp i hi
      obtain rfl : p = ch * laneStride h := by
        rw [getData_create hok hsize hch] at hp
        exact (Option.some.inj hp).symm
      exact ⟨Nat.le_add_right _ _, hlanes ch hch i hi⟩

/-! ## Rates -/

theorem destSrate_eq (dest : DestInfo) :
    destSrate dest = .finite (floatRate dest.sampleRate.toNat) := by
  rw [destSrate, FloatValue.ofInt, Int.cast_natCast]
  rfl

theorem getSrate_create :
    (Signal.create buf h).getSrate =
      .finite (floatRate h.sampleRate.toNat) := by
  rw [Signal.getSrate, FloatValue.ofInt, Int.cast_natCast]
  rfl

theorem sigSrate_create :
    (SignalContext.ofSignal (Signal.create buf h)).sigSrate =
      .finite (floatRate h.sampleRate.toNat) := getSrate_create

theorem floatRate_le (rate : ℕ) : floatRate rate ≤ 2 * rate :=
  roundBinary_le_two_mul (by decide) (Nat.cast_nonneg rate)

theorem half_le_floatRate {rate : ℕ} (hrate : 0 < rate) :
    1 / 2 ≤ floatRate rate := by
  have hone : (1 : ℚ) ≤ rate := by exact_mod_cast hrate
  have hhalf := half_le_roundBinary (p := 24) (by decide)
    (Nat.cast_nonneg (α := ℚ) rate)
  rw [floatRate]
  linarith

theorem floatRate_nonneg (rate : ℕ) : 0 ≤ floatRate rate :=
  roundBinary_nonneg 24 (Nat.cast_nonneg rate)

theorem floatRate_eq_zero_iff (rate : ℕ) : floatRate rate = 0 ↔ rate = 0 := by
  constructor
  · intro hzero
    by_contra hne
    have hhalf := half_le_floatRate (Nat.pos_of_ne_zero hne)
    rw [hzero] at hhalf
    norm_num at hhalf
  · rintro rfl
    exact_mod_cast roundBinary_zero 24

theorem divisor_iff :
    (destSrate dest ≠ (Signal.create buf h).getSrate →
        (Signal.create buf h).getSrate ≠ .finite 0) ↔
      (h.sampleRate = 0 → dest.sampleRate = 0) := by
  have hsrc : h.sampleRate = 0 ↔ floatRate h.sampleRate.toNat = 0 := by
    rw [floatRate_eq_zero_iff, ← UInt64.toNat_inj]
    rfl
  have hdest : dest.sampleRate = 0 ↔ floatRate dest.sampleRate.toNat = 0 := by
    rw [floatRate_eq_zero_iff, ← UInt32.toNat_inj]
    rfl
  rw [destSrate_eq, getSrate_create, hsrc, hdest]
  simp only [ne_eq, FloatValue.finite.injEq]
  constructor
  · intro hdiv hzero
    by_contra hne
    exact hdiv (by rwa [hzero]) hzero
  · intro hrate hne hzero
    exact hne ((hrate hzero).trans hzero.symm)

/-! ## Counts at the rate of the destination -/

theorem scaled_finite {count : ℕ} {r : ℚ} (hr : 0 ≤ r)
    (hlt : roundBinary 24 (roundBinary 24 count * r) < 2 ^ 63) :
    scaled count (.finite r) =
      nearest (roundBinary 24 (roundBinary 24 count * r)) := by
  have hcount : 0 ≤ roundBinary 24 (count : ℚ) :=
    roundBinary_nonneg 24 (Nat.cast_nonneg count)
  rw [scaled, FloatValue.ofInt, Int.cast_natCast, FloatValue.mul,
    toUnsigned_round (roundBinary_nonneg 24 (mul_nonneg hcount hr)) hlt]
  rfl

theorem rateQuotient_nonneg (h : Header) (dest : DestInfo) :
    0 ≤ rateQuotient h dest :=
  roundBinary_nonneg 24
    (div_nonneg (floatRate_nonneg _) (floatRate_nonneg _))

theorem rateQuotient_lt (hs : floatRate h.sampleRate.toNat ≠ 0) :
    rateQuotient h dest < 2 ^ 36 := by
  have hsrc : 1 / 2 ≤ floatRate h.sampleRate.toNat :=
    half_le_floatRate (Nat.pos_of_ne_zero fun hzero =>
      hs ((floatRate_eq_zero_iff _).mpr hzero))
  have hdest : floatRate dest.sampleRate.toNat ≤ 2 ^ 33 := by
    have hbits : (dest.sampleRate.toNat : ℚ) < 2 ^ 32 := by
      exact_mod_cast dest.sampleRate.toNat_lt
    have hle := floatRate_le dest.sampleRate.toNat
    linarith
  have hquot : floatRate dest.sampleRate.toNat /
      floatRate h.sampleRate.toNat ≤ 2 ^ 34 := by
    rw [div_le_iff₀ (by linarith)]
    linarith
  calc rateQuotient h dest
      ≤ 2 * (floatRate dest.sampleRate.toNat /
          floatRate h.sampleRate.toNat) :=
        roundBinary_le_two_mul (by decide)
          (div_nonneg (floatRate_nonneg _) (floatRate_nonneg _))
    _ < 2 ^ 36 := by linarith

/-- Two roundings in a row. -/
theorem scaledProduct_le (count : ℕ) {r : ℚ} (hr : 0 ≤ r) :
    roundBinary 24 (roundBinary 24 count * r) ≤ 4 * (count * r) := by
  have hcount : 0 ≤ roundBinary 24 (count : ℚ) :=
    roundBinary_nonneg 24 (Nat.cast_nonneg count)
  have hle : roundBinary 24 (count : ℚ) ≤ 2 * count :=
    roundBinary_le_two_mul (by decide) (Nat.cast_nonneg count)
  calc roundBinary 24 (roundBinary 24 count * r)
      ≤ 2 * (roundBinary 24 count * r) :=
        roundBinary_le_two_mul (by decide) (mul_nonneg hcount hr)
    _ ≤ 2 * (2 * count * r) := by gcongr
    _ = 4 * (count * r) := by ring

theorem le_scaledProduct (count : ℕ) {r : ℚ} (hr : 0 ≤ r) :
    count * r / 4 ≤ roundBinary 24 (roundBinary 24 count * r) := by
  have hcount : 0 ≤ roundBinary 24 (count : ℚ) :=
    roundBinary_nonneg 24 (Nat.cast_nonneg count)
  have hge : (count : ℚ) / 2 ≤ roundBinary 24 count :=
    half_le_roundBinary (by decide) (Nat.cast_nonneg count)
  calc count * r / 4 = count / 2 * r / 2 := by ring
    _ ≤ roundBinary 24 count * r / 2 := by gcongr
    _ ≤ roundBinary 24 (roundBinary 24 count * r) :=
        half_le_roundBinary (by decide) (mul_nonneg hcount hr)

theorem atDestRate_samples_lt (hn : h.numberOfSamples.toNat ≤ maxNumSamples)
    (hrate : h.sampleRate = 0 → dest.sampleRate = 0) :
    atDestRate h dest h.numberOfSamples.toNat < 2 ^ 63 := by
  have hcount : (h.numberOfSamples.toNat : ℚ) ≤ 100000 := by
    exact_mod_cast hn
  rw [atDestRate]
  split
  · linarith
  next hne =>
    have hs : floatRate h.sampleRate.toNat ≠ 0 := by
      intro hzero
      have hsrc := (floatRate_eq_zero_iff _).mp hzero
      have hdest := hrate (UInt64.toNat_inj.mp hsrc)
      apply hne
      rw [hdest, hsrc]
      rfl
    have hlt := @rateQuotient_lt h dest hs
    have hnonneg := rateQuotient_nonneg h dest
    calc roundBinary 24 (roundBinary 24 h.numberOfSamples.toNat *
            rateQuotient h dest)
        ≤ 4 * (h.numberOfSamples.toNat * rateQuotient h dest) :=
          scaledProduct_le _ hnonneg
      _ ≤ 4 * (100000 * 2 ^ 36) := by gcongr
      _ < 2 ^ 63 := by norm_num

/-- If some sample remains of at most `MAX_NUM_SAMPLES`, the distance of the
channels is computed without overflow as well. -/
theorem atDestRate_stride_lt (hsize : h.size.toNat < 2 ^ 32)
    (hsome : 1 / 2 ≤ atDestRate h dest h.numberOfSamples.toNat)
    (hup : atDestRate h dest h.numberOfSamples.toNat < maxNumSamples + 1 / 2) :
    atDestRate h dest (laneStride h) < 2 ^ 54 := by
  have hstride : (laneStride h : ℚ) < 2 ^ 32 := by
    exact_mod_cast (Nat.div_le_self _ _).trans_lt hsize
  have hnonneg := rateQuotient_nonneg h dest
  have hmax : (maxNumSamples : ℚ) = 100000 := by
    norm_num [maxNumSamples]
  rw [hmax] at hup
  rw [atDestRate] at hsome hup ⊢
  split
  · linarith
  next hne =>
    rw [if_neg hne] at hsome hup
    have hpos : 0 < h.numberOfSamples.toNat := by
      by_contra hzero
      rw [Nat.eq_zero_of_not_pos hzero, Nat.cast_zero, roundBinary_zero,
        zero_mul, roundBinary_zero] at hsome
      norm_num at hsome
    have hone : (1 : ℚ) ≤ h.numberOfSamples.toNat := by exact_mod_cast hpos
    have hratio : rateQuotient h dest / 4 < 100000 + 1 / 2 := by
      calc rateQuotient h dest / 4 = 1 * rateQuotient h dest / 4 := by ring
        _ ≤ h.numberOfSamples.toNat * rateQuotient h dest / 4 := by gcongr
        _ ≤ _ := le_scaledProduct _ hnonneg
        _ < 100000 + 1 / 2 := hup
    calc roundBinary 24 (roundBinary 24 (laneStride h) * rateQuotient h dest)
        ≤ 4 * (laneStride h * rateQuotient h dest) :=
          scaledProduct_le _ hnonneg
      _ ≤ 4 * (2 ^ 32 * 400002) := by
          gcongr
          linarith
      _ < 2 ^ 54 := by norm_num

theorem nearest_natCast (n : ℕ) : nearest n = n := by
  rw [nearest, Nat.floor_eq_iff (by positivity)]
  constructor
  · norm_num
  · norm_num

theorem nearest_eq_zero_iff (q : ℚ) : nearest q = 0 ↔ q < 1 / 2 := by
  rw [nearest, Nat.floor_eq_zero]
  constructor
  · intro hlt
    linarith
  · intro hlt
    linarith

theorem nearest_le_iff {q : ℚ} (hq : 0 ≤ q) (m : ℕ) :
    nearest q ≤ m ↔ q < m + 1 / 2 := by
  rw [nearest, ← Nat.lt_succ_iff, Nat.floor_lt (by positivity)]
  push_cast
  constructor
  · intro hlt
    linarith
  · intro hlt
    linarith

theorem atDestRate_nonneg (h : Header) (dest : DestInfo) (count : ℕ) :
    0 ≤ atDestRate h dest count := by
  rw [atDestRate]
  split
  · positivity
  · exact roundBinary_nonneg 24
      (mul_nonneg (roundBinary_nonneg 24 (Nat.cast_nonneg count))
        (rateQuotient_nonneg h dest))

theorem sampleRatio_eq (hrate : h.sampleRate = 0 → dest.sampleRate = 0)
    (hne : floatRate dest.sampleRate.toNat ≠ floatRate h.sampleRate.toNat) :
    sampleRatio (.ofSignal (Signal.create buf h)) dest =
      .finite (rateQuotient h dest) := by
  have hdiff : destSrate dest ≠
      (SignalContext.ofSignal (Signal.create buf h)).sigSrate := by
    rw [destSrate_eq, sigSrate_create]
    simpa using hne
  have hs : floatRate h.sampleRate.toNat ≠ 0 := by
    have hdiv := (@divisor_iff h buf dest).mpr hrate hdiff
    rw [getSrate_create] at hdiv
    simpa using hdiv
  rw [sampleRatio, if_pos hdiff, destSrate_eq, sigSrate_create, FloatValue.div,
    if_neg hs]
  rfl

/-- The two counts that the code scales, or leaves alone for equal rates. -/
theorem scaled_eq_nearest {count : ℕ}
    (hrate : h.sampleRate = 0 → dest.sampleRate = 0)
    (hlt : atDestRate h dest count < 2 ^ 63) :
    (if destSrate dest ≠
          (SignalContext.ofSignal (Signal.create buf h)).sigSrate then
        scaled count (sampleRatio (.ofSignal (Signal.create buf h)) dest)
      else count) = nearest (atDestRate h dest count) := by
  rw [atDestRate] at hlt ⊢
  by_cases hsame : floatRate dest.sampleRate.toNat =
      floatRate h.sampleRate.toNat
  · rw [if_pos hsame, nearest_natCast, destSrate_eq, sigSrate_create, hsame,
      if_neg (not_not_intro rfl)]
  · rw [if_neg hsame] at hlt
    rw [if_neg hsame, sampleRatio_eq hrate hsame,
      scaled_finite (rateQuotient_nonneg h dest) hlt, destSrate_eq,
      sigSrate_create, if_pos (by simpa using hsame)]

theorem destPerBuff_eq (hn : h.numberOfSamples.toNat ≤ maxNumSamples)
    (hrate : h.sampleRate = 0 → dest.sampleRate = 0) :
    destPerBuff (.ofSignal (Signal.create buf h)) dest =
      nearest (atDestRate h dest h.numberOfSamples.toNat) :=
  scaled_eq_nearest hrate (atDestRate_samples_lt hn hrate)

theorem destSzCh_eq (hok : AcceptableHeader h) (hsize : h.size.toNat < 2 ^ 32)
    (hrate : h.sampleRate = 0 → dest.sampleRate = 0)
    (hlt : atDestRate h dest (laneStride h) < 2 ^ 54) :
    destSzCh (.ofSignal (Signal.create buf h)) dest =
      nearest (atDestRate h dest (laneStride h)) := by
  have hlane : (SignalContext.ofSignal (Signal.create buf h)).iSzCh =
      laneStride h := getSizePerBuff_create hok hsize
  rw [destSzCh, hlane]
  exact scaled_eq_nearest hrate (hlt.trans (by norm_num))

/-! ## Writing the result -/

theorem sampleRatio_ne_zero (hrate : h.sampleRate = 0 → dest.sampleRate = 0)
    (hsome : 1 / 2 ≤ atDestRate h dest h.numberOfSamples.toNat) :
    sampleRatio (.ofSignal (Signal.create buf h)) dest ≠ .finite 0 := by
  by_cases hsame : floatRate dest.sampleRate.toNat =
      floatRate h.sampleRate.toNat
  · rw [sampleRatio, destSrate_eq, sigSrate_create, hsame,
      if_neg (not_not_intro rfl)]
    decide
  · rw [sampleRatio_eq hrate hsame]
    intro hzero
    rw [atDestRate, if_neg hsame, FloatValue.finite.inj hzero, mul_zero,
      roundBinary_zero] at hsome
    norm_num at hsome

theorem outputPtr_eq (hok : AcceptableHeader h) (hsize : h.size.toNat < 2 ^ 32)
    (hrate : h.sampleRate = 0 → dest.sampleRate = 0)
    (hlt : atDestRate h dest (laneStride h) < 2 ^ 54) {ch : ℕ}
    (hch : ch < 2 ^ 8) :
    outputPtr (.ofSignal (Signal.create buf h)) dest ch =
      ch * nearest (atDestRate h dest (laneStride h)) := by
  have hstride : nearest (atDestRate h dest (laneStride h)) ≤ 2 ^ 54 := by
    rw [nearest_le_iff (atDestRate_nonneg h dest _)]
    push_cast
    linarith
  have hprod : ch * nearest (atDestRate h dest (laneStride h)) ≤
      2 ^ 8 * 2 ^ 54 := Nat.mul_le_mul hch.le hstride
  rw [outputPtr, destSzCh_eq hok hsize hrate hlt, sizeT_of_lt (by omega)]

/-- A single channel has the buffer for itself. -/
theorem single_write_inRange (hn : h.numberOfSamples.toNat ≤ maxNumSamples)
    (hrate : h.sampleRate = 0 → dest.sampleRate = 0)
    (hup : atDestRate h dest h.numberOfSamples.toNat < maxNumSamples + 1 / 2)
    {i : ℕ} (hi : i < sampleBytes
      (destPerBuff (.ofSignal (Signal.create buf h)) dest)) :
    outputPtr (.ofSignal (Signal.create buf h)) dest 0 + i < iqSize := by
  have hcount : destPerBuff (.ofSignal (Signal.create buf h)) dest ≤
      maxNumSamples := by
    rw [destPerBuff_eq hn hrate]
    exact (nearest_le_iff (atDestRate_nonneg h dest _) _).mpr hup
  have hroom : sampleBytes maxNumSamples ≤ iqSize := by decide
  rw [sampleBytes] at hi hroom
  rw [outputPtr, Nat.zero_mul, sizeT_of_lt (by norm_num)]
  omega

theorem writes_iff (hok : AcceptableHeader h) (hsize : h.size.toNat < 2 ^ 32)
    (hn : h.numberOfSamples.toNat ≤ maxNumSamples)
    (hrate : h.sampleRate = 0 → dest.sampleRate = 0)
    (hup : atDestRate h dest h.numberOfSamples.toNat < maxNumSamples + 1 / 2) :
    (sampleRatio (.ofSignal (Signal.create buf h)) dest ≠ .finite 0 →
        ∀ ch < dest.numChannels.toNat,
          ∀ i < sampleBytes
              (destPerBuff (.ofSignal (Signal.create buf h)) dest),
            outputPtr (.ofSignal (Signal.create buf h)) dest ch + i < iqSize ∧
              (ch + 1 < dest.numChannels.toNat →
                outputPtr (.ofSignal (Signal.create buf h)) dest ch + i <
                  outputPtr (.ofSignal (Signal.create buf h)) dest (ch + 1))) ↔
      atDestRate h dest h.numberOfSamples.toNat < 1 / 2 ∨
        dest.numChannels.toNat ≤ 1 ∨
        LanesFit dest.numChannels.toNat
          (nearest (atDestRate h dest (laneStride h)))
          (sampleBytes
            (nearest (atDestRate h dest h.numberOfSamples.toNat))) := by
  have hcount := @destPerBuff_eq h buf dest hn hrate
  by_cases hnone : atDestRate h dest h.numberOfSamples.toNat < 1 / 2
  · -- Nothing is written.
    refine iff_of_true (fun _ ch _ i hi => ?_) (Or.inl hnone)
    rw [hcount, (nearest_eq_zero_iff _).mpr hnone] at hi
    exact absurd hi (Nat.not_lt_zero i)
  · rw [or_iff_right hnone]
    by_cases hone : dest.numChannels.toNat ≤ 1
    · refine iff_of_true (fun _ ch hch i hi => ?_) (Or.inl hone)
      obtain rfl : ch = 0 := by omega
      exact ⟨single_write_inRange hn hrate hup hi, fun hnext => by omega⟩
    · have hsome := not_lt.mp hnone
      have hlt := atDestRate_stride_lt hsize hsome hup
      have hbits : dest.numChannels.toNat < 2 ^ 8 := dest.numChannels.toNat_lt
      have hptr : ∀ ch < 2 ^ 8,
          outputPtr (.ofSignal (Signal.create buf h)) dest ch =
            ch * nearest (atDestRate h dest (laneStride h)) :=
        fun ch hch => outputPtr_eq hok hsize hrate hlt hch
      have hwidth : 0 < sampleBytes
          (nearest (atDestRate h dest h.numberOfSamples.toNat)) :=
        Nat.mul_pos (by decide) (Nat.pos_of_ne_zero fun hzero =>
          hnone ((nearest_eq_zero_iff _).mp hzero))
      rw [or_iff_right hone, imp_iff_right (sampleRatio_ne_zero hrate hsome),
        hcount, ← lanesFit_iff_apart (by omega) hwidth]
      constructor
      · intro hwrites ch hch i hi
        have hrange := hwrites ch hch i hi
        rwa [hptr ch (by omega), hptr (ch + 1) (by omega)] at hrange
      · intro hlanes ch hch i hi
        rw [hptr ch (by omega), hptr (ch + 1) (by omega)]
        exact hlanes ch hch i hi

end Burst

/-! ## The condition is exact -/

theorem inRange_iff {h : Header} (hok : AcceptableHeader h)
    (hsize : h.size.toNat < 2 ^ 32) (buf : Option DArray) (dest : DestInfo) :
    InRange (Signal.create buf h) dest ↔ Fits h dest := by
  have hreads := @reads_iff h buf hok hsize
  have hdivisor := @divisor_iff h buf dest
  have hper : h.numberOfSamples.toNat ≤ maxNumSamples →
      (h.sampleRate = 0 → dest.sampleRate = 0) →
      (destPerBuff (.ofSignal (Signal.create buf h)) dest ≤ maxNumSamples ↔
        atDestRate h dest h.numberOfSamples.toNat < maxNumSamples + 1 / 2) := by
    intro hn hrate
    rw [destPerBuff_eq hn hrate]
    exact nearest_le_iff (atDestRate_nonneg h dest _) _
  constructor
  · intro hin
    have hn : h.numberOfSamples.toNat ≤ maxNumSamples := hin.source
    have hrate := hdivisor.mp hin.divisor
    have hup := (hper hn hrate).mp hin.perBuff
    exact ⟨hn, hreads.mp hin.reads, hrate, hup,
      (writes_iff hok hsize hn hrate hup).mp hin.writes⟩
  · intro hfit
    exact ⟨hreads.mpr hfit.input, hfit.samples, hdivisor.mpr hfit.rate,
      (hper hfit.samples hfit.rate).mpr hfit.upsampled,
      (writes_iff hok hsize hfit.samples hfit.rate hfit.upsampled).mpr
        hfit.output⟩

/-- Whatever arrives on the socket: the accesses for the burst that `Recv`
delivers stay in range exactly if the header fits the destination. -/
theorem processing_inRange_iff {udpPool iqPool : DataArrayPool}
    {hdr h : Header} {os : List SocketOutcome} {buf : DArray}
    (hrecv : (recv udpPool iqPool hdr os).outcome = .returned h (some buf))
    (dest : DestInfo) :
    InRange (Signal.create (some buf) h) dest ↔ Fits h dest := by
  obtain ⟨hok, hsize⟩ := recv_delivered_header hrecv
  exact inRange_iff hok hsize (some buf) dest

/-- One sample on one channel, at 1 MHz. -/
def oneSampleHeader : Header :=
  ⟨4, 1900000000000000000, 1900000000000001000, 0, 1000000, 1, 1, 1⟩

def oneSampleDatagram : Datagram :=
  .ofWire (UDPHeader.encode ⟨0, 4, 0, 5, 0⟩ ++
    (Header.encode 0 oneSampleHeader ++ [1, 2, 3, 4]))

theorem recv_oneSample :
    (recv (.filled udpCap mtuSize "SERVER" true 0)
      (.filled 1 iqSize "IQ" true 0) Header.zero
      [.packets [oneSampleDatagram]]).outcome =
        .returned oneSampleHeader (some ⟨0, applyWrites (fun _ => 0)
          [⟨0, 4, 0, [1, 2, 3, 4]⟩]⟩) := rfl

/-- At twice the rate each of two channels gets two samples. -/
theorem one_sample_doubled_inRange :
    InRange (Signal.create (some ⟨0, applyWrites (fun _ => 0)
        [⟨0, 4, 0, [1, 2, 3, 4]⟩]⟩) oneSampleHeader) ⟨0, 2000000, 2⟩ := by
  refine (processing_inRange_iff recv_oneSample ⟨0, 2000000, 2⟩).mpr ?_
  refine ⟨by decide, Or.inr ?_, by decide, by decide +kernel,
    Or.inr (Or.inr ?_)⟩
  · exact ⟨by decide, by decide⟩
  · exact ⟨by decide +kernel, by decide +kernel⟩

/-- At half the rate half a sample is rounded up to one, of four bytes, and the
four bytes of the channel are scaled down to two. -/
theorem one_sample_halved_overlaps :
    ∃ (h : Header) (buf : DArray),
      (recv (.filled udpCap mtuSize "SERVER" true 0)
        (.filled 1 iqSize "IQ" true 0) Header.zero
        [.packets [oneSampleDatagram]]).outcome = .returned h (some buf) ∧
      destPerBuff (.ofSignal (Signal.create (some buf) h)) ⟨0, 500000, 2⟩ = 1 ∧
      destSzCh (.ofSignal (Signal.create (some buf) h)) ⟨0, 500000, 2⟩ = 2 ∧
      ¬InRange (Signal.create (some buf) h) ⟨0, 500000, 2⟩ := by
  refine ⟨_, _, recv_oneSample, by decide +kernel, by decide +kernel, ?_⟩
  intro hin
  have hnext := (hin.writes (by decide +kernel) 0 (by decide) 3
    (by decide +kernel)).2 (by decide)
  revert hnext
  decide +kernel

/-! ## Bursts that fill their lanes -/

theorem atDestRate_four_mul (h : Header) (dest : DestInfo) (count : ℕ) :
    atDestRate h dest (4 * count) = 4 * atDestRate h dest count := by
  have hcount : 0 ≤ roundBinary 24 (count : ℚ) :=
    roundBinary_nonneg 24 (Nat.cast_nonneg count)
  have hfour : (4 : ℚ) = 2 ^ 2 := by norm_num
  rw [atDestRate, atDestRate]
  split
  · push_cast
    rfl
  · rw [Nat.cast_mul, Nat.cast_ofNat, hfour,
      roundBinary_two_pow_mul 24 2 (Nat.cast_nonneg count), mul_assoc,
      roundBinary_two_pow_mul 24 2
        (mul_nonneg hcount (rateQuotient_nonneg h dest))]

/-- Rounding before or after the multiplication. -/
theorem four_mul_nearest_le_iff {q : ℚ} (hq : 0 ≤ q) :
    4 * nearest q ≤ nearest (4 * q) ↔
      Int.fract q < 1 / 2 ∨ 7 / 8 ≤ Int.fract q := by
  have hsplit : q = (⌊q⌋₊ : ℚ) + Int.fract q := by
    have hfloor : ((⌊q⌋₊ : ℕ) : ℚ) = (⌊q⌋ : ℤ) := by
      rw [← Int.natCast_floor_eq_floor hq, Int.cast_natCast]
    rw [hfloor]
    exact (Int.floor_add_fract q).symm
  have hlow := Int.fract_nonneg q
  have hhigh := Int.fract_lt_one q
  have hle : 4 * nearest q ≤ nearest (4 * q) ↔
      ((4 * nearest q : ℕ) : ℚ) ≤ 4 * q + 1 / 2 :=
    Nat.le_floor_iff (by positivity)
  rw [hle]
  push_cast
  by_cases hhalf : Int.fract q < 1 / 2
  · have hdown : nearest q = ⌊q⌋₊ := by
      rw [nearest, Nat.floor_eq_iff (by positivity)]
      constructor
      · linarith
      · linarith
    rw [hdown]
    exact iff_of_true (by linarith) (Or.inl hhalf)
  · have hnearest : nearest q = ⌊q⌋₊ + 1 := by
      rw [nearest, Nat.floor_eq_iff (by positivity)]
      push_cast
      constructor
      · linarith
      · linarith
    rw [hnearest, or_iff_right hhalf]
    push_cast
    constructor
    · intro hroom
      linarith
    · intro hfract
      linarith

/-- The output channels of a burst without padding overlap when the product
ends in a half or more and in less than seven eighths of a sample. -/
theorem full_lane_width_le_iff {h : Header} (dest : DestInfo)
    (hfull : laneStride h = sampleBytes h.numberOfSamples.toNat) :
    sampleBytes (nearest (atDestRate h dest h.numberOfSamples.toNat)) ≤
        nearest (atDestRate h dest (laneStride h)) ↔
      Int.fract (atDestRate h dest h.numberOfSamples.toNat) < 1 / 2 ∨
        7 / 8 ≤ Int.fract (atDestRate h dest h.numberOfSamples.toNat) := by
  rw [hfull, sampleBytes, sampleBytes, atDestRate_four_mul]
  exact four_mul_nearest_le_iff (atDestRate_nonneg h dest _)

end WorkerContext
end Pipeline
end Chem
