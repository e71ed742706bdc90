import ChemEmulator.Antennas.PatternTables
import ChemEmulator.Channel.LinkReciprocity

/-!
# Measured antennas from behind

The files of the measured antennas go once around in the polar angle and
half around in the azimuth, so a table is half a turn wide.  `lookup_gain` takes
the azimuth modulo the width of the table, and `compute_antenna_gain_db` never
asks for a negative polar angle.  So what is seen from one side is also seen
from the other one: turning a measured antenna around changes nothing, and with
one elevation it receives as it sends.

Half a turn, `two_pi` and the steps of a table are only nearly multiples of one
another; `slack` bounds the differences.
-/

namespace Chem
namespace Antennas

open Chem.Geometry UniformGrid

variable {R : Type} [Field R] [LinearOrder R] [IsStrictOrderedRing R]
variable [FloorRing R]

/-- The table is half a turn wide, whichever way the turn is completed. -/
structure HalfTurn (tbl : PatternTable R) (slack : R) : Prop where
  there : |pi - tbl.phiSize * tbl.phiStep| ≤ slack
  back : |twoPi - pi - tbl.phiSize * tbl.phiStep| ≤ slack

/-- The azimuth is not too close to the border between two columns. -/
def Inside (tbl : PatternTable R) (slack phi : R) : Prop :=
  ∃ k : ℤ, |relPhi tbl phi - k * tbl.phiStep| + slack < 0.5 * tbl.phiStep

theorem phiIdx_of_near {tbl : PatternTable R} (h : Complete tbl) {phi : R}
    {k : ℤ} (hk : |relPhi tbl phi - k * tbl.phiStep| < tbl.phiStep / 2) :
    0 ≤ k ∧ phiIdx tbl phi = k.toNat % tbl.phiSize := by
  have hround := isRounding_roundHalfAway.index_eq (k := k) h.phiStep le_rfl
    (by linarith)
  refine ⟨?_, ?_⟩
  · rw [← hround]
    exact roundHalfAway_nonneg
      (div_nonneg (relPhi_spec tbl phi).1 h.phiStep.le)
  · rw [phiIdx, hround]

omit [LinearOrder R] [IsStrictOrderedRing R] [FloorRing R] in
theorem half_eq [CharZero R] (x : R) : 0.5 * x = x / 2 := by
  norm_num [div_eq_inv_mul]

/-- Azimuths that are a width of the table apart have the same column. -/
theorem phiIdx_eq_of_shift {tbl : PatternTable R} (h : Complete tbl)
    {slack phi phi' : R} (hinside : Inside tbl slack phi) {s : ℤ}
    (hs : s = 1 ∨ s = -1)
    (hshift : |relPhi tbl phi' - relPhi tbl phi -
      s * (tbl.phiSize * tbl.phiStep)| ≤ slack) :
    phiIdx tbl phi' = phiIdx tbl phi := by
  obtain ⟨k, hk⟩ := hinside
  rw [half_eq] at hk
  have hslack : 0 ≤ slack := (abs_nonneg _).trans hshift
  have hnear : |relPhi tbl phi' - (k + s * tbl.phiSize : ℤ) * tbl.phiStep| <
      tbl.phiStep / 2 := by
    calc |relPhi tbl phi' - (k + s * tbl.phiSize : ℤ) * tbl.phiStep|
        = |(relPhi tbl phi - k * tbl.phiStep) +
          (relPhi tbl phi' - relPhi tbl phi -
            s * (tbl.phiSize * tbl.phiStep))| := by
          push_cast
          ring_nf
      _ ≤ |relPhi tbl phi - k * tbl.phiStep| + slack :=
          (abs_add_le _ _).trans (by linarith)
      _ < tbl.phiStep / 2 := hk
  have hclose : |relPhi tbl phi - k * tbl.phiStep| < tbl.phiStep / 2 := by
    linarith
  obtain ⟨hpos, hphi⟩ := phiIdx_of_near h hclose
  obtain ⟨hpos', hphi'⟩ := phiIdx_of_near h hnear
  rw [hphi, hphi']
  rcases hs with rfl | rfl
  · rw [one_mul, Int.toNat_add hpos (by omega), Int.toNat_natCast,
      Nat.add_mod_right]
  · have hk' : k.toNat = (k + -1 * tbl.phiSize).toNat + tbl.phiSize := by
      omega
    rw [hk', Nat.add_mod_right]

omit [FloorRing R] in
theorem between_of_turns {turn : R} (hturn : 0 < turn) {j a b : ℤ}
    (ha : a * turn < j * turn) (hb : j * turn < b * turn) : a < j ∧ j < b :=
  ⟨Int.cast_lt.mp (lt_of_mul_lt_mul_right ha hturn.le),
    Int.cast_lt.mp (lt_of_mul_lt_mul_right hb hturn.le)⟩

/-- Half a turn in one direction or the other. -/
theorem phiIdx_halfTurn {tbl : PatternTable R} (h : Complete tbl) {slack : R}
    (hturn : HalfTurn tbl slack) {phi phi' : R}
    (hinside : Inside tbl slack phi)
    (hphi : phi' = phi + pi ∨ phi' = phi - pi) :
    phiIdx tbl phi' = phiIdx tbl phi := by
  obtain ⟨hlo, hhi, k, hk⟩ := relPhi_spec tbl phi
  obtain ⟨hlo', hhi', k', hk'⟩ := relPhi_spec tbl phi'
  have hpi : (0 : R) < pi ∧ pi < (twoPi : R) := by
    unfold pi twoPi
    constructor <;> norm_num
  obtain ⟨hthere, hback⟩ := hturn
  -- the two azimuths are counted from the same column in different turns
  obtain ⟨j, hj⟩ : ∃ j : ℤ, j = k' - k := ⟨_, rfl⟩
  have hcast : (j : R) = k' - k := by
    rw [hj, Int.cast_sub]
  rcases hphi with rfl | rfl
  · have hdiff : relPhi tbl (phi + pi) - relPhi tbl phi = pi - j * twoPi := by
      rw [hk, hk', hcast]
      ring
    obtain ⟨hlow, hhigh⟩ := between_of_turns (twoPi_pos (R := R)) (j := j)
      (a := -1) (b := 2) (by push_cast; linarith) (by push_cast; linarith)
    obtain rfl | rfl : j = 0 ∨ j = 1 := by omega
    · refine phiIdx_eq_of_shift h hinside (Or.inl rfl) ?_
      rw [hdiff, Int.cast_zero, zero_mul, sub_zero, Int.cast_one, one_mul]
      exact hthere
    · refine phiIdx_eq_of_shift h hinside (Or.inr rfl) ?_
      rw [hdiff, abs_sub_comm]
      convert hback using 2
      push_cast
      ring
  · have hdiff : relPhi tbl (phi - pi) - relPhi tbl phi = -pi - j * twoPi := by
      rw [hk, hk', hcast]
      ring
    obtain ⟨hlow, hhigh⟩ := between_of_turns (twoPi_pos (R := R)) (j := j)
      (a := -2) (b := 1) (by push_cast; linarith) (by push_cast; linarith)
    obtain rfl | rfl : j = -1 ∨ j = 0 := by omega
    · refine phiIdx_eq_of_shift h hinside (Or.inl rfl) ?_
      rw [hdiff]
      convert hback using 2
      push_cast
      ring
    · refine phiIdx_eq_of_shift h hinside (Or.inr rfl) ?_
      rw [hdiff, abs_sub_comm]
      convert hthere using 2
      push_cast
      ring

/-! ## The gain of a link -/

/-- A measured antenna that is made for a frequency. -/
def measured (tables : List (PatternTable R)) (freqHz : R) : Antenna R :=
  fun theta phi => (getGain tables freqHz theta phi).getD 0

variable {T : Trigonometry R}

/-- Degrees that are half a turn apart, in radians. -/
theorem degToRad_halfTurn (hfmod : ∀ x, T.fmod x 360 = fmod x 360) (x : R) :
    degToRad (wrapDegrees T (x + 180)) = degToRad (wrapDegrees T x) + pi ∨
      degToRad (wrapDegrees T (x + 180)) =
        degToRad (wrapDegrees T x) - pi := by
  have hperiod : (0 : R) < 360 := by norm_num
  have hspec : ∀ x, 0 ≤ wrapDegrees T x ∧ wrapDegrees T x < 360 ∧
      ∃ k : ℤ, wrapDegrees T x = x - k * 360 := by
    intro x
    unfold wrapDegrees
    rw [hfmod]
    exact wrapped_spec x hperiod
  obtain ⟨hlo, hhi, k, hk⟩ := hspec x
  obtain ⟨hlo', hhi', k', hk'⟩ := hspec (x + 180)
  obtain ⟨j, hj⟩ : ∃ j : ℤ, j = k' - k := ⟨_, rfl⟩
  have hdiff : wrapDegrees T (x + 180) - wrapDegrees T x = 180 - j * 360 := by
    rw [hk, hk', hj]
    push_cast
    ring
  obtain ⟨hlow, hhigh⟩ := between_of_turns hperiod (j := j) (a := -1) (b := 2)
    (by push_cast; linarith) (by push_cast; linarith)
  have hx := eq_add_of_sub_eq hdiff
  obtain rfl | rfl : j = 0 ∨ j = 1 := by omega
  · left
    rw [hx]
    unfold degToRad
    push_cast
    ring
  · right
    rw [hx]
    unfold degToRad
    push_cast
    ring

omit [IsStrictOrderedRing R] in
theorem measured_congr {tables : List (PatternTable R)}
    {freqHz theta phi phi' : R}
    (h : ∀ tbl ∈ tables, phiIdx tbl phi' = phiIdx tbl phi) :
    measured tables freqHz theta phi' = measured tables freqHz theta phi := by
  unfold measured getGain
  cases hnearest : nearestTable tables (freqHz / 1e6) with
  | none => rfl
  | some tbl =>
      have hne : tables ≠ [] := by
        rintro rfl
        cases hnearest
      obtain ⟨tbl', hmem, hnearest', -⟩ :=
        nearestTable_spec hne (freqHz / 1e6)
      cases hnearest.symm.trans hnearest'
      rw [Option.bind_some, Option.bind_some, lookupGain, lookupGain,
        h tbl hmem]

/-! ### One of the tables -/

/-- The grid of `kTables_SA_1400_5900` at 2100 MHz, with other gains. -/
noncomputable def sa1400 : PatternTable ℝ where
  freqMhz := 2100.0
  phiMin := 0
  phiStep := 0.05235987756
  phiSize := 60
  thetaMin := -3.1415926536
  thetaStep := 0.05235987760000027
  thetaSize := 121
  gains := (List.range (121 * 60)).map fun i : ℕ => -(i : ℝ)

theorem complete_sa1400 : Complete sa1400 where
  phiStep := by norm_num [sa1400]
  thetaStep := by norm_num [sa1400]
  phiSize := by norm_num [sa1400]
  thetaSize := by norm_num [sa1400]
  gains := by rw [sa1400, List.length_map, List.length_range]

theorem halfTurn_sa1400 : HalfTurn sa1400 (1 / 10 ^ 8) where
  there := by norm_num [sa1400, pi, abs_le]
  back := by norm_num [sa1400, pi, twoPi, abs_le]

theorem fmod_realTrigonometry (x : ℝ) :
    realTrigonometry.fmod x 360 = fmod x 360 := by
  unfold realTrigonometry fmod
  dsimp only
  split_ifs
  · rw [mul_comm]
  · rw [mul_comm]

theorem inside_sa1400 :
    Inside sa1400 (1 / 10 ^ 8) (phiRad realTrigonometry true 30) := by
  have hdeg : wrapDegrees realTrigonometry (30 + 0) = 30 := by
    unfold wrapDegrees
    rw [fmod_realTrigonometry, add_zero,
      fmod_eq_of_mem (by norm_num) (by norm_num), if_neg (by norm_num)]
  have hrel : relPhi sa1400 (phiRad realTrigonometry true 30) =
      30 * (pi / 180) := by
    rw [phiRad, if_pos rfl, hdeg, relPhi, degToRad,
      fmod_eq_of_mem (by norm_num [sa1400, pi])
        (by norm_num [sa1400, pi, twoPi]),
      if_neg (by norm_num [sa1400, pi])]
    norm_num [sa1400]
  refine ⟨10, ?_⟩
  rw [hrel]
  norm_num [sa1400, pi, abs_lt]

/-! ### Turning around -/

/-- The receiver of a link has the gain that it would have as the transmitter,
and turning around changes nothing. -/
theorem measured_halfTurn {tables : List (PatternTable R)} {slack : R}
    (hfmod : ∀ x, T.fmod x 360 = fmod x 360)
    (htables : ∀ tbl ∈ tables, Complete tbl ∧ HalfTurn tbl slack)
    (freqHz : R) (ch : LinkChannel R)
    (hinside : ∀ tbl ∈ tables,
      Inside tbl slack (phiRad T true ch.linkInfo.azimuth)) :
    let gain := computeAntennaGainDb T (some (measured tables freqHz))
    gain false freqHz ch = gain true freqHz ch ∧
      gain true freqHz { ch with
        linkInfo := { ch.linkInfo with
          azimuth := ch.linkInfo.azimuth + 180 } } = gain true freqHz ch := by
  have hphi : ∀ phi', phi' = degToRad (wrapDegrees T
      (ch.linkInfo.azimuth + 0 + 180)) → ∀ tbl ∈ tables,
        phiIdx tbl phi' = phiIdx tbl (phiRad T true ch.linkInfo.azimuth) := by
    rintro phi' rfl tbl htbl
    exact phiIdx_halfTurn (htables tbl htbl).1 (htables tbl htbl).2
      (hinside tbl htbl) (degToRad_halfTurn hfmod _)
  dsimp only [computeAntennaGainDb]
  split_ifs with hfreq
  · exact ⟨rfl, rfl⟩
  · refine ⟨measured_congr (hphi _ ?_), measured_congr (hphi _ ?_)⟩
    · rw [add_zero]
      rfl
    · dsimp only [antennaAngles, phiRad, if_true]
      rw [if_pos rfl, add_right_comm]

theorem measured_halfTurn_sa1400 :
    let ch : LinkChannel ℝ :=
      { newLink "tower" "rover" with linkInfo := ⟨1000, 35, 2, 30⟩ }
    let gain := computeAntennaGainDb realTrigonometry
      (some (measured [sa1400] 2100000000))
    gain false 2100000000 ch = gain true 2100000000 ch ∧
      gain true 2100000000 { ch with
        linkInfo := { ch.linkInfo with
          azimuth := ch.linkInfo.azimuth + 180 } } = gain true 2100000000 ch :=
  measured_halfTurn fmod_realTrigonometry
    (List.forall_mem_singleton.mpr ⟨complete_sa1400, halfTurn_sa1400⟩) _ _
    (List.forall_mem_singleton.mpr inside_sa1400)

end Antennas
end Chem
