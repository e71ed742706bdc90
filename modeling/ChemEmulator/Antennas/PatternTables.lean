import ChemEmulator.Channel.Geometry
import ChemEmulator.Support.UniformGrid

/-!
# Tables of measured antennas

The generated sources under `src/chem/antennas/generated`: for every measured
frequency a table of gains over polar angle and azimuth, the choice of the
table and the lookup in it.  All of them have the same functions, which
`utils/generate_antenna_headers.py` writes.

Exact arithmetic, as for the geometry of the links; a read outside of an array
has no value.
-/

namespace Chem
namespace Antennas

open Chem.Geometry UniformGrid

variable {R : Type} [Field R] [LinearOrder R] [FloorRing R]

/-- `PatternTable`, with the array that `gains` points to. -/
structure PatternTable (R : Type) where
  freqMhz : R
  phiMin : R
  phiStep : R
  phiSize : ℕ
  thetaMin : R
  thetaStep : R
  thetaSize : ℕ
  /-- One row for each polar angle. -/
  gains : List R

/-- `two_pi`. -/
def twoPi : R := 2.0 * 3.141592654

/-- `std::fmod`; the result has the sign of the first number. -/
def fmod (x y : R) : R :=
  if 0 ≤ x / y then x - ⌊x / y⌋ * y else x - ⌈x / y⌉ * y

/-- `rel_phi`. -/
def relPhi (tbl : PatternTable R) (phi : R) : R :=
  let r := fmod (phi - tbl.phiMin) twoPi
  if r < 0 then r + twoPi else r

/-- `phi_idx`. -/
def phiIdx (tbl : PatternTable R) (phi : R) : ℕ :=
  (roundHalfAway (relPhi tbl phi / tbl.phiStep)).toNat % tbl.phiSize

/-- `theta_max`. -/
def thetaMax (tbl : PatternTable R) : R :=
  tbl.thetaMin + tbl.thetaStep * ((tbl.thetaSize - 1 : ℕ) : R)

/-- `theta_idx`. -/
def thetaIdx (tbl : PatternTable R) (theta : R) : ℕ :=
  let clampedTheta := clamp theta tbl.thetaMin (thetaMax tbl)
  (roundHalfAway ((clampedTheta - tbl.thetaMin) / tbl.thetaStep)).toNat

/-- `lookup_gain`. -/
def lookupGain (tbl : PatternTable R) (theta phi : R) : Option R :=
  tbl.gains[thetaIdx tbl theta * tbl.phiSize + phiIdx tbl phi]?

/-- The loop of `nearest_table`: only a smaller distance counts. -/
def nearer (freqMhz : R) (best tbl : PatternTable R) : PatternTable R :=
  if |freqMhz - tbl.freqMhz| < |freqMhz - best.freqMhz| then tbl else best

/-- `nearest_table`. -/
def nearestTable (tables : List (PatternTable R)) (freqMhz : R) :
    Option (PatternTable R) :=
  match tables with
  | [] => none
  | first :: rest => some (rest.foldl (nearer freqMhz) first)

/-- `get_gain` of the antenna that is made for a frequency. -/
def getGain (tables : List (PatternTable R)) (freqHz theta phi : R) :
    Option R :=
  (nearestTable tables (freqHz / 1e6)).bind fun tbl =>
    lookupGain tbl theta phi

/-! ## Inside of the table -/

/-- A table with a gain for every pair of indices. -/
structure Complete (tbl : PatternTable R) : Prop where
  phiStep : 0 < tbl.phiStep
  thetaStep : 0 < tbl.thetaStep
  phiSize : 0 < tbl.phiSize
  thetaSize : 0 < tbl.thetaSize
  gains : tbl.gains.length = tbl.thetaSize * tbl.phiSize

variable [IsStrictOrderedRing R]

omit [LinearOrder R] [FloorRing R] [IsStrictOrderedRing R] in
theorem megahertz_eq [CharZero R] (freqHz : R) :
    freqHz / 1e6 = freqHz / 10 ^ 6 := by
  norm_num

omit [FloorRing R] in
theorem twoPi_pos : 0 < (twoPi : R) := by
  unfold twoPi
  norm_num

theorem fmod_eq_of_mem {x y : R} (hx : 0 ≤ x) (hxy : x < y) : fmod x y = x := by
  have hy : 0 < y := hx.trans_lt hxy
  have hquot : 0 ≤ x / y := div_nonneg hx hy.le
  have hfloor : ⌊x / y⌋ = 0 :=
    Int.floor_eq_zero_iff.mpr ⟨hquot, (div_lt_one hy).mpr hxy⟩
  rw [fmod, if_pos hquot, hfloor, Int.cast_zero, zero_mul, sub_zero]

omit [IsStrictOrderedRing R] in
/-- What is left differs from the number by multiples of the divisor. -/
theorem exists_fmod_eq (x y : R) : ∃ k : ℤ, fmod x y = x - k * y := by
  unfold fmod
  split_ifs
  · exact ⟨_, rfl⟩
  · exact ⟨_, rfl⟩

theorem abs_fmod_lt (x : R) {y : R} (hy : 0 < y) : |fmod x y| < y := by
  have hx : x = x / y * y := (div_mul_cancel₀ x hy.ne').symm
  unfold fmod
  split_ifs with h
  · have hfloor := Int.floor_le (x / y)
    have hlt := Int.lt_floor_add_one (x / y)
    rw [abs_lt]
    constructor <;> nlinarith
  · have hceil := Int.le_ceil (x / y)
    have hlt := Int.ceil_lt_add_one (x / y)
    rw [abs_lt]
    constructor <;> nlinarith

/-- What is left in one period, as `rel_phi` and `wrap_degrees` take it. -/
theorem wrapped_spec (x : R) {period : R} (hperiod : 0 < period) :
    let r := fmod x period
    let wrapped := if r < 0 then r + period else r
    0 ≤ wrapped ∧ wrapped < period ∧ ∃ k : ℤ, wrapped = x - k * period := by
  obtain ⟨k, hk⟩ := exists_fmod_eq x period
  have habs := abs_lt.mp (abs_fmod_lt x hperiod)
  dsimp only
  split_ifs with hneg
  · refine ⟨by linarith [habs.1], by linarith, k - 1, ?_⟩
    rw [hk]
    push_cast
    ring
  · exact ⟨not_lt.mp hneg, habs.2, k, hk⟩

/-- `rel_phi` is the azimuth from the first column on, once around. -/
theorem relPhi_spec (tbl : PatternTable R) (phi : R) :
    0 ≤ relPhi tbl phi ∧ relPhi tbl phi < twoPi ∧
      ∃ k : ℤ, relPhi tbl phi = phi - tbl.phiMin - k * twoPi :=
  wrapped_spec (phi - tbl.phiMin) twoPi_pos

omit [IsStrictOrderedRing R] in
theorem phiIdx_lt {tbl : PatternTable R} (h : Complete tbl) (phi : R) :
    phiIdx tbl phi < tbl.phiSize := Nat.mod_lt _ h.phiSize

omit [FloorRing R] in
theorem thetaMin_le_thetaMax {tbl : PatternTable R} (h : Complete tbl) :
    tbl.thetaMin ≤ thetaMax tbl :=
  le_add_of_nonneg_right (mul_nonneg h.thetaStep.le (Nat.cast_nonneg _))

omit [Field R] [FloorRing R] [IsStrictOrderedRing R] in
theorem clamp_mem {v lo hi : R} (h : lo ≤ hi) :
    lo ≤ clamp v lo hi ∧ clamp v lo hi ≤ hi := by
  unfold clamp
  split_ifs with hlo hhi
  · exact ⟨le_rfl, h⟩
  · exact ⟨h, le_rfl⟩
  · exact ⟨not_lt.mp hlo, not_lt.mp hhi⟩

omit [FloorRing R] in
/-- A value is not moved away from those between the bounds. -/
theorem abs_clamp_sub_le {v lo hi x : R} (hlo : lo ≤ x) (hhi : x ≤ hi) :
    |clamp v lo hi - x| ≤ |v - x| := by
  unfold clamp
  split_ifs with h h'
  · rw [abs_of_nonpos (by linarith), abs_of_nonpos (by linarith)]
    linarith
  · rw [abs_of_nonneg (by linarith), abs_of_nonneg (by linarith)]
    linarith
  · exact le_rfl

theorem thetaIdx_lt {tbl : PatternTable R} (h : Complete tbl) (theta : R) :
    thetaIdx tbl theta < tbl.thetaSize := by
  obtain ⟨hlo, hhi⟩ := clamp_mem (v := theta) (thetaMin_le_thetaMax h)
  have hle : (clamp theta tbl.thetaMin (thetaMax tbl) - tbl.thetaMin) /
      tbl.thetaStep ≤ ((tbl.thetaSize - 1 : ℕ) : R) := by
    rw [div_le_iff₀ h.thetaStep]
    unfold thetaMax at hhi ⊢
    linarith
  have hnonneg : 0 ≤ (clamp theta tbl.thetaMin (thetaMax tbl) - tbl.thetaMin) /
      tbl.thetaStep := div_nonneg (sub_nonneg.mpr hlo) h.thetaStep.le
  have hround := roundHalfAway_le hnonneg hle
  have hsize := h.thetaSize
  unfold thetaIdx
  dsimp only
  omega

omit [FloorRing R] in
theorem abs_sub_le_of_near {x y first z a b : R} (hx : |x - first - z| ≤ a)
    (hy : |y - first - z| ≤ b) : |x - y| ≤ a + b := by
  calc |x - y| = |(x - first - z) - (y - first - z)| := by ring_nf
    _ ≤ |x - first - z| + |y - first - z| := abs_sub _ _
    _ ≤ a + b := add_le_add hx hy

/-- The row that is taken lies within half a step. -/
theorem abs_thetaIdx_mul_sub_le {tbl : PatternTable R} (h : Complete tbl)
    (theta : R) :
    |clamp theta tbl.thetaMin (thetaMax tbl) - tbl.thetaMin -
      (thetaIdx tbl theta : R) * tbl.thetaStep| ≤ tbl.thetaStep / 2 := by
  obtain ⟨hlo, -⟩ := clamp_mem (v := theta) (thetaMin_le_thetaMax h)
  have hnonneg := roundHalfAway_nonneg
    (div_nonneg (sub_nonneg.mpr hlo) h.thetaStep.le)
  have hclose := isRounding_roundHalfAway.abs_sub_mul_le h.thetaStep
    (clamp theta tbl.thetaMin (thetaMax tbl) - tbl.thetaMin)
  rw [← Int.toNat_of_nonneg hnonneg, Int.cast_natCast] at hclose
  exact hclose

/-- The column that is taken lies within half a step, up to whole turns and
whole widths of the table. -/
theorem abs_phiIdx_mul_sub_le {tbl : PatternTable R} (h : Complete tbl)
    (phi : R) :
    ∃ k q : ℤ, |phi - k * twoPi - q * (tbl.phiSize * tbl.phiStep) -
      tbl.phiMin - (phiIdx tbl phi : R) * tbl.phiStep| ≤ tbl.phiStep / 2 := by
  obtain ⟨hlo, -, k, hk⟩ := relPhi_spec tbl phi
  have hnonneg := roundHalfAway_nonneg (div_nonneg hlo h.phiStep.le)
  have hclose := isRounding_roundHalfAway.abs_sub_mul_le h.phiStep
    (relPhi tbl phi)
  rw [← Int.toNat_of_nonneg hnonneg, Int.cast_natCast] at hclose
  unfold phiIdx
  generalize (roundHalfAway (relPhi tbl phi / tbl.phiStep)).toNat = j at *
  obtain ⟨q, hq⟩ : ∃ q : ℕ, tbl.phiSize * q + j % tbl.phiSize = j :=
    ⟨j / tbl.phiSize, Nat.div_add_mod j tbl.phiSize⟩
  have hj : (j : R) = tbl.phiSize * q + (j % tbl.phiSize : ℕ) := by
    exact_mod_cast hq.symm
  refine ⟨k, q, ?_⟩
  have heq : phi - k * twoPi - (q : ℤ) * (tbl.phiSize * tbl.phiStep) -
      tbl.phiMin - ((j % tbl.phiSize : ℕ) : R) * tbl.phiStep =
        relPhi tbl phi - j * tbl.phiStep := by
    rw [hk, hj, Int.cast_natCast]
    ring
  rw [heq]
  exact hclose

/-- Whatever the angles are, the lookup stays inside of the array. -/
theorem lookup_lt {tbl : PatternTable R} (h : Complete tbl) (theta phi : R) :
    thetaIdx tbl theta * tbl.phiSize + phiIdx tbl phi < tbl.gains.length := by
  rw [h.gains]
  calc thetaIdx tbl theta * tbl.phiSize + phiIdx tbl phi
      < thetaIdx tbl theta * tbl.phiSize + tbl.phiSize :=
        Nat.add_lt_add_left (phiIdx_lt h phi) _
    _ = (thetaIdx tbl theta + 1) * tbl.phiSize := (Nat.succ_mul _ _).symm
    _ ≤ tbl.thetaSize * tbl.phiSize :=
        Nat.mul_le_mul_right _ (thetaIdx_lt h theta)

/-! ## The choice of the table -/

omit [FloorRing R] [IsStrictOrderedRing R] in
theorem nearer_spec (freqMhz : R) (best tbl : PatternTable R) :
    (nearer freqMhz best tbl = best ∨ nearer freqMhz best tbl = tbl) ∧
      |freqMhz - (nearer freqMhz best tbl).freqMhz| ≤
        |freqMhz - best.freqMhz| ∧
      |freqMhz - (nearer freqMhz best tbl).freqMhz| ≤
        |freqMhz - tbl.freqMhz| := by
  unfold nearer
  split_ifs with h
  · exact ⟨Or.inr rfl, h.le, le_rfl⟩
  · exact ⟨Or.inl rfl, le_rfl, not_lt.mp h⟩

omit [FloorRing R] [IsStrictOrderedRing R] in
theorem foldl_nearer_spec (freqMhz : R) (best : PatternTable R)
    (tables : List (PatternTable R)) :
    tables.foldl (nearer freqMhz) best ∈ best :: tables ∧
      ∀ other ∈ best :: tables,
        |freqMhz - (tables.foldl (nearer freqMhz) best).freqMhz| ≤
          |freqMhz - other.freqMhz| := by
  induction tables generalizing best with
  | nil =>
      refine ⟨List.mem_cons_self, fun other hother => ?_⟩
      rw [List.mem_singleton.mp hother]
      rfl
  | cons tbl rest ih =>
      obtain ⟨hmem, hleast⟩ := ih (nearer freqMhz best tbl)
      obtain ⟨heq, hbest, htbl⟩ := nearer_spec freqMhz best tbl
      have hfirst := hleast _ List.mem_cons_self
      rw [List.foldl_cons]
      refine ⟨?_, fun other hother => ?_⟩
      · rcases List.mem_cons.mp hmem with hmem | hmem
        · rw [hmem]
          rcases heq with heq | heq
          · rw [heq]
            exact List.mem_cons_self
          · rw [heq]
            exact List.mem_cons_of_mem _ List.mem_cons_self
        · exact List.mem_cons_of_mem _ (List.mem_cons_of_mem _ hmem)
      · rcases List.mem_cons.mp hother with rfl | hother
        · exact hfirst.trans hbest
        · rcases List.mem_cons.mp hother with rfl | hother
          · exact hfirst.trans htbl
          · exact hleast other (List.mem_cons_of_mem _ hother)

omit [FloorRing R] [IsStrictOrderedRing R] in
/-- One of the nearest tables is taken. -/
theorem nearestTable_spec {tables : List (PatternTable R)} (h : tables ≠ [])
    (freqMhz : R) :
    ∃ tbl ∈ tables, nearestTable tables freqMhz = some tbl ∧
      ∀ other ∈ tables,
        |freqMhz - tbl.freqMhz| ≤ |freqMhz - other.freqMhz| := by
  cases tables with
  | nil => exact absurd rfl h
  | cons first rest =>
      obtain ⟨hmem, hleast⟩ := foldl_nearer_spec freqMhz first rest
      exact ⟨_, hmem, rfl, hleast⟩

end Antennas
end Chem
