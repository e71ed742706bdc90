import ChemEmulator.Antennas.PatternTables
import ChemEmulator.Support.EarlyExit
import ChemEmulator.Support.RowMajor
import ChemEmulator.Support.SortedMembers
import Mathlib.Data.List.Sort

/-!
# From measurements to tables

`utils/generate_antenna_headers.py`, after the files of an antenna have been
parsed: a file whose points lie on a uniform grid becomes an array and a table
in the generated source.  The arrays are named after the frequency, rounded to
whole MHz, and the compiler rejects two arrays of one name.

The gain at every measured point, as the compiled lookup finds it, is the gain
in the file; where a point is listed more than once it is the last one.
-/

namespace Chem
namespace Antennas

open Chem.Geometry UniformGrid

variable {R : Type} [Field R] [LinearOrder R] [FloorRing R]

/-- A line of a pattern file. -/
structure Entry (R : Type) where
  phi : R
  theta : R
  gainDb : R

structure PatternFile (R : Type) where
  freqMhz : R
  entries : List (Entry R)

/-- `tol`. -/
def tol : R := 1e-6

/-- `unique_sorted`. -/
def uniqueSorted (values : List R) : List R :=
  match values.insertionSort (· ≤ ·) with
  | [] => []
  | first :: rest => first :: mergeFrom tol first rest

/-- `uniform_step`. -/
def uniformStep (values : List R) : Option R :=
  match (differences values).filter fun s => decide (tol < |s|) with
  | [] => none
  | base :: rest =>
      if rest.any fun s => decide (tol < |s - base|) then none else some base

/-- What `build_grid` returns. -/
structure Grid (R : Type) where
  phiMin : R
  phiStep : R
  phiSize : ℕ
  thetaMin : R
  thetaStep : R
  thetaSize : ℕ
  cells : RowMajor thetaSize phiSize R

/-- The indices of a point; `round` of Python takes ties to even numbers. -/
def cellOf (phiMin phiStep thetaMin thetaStep : R) (e : Entry R) : ℤ × ℤ :=
  (roundHalfEven ((e.theta - thetaMin) / thetaStep),
    roundHalfEven ((e.phi - phiMin) / phiStep))

/-- The body of the loop of `build_grid`. -/
def place (phiMin phiStep thetaMin thetaStep : R) {thetaSize phiSize : ℕ}
    (cells : RowMajor thetaSize phiSize R) (e : Entry R) :
    Option (RowMajor thetaSize phiSize R) :=
  let (thetaIdx, phiIdx) := cellOf phiMin phiStep thetaMin thetaStep e
  if phiIdx < 0 ∨ phiSize ≤ phiIdx ∨ thetaIdx < 0 ∨ thetaSize ≤ thetaIdx then
    none
  else some (cells.set thetaIdx.toNat phiIdx.toNat e.gainDb)

/-- `build_grid`. -/
def buildGrid (entries : List (Entry R)) : Option (Grid R) :=
  let phis := uniqueSorted (entries.map Entry.phi)
  let thetas := uniqueSorted (entries.map Entry.theta)
  match phis, thetas, uniformStep phis, uniformStep thetas with
  | phiMin :: _, thetaMin :: _, some phiStep, some thetaStep =>
      if phis.length * thetas.length = entries.length then
        (entries.foldlM (place phiMin phiStep thetaMin thetaStep)
          (RowMajor.replicate 0 : RowMajor thetas.length phis.length R)).map
          fun cells => ⟨phiMin, phiStep, _, thetaMin, thetaStep, _, cells⟩
      else none
  | _, _, _, _ => none

/-- A generated source: arrays under their names, and tables that refer to
them. -/
structure Source (R : Type) where
  arrays : List (ℤ × List R)
  tables : List (ℤ × (List R → PatternTable R))

/-- `freq_tag`. -/
def freqTag (freqMhz : R) : ℤ := roundHalfEven freqMhz

/-- The initialiser of a table. -/
def Grid.table (freqMhz : R) (g : Grid R) (gains : List R) :
    PatternTable R where
  freqMhz := freqMhz
  phiMin := g.phiMin
  phiStep := g.phiStep
  phiSize := g.phiSize
  thetaMin := g.thetaMin
  thetaStep := g.thetaStep
  thetaSize := g.thetaSize
  gains := gains

/-- `generate_source`. -/
def generateSource (grids : List (R × Grid R)) : Source R where
  arrays := grids.map fun (freqMhz, g) => (freqTag freqMhz, g.cells.flat)
  tables := grids.map fun (freqMhz, g) => (freqTag freqMhz, g.table freqMhz)

/-- The frequencies of an antenna that have a grid, in ascending order. -/
def gridTables (files : List (PatternFile R)) : List (R × Grid R) :=
  (files.insertionSort fun f f' => f.freqMhz ≤ f'.freqMhz).filterMap
    fun f => (buildGrid f.entries).map fun g => (f.freqMhz, g)

/-- `main`, for one antenna. -/
def generate (files : List (PatternFile R)) : Option (Source R) :=
  if (gridTables files).isEmpty then none
  else some (generateSource (gridTables files))

/-- What the compiler makes of a source. -/
def Source.compile (src : Source R) : Option (List (PatternTable R)) :=
  if (src.arrays.map Prod.fst).Nodup then
    src.tables.mapM fun (name, table) => (src.arrays.lookup name).map table
  else none

/-! ## One coordinate -/

variable [IsStrictOrderedRing R]

omit [FloorRing R] in
theorem tol_pos : 0 < (tol : R) := by
  unfold tol
  norm_num

/-- The values of a coordinate and the points that they are merged to. -/
structure Axis (values points : List R) (first step : R) : Prop where
  starts : ∃ rest, points = first :: rest
  least : ∀ v ∈ values, first ≤ v
  above : ∀ v ∈ values, ∃ (k : ℕ) (r : R), points[k]? = some r ∧
    Above tol v r
  uniform : NearlyUniform tol step points
  tol_lt : tol < step

omit [FloorRing R] in
theorem uniformStep_spec {points : List R} {step : R}
    (h : points.IsChain fun a b => tol < b - a)
    (hstep : uniformStep points = some step) :
    tol < step ∧ NearlyUniform tol step points := by
  have hfar := (forall_differences points).mpr h
  have hall : (differences points).filter (fun s => decide (tol < |s|)) =
      differences points := by
    refine List.filter_eq_self.mpr fun s hs => decide_eq_true ?_
    exact (hfar s hs).trans_le (le_abs_self s)
  rw [uniformStep, hall] at hstep
  unfold NearlyUniform
  rw [← forall_differences (P := fun s => |s - step| ≤ tol)]
  cases hdiff : differences points with
  | nil =>
      rw [hdiff] at hstep
      cases hstep
  | cons base rest =>
      rw [hdiff] at hstep hfar
      dsimp only at hstep
      split_ifs at hstep with hany
      cases hstep
      refine ⟨hfar _ List.mem_cons_self, ?_⟩
      refine List.forall_mem_cons.mpr ⟨?_, fun s hs => ?_⟩
      · rw [sub_self, abs_zero]
        exact tol_pos.le
      · rw [List.any_eq_true] at hany
        exact not_lt.mp fun hlt => hany ⟨s, hs, decide_eq_true hlt⟩

omit [FloorRing R] in
theorem axis_uniqueSorted {values rest : List R} {first step : R}
    (hpoints : uniqueSorted values = first :: rest)
    (hstep : uniformStep (uniqueSorted values) = some step) :
    Axis values (uniqueSorted values) first step := by
  have hsorted := List.pairwise_insertionSort (· ≤ ·) values
  have hmem : ∀ v, v ∈ values → v ∈ values.insertionSort (· ≤ ·) :=
    fun _ => (List.mem_insertionSort _).mpr
  unfold uniqueSorted at hpoints hstep ⊢
  cases hsort : values.insertionSort (· ≤ ·) with
  | nil =>
      rw [hsort] at hpoints
      cases hpoints
  | cons head tail =>
      rw [hsort] at hpoints hstep hsorted hmem
      dsimp only at hpoints hstep ⊢
      obtain ⟨rfl, rfl⟩ := List.cons.inj hpoints
      obtain ⟨htol, huniform⟩ :=
        uniformStep_spec (isChain_mergeFrom hsorted) hstep
      refine ⟨⟨_, rfl⟩, fun v hv => ?_, fun v hv => ?_, huniform, htol⟩
      · rcases List.mem_cons.mp (hmem v hv) with rfl | hv
        · exact le_rfl
        · exact (List.pairwise_cons.mp hsorted).1 v hv
      · obtain ⟨r, hr, habove⟩ :=
          exists_above_mergeFrom tol_pos.le hsorted (hmem v hv)
        obtain ⟨k, hk⟩ := List.mem_iff_getElem?.mp hr
        exact ⟨k, r, hk, habove⟩

/-- Where a value lies on its axis. -/
structure Located (points : List R) (first step v : R) (k : ℕ) : Prop where
  lt : k < points.length
  above : ∃ r, points[k]? = some r ∧ Above tol v r
  drift : |v - first - k * step| ≤ points.length * tol

omit [FloorRing R] in
theorem Axis.located {values points : List R} {first step v : R}
    (h : Axis values points first step) (hv : v ∈ values) :
    ∃ k, Located points first step v k := by
  obtain ⟨k, r, hr, habove⟩ := h.above v hv
  obtain ⟨rest, rfl⟩ := h.starts
  exact ⟨k, (List.getElem?_eq_some_iff.mp hr).1, ⟨r, hr, habove⟩,
    h.uniform.drift hr habove⟩

/-- Any way to round gives back the index of a value. -/
theorem Located.index_eq {points : List R} {first step v : R} {k : ℕ}
    (h : Located points first step v k) {f : R → ℤ} (hf : IsRounding f)
    (hstep : 0 < step) (hfine : 2 * (points.length * tol) < step) :
    f ((v - first) / step) = k :=
  hf.index_eq (k := k) hstep (by exact_mod_cast h.drift) hfine

omit [FloorRing R] in
/-- Values in one place differ by the tolerance at most. -/
theorem Located.near {points : List R} {first step v v' : R} {k : ℕ}
    (h : Located points first step v k) (h' : Located points first step v' k) :
    |v - v'| ≤ tol := by
  obtain ⟨r, hr, hlo, hhi⟩ := h.above
  obtain ⟨r', hr', hlo', hhi'⟩ := h'.above
  cases hr.symm.trans hr'
  rw [abs_le]
  constructor <;> linarith

omit [FloorRing R] in
/-- A value that is not above another by more than the tolerance lies no further
along the axis. -/
theorem Axis.index_le {values points : List R} {first step v v' : R} {k k' : ℕ}
    (h : Axis values points first step)
    (hfine : 2 * (points.length * tol) < step)
    (hv : Located points first step v k) (hv' : Located points first step v' k')
    (hnear : v' - v ≤ tol) : k' ≤ k := by
  by_contra hnot
  have hk : (k : R) + 1 ≤ k' := by exact_mod_cast not_le.mp hnot
  have hk' : (k' : R) + 1 ≤ points.length := by exact_mod_cast hv'.lt
  obtain ⟨r, hr, hlo, hhi⟩ := hv.above
  obtain ⟨r', hr', hlo', hhi'⟩ := hv'.above
  obtain ⟨rest, rfl⟩ := h.starts
  have hdrift := (abs_le.mp (h.uniform.getElem hr)).2
  have hdrift' := (abs_le.mp (h.uniform.getElem hr')).1
  have hsteps : 1 * step ≤ (k' - k) * step :=
    mul_le_mul_of_nonneg_right (by linarith) (tol_pos.trans h.tol_lt).le
  have hslack : ((k : R) + k' + 2) * tol ≤
      2 * ((first :: rest).length : R) * tol :=
    mul_le_mul_of_nonneg_right (by linarith) tol_pos.le
  linarith

/-! ## One file -/

/-- What a grid is built from. -/
structure Built (entries : List (Entry R)) (g : Grid R)
    (phis thetas : List R) : Prop where
  phi : Axis (entries.map Entry.phi) phis g.phiMin g.phiStep
  theta : Axis (entries.map Entry.theta) thetas g.thetaMin g.thetaStep
  phiSize : phis.length = g.phiSize
  thetaSize : thetas.length = g.thetaSize
  size : g.phiSize * g.thetaSize = entries.length
  cells : entries.foldlM (place g.phiMin g.phiStep g.thetaMin g.thetaStep)
    (RowMajor.replicate 0) = some g.cells

omit [FloorRing R] [IsStrictOrderedRing R] in
theorem Axis.length_pos {values points : List R} {first step : R}
    (h : Axis values points first step) : 0 < points.length := by
  obtain ⟨rest, rfl⟩ := h.starts
  exact Nat.succ_pos _

theorem built_of_buildGrid {entries : List (Entry R)} {g : Grid R}
    (h : buildGrid entries = some g) :
    ∃ phis thetas, Built entries g phis thetas := by
  unfold buildGrid at h
  dsimp only at h
  split at h
  · next phiMin _ thetaMin _ phiStep thetaStep hphis hthetas hphi htheta =>
    split_ifs at h with hsize
    obtain ⟨cells, hcells, rfl⟩ := Option.map_eq_some_iff.mp h
    exact ⟨_, _, axis_uniqueSorted hphis hphi,
      axis_uniqueSorted hthetas htheta, rfl, rfl, hsize, hcells⟩
  · cases h

omit [IsStrictOrderedRing R] in
theorem place_spec {phiMin phiStep thetaMin thetaStep : R} {m n : ℕ}
    {cells cells' : RowMajor m n R} {e : Entry R}
    (h : place phiMin phiStep thetaMin thetaStep cells e = some cells') :
    ∃ t p : ℕ, t < m ∧ p < n ∧
      cellOf phiMin phiStep thetaMin thetaStep e = (↑t, ↑p) ∧
      cells' = cells.set t p e.gainDb := by
  unfold place at h
  generalize cellOf phiMin phiStep thetaMin thetaStep e = cell at h ⊢
  obtain ⟨t, p⟩ := cell
  dsimp only at h
  split_ifs at h with hrange
  cases h
  refine ⟨t.toNat, p.toNat, by omega, by omega, ?_, rfl⟩
  rw [Int.toNat_of_nonneg (by omega), Int.toNat_of_nonneg (by omega)]

section Fold

variable {phiMin phiStep thetaMin thetaStep : R} {m n : ℕ}

omit [IsStrictOrderedRing R] in
/-- A cell that none of the points has keeps its value. -/
theorem foldlM_place_of_other {entries : List (Entry R)}
    {cells cells' : RowMajor m n R}
    (h : entries.foldlM (place phiMin phiStep thetaMin thetaStep) cells =
      some cells') {t p : ℕ}
    (hother : ∀ e ∈ entries,
      cellOf phiMin phiStep thetaMin thetaStep e ≠ (↑t, ↑p)) :
    cells'.get? t p = cells.get? t p := by
  induction entries generalizing cells with
  | nil =>
      cases h
      rfl
  | cons e rest ih =>
      obtain ⟨he, hrest⟩ := List.forall_mem_cons.mp hother
      rw [List.foldlM_cons] at h
      obtain ⟨next, hnext, h⟩ := Option.bind_eq_some_iff.mp h
      obtain ⟨t', p', ht', hp', hcell, rfl⟩ := place_spec hnext
      rw [ih h hrest, RowMajor.get?_set ht' hp', if_neg]
      rintro ⟨rfl, rfl⟩
      exact he hcell

omit [IsStrictOrderedRing R] in
/-- The last point of a cell gives it its value. -/
theorem foldlM_place_last {before after : List (Entry R)} {e : Entry R}
    {cells cells' : RowMajor m n R}
    (h : (before ++ e :: after).foldlM
      (place phiMin phiStep thetaMin thetaStep) cells = some cells')
    (hlast : ∀ e' ∈ after, cellOf phiMin phiStep thetaMin thetaStep e' ≠
      cellOf phiMin phiStep thetaMin thetaStep e) :
    ∃ t p : ℕ, t < m ∧ p < n ∧
      cellOf phiMin phiStep thetaMin thetaStep e = (↑t, ↑p) ∧
      cells'.get? t p = some e.gainDb := by
  rw [List.foldlM_append] at h
  obtain ⟨first, -, h⟩ := Option.bind_eq_some_iff.mp h
  rw [List.foldlM_cons] at h
  obtain ⟨next, hnext, h⟩ := Option.bind_eq_some_iff.mp h
  obtain ⟨t, p, ht, hp, hcell, rfl⟩ := place_spec hnext
  refine ⟨t, p, ht, hp, hcell, ?_⟩
  rw [foldlM_place_of_other h (hcell ▸ hlast), RowMajor.get?_set ht hp,
    if_pos ⟨rfl, rfl⟩]

end Fold

/-! ## The compiled source -/

/-- The table of a grid with its own array. -/
def gridTable (x : R × Grid R) : PatternTable R :=
  x.2.table x.1 x.2.cells.flat

omit [IsStrictOrderedRing R] in
theorem compile_generateSource {grids : List (R × Grid R)}
    {tables : List (PatternTable R)}
    (h : (generateSource grids).compile = some tables) :
    (grids.map fun (freqMhz, _) => freqTag freqMhz).Nodup ∧
      tables = grids.map gridTable := by
  unfold Source.compile generateSource at h
  dsimp only at h
  split_ifs at h with hnodup
  have htables : ∀ x ∈ grids, ((grids.map fun (freqMhz, g) =>
      (freqTag freqMhz, g.cells.flat)).lookup (freqTag x.1)).map
        (x.2.table x.1) = some (gridTable x) := by
    intro x hx
    rw [List.lookup_of_mem hnodup (List.mem_map_of_mem hx)]
    rfl
  rw [List.map_map] at hnodup
  refine ⟨hnodup, ?_⟩
  rw [List.mapM_map] at h
  exact Option.some.inj (h.symm.trans (EarlyExit.mapM_eq_some_map htables))

/-- The table of a grid has a gain for every cell. -/
theorem Built.complete {entries : List (Entry R)} {g : Grid R}
    {phis thetas : List R} (h : Built entries g phis thetas) (freqMhz : R) :
    Complete (g.table freqMhz g.cells.flat) where
  phiStep := tol_pos.trans h.phi.tol_lt
  thetaStep := tol_pos.trans h.theta.tol_lt
  phiSize := h.phi.length_pos.trans_eq h.phiSize
  thetaSize := h.theta.length_pos.trans_eq h.thetaSize
  gains := g.cells.length_flat

omit [IsStrictOrderedRing R] in
theorem lookupGain_table {g : Grid R} {freqMhz theta phi : R}
    (hphi : phiIdx (g.table freqMhz g.cells.flat) phi < g.phiSize) :
    lookupGain (g.table freqMhz g.cells.flat) theta phi =
      g.cells.get? (thetaIdx (g.table freqMhz g.cells.flat) theta)
        (phiIdx (g.table freqMhz g.cells.flat) phi) :=
  g.cells.getElem?_flat hphi _

/-! ## Measured points -/

/-- The tolerances add up to less than half a step, and the azimuths do not go
round more than once. -/
structure Resolved (entries : List (Entry R)) (g : Grid R) : Prop where
  phi : 2 * (g.phiSize * tol) < g.phiStep
  theta : 2 * (g.thetaSize * tol) < g.thetaStep
  once : ∀ e ∈ entries, e.phi - g.phiMin < twoPi

/-- Two points that a file does not tell apart. -/
def SamePoint (e e' : Entry R) : Prop :=
  |e.phi - e'.phi| ≤ tol ∧ |e.theta - e'.theta| ≤ tol

omit [FloorRing R] in
theorem SamePoint.refl (e : Entry R) : SamePoint e e := by
  rw [SamePoint, sub_self, sub_self, abs_zero]
  exact ⟨tol_pos.le, tol_pos.le⟩

/-- The cell of a point in a grid. -/
def Grid.cellOf (g : Grid R) (e : Entry R) : ℤ × ℤ :=
  Antennas.cellOf g.phiMin g.phiStep g.thetaMin g.thetaStep e

section Measured

variable {entries : List (Entry R)} {g : Grid R} {phis thetas : List R}

theorem Built.located (h : Built entries g phis thetas)
    (hfine : Resolved entries g) {e : Entry R} (he : e ∈ entries) :
    ∃ t p : ℕ, Located thetas g.thetaMin g.thetaStep e.theta t ∧
      Located phis g.phiMin g.phiStep e.phi p ∧ g.cellOf e = (↑t, ↑p) := by
  obtain ⟨t, ht⟩ := h.theta.located (List.mem_map_of_mem he)
  obtain ⟨p, hp⟩ := h.phi.located (List.mem_map_of_mem he)
  refine ⟨t, p, ht, hp, Prod.ext ?_ ?_⟩
  · refine ht.index_eq isRounding_roundHalfEven
      (tol_pos.trans h.theta.tol_lt) ?_
    rw [h.thetaSize]
    exact hfine.theta
  · refine hp.index_eq isRounding_roundHalfEven (tol_pos.trans h.phi.tol_lt) ?_
    rw [h.phiSize]
    exact hfine.phi

/-- Points in one cell are the same point. -/
theorem Built.samePoint (h : Built entries g phis thetas)
    (hfine : Resolved entries g) {e e' : Entry R} (he : e ∈ entries)
    (he' : e' ∈ entries) (hcell : g.cellOf e' = g.cellOf e) :
    SamePoint e e' := by
  obtain ⟨t, p, ht, hp, hcellOf⟩ := h.located hfine he
  obtain ⟨t', p', ht', hp', hcellOf'⟩ := h.located hfine he'
  rw [hcellOf, hcellOf', Prod.mk.injEq, Nat.cast_inj, Nat.cast_inj] at hcell
  obtain ⟨rfl, rfl⟩ := hcell
  exact ⟨hp.near hp', ht.near ht'⟩

/-- The same point is in one cell. -/
theorem Built.cellOf_eq (h : Built entries g phis thetas)
    (hfine : Resolved entries g) {e e' : Entry R} (he : e ∈ entries)
    (he' : e' ∈ entries) (hsame : SamePoint e e') :
    g.cellOf e = g.cellOf e' := by
  have hphi := hfine.phi
  have htheta := hfine.theta
  rw [← h.phiSize] at hphi
  rw [← h.thetaSize] at htheta
  obtain ⟨t, p, ht, hp, hcell⟩ := h.located hfine he
  obtain ⟨t', p', ht', hp', hcell'⟩ := h.located hfine he'
  obtain ⟨hphi₁, hphi₂⟩ := abs_le.mp hsame.1
  obtain ⟨htheta₁, htheta₂⟩ := abs_le.mp hsame.2
  have hp_eq : p = p' := le_antisymm
    (h.phi.index_le hphi hp' hp hphi₂)
    (h.phi.index_le hphi hp hp' (by linarith))
  have ht_eq : t = t' := le_antisymm
    (h.theta.index_le htheta ht' ht htheta₂)
    (h.theta.index_le htheta ht ht' (by linarith))
  rw [hcell, hcell', hp_eq, ht_eq]

omit [FloorRing R] in
theorem abs_le_thetaMax {t : ℕ} (hstep : 0 ≤ g.thetaStep)
    (ht : t < g.thetaSize) (freqMhz : R) (gains : List R) :
    g.thetaMin + t * g.thetaStep ≤ thetaMax (g.table freqMhz gains) := by
  have hle : (t : R) ≤ ((g.thetaSize - 1 : ℕ) : R) :=
    Nat.cast_le.mpr (by omega)
  have hmul := mul_le_mul_of_nonneg_right hle hstep
  unfold thetaMax Grid.table
  dsimp only
  linarith

theorem Built.thetaIdx_eq (h : Built entries g phis thetas)
    (hfine : Resolved entries g) {theta : R} {t : ℕ}
    (ht : Located thetas g.thetaMin g.thetaStep theta t) (freqMhz : R)
    (gains : List R) : thetaIdx (g.table freqMhz gains) theta = t := by
  have hstep : 0 < g.thetaStep := tol_pos.trans h.theta.tol_lt
  have hlt : t < g.thetaSize := h.thetaSize ▸ ht.lt
  have hdrift : |clamp theta g.thetaMin (thetaMax (g.table freqMhz gains)) -
      g.thetaMin - (t : ℤ) * g.thetaStep| ≤ g.thetaSize * tol := by
    have hlo : g.thetaMin ≤ g.thetaMin + t * g.thetaStep :=
      le_add_of_nonneg_right (mul_nonneg (Nat.cast_nonneg t) hstep.le)
    have hhi := abs_le_thetaMax hstep.le hlt freqMhz gains
    have hclamp := abs_clamp_sub_le (v := theta) hlo hhi
    rw [← sub_sub, ← sub_sub] at hclamp
    rw [Int.cast_natCast, ← h.thetaSize]
    exact hclamp.trans ht.drift
  have hround := isRounding_roundHalfAway.index_eq hstep hdrift hfine.theta
  unfold thetaIdx
  dsimp only [Grid.table] at hround ⊢
  rw [hround, Int.toNat_natCast]

theorem Built.phiIdx_eq (h : Built entries g phis thetas)
    (hfine : Resolved entries g) {e : Entry R} (he : e ∈ entries) {p : ℕ}
    (hp : Located phis g.phiMin g.phiStep e.phi p) (freqMhz : R)
    (gains : List R) : phiIdx (g.table freqMhz gains) e.phi = p := by
  have hstep : 0 < g.phiStep := tol_pos.trans h.phi.tol_lt
  have hlt : p < g.phiSize := h.phiSize ▸ hp.lt
  have hnonneg : 0 ≤ e.phi - g.phiMin :=
    sub_nonneg.mpr (h.phi.least _ (List.mem_map_of_mem he))
  have hrel : relPhi (g.table freqMhz gains) e.phi = e.phi - g.phiMin := by
    unfold relPhi Grid.table
    dsimp only
    rw [fmod_eq_of_mem hnonneg (hfine.once e he), if_neg (not_lt.mpr hnonneg)]
  have hround := hp.index_eq isRounding_roundHalfAway hstep
    (h.phiSize ▸ hfine.phi)
  unfold phiIdx
  rw [hrel]
  dsimp only [Grid.table]
  rw [hround, Int.toNat_natCast, Nat.mod_eq_of_lt hlt]

/-- The last entry for a point is what its cell holds. -/
theorem Built.get?_eq (h : Built entries g phis thetas)
    (hfine : Resolved entries g) {before after : List (Entry R)} {e : Entry R}
    (hentries : entries = before ++ e :: after)
    (hlast : ∀ e' ∈ after, ¬SamePoint e e') :
    ∃ t p : ℕ, t < g.thetaSize ∧ p < g.phiSize ∧ g.cellOf e = (↑t, ↑p) ∧
      g.cells.get? t p = some e.gainDb := by
  have he : e ∈ entries := by
    rw [hentries]
    exact List.mem_append_right _ List.mem_cons_self
  have hother : ∀ e' ∈ after, g.cellOf e' ≠ g.cellOf e := by
    intro e' he' hcell
    refine hlast e' he' (h.samePoint hfine he ?_ hcell)
    rw [hentries]
    exact List.mem_append_right _ (List.mem_cons_of_mem _ he')
  have hcells := h.cells
  rw [hentries] at hcells
  exact foldlM_place_last hcells hother

/-- The lookup at a measured point finds what was written last for it, be it by
an entry that lists the point a little differently. -/
theorem Built.lookupGain_eq (h : Built entries g phis thetas)
    (hfine : Resolved entries g) {before after : List (Entry R)}
    {e₀ e : Entry R} (hentries : entries = before ++ e :: after)
    (he₀ : e₀ ∈ entries) (hsame : SamePoint e₀ e)
    (hlast : ∀ e' ∈ after, ¬SamePoint e₀ e') (freqMhz : R) :
    lookupGain (g.table freqMhz g.cells.flat) e₀.theta e₀.phi =
      some e.gainDb := by
  have he : e ∈ entries := by
    rw [hentries]
    exact List.mem_append_right _ List.mem_cons_self
  have hcellOf := h.cellOf_eq hfine he₀ he hsame
  have hlater : ∀ e' ∈ after, ¬SamePoint e e' := by
    intro e' he' hsame'
    have hmem : e' ∈ entries := by
      rw [hentries]
      exact List.mem_append_right _ (List.mem_cons_of_mem _ he')
    refine hlast e' he' (h.samePoint hfine he₀ hmem ?_)
    rw [hcellOf, h.cellOf_eq hfine he hmem hsame']
  obtain ⟨t, p, -, hp, hcell, hget⟩ := h.get?_eq hfine hentries hlater
  obtain ⟨t', p', hlocT, hlocP, hcell'⟩ := h.located hfine he₀
  have hindex := (hcell'.symm.trans hcellOf).trans hcell
  rw [Prod.mk.injEq, Nat.cast_inj, Nat.cast_inj] at hindex
  obtain ⟨rfl, rfl⟩ := hindex
  have hphi := h.phiIdx_eq hfine he₀ hlocP freqMhz g.cells.flat
  rw [lookupGain_table (hphi ▸ hp), hphi, h.thetaIdx_eq hfine hlocT, hget]

/-- If no point is listed twice, every cell has a point. -/
theorem Built.exists_entry (h : Built entries g phis thetas)
    (hfine : Resolved entries g)
    (honce : entries.Pairwise fun e e' => ¬SamePoint e e') {t p : ℕ}
    (ht : t < g.thetaSize) (hp : p < g.phiSize) :
    ∃ e ∈ entries, g.cellOf e = (↑t, ↑p) ∧
      g.cells.get? t p = some e.gainDb := by
  have hcells : ∀ before after e, entries = before ++ e :: after →
      ∃ t p : ℕ, t < g.thetaSize ∧ p < g.phiSize ∧ g.cellOf e = (↑t, ↑p) ∧
        g.cells.get? t p = some e.gainDb := by
    intro before after e hentries
    refine h.get?_eq hfine hentries ?_
    rw [hentries] at honce
    exact (List.pairwise_cons.mp (List.pairwise_append.mp honce).2.1).1
  have hall : ∀ e ∈ entries, ∃ t p : ℕ, t < g.thetaSize ∧ p < g.phiSize ∧
      g.cellOf e = (↑t, ↑p) ∧ g.cells.get? t p = some e.gainDb := by
    intro e he
    obtain ⟨before, after, hentries⟩ := List.append_of_mem he
    exact hcells before after e hentries
  have hmem : (t, p) ∈ entries.map fun e =>
      ((g.cellOf e).1.toNat, (g.cellOf e).2.toNat) := by
    refine RowMajor.mem_of_length_eq ?_ ?_ ?_ ht hp
    · refine List.pairwise_map.mpr (honce.imp_of_mem fun he he' hne heq => ?_)
      obtain ⟨t, p, -, -, hcell, -⟩ := hall _ he
      obtain ⟨t', p', -, -, hcell', -⟩ := hall _ he'
      rw [hcell, hcell'] at heq
      refine hne (h.samePoint hfine he he' ?_)
      rw [hcell, hcell']
      exact congrArg (fun c : ℕ × ℕ => ((c.1 : ℤ), (c.2 : ℤ))) heq.symm
    · intro cell hcell
      obtain ⟨e, he, rfl⟩ := List.mem_map.mp hcell
      obtain ⟨t, p, ht, hp, hcell, -⟩ := hall e he
      rw [hcell]
      exact ⟨ht, hp⟩
    · rw [List.length_map, ← h.size, Nat.mul_comm]
  obtain ⟨e, he, heq⟩ := List.mem_map.mp hmem
  obtain ⟨t', p', -, -, hcell, hget⟩ := hall e he
  rw [hcell] at heq
  cases heq
  exact ⟨e, he, hcell, hget⟩

/-- What is looked up was measured close by: up to half a step and the
tolerances in the polar angle, and likewise in the azimuth up to whole turns
and whole widths of the table. -/
theorem Built.lookupGain_near (h : Built entries g phis thetas)
    (hfine : Resolved entries g)
    (honce : entries.Pairwise fun e e' => ¬SamePoint e e')
    (freqMhz theta phi : R) :
    ∃ e ∈ entries,
      lookupGain (g.table freqMhz g.cells.flat) theta phi = some e.gainDb ∧
      |clamp theta g.thetaMin (thetaMax (g.table freqMhz g.cells.flat)) -
        e.theta| ≤ g.thetaStep / 2 + g.thetaSize * tol ∧
      ∃ k q : ℤ, |phi - e.phi - k * twoPi - q * (g.phiSize * g.phiStep)| ≤
        g.phiStep / 2 + g.phiSize * tol := by
  have hcomplete := h.complete freqMhz
  obtain ⟨e, he, hcell, hget⟩ := h.exists_entry hfine honce
    (thetaIdx_lt hcomplete theta) (phiIdx_lt hcomplete phi)
  obtain ⟨t, p, hlocT, hlocP, hcell'⟩ := h.located hfine he
  have hsame := hcell'.symm.trans hcell
  rw [Prod.mk.injEq, Nat.cast_inj, Nat.cast_inj] at hsame
  obtain ⟨ht, hp⟩ := hsame
  refine ⟨e, he, ?_, ?_, ?_⟩
  · rw [lookupGain_table (phiIdx_lt hcomplete phi), hget]
  · have hdrift := hlocT.drift
    have hclose := abs_thetaIdx_mul_sub_le hcomplete theta
    rw [ht, h.thetaSize] at hdrift
    exact abs_sub_le_of_near hclose hdrift
  · obtain ⟨k, q, hclose⟩ := abs_phiIdx_mul_sub_le hcomplete phi
    have hdrift := hlocP.drift
    rw [hp, h.phiSize] at hdrift
    refine ⟨k, q, ?_⟩
    have heq : phi - e.phi - k * twoPi - q * (g.phiSize * g.phiStep) =
        (phi - k * twoPi - q * (g.phiSize * g.phiStep)) - e.phi := by ring
    rw [heq]
    exact abs_sub_le_of_near hclose hdrift

end Measured

/-! ## An antenna -/

omit [IsStrictOrderedRing R] in
theorem mem_gridTables {files : List (PatternFile R)} {x : R × Grid R} :
    x ∈ gridTables files ↔
      ∃ f ∈ files, f.freqMhz = x.1 ∧ buildGrid f.entries = some x.2 := by
  unfold gridTables
  rw [List.mem_filterMap]
  constructor
  · rintro ⟨f, hf, hx⟩
    obtain ⟨g, hg, rfl⟩ := Option.map_eq_some_iff.mp hx
    exact ⟨f, (List.mem_insertionSort _).mp hf, rfl, hg⟩
  · rintro ⟨f, hf, hfreq, hg⟩
    refine ⟨f, (List.mem_insertionSort _).mpr hf, ?_⟩
    rw [hg, hfreq]
    rfl

omit [IsStrictOrderedRing R] in
/-- The tables of a source that compiles are those of the grids. -/
theorem tables_of_generate {files : List (PatternFile R)} {src : Source R}
    {tables : List (PatternTable R)} (hgen : generate files = some src)
    (hcompile : src.compile = some tables) :
    ((gridTables files).map fun (freqMhz, _) => freqTag freqMhz).Nodup ∧
      gridTables files ≠ [] ∧
      tables = (gridTables files).map gridTable := by
  unfold generate at hgen
  split_ifs at hgen with hempty
  cases hgen
  obtain ⟨hnodup, htables⟩ := compile_generateSource hcompile
  exact ⟨hnodup, fun hnil => hempty (List.isEmpty_iff.mpr hnil), htables⟩

/-- No point is listed twice. -/
structure WellListed (files : List (PatternFile R)) : Prop where
  resolved : ∀ f ∈ files, ∀ g, buildGrid f.entries = some g →
    Resolved f.entries g
  once : ∀ f ∈ files, f.entries.Pairwise fun e e' => ¬SamePoint e e'

/-! ### Two frequencies -/

/-- Four directions, measured at two frequencies. -/
def fourDirections (base : ℚ) : List (Entry ℚ) :=
  [⟨0, 0, base⟩, ⟨0, 3, base - 1⟩, ⟨3, 0, base - 2⟩, ⟨3, 3, base - 3⟩]

def twoFiles : List (PatternFile ℚ) :=
  [⟨3500, fourDirections (-5)⟩, ⟨2100, fourDirections (-10)⟩]

theorem resolved_of_steps {entries : List (Entry ℚ)} {g : Grid ℚ}
    (hg : buildGrid entries = some g)
    (hsteps : (buildGrid entries).map (fun g =>
      (g.phiMin, g.phiStep, g.phiSize, g.thetaStep, g.thetaSize)) =
        some (0, 3, 2, 3, 2))
    (hphi : ∀ e ∈ entries, e.phi < 6) : Resolved entries g := by
  rw [hg, Option.map_some, Option.some_inj] at hsteps
  simp only [Prod.mk.injEq] at hsteps
  obtain ⟨hmin, hphiStep, hphiSize, hthetaStep, hthetaSize⟩ := hsteps
  refine ⟨?_, ?_, fun e he => ?_⟩
  · rw [hphiStep, hphiSize]
    norm_num [tol]
  · rw [hthetaStep, hthetaSize]
    norm_num [tol]
  · rw [hmin, sub_zero]
    exact (hphi e he).trans (by norm_num [twoPi])

theorem wellListed_twoFiles : WellListed twoFiles where
  resolved := by
    intro f hf g hg
    rcases List.mem_pair.mp hf with rfl | rfl
    · exact resolved_of_steps hg (by decide +kernel) (by decide +kernel)
    · exact resolved_of_steps hg (by decide +kernel) (by decide +kernel)
  once := by
    unfold SamePoint
    decide +kernel

theorem exists_compiled_twoFiles :
    ∃ src tables, generate twoFiles = some src ∧
      src.compile = some tables := by
  have hsome : ((generate twoFiles).bind Source.compile).isSome = true := by
    decide +kernel
  obtain ⟨tables, htables⟩ := Option.isSome_iff_exists.mp hsome
  obtain ⟨src, hgen, hcompile⟩ := Option.bind_eq_some_iff.mp htables
  exact ⟨src, tables, hgen, hcompile⟩

/-! ### The gain -/

/-- In the direction of any entry of a file, at its frequency, the gain is that
of the last entry for the same point. -/
theorem getGain_of_samePoint {files : List (PatternFile R)} {src : Source R}
    {tables : List (PatternTable R)} (hgen : generate files = some src)
    (hcompile : src.compile = some tables) {f : PatternFile R} (hf : f ∈ files)
    {g : Grid R} (hg : buildGrid f.entries = some g)
    (hfine : Resolved f.entries g) {before after : List (Entry R)}
    {e₀ e : Entry R} (hentries : f.entries = before ++ e :: after)
    (he₀ : e₀ ∈ f.entries) (hpoint : SamePoint e₀ e)
    (hlast : ∀ e' ∈ after, ¬SamePoint e₀ e') :
    getGain tables (f.freqMhz * 10 ^ 6) e₀.theta e₀.phi = some e.gainDb := by
  obtain ⟨hnodup, hne, rfl⟩ := tables_of_generate hgen hcompile
  obtain ⟨phis, thetas, hbuilt⟩ := built_of_buildGrid hg
  have hmem : (f.freqMhz, g) ∈ gridTables files :=
    mem_gridTables.mpr ⟨f, hf, rfl, hg⟩
  have htables : (gridTables files).map gridTable ≠ [] :=
    mt List.map_eq_nil_iff.mp hne
  obtain ⟨tbl, htbl, hnearest, hleast⟩ := nearestTable_spec htables f.freqMhz
  have hfreq : tbl.freqMhz = f.freqMhz := by
    have hle := hleast _ (List.mem_map_of_mem hmem)
    dsimp only [gridTable, Grid.table] at hle
    rw [sub_self, abs_zero] at hle
    exact (sub_eq_zero.mp (abs_nonpos_iff.mp hle)).symm
  obtain ⟨x, hx, rfl⟩ := List.mem_map.mp htbl
  have hsame : x = (f.freqMhz, g) :=
    List.inj_on_of_nodup_map hnodup hx hmem (congrArg freqTag hfreq)
  subst hsame
  rw [getGain, megahertz_eq, mul_div_cancel_right₀ _ (by norm_num), hnearest,
    Option.bind_some]
  exact hbuilt.lookupGain_eq hfine hentries he₀ hpoint hlast f.freqMhz

/-- The gain of an antenna is that of a measured point: at its frequency and in
its direction, what the file lists last for the point is found. -/
theorem getGain_of_measured {files : List (PatternFile R)} {src : Source R}
    {tables : List (PatternTable R)} (hgen : generate files = some src)
    (hcompile : src.compile = some tables) {f : PatternFile R} (hf : f ∈ files)
    {g : Grid R} (hg : buildGrid f.entries = some g)
    (hfine : Resolved f.entries g) {before after : List (Entry R)} {e : Entry R}
    (hentries : f.entries = before ++ e :: after)
    (hlast : ∀ e' ∈ after, ¬SamePoint e e') :
    getGain tables (f.freqMhz * 10 ^ 6) e.theta e.phi = some e.gainDb := by
  have he : e ∈ f.entries := by
    rw [hentries]
    exact List.mem_append_right _ List.mem_cons_self
  exact getGain_of_samePoint hgen hcompile hf hg hfine hentries he
    (SamePoint.refl e) hlast

/-- A point of the second file. -/
theorem getGain_of_measured_twoFiles :
    ∃ src tables, generate twoFiles = some src ∧ src.compile = some tables ∧
      getGain tables 2100000000 3 0 = some (-10 - 1) := by
  obtain ⟨src, tables, hgen, hcompile⟩ := exists_compiled_twoFiles
  have hsome : (buildGrid (fourDirections (-10))).isSome = true := by
    decide +kernel
  obtain ⟨g, hg⟩ := Option.isSome_iff_exists.mp hsome
  have hmem : (⟨2100, fourDirections (-10)⟩ : PatternFile ℚ) ∈ twoFiles :=
    List.mem_cons_of_mem _ List.mem_cons_self
  have hentries : fourDirections (-10) = [⟨0, 0, -10⟩] ++ ⟨0, 3, -10 - 1⟩ ::
      [⟨3, 0, -10 - 2⟩, ⟨3, 3, -10 - 3⟩] := rfl
  have hlast : ∀ e' ∈ [(⟨3, 0, -10 - 2⟩ : Entry ℚ), ⟨3, 3, -10 - 3⟩],
      ¬SamePoint ⟨0, 3, -10 - 1⟩ e' := by
    unfold SamePoint
    decide +kernel
  have hgain := getGain_of_measured hgen hcompile hmem hg
    (wellListed_twoFiles.resolved _ hmem g hg) hentries hlast
  refine ⟨src, tables, hgen, hcompile, ?_⟩
  convert hgain using 2
  norm_num

/-- In every direction and at every frequency the gain of an antenna has been
measured: at the nearest of the measured frequencies, not further away than the
grid makes it. -/
theorem getGain_near {files : List (PatternFile R)} {src : Source R}
    {tables : List (PatternTable R)} (hgen : generate files = some src)
    (hcompile : src.compile = some tables) (hfiles : WellListed files)
    (freqHz theta phi : R) :
    ∃ f ∈ files, ∃ g, buildGrid f.entries = some g ∧
      (∀ f' ∈ files, (buildGrid f'.entries).isSome = true →
        |freqHz / 10 ^ 6 - f.freqMhz| ≤ |freqHz / 10 ^ 6 - f'.freqMhz|) ∧
      ∃ e ∈ f.entries, getGain tables freqHz theta phi = some e.gainDb ∧
        |clamp theta g.thetaMin (thetaMax (gridTable (f.freqMhz, g))) -
          e.theta| ≤ g.thetaStep / 2 + g.thetaSize * tol ∧
        ∃ k q : ℤ, |phi - e.phi - k * twoPi - q * (g.phiSize * g.phiStep)| ≤
          g.phiStep / 2 + g.phiSize * tol := by
  obtain ⟨-, hne, rfl⟩ := tables_of_generate hgen hcompile
  have htables : (gridTables files).map gridTable ≠ [] :=
    mt List.map_eq_nil_iff.mp hne
  obtain ⟨tbl, htbl, hnearest, hleast⟩ := nearestTable_spec htables
    (freqHz / 10 ^ 6)
  obtain ⟨x, hx, rfl⟩ := List.mem_map.mp htbl
  obtain ⟨f, hf, hfreq, hg⟩ := mem_gridTables.mp hx
  obtain ⟨phis, thetas, hbuilt⟩ := built_of_buildGrid hg
  obtain ⟨e, he, hlookup, htheta, hphi⟩ := hbuilt.lookupGain_near
    (hfiles.resolved f hf x.2 hg) (hfiles.once f hf) x.1 theta phi
  refine ⟨f, hf, x.2, hg, fun f' hf' hsome => ?_, e, he, ?_, ?_, hphi⟩
  · obtain ⟨g', hg'⟩ := Option.isSome_iff_exists.mp hsome
    have hmem : (f'.freqMhz, g') ∈ gridTables files :=
      mem_gridTables.mpr ⟨f', hf', rfl, hg'⟩
    rw [hfreq]
    exact hleast _ (List.mem_map_of_mem hmem)
  · rw [getGain, megahertz_eq, hnearest, Option.bind_some]
    exact hlookup
  · exact htheta

/-- Up and down a little, at another frequency. -/
theorem getGain_near_twoFiles :
    ∃ src tables, generate twoFiles = some src ∧ src.compile = some tables ∧
      ∃ f ∈ twoFiles, ∃ g, buildGrid f.entries = some g ∧
        (∀ f' ∈ twoFiles, (buildGrid f'.entries).isSome = true →
          |3400000000 / 10 ^ 6 - f.freqMhz| ≤
            |3400000000 / 10 ^ 6 - f'.freqMhz|) ∧
        ∃ e ∈ f.entries, getGain tables 3400000000 2 (-1) = some e.gainDb ∧
          |clamp 2 g.thetaMin (thetaMax (gridTable (f.freqMhz, g))) -
            e.theta| ≤ g.thetaStep / 2 + g.thetaSize * tol ∧
          ∃ k q : ℤ, |-1 - e.phi - k * twoPi -
            q * (g.phiSize * g.phiStep)| ≤
              g.phiStep / 2 + g.phiSize * tol := by
  obtain ⟨src, tables, hgen, hcompile⟩ := exists_compiled_twoFiles
  exact ⟨src, tables, hgen, hcompile,
    getGain_near hgen hcompile wellListed_twoFiles 3400000000 2 (-1)⟩

end Antennas
end Chem
