import ChemEmulator.Support.FloatValue
import ChemEmulator.Support.ScatteredSum
import Mathlib.Data.List.Fold
import Mathlib.Data.List.MinMax

/-!
# From paths to taps

`extensions/sionna/src/sionna_client.cpp`, `cirToTaps`: the delays and complex
gains of the paths between two devices become the taps of a filter.  The three
vectors may differ in length; a path is an entry of all of them.

Two loops compute the index of every path and leave out the ones from
`cir_max_taps` on, the first to find the size of the vector, the second to add
the gains up.  The numbers behind the indices are a parameter: exact arithmetic,
or doubles that become a `size_t`.
-/

namespace Chem
namespace SionnaExtension

open ScatteredSum

variable {D G K : Type}

/-! ## Indices -/

/-- The integer nearest to `q`, halves away from zero. -/
def roundAway (q : ℚ) : ℤ := if 0 ≤ q then ⌊q + 1 / 2⌋ else ⌈q - 1 / 2⌉

/-- The arithmetic of delays and indices. -/
structure IndexArithmetic (D : Type) where
  mul : D → D → D
  /-- `std::round`. -/
  round : D → D
  /-- `static_cast<size_t>`. -/
  toSize : D → ℕ
  /-- The sum of an index and one. -/
  succ : ℕ → ℕ

namespace IndexArithmetic

def exact : IndexArithmetic ℚ where
  mul a b := a * b
  round q := roundAway q
  toSize q := ⌊q⌋.toNat
  succ n := n + 1

/-- What the machine computes with. -/
def double : IndexArithmetic FloatValue where
  mul := .mul 53
  round := .round
  toSize := FloatValue.toUnsigned
  succ n := (n + 1) % 2 ^ 64

end IndexArithmetic

/-! ## The two loops -/

/-- The first `numPaths` entries of the three vectors. -/
def paths (delays : List D) (gainsRe gainsIm : List G) : List (D × G × G) :=
  delays.zip (gainsRe.zip gainsIm)

/-- `idx`. -/
def sampleIndex (I : IndexArithmetic D) (sampleRate : D) (p : D × G × G) : ℕ :=
  I.toSize (I.round (I.mul p.1 sampleRate))

/-- The condition under which both loops go on to the next path. -/
def skipped (maxTaps : ℤ) (idx : ℕ) : Bool := 0 < maxTaps ∧ maxTaps ≤ idx

/-- `maxIdx` after the first loop. -/
def maxIdx (I : IndexArithmetic D) (maxTaps : ℤ) (sampleRate : D)
    (paths : List (D × G × G)) : ℕ :=
  paths.foldl (fun maxIdx p =>
    let idx := sampleIndex I sampleRate p
    if skipped maxTaps idx then maxIdx else max maxIdx idx) 0

/-- `cirToTaps`; `fc` makes a sample of its two parts. -/
def cirToTaps [Zero K] [Add K] (I : IndexArithmetic D) (fc : G → G → K)
    (cirMaxTaps : ℤ) (delays : List D) (gainsRe gainsIm : List G)
    (sampleRate : D) : List K :=
  let maxTaps := max 0 cirMaxTaps
  let paths := paths delays gainsRe gainsIm
  let taps := List.replicate (I.succ (maxIdx I maxTaps sampleRate paths)) 0
  paths.foldl (fun taps p =>
    let idx := sampleIndex I sampleRate p
    if skipped maxTaps idx then taps
    else if idx < taps.length then taps.modify idx (· + fc p.2.1 p.2.2)
    else taps) taps

/-! ## What they keep -/

/-- The rounded index of a path. -/
def pathIndex (sampleRate : ℚ) (p : ℚ × G × G) : ℤ :=
  roundAway (p.1 * sampleRate)

/-- The complex gain of a path. -/
def pathGain (fc : G → G → K) (p : D × G × G) : K := fc p.2.1 p.2.2

/-- The paths that are not left out. -/
def retained (cirMaxTaps : ℤ) (sampleRate : ℚ) (paths : List (ℚ × G × G)) :
    List (ℚ × G × G) :=
  paths.filter fun p => cirMaxTaps ≤ 0 ∨ pathIndex sampleRate p < cirMaxTaps

section Loops

variable (I : IndexArithmetic D) (maxTaps : ℤ) (sampleRate : D)

/-- The paths with which both loops do something. -/
def counted (paths : List (D × G × G)) : List (D × G × G) :=
  paths.filter fun p => !skipped maxTaps (sampleIndex I sampleRate p)

theorem not_skipped {α : Type} (skip : Bool) (a b : α) :
    (if (!skip) = true then a else b) = if skip = true then b else a :=
  match skip with
  | true => rfl
  | false => rfl

theorem maxIdx_eq (paths : List (D × G × G)) :
    maxIdx I maxTaps sampleRate paths =
      ((counted I maxTaps sampleRate paths).map
        (sampleIndex I sampleRate)).foldr max 0 := by
  rw [← List.foldl_eq_foldr, List.foldl_map, counted, List.foldl_filter]
  unfold maxIdx
  congr 1
  funext m p
  dsimp only
  rw [not_skipped]

theorem modify_guarded [Add K] (taps : List K) (idx : ℕ) (a : K) :
    (if idx < taps.length then taps.modify idx (· + a) else taps) =
      taps.modify idx (· + a) := by
  split_ifs with h
  · rfl
  · exact (List.modify_eq_self (Nat.le_of_not_lt h)).symm

/-- The second loop scatters the gains of the paths that it keeps. -/
theorem cirToTaps_eq_scatter [Zero K] [Add K] (fc : G → G → K)
    (cirMaxTaps : ℤ) (delays : List D) (gainsRe gainsIm : List G) :
    let kept := counted I (max 0 cirMaxTaps) sampleRate
      (paths delays gainsRe gainsIm)
    cirToTaps I fc cirMaxTaps delays gainsRe gainsIm sampleRate =
      scatter (List.replicate (I.succ ((kept.map
          (sampleIndex I sampleRate)).foldr max 0)) 0)
        (kept.map fun p => (sampleIndex I sampleRate p, pathGain fc p)) := by
  intro kept
  rw [cirToTaps, maxIdx_eq, scatter, List.foldl_map]
  simp only [kept, counted, List.foldl_filter, modify_guarded]
  congr 1
  funext taps p
  rw [not_skipped]
  rfl

end Loops

theorem foldr_max_lt {L : Type} [LinearOrder L] {zs : List L} {a b : L}
    (ha : a < b) (h : ∀ z ∈ zs, z < b) : zs.foldr max a < b := by
  induction zs with
  | nil => exact ha
  | cons z zs ih =>
      exact max_lt (h z List.mem_cons_self) (ih fun y hy => h y (.tail z hy))

/-! ## Exact arithmetic -/

section Exact

variable {cirMaxTaps : ℤ} {sampleRate : ℚ} {p : ℚ × G × G}

theorem sampleIndex_exact (h : 0 ≤ pathIndex sampleRate p) :
    (sampleIndex .exact sampleRate p : ℤ) = pathIndex sampleRate p := by
  change ((⌊(pathIndex sampleRate p : ℚ)⌋.toNat : ℕ) : ℤ) = _
  rw [Int.floor_intCast, Int.toNat_of_nonneg h]

theorem counted_exact {paths : List (ℚ × G × G)}
    (h : ∀ p ∈ paths, 0 ≤ pathIndex sampleRate p) :
    counted .exact (max 0 cirMaxTaps) sampleRate paths =
      retained cirMaxTaps sampleRate paths := by
  apply List.filter_congr
  intro p hp
  have hidx := sampleIndex_exact (h p hp)
  rw [skipped, hidx, ← decide_not, decide_eq_decide]
  omega

theorem foldr_max_exact {kept : List (ℚ × G × G)}
    (h : ∀ p ∈ kept, 0 ≤ pathIndex sampleRate p) :
    (((kept.map (sampleIndex .exact sampleRate)).foldr max 0 : ℕ) : ℤ) =
      (kept.map (pathIndex sampleRate)).foldr max 0 := by
  induction kept with
  | nil => rfl
  | cons p kept ih =>
      rw [List.map_cons, List.foldr_cons, Nat.cast_max,
        sampleIndex_exact (h p List.mem_cons_self),
        ih fun q hq => h q (.tail p hq)]
      rfl

/-- No path is retained from `cir_max_taps` on. -/
theorem foldr_max_lt_of_retained {paths : List (ℚ × G × G)}
    (hmax : 0 < cirMaxTaps) :
    ((retained cirMaxTaps sampleRate paths).map
      (pathIndex sampleRate)).foldr max 0 < cirMaxTaps := by
  have hlt : ∀ z ∈ (retained cirMaxTaps sampleRate paths).map
      (pathIndex sampleRate), z < cirMaxTaps := by
    intro z hz
    obtain ⟨p, hp, rfl⟩ := List.mem_map.mp hz
    have hkept := of_decide_eq_true (List.mem_filter.mp hp).2
    omega
  exact foldr_max_lt hmax hlt

/-- The taps are the sums of the gains of the retained paths, index by index, as
far as the last index that is retained. -/
theorem cirToTaps_exact [AddCommMonoid K] (fc : G → G → K) (cirMaxTaps : ℤ)
    (delays : List ℚ) (gainsRe gainsIm : List G) (sampleRate : ℚ)
    (hidx : ∀ p ∈ paths delays gainsRe gainsIm, 0 ≤ pathIndex sampleRate p) :
    let kept := retained cirMaxTaps sampleRate (paths delays gainsRe gainsIm)
    let taps := cirToTaps .exact fc cirMaxTaps delays gainsRe gainsIm sampleRate
    (∀ i (hi : i < taps.length), taps[i] =
      ((kept.filter fun p => pathIndex sampleRate p = i).map
        (pathGain fc)).sum) ∧
    (taps.length : ℤ) = (kept.map (pathIndex sampleRate)).foldr max 0 + 1 ∧
    (0 < cirMaxTaps → (taps.length : ℤ) ≤ cirMaxTaps) ∧
    taps.sum = (kept.map (pathGain fc)).sum := by
  intro kept taps
  have hkept : ∀ p ∈ kept, 0 ≤ pathIndex sampleRate p :=
    fun p hp => hidx p (List.mem_of_mem_filter hp)
  set last := (kept.map (sampleIndex .exact sampleRate)).foldr max 0 with hlast
  have htaps : taps = scatter (List.replicate (last + 1) 0)
      (kept.map fun p => (sampleIndex .exact sampleRate p, pathGain fc p)) := by
    refine (cirToTaps_eq_scatter .exact sampleRate fc cirMaxTaps _ _ _).trans ?_
    rw [counted_exact hidx]
    rfl
  have hlength : taps.length = last + 1 := by
    rw [htaps, length_scatter, List.length_replicate]
  refine ⟨?_, ?_, ?_, ?_⟩
  · intro i hi
    have hentry := getElem?_scatter (List.replicate (last + 1) (0 : K))
      (kept.map fun p => (sampleIndex .exact sampleRate p, pathGain fc p)) i
    rw [← htaps, List.getElem?_eq_getElem hi, List.getElem?_replicate,
      if_pos (hlength ▸ hi), Option.map_some, zero_add,
      List.filter_map, List.map_map] at hentry
    rw [Option.some.inj hentry]
    congr 1
    apply congrArg (List.map (pathGain fc))
    apply List.filter_congr
    intro p hp
    have hcast := sampleIndex_exact (hkept p hp)
    rw [Function.comp_apply, decide_eq_decide, ← hcast]
    exact Nat.cast_inj.symm
  · rw [hlength, Nat.cast_add, hlast, foldr_max_exact hkept]
    rfl
  · intro hmax
    rw [hlength, Nat.cast_add, hlast, foldr_max_exact hkept]
    exact foldr_max_lt_of_retained hmax
  · have hrange : ∀ q ∈ kept.map fun p =>
        (sampleIndex .exact sampleRate p, pathGain fc p),
        q.1 < (List.replicate (last + 1) (0 : K)).length := by
      intro q hq
      obtain ⟨p, hp, rfl⟩ := List.mem_map.mp hq
      rw [List.length_replicate]
      exact Nat.lt_succ_of_le (List.le_max_of_le' 0
        (List.mem_map_of_mem hp) le_rfl)
    rw [htaps, sum_scatter _ hrange, List.sum_replicate, nsmul_zero, zero_add,
      List.map_map]
    rfl

/-- Two of four paths fall together. -/
theorem cirToTaps_exact_collision :
    (cirToTaps .exact Prod.mk 4 [0, 1 / 2, 1 / 2, 3] [1, 2, 3, 4] [0, 1, 0, 0]
      2).sum = ((6, 1) : ℤ × ℤ) := by
  have htaps := cirToTaps_exact (K := ℤ × ℤ) Prod.mk 4 [0, 1 / 2, 1 / 2, 3]
    [1, 2, 3, 4] [0, 1, 0, 0] 2 (by decide +kernel)
  exact htaps.2.2.2.trans (by decide +kernel)

end Exact

/-! ## Doubles -/

/-- Arithmetics that agree on the indices of the paths give the same taps. -/
theorem cirToTaps_congr {E : Type} [Zero K] [Add K] {I : IndexArithmetic D}
    {J : IndexArithmetic E} (f : D → E) (fc : G → G → K) (cirMaxTaps : ℤ)
    {delays : List D} {gainsRe gainsIm : List G} {sampleRate : D} {b : ℕ}
    (hb : 0 < b)
    (hidx : ∀ p ∈ paths delays gainsRe gainsIm,
      sampleIndex J (f sampleRate) (Prod.map f id p) =
        sampleIndex I sampleRate p ∧ sampleIndex I sampleRate p < b)
    (hsucc : ∀ n, n < b → J.succ n = I.succ n) :
    cirToTaps J fc cirMaxTaps (delays.map f) gainsRe gainsIm (f sampleRate) =
      cirToTaps I fc cirMaxTaps delays gainsRe gainsIm sampleRate := by
  have hcounted : counted J (max 0 cirMaxTaps) (f sampleRate)
        (paths (delays.map f) gainsRe gainsIm) =
      (counted I (max 0 cirMaxTaps) sampleRate
        (paths delays gainsRe gainsIm)).map (Prod.map f id) := by
    rw [paths, List.zip_map_left, counted, List.filter_map]
    congr 1
    apply List.filter_congr
    intro p hp
    rw [Function.comp_apply, (hidx p hp).1]
  have hmap : ((counted I (max 0 cirMaxTaps) sampleRate
        (paths delays gainsRe gainsIm)).map (Prod.map f id)).map
          (sampleIndex J (f sampleRate)) =
      (counted I (max 0 cirMaxTaps) sampleRate
        (paths delays gainsRe gainsIm)).map (sampleIndex I sampleRate) := by
    rw [List.map_map]
    apply List.map_congr_left
    intro p hp
    exact (hidx p (List.mem_of_mem_filter hp)).1
  have hlt : ((counted I (max 0 cirMaxTaps) sampleRate
      (paths delays gainsRe gainsIm)).map
        (sampleIndex I sampleRate)).foldr max 0 < b := by
    apply foldr_max_lt hb
    intro n hn
    obtain ⟨p, hp, rfl⟩ := List.mem_map.mp hn
    exact (hidx p (List.mem_of_mem_filter hp)).2
  rw [cirToTaps_eq_scatter, cirToTaps_eq_scatter, hcounted, hmap, hsucc _ hlt,
    List.map_map]
  congr 1
  apply List.map_congr_left
  intro p hp
  exact Prod.ext (hidx p (List.mem_of_mem_filter hp)).1 rfl

/-- As long as the products are exact and the indices fit into 63 bits, doubles
give the same taps. -/
theorem cirToTaps_double [Zero K] [Add K] (fc : G → G → K) (cirMaxTaps : ℤ)
    {delays : List ℚ} (gainsRe gainsIm : List G) {sampleRate : ℚ}
    (hexact : ∀ d ∈ delays,
      FloatValue.roundBinary 53 (d * sampleRate) = d * sampleRate)
    (hrange : ∀ d ∈ delays,
      0 ≤ d * sampleRate ∧ d * sampleRate < 2 ^ 63 - 1) :
    cirToTaps .double fc cirMaxTaps (delays.map .finite) gainsRe gainsIm
        (.finite sampleRate) =
      cirToTaps .exact fc cirMaxTaps delays gainsRe gainsIm sampleRate := by
  apply cirToTaps_congr FloatValue.finite fc cirMaxTaps
    (show 0 < 2 ^ 63 by decide)
  · intro p hp
    have hdelay : p.1 ∈ delays := (List.of_mem_zip hp).1
    obtain ⟨hlow, hhigh⟩ := hrange p.1 hdelay
    have hdouble : sampleIndex .double (.finite sampleRate)
        (Prod.map FloatValue.finite id p) = ⌊p.1 * sampleRate + 1 / 2⌋₊ := by
      have hmul : FloatValue.mul 53 (.finite p.1) (.finite sampleRate) =
          .finite (p.1 * sampleRate) :=
        congrArg FloatValue.finite (hexact p.1 hdelay)
      rw [← FloatValue.toUnsigned_round hlow (by linarith), ← hmul]
      rfl
    have hfloor : sampleIndex .exact sampleRate p =
        ⌊p.1 * sampleRate + 1 / 2⌋₊ := by
      change (⌊((roundAway (p.1 * sampleRate) : ℤ) : ℚ)⌋).toNat = _
      rw [Int.floor_intCast, roundAway, if_pos hlow, Int.floor_toNat]
    refine ⟨hdouble.trans hfloor.symm, ?_⟩
    rw [hfloor, Nat.floor_lt (by positivity)]
    push_cast
    linarith
  · intro n hn
    exact Nat.mod_eq_of_lt (by omega)

end SionnaExtension
end Chem
