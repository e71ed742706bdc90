import ChemEmulator.Channel.Geometry
import Mathlib.Analysis.SpecialFunctions.Trigonometric.Arctan

/-!
# Reciprocity of the two links of a pair

`configChannels` computes distance, elevation and Doppler shift for each
direction separately.  What it computes from differences of coordinates is the
same in both directions up to the sign.  `calcDistance` comes with guards on
single coordinates: a latitude or a longitude of zero is taken for a missing
one.  The latitude of the source is tested and that of the destination is not,
so the two directions agree only where no guard fires, or where both do.
-/

namespace Chem
namespace Geometry

variable {R : Type} [Field R] [LinearOrder R] [IsStrictOrderedRing R]
variable {T : Trigonometry R}

/-! ## Differences of coordinates -/

omit [LinearOrder R] [IsStrictOrderedRing R] in
theorem latAvgRad_comm (a b : R) : latAvgRad a b = latAvgRad b a := by
  unfold latAvgRad
  rw [add_comm]

omit [LinearOrder R] [IsStrictOrderedRing R] in
theorem northM_neg (a b : R) : northM b a = -northM a b := by
  unfold northM
  ring

omit [LinearOrder R] [IsStrictOrderedRing R] in
theorem eastM_neg (T : Trigonometry R) (lat1 lon1 lat2 lon2 : R) :
    eastM T lat2 lon2 lat1 lon1 = -eastM T lat1 lon1 lat2 lon2 := by
  unfold eastM
  rw [latAvgRad_comm]
  ring

theorem metersPerDeg_ne_zero : (metersPerDeg : R) ≠ 0 := by
  unfold metersPerDeg
  norm_num

theorem northM_eq_zero_iff {a b : R} : northM a b = 0 ↔ a = b := by
  unfold northM
  rw [mul_eq_zero, or_iff_left metersPerDeg_ne_zero, sub_eq_zero, eq_comm]

theorem eastM_eq_zero_iff {lat1 lon1 lat2 lon2 : R} :
    eastM T lat1 lon1 lat2 lon2 = 0 ↔
      lon1 = lon2 ∨ T.cos (latAvgRad lat1 lat2) = 0 := by
  unfold eastM
  rw [mul_eq_zero, mul_eq_zero, or_iff_left metersPerDeg_ne_zero, sub_eq_zero,
    eq_comm]

/-- The distance before the guards. -/
def groundRange (T : Trigonometry R) (x y : Location R) : R :=
  T.sqrt (northM x.lat y.lat * northM x.lat y.lat +
    eastM T x.lat x.lon y.lat y.lon * eastM T x.lat x.lon y.lat y.lon)

omit [LinearOrder R] [IsStrictOrderedRing R] in
theorem groundRange_comm (x y : Location R) :
    groundRange T y x = groundRange T x y := by
  unfold groundRange
  rw [northM_neg x.lat, eastM_neg T x.lat, neg_mul_neg, neg_mul_neg]

theorem groundRange_eq_zero_iff (hT : T.Exact) {x y : Location R} :
    groundRange T x y = 0 ↔ x.lat = y.lat ∧
      (x.lon = y.lon ∨ T.cos (latAvgRad x.lat y.lat) = 0) := by
  have hsum : ∀ a b : R, a * a + b * b = 0 ↔ a = 0 ∧ b = 0 :=
    fun a b => mul_self_add_mul_self_eq_zero
  have hnonneg : ∀ a b : R, 0 ≤ a * a + b * b :=
    fun a b => add_nonneg (mul_self_nonneg a) (mul_self_nonneg b)
  unfold groundRange
  rw [hT.sqrt_eq_zero _ (hnonneg _ _), hsum, northM_eq_zero_iff,
    eastM_eq_zero_iff]

/-- A guard of `calcDistance` for the link from `x` to `y`. -/
def Guarded (x y : Location R) : Prop :=
  x.lat = 0 ∨ x.lon = 0 ∨ y.lon = 0

omit [IsStrictOrderedRing R] in
theorem calcDistance_of_guarded {x y : Location R} (h : Guarded x y) :
    calcDistance T x.lat x.lon y.lat y.lon = 0 := if_pos (Or.inr h)

omit [IsStrictOrderedRing R] in
theorem calcDistance_of_not_guarded {x y : Location R} (h : ¬Guarded x y) :
    calcDistance T x.lat x.lon y.lat y.lon = groundRange T x y :=
  if_neg fun hguard => h (hguard.elim Or.inl id)

omit [IsStrictOrderedRing R] in
theorem elevationOf_neg (hodd : ∀ x, T.atan (-x) = -T.atan x)
    (dist dAlt : R) :
    elevationOf T dist (-dAlt) = -elevationOf T dist dAlt := by
  unfold elevationOf
  split_ifs
  · rw [neg_div, hodd]
    ring
  · exact neg_zero.symm

omit [LinearOrder R] [IsStrictOrderedRing R] in
theorem rangeM_comm (x y : Location R) : rangeM T y x = rangeM T x y := by
  unfold rangeM
  dsimp only
  rw [northM_neg x.lat, eastM_neg T x.lat, neg_mul_neg, neg_mul_neg,
    ← neg_sub y.alt x.alt, neg_mul_neg]

omit [IsStrictOrderedRing R] in
/-- Both the direction and the relative velocity change their sign. -/
theorem dopplerOf_comm (freq : R) (loc1 loc2 : NodeLocation R) :
    dopplerOf T freq loc2 loc1 = dopplerOf T freq loc1 loc2 := by
  unfold dopplerOf
  dsimp only
  rw [rangeM_comm, northM_neg loc1.position.lat, eastM_neg T loc1.position.lat]
  split_ifs
  · ring
  · rfl

/-! ## The two directions -/

/-- What the two links of a pair have in common. -/
structure Reciprocal (x y : Location R) (out back : LinkChannel R) : Prop where
  dist : out.linkInfo.dist = back.linkInfo.dist
  hDist : out.linkInfo.hDist = back.linkInfo.hDist
  elevation : out.linkInfo.elevation = -back.linkInfo.elevation
  doppler : out.dopplerEnabled = true → back.dopplerEnabled = true →
    out.dopplerHz = back.dopplerHz
  apart : out.linkInfo.dist = 0 → x.lat = y.lat ∧ x.lon = y.lon

/-- The nodes are in one place, or no coordinate is taken for a missing one and
a difference in longitude is a distance. -/
def Regular (T : Trigonometry R) (x y : Location R) : Prop :=
  (x.lat = y.lat ∧ x.lon = y.lon) ∨
    ((x.lat ≠ 0 ∧ x.lon ≠ 0 ∧ y.lat ≠ 0 ∧ y.lon ≠ 0) ∧
      ¬(x.lat = y.lat ∧ T.cos (latAvgRad x.lat y.lat) = 0))

variable {loc1 loc2 : NodeLocation R} {freq : R}

omit [IsStrictOrderedRing R] in
/-- Altitude difference and Doppler shift need no condition. -/
theorem reciprocal_config_iff (hT : T.Exact) (out back : LinkChannel R) :
    Reciprocal loc1.position loc2.position (out.config T freq loc1 loc2)
        (back.config T freq loc2 loc1) ↔
      calcDistance T loc1.position.lat loc1.position.lon loc2.position.lat
          loc2.position.lon =
        calcDistance T loc2.position.lat loc2.position.lon loc1.position.lat
          loc1.position.lon ∧
      (calcDistance T loc1.position.lat loc1.position.lon loc2.position.lat
          loc2.position.lon = 0 → loc1.position.lat = loc2.position.lat ∧
        loc1.position.lon = loc2.position.lon) := by
  constructor
  · intro h
    exact ⟨h.dist, h.apart⟩
  · rintro ⟨hdist, hapart⟩
    refine ⟨hdist, abs_sub_comm _ _, ?_, ?_, hapart⟩
    · unfold LinkChannel.config
      dsimp only
      rw [hdist, ← elevationOf_neg hT.atan_neg, neg_sub]
    · intro hout hback
      have hout : out.dopplerEnabled = true := hout
      have hback : back.dopplerEnabled = true := hback
      unfold LinkChannel.config
      dsimp only
      rw [if_pos hout, if_pos hback]
      exact (dopplerOf_comm freq loc1 loc2).symm

/-- The guards of the two directions. -/
theorem distances_agree_iff (hT : T.Exact) (x y : Location R) :
    (calcDistance T x.lat x.lon y.lat y.lon =
        calcDistance T y.lat y.lon x.lat x.lon ∧
      (calcDistance T x.lat x.lon y.lat y.lon = 0 →
        x.lat = y.lat ∧ x.lon = y.lon)) ↔ Regular T x y := by
  have hzero := groundRange_eq_zero_iff hT (x := x) (y := y)
  unfold Regular
  by_cases hsame : x.lat = y.lat ∧ x.lon = y.lon
  · have hlat := hsame.1
    have hlon := hsame.2
    refine iff_of_true ⟨?_, fun _ => hsame⟩ (Or.inl hsame)
    rw [hlat, hlon]
  · rw [or_iff_right hsame]
    by_cases hout : Guarded x y
    · rw [calcDistance_of_guarded hout]
      refine iff_of_false (fun h => hsame (h.2 rfl)) ?_
      rintro ⟨⟨hlat, hlon, -, hlon'⟩, -⟩
      rcases hout with h | h | h
      · exact hlat h
      · exact hlon h
      · exact hlon' h
    · rw [calcDistance_of_not_guarded hout]
      have hlat : x.lat ≠ 0 := fun h => hout (Or.inl h)
      have hlon : x.lon ≠ 0 := fun h => hout (Or.inr (Or.inl h))
      have hlon' : y.lon ≠ 0 := fun h => hout (Or.inr (Or.inr h))
      by_cases hlat' : y.lat = 0
      · -- only the way back is guarded, and the latitudes differ
        have hne : groundRange T x y ≠ 0 := by
          intro h
          exact hlat ((hzero.mp h).1.trans hlat')
        rw [calcDistance_of_guarded (x := y) (y := x) (Or.inl hlat')]
        exact iff_of_false (fun h => hne h.1) fun h => h.1.2.2.1 hlat'
      · have hback : ¬Guarded y x := by
          rintro (h | h | h)
          · exact hlat' h
          · exact hlon' h
          · exact hlon h
        rw [calcDistance_of_not_guarded hback, groundRange_comm x y]
        constructor
        · rintro ⟨-, hapart⟩
          exact ⟨⟨hlat, hlon, hlat', hlon'⟩, fun hcos => hsame
            (hapart (hzero.mpr ⟨hcos.1, Or.inr hcos.2⟩))⟩
        · rintro ⟨-, hcos⟩
          refine ⟨rfl, fun h => ?_⟩
          obtain ⟨heq, hlons | hpole⟩ := hzero.mp h
          · exact ⟨heq, hlons⟩
          · exact absurd ⟨heq, hpole⟩ hcos

/-- After `configChannels` the two links of a pair of located nodes are
reciprocal exactly for regular locations. -/
theorem reciprocal_iff_regular (hT : T.Exact)
    {nodes : FiniteMap NodeId (LocatedNode R)}
    {intermediates : FiniteMap R (ChannelMap R)} {s d : NodeId}
    {out back : LinkChannel R}
    (hout : linkAt intermediates freq s d = some out)
    (hback : linkAt intermediates freq d s = some back)
    (hs : findLoc nodes s = some loc1) (hd : findLoc nodes d = some loc2) :
    (∃ out' back',
      linkAt (configChannels T nodes intermediates) freq s d = some out' ∧
      linkAt (configChannels T nodes intermediates) freq d s = some back' ∧
      Reciprocal loc1.position loc2.position out' back') ↔
        Regular T loc1.position loc2.position := by
  have hout' := linkAt_config (T := T) hout hs hd
  have hback' := linkAt_config (T := T) hback hd hs
  rw [← distances_agree_iff hT, ← reciprocal_config_iff hT out back]
  constructor
  · rintro ⟨out', back', h1, h2, hrec⟩
    cases hout'.symm.trans h1
    cases hback'.symm.trans h2
    exact hrec
  · intro hrec
    exact ⟨_, _, hout', hback', hrec⟩

/-! ## Two nodes -/

/-- The functions themselves. -/
noncomputable def realTrigonometry : Trigonometry ℝ where
  sin := Real.sin
  cos := Real.cos
  atan := Real.arctan
  atan2 y x := (Complex.mk x y).arg
  sqrt := Real.sqrt
  fmod x y := x - y * if 0 ≤ x / y then ⌊x / y⌋ else ⌈x / y⌉

theorem exact_realTrigonometry : realTrigonometry.Exact :=
  ⟨Real.arctan_neg, fun _ hx => Real.sqrt_eq_zero hx⟩

/-- Two nodes at rest. -/
def twoNodes (x y : Location ℝ) : FiniteMap NodeId (LocatedNode ℝ) :=
  (AList.singleton "tower" ⟨"tower", some ⟨x, ⟨0, 0, 0⟩⟩⟩).insert "rover"
    ⟨"rover", some ⟨y, ⟨0, 0, 0⟩⟩⟩

/-- A new link with Doppler. -/
noncomputable def newLink (source dest : NodeId) : LinkChannel ℝ where
  source := source
  dest := dest
  linkInfo := ⟨0, 0, 0, 0⟩
  txHeight := initialHeight
  rxHeight := initialHeight
  plDb := 0
  dopplerEnabled := true
  dopplerHz := 0

/-- Both links of the two nodes. -/
noncomputable def bothLinks : ChannelMap ℝ where
  channels := ((∅ : FiniteMap (NodeId × NodeId) (LinkChannel ℝ)).insert
    ("tower", "rover") (newLink "tower" "rover")).insert ("rover", "tower")
      (newLink "rover" "tower")
  keyed := by
    refine FiniteMap.All.insert (FiniteMap.All.insert FiniteMap.all_empty ?_) ?_
    · rfl
    · rfl

/-- One frequency. -/
noncomputable def oneFrequency : FiniteMap ℝ (ChannelMap ℝ) :=
  AList.singleton 3400000000 bothLinks

theorem linkAt_oneFrequency :
    linkAt oneFrequency 3400000000 "tower" "rover" =
        some (newLink "tower" "rover") ∧
      linkAt oneFrequency 3400000000 "rover" "tower" =
        some (newLink "rover" "tower") := by
  have hlookup : oneFrequency.lookup 3400000000 = some bothLinks := by
    simp [oneFrequency, AList.lookup]
  constructor
  · rw [linkAt, hlookup]
    rfl
  · rw [linkAt, hlookup]
    rfl

theorem reciprocal_at_raleigh :
    ∃ out back,
      linkAt (configChannels realTrigonometry
        (twoNodes ⟨35, -78, 20⟩ ⟨36, -79, 50⟩) oneFrequency) 3400000000
        "tower" "rover" = some out ∧
      linkAt (configChannels realTrigonometry
        (twoNodes ⟨35, -78, 20⟩ ⟨36, -79, 50⟩) oneFrequency) 3400000000
        "rover" "tower" = some back ∧
      Reciprocal ⟨35, -78, 20⟩ ⟨36, -79, 50⟩ out back := by
  have hs : findLoc (twoNodes ⟨35, -78, 20⟩ ⟨36, -79, 50⟩) "tower" =
      some ⟨⟨35, -78, 20⟩, ⟨0, 0, 0⟩⟩ := rfl
  have hd : findLoc (twoNodes ⟨35, -78, 20⟩ ⟨36, -79, 50⟩) "rover" =
      some ⟨⟨36, -79, 50⟩, ⟨0, 0, 0⟩⟩ := rfl
  refine (reciprocal_iff_regular exact_realTrigonometry linkAt_oneFrequency.1
    linkAt_oneFrequency.2 hs hd).mpr (Or.inr ⟨?_, ?_⟩)
  · norm_num
  · norm_num

/-- A tower on the equator: its link has length zero, and the link back has
not. -/
theorem equator_breaks_reciprocity :
    ¬∃ out back,
      linkAt (configChannels realTrigonometry
        (twoNodes ⟨0, 10, 20⟩ ⟨1, 10, 50⟩) oneFrequency) 3400000000
        "tower" "rover" = some out ∧
      linkAt (configChannels realTrigonometry
        (twoNodes ⟨0, 10, 20⟩ ⟨1, 10, 50⟩) oneFrequency) 3400000000
        "rover" "tower" = some back ∧
      Reciprocal ⟨0, 10, 20⟩ ⟨1, 10, 50⟩ out back := by
  rintro ⟨out, back, hout, hback, hrec⟩
  have hs : findLoc (twoNodes ⟨0, 10, 20⟩ ⟨1, 10, 50⟩) "tower" =
      some ⟨⟨0, 10, 20⟩, ⟨0, 0, 0⟩⟩ := rfl
  have hd : findLoc (twoNodes ⟨0, 10, 20⟩ ⟨1, 10, 50⟩) "rover" =
      some ⟨⟨1, 10, 50⟩, ⟨0, 0, 0⟩⟩ := rfl
  have hout' := linkAt_config (T := realTrigonometry) linkAt_oneFrequency.1 hs
    hd
  cases hout'.symm.trans hout
  have hzero : calcDistance realTrigonometry (0 : ℝ) 10 1 10 = 0 :=
    calcDistance_of_guarded (x := ⟨0, 10, 20⟩) (y := ⟨1, 10, 50⟩) (Or.inl rfl)
  exact zero_ne_one (hrec.apart hzero).1

end Geometry
end Chem
