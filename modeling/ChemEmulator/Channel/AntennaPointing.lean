import ChemEmulator.Channel.LinkReciprocity

/-!
# Where the antennas point

`src/chem/dsp/antenna_prop.cpp`: the angles at which `compute_antenna_gain_db`
evaluates an antenna, and its two calls in `computeLinkBudget`.  Elevation and
azimuth of a link are seen from its source.  For the receiver the azimuth is
turned around and the elevation is taken as it is, so the antenna of a node that
lies above another one looks down when it sends and up when it receives.
-/

namespace Chem
namespace Geometry

variable {R : Type} [Field R] [LinearOrder R] [IsStrictOrderedRing R]
variable {T : Trigonometry R}

/-! ## The polar angle -/

omit [LinearOrder R] [IsStrictOrderedRing R] in
theorem pi_ne_zero [CharZero R] : (pi : R) ≠ 0 := by
  unfold pi
  norm_num

/-- Upwards and downwards are told apart. -/
theorem thetaDeg_neg_iff {e : R} : thetaDeg (-e) = thetaDeg e ↔ e = 0 := by
  unfold thetaDeg clamp
  constructor
  · intro h
    split_ifs at h <;> linarith
  · rintro rfl
    rw [neg_zero]

/-- The horizon is told apart from everything else. -/
theorem thetaDeg_zero_iff {e : R} : thetaDeg 0 = thetaDeg e ↔ e = 0 := by
  unfold thetaDeg clamp
  constructor
  · intro h
    split_ifs at h <;> linarith
  · rintro rfl
    rfl

theorem thetaRad_inj {a b : R} :
    thetaRad a = thetaRad b ↔ thetaDeg a = thetaDeg b := by
  have hne : (pi / 180 : R) ≠ 0 := div_ne_zero pi_ne_zero (by norm_num)
  exact mul_left_inj' hne

/-- Above the distance threshold the elevation is zero where the arc tangent
is. -/
theorem elevationOf_eq_zero_iff {dist dAlt : R} (h : 1 / 100 < dist) :
    elevationOf T dist dAlt = 0 ↔ T.atan (dAlt / dist) = 0 := by
  unfold elevationOf
  rw [if_pos h, div_eq_zero_iff, or_iff_left pi_ne_zero, mul_eq_zero,
    or_iff_left (by norm_num)]

omit [IsStrictOrderedRing R] in
theorem elevationOf_zero (dAlt : R) (h : ¬(1 / 100 < (0 : R))) :
    elevationOf T 0 dAlt = 0 := if_neg h

/-! ## Transmitting and receiving -/

/-- Both links are taken to have length zero. -/
def BothGuarded (x y : Location R) : Prop :=
  x.lon = 0 ∨ y.lon = 0 ∨ (x.lat = 0 ∧ y.lat = 0)

omit [LinearOrder R] [IsStrictOrderedRing R] in
theorem bothGuarded_iff {x y : Location R} :
    BothGuarded x y ↔ Guarded x y ∧ Guarded y x := by
  unfold BothGuarded Guarded
  tauto

variable {loc1 loc2 : NodeLocation R} {freq : R}

/-- The antenna of the first node on the link to the second and on the link
back. -/
theorem thetas_agree_iff (hodd : ∀ x, T.atan (-x) = -T.atan x)
    (hfar : 1 / 100 < groundRange T loc1.position loc2.position)
    (freq : R) (out back : LinkChannel R) :
    (antennaAngles T false (back.config T freq loc2 loc1)).1 =
        (antennaAngles T true (out.config T freq loc1 loc2)).1 ↔
      BothGuarded loc1.position loc2.position ∨
        T.atan ((loc2.position.alt - loc1.position.alt) /
          groundRange T loc1.position loc2.position) = 0 := by
  have hnear : ¬(1 / 100 < (0 : R)) := by norm_num
  rw [bothGuarded_iff, ← elevationOf_eq_zero_iff hfar]
  unfold antennaAngles LinkChannel.config
  dsimp only
  rw [thetaRad_inj]
  by_cases hout : Guarded loc1.position loc2.position
  · rw [calcDistance_of_guarded hout, elevationOf_zero _ hnear]
    by_cases hback : Guarded loc2.position loc1.position
    · rw [calcDistance_of_guarded hback, elevationOf_zero _ hnear]
      exact iff_of_true rfl (Or.inl ⟨hout, hback⟩)
    · rw [calcDistance_of_not_guarded hback, groundRange_comm loc1.position,
        ← neg_sub loc2.position.alt, elevationOf_neg hodd, eq_comm,
        thetaDeg_zero_iff, neg_eq_zero, or_iff_right fun h => hback h.2]
  · rw [calcDistance_of_not_guarded hout, or_iff_right fun h => hout h.1]
    by_cases hback : Guarded loc2.position loc1.position
    · rw [calcDistance_of_guarded hback, elevationOf_zero _ hnear,
        thetaDeg_zero_iff]
    · rw [calcDistance_of_not_guarded hback, groundRange_comm loc1.position,
        ← neg_sub loc2.position.alt, elevationOf_neg hodd, thetaDeg_neg_iff]

/-- After `configChannels` a node is seen under one polar angle in both roles
exactly if the other one lies on its horizon or both links are taken to have
length zero. -/
theorem pointing_agrees_iff (hodd : ∀ x, T.atan (-x) = -T.atan x)
    {nodes : FiniteMap NodeId (LocatedNode R)}
    {intermediates : FiniteMap R (ChannelMap R)} {x y : NodeId}
    {out back : LinkChannel R}
    (hout : linkAt intermediates freq x y = some out)
    (hback : linkAt intermediates freq y x = some back)
    (hx : findLoc nodes x = some loc1) (hy : findLoc nodes y = some loc2)
    (hfar : 1 / 100 < groundRange T loc1.position loc2.position) :
    (∃ out' back',
      linkAt (configChannels T nodes intermediates) freq x y = some out' ∧
      linkAt (configChannels T nodes intermediates) freq y x = some back' ∧
      (antennaAngles T false back').1 = (antennaAngles T true out').1) ↔
        BothGuarded loc1.position loc2.position ∨
          T.atan ((loc2.position.alt - loc1.position.alt) /
            groundRange T loc1.position loc2.position) = 0 := by
  have hout' := linkAt_config (T := T) hout hx hy
  have hback' := linkAt_config (T := T) hback hy hx
  rw [← thetas_agree_iff hodd hfar freq out back]
  constructor
  · rintro ⟨out', back', h1, h2, htheta⟩
    cases hout'.symm.trans h1
    cases hback'.symm.trans h2
    exact htheta
  · intro htheta
    exact ⟨_, _, hout', hback', htheta⟩

/-! ## Two nodes -/

/-- One degree of latitude is more than a centimetre. -/
theorem far_apart (lon1 lon2 alt1 alt2 : ℝ) :
    1 / 100 < groundRange realTrigonometry ⟨35, lon1, alt1⟩
      ⟨36, lon2, alt2⟩ := by
  have hnorth : (1 / 100 : ℝ) ^ 2 < northM (35 : ℝ) 36 * northM 35 36 := by
    norm_num [northM, metersPerDeg]
  refine Real.lt_sqrt_of_sq_lt (hnorth.trans_le ?_)
  exact le_add_of_nonneg_right (mul_self_nonneg _)

/-- Nodes at one altitude. -/
theorem pointing_agrees_on_horizon :
    ∃ out back,
      linkAt (configChannels realTrigonometry
        (twoNodes ⟨35, -78, 20⟩ ⟨36, -79, 20⟩) oneFrequency) 3400000000
        "tower" "rover" = some out ∧
      linkAt (configChannels realTrigonometry
        (twoNodes ⟨35, -78, 20⟩ ⟨36, -79, 20⟩) oneFrequency) 3400000000
        "rover" "tower" = some back ∧
      (antennaAngles realTrigonometry false back).1 =
        (antennaAngles realTrigonometry true out).1 := by
  have hx : findLoc (twoNodes ⟨35, -78, 20⟩ ⟨36, -79, 20⟩) "tower" =
      some ⟨⟨35, -78, 20⟩, ⟨0, 0, 0⟩⟩ := rfl
  have hy : findLoc (twoNodes ⟨35, -78, 20⟩ ⟨36, -79, 20⟩) "rover" =
      some ⟨⟨36, -79, 20⟩, ⟨0, 0, 0⟩⟩ := rfl
  refine (pointing_agrees_iff exact_realTrigonometry.atan_neg
    linkAt_oneFrequency.1 linkAt_oneFrequency.2 hx hy
    (far_apart _ _ _ _)).mpr (Or.inr ?_)
  rw [sub_self, zero_div]
  exact Real.arctan_zero

/-- A rover 30 m above the tower: the tower sends upwards and receives from
below. -/
theorem pointing_flips_with_altitude :
    ¬∃ out back,
      linkAt (configChannels realTrigonometry
        (twoNodes ⟨35, -78, 20⟩ ⟨36, -79, 50⟩) oneFrequency) 3400000000
        "tower" "rover" = some out ∧
      linkAt (configChannels realTrigonometry
        (twoNodes ⟨35, -78, 20⟩ ⟨36, -79, 50⟩) oneFrequency) 3400000000
        "rover" "tower" = some back ∧
      (antennaAngles realTrigonometry false back).1 =
        (antennaAngles realTrigonometry true out).1 := by
  rintro ⟨out, back, hout, hback, htheta⟩
  have hx : findLoc (twoNodes ⟨35, -78, 20⟩ ⟨36, -79, 50⟩) "tower" =
      some ⟨⟨35, -78, 20⟩, ⟨0, 0, 0⟩⟩ := rfl
  have hy : findLoc (twoNodes ⟨35, -78, 20⟩ ⟨36, -79, 50⟩) "rover" =
      some ⟨⟨36, -79, 50⟩, ⟨0, 0, 0⟩⟩ := rfl
  have hout' := linkAt_config (T := realTrigonometry) linkAt_oneFrequency.1 hx
    hy
  have hback' := linkAt_config (T := realTrigonometry) linkAt_oneFrequency.2 hy
    hx
  cases hout'.symm.trans hout
  cases hback'.symm.trans hback
  have hfar := far_apart (-78) (-79) 20 50
  rcases (thetas_agree_iff exact_realTrigonometry.atan_neg hfar _ _ _).mp
    htheta with hguard | hlevel
  · revert hguard
    norm_num [BothGuarded]
  · have hzero := Real.arctan_eq_zero_iff.mp hlevel
    rcases div_eq_zero_iff.mp hzero with halt | hrange
    · norm_num at halt
    · linarith

end Geometry
end Chem
