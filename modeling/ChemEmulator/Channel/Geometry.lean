import ChemEmulator.Channel.Channel
import ChemEmulator.Support.FiniteMap
import Mathlib.Algebra.Order.Field.Basic

/-!
# Link geometry

`src/chem/channel/coordinator.cpp`, `configChannels`: from the locations of the
nodes it sets distance, height difference, antenna heights, elevation, azimuth
and Doppler shift of every link.  A link is directed, and its elevation and its
azimuth are seen from its source.  `src/chem/dsp/antenna_prop.cpp` makes of them
the angles at which the antennas of both ends are evaluated.

Exact arithmetic: the numbers form an ordered field, so every number is finite
and a `float` holds what a `double` does.  The trigonometric functions are
parameters.
-/

namespace Chem
namespace Geometry

variable {R : Type}

structure Location (R : Type) where
  lat : R
  lon : R
  alt : R

/-- East, north and up. -/
structure Velocity (R : Type) where
  east : R
  north : R
  up : R

structure NodeLocation (R : Type) where
  position : Location R
  velocity : Velocity R

/-- What `configChannels` reads of a node. -/
structure LocatedNode (R : Type) where
  name : String
  location : Option (NodeLocation R)

structure NodeLink (R : Type) where
  dist : R
  hDist : R
  elevation : R
  azimuth : R

/-- The ends of a `Channel` and its members that depend on the locations, with
the path loss of the last call of `processChannel`. -/
structure LinkChannel (R : Type) where
  source : NodeId
  dest : NodeId
  linkInfo : NodeLink R
  txHeight : R
  rxHeight : R
  plDb : R
  dopplerEnabled : Bool
  dopplerHz : R

/-- The links of one frequency, each under its ends. -/
structure ChannelMap (R : Type) where
  channels : FiniteMap (NodeId × NodeId) (LinkChannel R)
  keyed : FiniteMap.All (fun ends ch => (ch.source, ch.dest) = ends) channels

/-- The functions of `<cmath>`. -/
structure Trigonometry (R : Type) where
  sin : R → R
  cos : R → R
  atan : R → R
  atan2 : R → R → R
  sqrt : R → R
  fmod : R → R → R

/-- What is assumed of them. -/
structure Trigonometry.Exact [Field R] [LinearOrder R] (T : Trigonometry R) :
    Prop where
  atan_neg : ∀ x, T.atan (-x) = -T.atan x
  sqrt_eq_zero : ∀ x, 0 ≤ x → (T.sqrt x = 0 ↔ x = 0)

section Model

variable [Field R] [LinearOrder R]

/-- `PI`. -/
def pi : R := 314159265 / 10 ^ 8

/-- `SPEED_OF_LIGHT`. -/
def speedOfLight : R := 299792458

/-- `_txHeight` and `_rxHeight` of a new channel. -/
def initialHeight : R := 3 / 2

/-- `meters_per_deg`. -/
def metersPerDeg : R := 1113195 / 10

/-- `lat_avg_rad`. -/
def latAvgRad (lat1 lat2 : R) : R := (lat1 + lat2) * (1 / 2) * (pi / 180)

/-- `north_m`. -/
def northM (lat1 lat2 : R) : R := (lat2 - lat1) * metersPerDeg

/-- `east_m`. -/
def eastM (T : Trigonometry R) (lat1 lon1 lat2 lon2 : R) : R :=
  (lon2 - lon1) * metersPerDeg * T.cos (latAvgRad lat1 lat2)

/-- `calcDistance`; the first test is made twice, and `lat2` is not tested. -/
def calcDistance (T : Trigonometry R) (lat1 lon1 lat2 lon2 : R) : R :=
  if lat1 = 0 ∨ lat1 = 0 ∨ lon1 = 0 ∨ lon2 = 0 then 0
  else T.sqrt (northM lat1 lat2 * northM lat1 lat2 +
    eastM T lat1 lon1 lat2 lon2 * eastM T lat1 lon1 lat2 lon2)

/-- `calcAzimuth`. -/
def calcAzimuth (T : Trigonometry R) (lat1 lon1 lat2 lon2 : R) : R :=
  let degToRad : R := pi / 180
  let lat1Rad := lat1 * degToRad
  let lat2Rad := lat2 * degToRad
  let dlonRad := (lon2 - lon1) * degToRad
  T.atan2 (T.sin dlonRad * T.cos lat2Rad)
    (T.cos lat1Rad * T.sin lat2Rad -
      T.sin lat1Rad * T.cos lat2Rad * T.cos dlonRad) * 180 / pi

/-- `elev`. -/
def elevationOf (T : Trigonometry R) (dist dAlt : R) : R :=
  if 1 / 100 < dist then T.atan (dAlt / dist) * 180 / pi else 0

/-- `range_m`. -/
def rangeM (T : Trigonometry R) (p1 p2 : Location R) : R :=
  let eastM := eastM T p1.lat p1.lon p2.lat p2.lon
  let northM := northM p1.lat p2.lat
  let upM := p2.alt - p1.alt
  T.sqrt (eastM * eastM + northM * northM + upM * upM)

/-- `doppler_hz`, or 0 for nodes in one place. -/
def dopplerOf (T : Trigonometry R) (carrierHz : R) (loc1 loc2 : NodeLocation R) :
    R :=
  let p1 := loc1.position
  let p2 := loc2.position
  let range := rangeM T p1 p2
  if 1 / 100 < range then
    let ux := eastM T p1.lat p1.lon p2.lat p2.lon / range
    let uy := northM p1.lat p2.lat / range
    let uz := (p2.alt - p1.alt) / range
    let vxRel := loc2.velocity.east - loc1.velocity.east
    let vyRel := loc2.velocity.north - loc1.velocity.north
    let vzRel := loc2.velocity.up - loc1.velocity.up
    let rangeRate := vxRel * ux + vyRel * uy + vzRel * uz
    let dopplerHz := -(rangeRate / speedOfLight) * carrierHz
    dopplerHz
  else 0

/-- `findLoc`: by identifier, else by name. -/
def findLoc (nodes : FiniteMap NodeId (LocatedNode R)) (key : NodeId) :
    Option (NodeLocation R) :=
  ((nodes.lookup key).bind (·.location)).or
    ((FiniteMap.values nodes).findSome? fun node =>
      if node.name = key then node.location else none)

/-- What `configChannels` sets for one link between two located nodes. -/
def LinkChannel.config (T : Trigonometry R) (carrierHz : R)
    (loc1 loc2 : NodeLocation R) (ch : LinkChannel R) : LinkChannel R :=
  let p1 := loc1.position
  let p2 := loc2.position
  let dist := calcDistance T p1.lat p1.lon p2.lat p2.lon
  let dAlt := p2.alt - p1.alt
  { ch with
    linkInfo :=
      { dist := dist
        hDist := |dAlt|
        elevation := elevationOf T dist dAlt
        azimuth := calcAzimuth T p1.lat p1.lon p2.lat p2.lon }
    txHeight := p1.alt
    rxHeight := p2.alt
    dopplerHz := if ch.dopplerEnabled then dopplerOf T carrierHz loc1 loc2
      else ch.dopplerHz }

/-- The body of the loop: a link with an end that has no location is left as it
is. -/
def configLink (T : Trigonometry R) (nodes : FiniteMap NodeId (LocatedNode R))
    (carrierHz : R) (ch : LinkChannel R) : LinkChannel R :=
  match findLoc nodes ch.source, findLoc nodes ch.dest with
  | some loc1, some loc2 => ch.config T carrierHz loc1 loc2
  | _, _ => ch

theorem ends_configLink (T : Trigonometry R)
    (nodes : FiniteMap NodeId (LocatedNode R)) (carrierHz : R)
    (ch : LinkChannel R) :
    ((configLink T nodes carrierHz ch).source,
      (configLink T nodes carrierHz ch).dest) = (ch.source, ch.dest) := by
  unfold configLink
  split
  · rfl
  · rfl

/-- The links of one frequency. -/
def ChannelMap.config (T : Trigonometry R)
    (nodes : FiniteMap NodeId (LocatedNode R)) (carrierHz : R)
    (links : ChannelMap R) : ChannelMap R where
  channels := FiniteMap.mapValues (configLink T nodes carrierHz) links.channels
  keyed := by
    intro ends ch hch
    rw [FiniteMap.lookup_mapValues, Option.map_eq_some_iff] at hch
    obtain ⟨ch, hch, rfl⟩ := hch
    exact (ends_configLink T nodes carrierHz ch).trans (links.keyed ends ch hch)

/-- `configChannels`. -/
def configChannels (T : Trigonometry R)
    (nodes : FiniteMap NodeId (LocatedNode R))
    (intermediates : FiniteMap R (ChannelMap R)) :
    FiniteMap R (ChannelMap R) :=
  FiniteMap.mapEntries (fun carrierHz links => links.config T nodes carrierHz)
    intermediates

/-- The link from `src` to `dest` at a frequency. -/
def linkAt (intermediates : FiniteMap R (ChannelMap R)) (freq : R)
    (src dest : NodeId) : Option (LinkChannel R) :=
  (intermediates.lookup freq).bind fun links => links.channels.lookup (src, dest)

/-! ## Antennas -/

/-- `get_gain`, by polar angle and azimuth. -/
abbrev Antenna (R : Type) := R → R → R

/-- `std::clamp`. -/
def clamp (v lo hi : R) : R :=
  if v < lo then lo else if hi < v then hi else v

def degToRad (deg : R) : R := deg * (pi / 180)

def wrapDegrees (T : Trigonometry R) (deg : R) : R :=
  let wrapped := T.fmod deg 360
  if wrapped < 0 then wrapped + 360 else wrapped

/-- `theta_deg`. -/
def thetaDeg (elevationDeg : R) : R := clamp (90 - elevationDeg) 0 180

/-- `theta_rad`. -/
def thetaRad (elevationDeg : R) : R := degToRad (thetaDeg elevationDeg)

/-- `phi_rad`. -/
def phiRad (T : Trigonometry R) (isTx : Bool) (azimuthDeg : R) : R :=
  degToRad (wrapDegrees T (azimuthDeg + if isTx then 0 else 180))

/-- `theta_rad` and `phi_rad`, for the transmitter or for the receiver of a
link. -/
def antennaAngles (T : Trigonometry R) (isTx : Bool) (ch : LinkChannel R) :
    R × R :=
  (thetaRad ch.linkInfo.elevation, phiRad T isTx ch.linkInfo.azimuth)

/-- `compute_antenna_gain_db`, for the antenna that the configuration of the
node selects. -/
def computeAntennaGainDb (T : Trigonometry R) (antenna : Option (Antenna R))
    (isTx : Bool) (frequencyHz : R) (ch : LinkChannel R) : R :=
  if frequencyHz ≤ 0 then 0
  else
    match antenna with
    | none => 0
    | some getGain =>
        let angles := antennaAngles T isTx ch
        getGain angles.1 angles.2

/-! ## Every link once -/

variable {T : Trigonometry R} {nodes : FiniteMap NodeId (LocatedNode R)}
variable {intermediates : FiniteMap R (ChannelMap R)}
variable {freq : R} {src dest : NodeId} {ch : LinkChannel R}

omit [Field R] in
theorem ends_of_linkAt (h : linkAt intermediates freq src dest = some ch) :
    ch.source = src ∧ ch.dest = dest := by
  obtain ⟨links, -, hch⟩ := Option.bind_eq_some_iff.mp h
  exact Prod.mk.inj (links.keyed _ _ hch)

theorem linkAt_configChannels :
    linkAt (configChannels T nodes intermediates) freq src dest =
      (linkAt intermediates freq src dest).map (configLink T nodes freq) := by
  unfold linkAt configChannels
  rw [FiniteMap.lookup_mapEntries]
  cases intermediates.lookup freq with
  | none => rfl
  | some links => exact FiniteMap.lookup_mapValues _ _ _

/-- A link between two located nodes after `configChannels`. -/
theorem linkAt_config {loc1 loc2 : NodeLocation R}
    (h : linkAt intermediates freq src dest = some ch)
    (h1 : findLoc nodes src = some loc1)
    (h2 : findLoc nodes dest = some loc2) :
    linkAt (configChannels T nodes intermediates) freq src dest =
      some (ch.config T freq loc1 loc2) := by
  obtain ⟨hsrc, hdest⟩ := ends_of_linkAt h
  rw [linkAt_configChannels, h, Option.map_some, configLink, hsrc, hdest, h1,
    h2]

end Model

end Geometry
end Chem
