import ChemEmulator.Channel.Geometry

/-!
# Path loss

`src/chem/dsp/channel.cpp`, the formulas of `include/chem/channel_models` and
`Channel::computePathLoss`: the loss of a link in dB, by the propagation model
of its intermediate.

The numbers are rational and the operations on them exact; the functions of
`<cmath>` are a parameter, and so is what is drawn at random: the line of sight
of the 3GPP model and the shadowing.
-/

namespace Chem
namespace PathLoss

open Chem.Geometry

/-- The functions of `<cmath>`. -/
structure Cmath where
  log10 : ℚ → ℚ
  exp : ℚ → ℚ
  sqrt : ℚ → ℚ
  cos : ℚ → ℚ
  pow : ℚ → ℚ → ℚ

/-- What a call draws: from the unit interval, and from the shadowing. -/
structure Draw where
  uniform : ℚ
  shadowing : ℚ

def fsplConstant : ℚ := -14755 / 100

def logSafeGuard : ℚ := 1 / 10000

def earthRadius : ℚ := 6371000

/-- `LOG_GUARD`. -/
def logGuard (x : ℚ) : ℚ := max logSafeGuard x

def clamp (x lo hi : ℚ) : ℚ := max lo (min x hi)

/-- The log-normal shadowing, applied in dB. -/
def shadowed (shadowingStd : FloatValue) (draw : Draw) (plDb : ℚ) : ℚ :=
  match shadowingStd with
  | .finite std => if 0 < std then plDb + draw.shadowing else plDb
  | .infinite neg => if neg then plDb else plDb + draw.shadowing
  | .nan => plDb

/-- A parameter of a link; the setters let only finite values through. -/
def valueOf : FloatValue → ℚ
  | .finite q => q
  | .infinite _ => 0
  | .nan => 0

variable (M : Cmath)

/-! ## TR 38.901 -/

inductive PropagationCondition where
  | los
  | nlos
deriving DecidableEq

/-- `p_los`. -/
def lineOfSight (scenario : String) (dist : ℚ) : ℚ :=
  let d2d := max 1 dist
  let urban (scale : ℚ) :=
    if d2d ≤ 18 then 1
    else 18 / d2d * (1 - M.exp (-d2d / scale)) + M.exp (-d2d / scale)
  if scenario = "RMa" then
    if d2d ≤ 10 then 1 else M.exp (-(d2d - 10) / 1000)
  else if scenario = "UMa" then urban 63
  else if scenario = "UMi-StreetCanyon" then urban 36
  else 0

/-- `get_propagation_condition`. -/
def getPropagationCondition (draw : Draw) (scenario : String) (dist : ℚ) :
    PropagationCondition :=
  if draw.uniform < lineOfSight M scenario dist then .los else .nlos

/-- `PL1` of the rural scenario, up to the breakpoint. -/
def rmaBase (d3D fc : ℚ) : ℚ :=
  let hAvg := 5
  let h172 := M.pow hAvg (172 / 100)
  20 * M.log10 (40 * pi * d3D * fc / 3) +
      min (3 / 100 * h172) 10 * M.log10 d3D -
      min (44 / 1000 * h172) (1477 / 100) +
    2 / 1000 * M.log10 hAvg * d3D

def rmaLos (dist3d dist2d freqGhz ueHeight bsHeight : ℚ) : ℚ :=
  let hBS := max 1 bsHeight
  let hUT := max 1 ueHeight
  let d3D := max 1 dist3d
  let d2D := max 1 dist2d
  let dBP := 2 * pi * hBS * hUT * (freqGhz * 10 ^ 9) / speedOfLight
  if d2D ≤ dBP then rmaBase M d3D freqGhz
  else
    let d3DBP := M.sqrt (dBP * dBP + (hBS - hUT) ^ 2)
    rmaBase M d3DBP freqGhz + 40 * M.log10 (d3D / d3DBP)

/-- `calculate_path_loss_rma`. -/
def calculatePathLossRma (dist3d dist2d freqGhz ueHeight bsHeight : ℚ) :
    PropagationCondition → ℚ
  | .los => rmaLos M dist3d dist2d freqGhz ueHeight bsHeight
  | .nlos =>
      let hAvg := 5
      let hBS := max 1 bsHeight
      let hUT := max 1 ueHeight
      let d3D := max 1 dist3d
      let plNlos := 16104 / 100 - 71 / 10 * M.log10 20 +
          75 / 10 * M.log10 hAvg -
          (2437 / 100 - 37 / 10 * (hAvg / hBS) ^ 2) * M.log10 hBS +
          (4342 / 100 - 31 / 10 * M.log10 hBS) * (M.log10 d3D - 3) +
          20 * M.log10 freqGhz -
        (32 / 10 * M.log10 (1175 / 100 * hUT) ^ 2 - 497 / 100)
      max plNlos (rmaLos M dist3d dist2d freqGhz ueHeight bsHeight)

/-- `calculate_path_loss_uma`. -/
def calculatePathLossUma (dist3d freqGhz ueHeight : ℚ) :
    PropagationCondition → ℚ
  | .los => 28 + 22 * M.log10 (logGuard dist3d) +
      20 * M.log10 (logGuard freqGhz)
  | .nlos => 1354 / 100 + 3908 / 100 * M.log10 (logGuard dist3d) +
      20 * M.log10 (logGuard freqGhz) - 6 / 10 * (ueHeight - 15 / 10)

/-- `calculate_path_loss_umi`. -/
def calculatePathLossUmi (dist3d freqGhz ueHeight : ℚ) :
    PropagationCondition → ℚ
  | .los => 324 / 10 + 21 * M.log10 (logGuard dist3d) +
      20 * M.log10 (logGuard freqGhz)
  | .nlos => 353 / 10 * M.log10 (logGuard dist3d) + 224 / 10 +
      213 / 10 * M.log10 (logGuard freqGhz) - 3 / 10 * (ueHeight - 15 / 10)

/-- `tr_38_901::calculate_path_loss`: an unknown scenario throws. -/
def calculatePathLoss38901 (draw : Draw) (scenario : String)
    (dist freqGhz ueHeight bsHeight : ℚ) : Option ℚ :=
  let propCond := getPropagationCondition M draw scenario dist
  let dist3d := M.sqrt (dist * dist + (bsHeight - ueHeight) ^ 2)
  if scenario = "RMa" then
    some (calculatePathLossRma M dist3d dist freqGhz ueHeight bsHeight propCond)
  else if scenario = "UMa" then
    some (calculatePathLossUma M dist3d freqGhz ueHeight propCond)
  else if scenario = "UMi-StreetCanyon" then
    some (calculatePathLossUmi M dist3d freqGhz ueHeight propCond)
  else none

/-! ## Okumura-Hata -/

inductive Environment where
  | urban
  | suburban
  | openArea
deriving DecidableEq

def environmentFromString (env : String) : Environment :=
  if env = "URBAN" then .urban
  else if env = "SUBURBAN" then .suburban
  else if env = "OPEN" then .openArea
  else .urban

def mobileCorrection (freqMhz hMs : ℚ) : ℚ :=
  let logFc := M.log10 (max 1 freqMhz)
  (11 / 10 * logFc - 7 / 10) * hMs - (156 / 100 * logFc - 8 / 10)

def calculateUrban (freqMhz distKm hBs hMs : ℚ) : ℚ :=
  let fc := clamp freqMhz 150 1500
  let d := max (1 / 10) distKm
  let hb := clamp hBs 1 200
  let hm := clamp hMs 1 10
  6955 / 100 + 2616 / 100 * M.log10 fc - 1382 / 100 * M.log10 hb -
      mobileCorrection M fc hm +
    (449 / 10 - 655 / 100 * M.log10 hb) * M.log10 d

/-- `okumura_hata::calculate_path_loss`. -/
def calculatePathLossHata (freqHz distM hBs hMs : ℚ) (env : Environment) : ℚ :=
  let freqMhz := freqHz / 10 ^ 6
  let pl := calculateUrban M freqMhz (distM / 1000) hBs hMs
  match env with
  | .urban => pl
  | .suburban =>
      let logRatio := M.log10 (freqMhz / 28)
      pl - (2 * logRatio * logRatio + 54 / 10)
  | .openArea =>
      let logFc := M.log10 freqMhz
      pl - (478 / 100 * logFc * logFc - 1833 / 100 * logFc + 4094 / 100)

/-! ## Longley-Rice -/

/-- What the calculation reads of `longley_rice::ITMParams`. -/
structure Terrain where
  freqHz : ℚ
  txHeightM : ℚ
  rxHeightM : ℚ
  refractivity : ℚ

def effectiveEarthRadiusFactor (nS : ℚ) : ℚ :=
  1 / (1 - 4665 / 100000 * M.exp (5577 / 10 ^ 6 * nS))

def horizonDistance (h kFactor : ℚ) : ℚ :=
  M.sqrt (2 * kFactor * earthRadius * max (1 / 100) h)

def knifeEdgeLoss (v : ℚ) : ℚ :=
  if v ≤ -78 / 100 then 0
  else if v < 0 then 602 / 100 + 911 / 100 * v - 127 / 100 * v * v
  else 602 / 100 + 9 * v + 165 / 100 * v * v

/-- `d_los`. -/
def losDistance (params : Terrain) (kFactor : ℚ) : ℚ :=
  horizonDistance M params.txHeightM kFactor +
    horizonDistance M params.rxHeightM kFactor

def diffractionLoss (distM freqHz : ℚ) (params : Terrain) (kFactor : ℚ) : ℚ :=
  let lambda := speedOfLight / freqHz
  let aE := kFactor * earthRadius
  let dLos := losDistance M params kFactor
  if distM ≤ dLos then 0
  else
    let dBeyond := distM - dLos
    let hEff := dBeyond * dBeyond / (2 * aE)
    let dEff := dLos * dBeyond / max 1 (dLos + dBeyond)
    knifeEdgeLoss (hEff * M.sqrt (2 / (lambda * dEff)))

def troposcatterLoss (distM freqHz : ℚ) (params : Terrain) (kFactor : ℚ) : ℚ :=
  let freqMhz := freqHz / 10 ^ 6
  let distKm := distM / 1000
  let aE := kFactor * earthRadius
  let thetaS := distM / aE - params.txHeightM / max 1 distM -
    params.rxHeightM / max 1 distM
  if thetaS ≤ 0 then 0
  else
    let thetaDeg := thetaS * (180 / pi)
    let freqGhz := freqMhz / 1000
    1901 / 10 + 20 * M.log10 (max (1 / 1000) freqGhz) +
        20 * M.log10 (max (1 / 100) distKm) + 573 / 1000 * thetaDeg -
      15 / 100 * params.refractivity

/-- `longley_rice::calculate_path_loss`. -/
def calculatePathLossItm (distM : ℚ) (params : Terrain) : ℚ :=
  let d := max 1 distM
  let freq := max (10 ^ 6) params.freqHz
  let kFactor := effectiveEarthRadiusFactor M params.refractivity
  let fspl := 20 * M.log10 d + 20 * M.log10 freq + fsplConstant
  if d ≤ losDistance M params kFactor then fspl
  else fspl + min (diffractionLoss M d freq params kFactor)
    (troposcatterLoss M d freq params kFactor)

/-! ## The functions of the DSP module -/

def calcFspl (draw : Draw) (distanceM frequencyHz : ℚ)
    (shadowingStd : FloatValue) : ℚ :=
  shadowed shadowingStd draw (20 * M.log10 frequencyHz +
    20 * M.log10 (distanceM + logSafeGuard) + fsplConstant)

def calc3gpp38901 (draw : Draw)
    (distanceM frequencyHz ueHeight bsHeight : ℚ) (scenario : String)
    (shadowingStd : FloatValue) : ℚ :=
  shadowed shadowingStd draw
    (if 0 < frequencyHz then
      (calculatePathLoss38901 M draw scenario distanceM (frequencyHz / 10 ^ 9)
        ueHeight bsHeight).getD 0
    else 0)

/-- `gamma`. -/
def reflection : FloatValue → ℚ
  | .finite q => clamp q (-1) 1
  | .infinite _ => -1
  | .nan => -1

def calc2ray (draw : Draw) (distanceM frequencyHz txHeight rxHeight : ℚ)
    (groundCoeff : FloatValue) (shadowingStd : FloatValue) : ℚ :=
  let d := max 0 distanceM
  let ht := max (1 / 100) txHeight
  let hr := max (1 / 100) rxHeight
  let d1 := M.sqrt (d * d + (ht - hr) ^ 2)
  let d2 := M.sqrt (d * d + (ht + hr) ^ 2)
  let gamma := reflection groundCoeff
  shadowed shadowingStd draw
    (if 0 < frequencyHz then
      let lambda := speedOfLight / frequencyHz
      let k := 2 * pi / max (1 / 10 ^ 12) lambda
      let phase := k * (d2 - d1)
      let a := 1 / max (1 / 10 ^ 12) d1
      let b := gamma / max (1 / 10 ^ 12) d2
      let eMag2 := max (1 / 10 ^ 20) (a * a + b * b + 2 * a * b * M.cos phase)
      let plLin := (4 * pi / lambda) ^ 2 / eMag2
      10 * M.log10 (max (1 / 10 ^ 20) plLin)
    else 0)

def calcOkumuraHata (draw : Draw)
    (distanceM frequencyHz bsHeight msHeight : ℚ) (environment : String)
    (shadowingStd : FloatValue) : ℚ :=
  shadowed shadowingStd draw
    (if 0 < frequencyHz then
      calculatePathLossHata M frequencyHz distanceM bsHeight msHeight
        (environmentFromString environment)
    else 0)

def calcLongleyRice (draw : Draw) (distanceM frequencyHz txHeight rxHeight : ℚ)
    (itm : ITMParams) (shadowingStd : FloatValue) : ℚ :=
  shadowed shadowingStd draw
    (if 0 < frequencyHz then
      calculatePathLossItm M distanceM
        { freqHz := frequencyHz
          txHeightM := max (1 / 100) txHeight
          rxHeightM := max (1 / 100) rxHeight
          refractivity := valueOf itm.refractivity }
    else 0)

/-! ## The path loss of a link -/

/-- What `computePathLoss` reads of its parameters. -/
structure Params where
  propagationModel : PropagationModel
  groundCoeff : FloatValue
  freq : ℚ

/-- `Channel::computePathLoss`; `bypass` is the path loss of an extension that
replaces the models. -/
def computePathLoss (draw : Draw) (bypass : Option ℚ) (ch : Channel)
    (link : LinkChannel ℚ) (dist : ℚ) (params : Params) : ℚ :=
  match bypass with
  | some plDb => plDb
  | none =>
      match params.propagationModel with
      | .freeSpace => calcFspl M draw dist params.freq ch.shadowingStd
      | .twoRay => calc2ray M draw dist params.freq link.txHeight link.rxHeight
          params.groundCoeff ch.shadowingStd
      | .threeGPP_38_901 =>
          let ueHeight := max (1 / 100) link.rxHeight
          let bsHeight := max (1 / 100) link.txHeight
          calc3gpp38901 M draw dist params.freq ueHeight bsHeight
            ch.scenario3gpp ch.shadowingStd
      | .okumuraHata =>
          let bsHeight := max 1 link.txHeight
          let msHeight := max 1 link.rxHeight
          calcOkumuraHata M draw dist params.freq bsHeight msHeight
            ch.hataEnvironment ch.shadowingStd
      | .longleyRice => calcLongleyRice M draw dist params.freq link.txHeight
          link.rxHeight ch.itm ch.shadowingStd
      | .none => 0
      | .unknown => 0

theorem shadowed_finite_zero (draw : Draw) (plDb : ℚ) :
    shadowed (.finite 0) draw plDb = plDb := by
  simp [shadowed]

end PathLoss
end Chem
