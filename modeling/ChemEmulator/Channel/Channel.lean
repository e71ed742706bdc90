import ChemEmulator.Support.FiniteMap
import ChemEmulator.Support.FloatValue

/-!
# Links

`include/chem/common.h` and `include/chem/channel/channel.h`: the propagation
models, and the part of a `Channel` that an intermediate reads or sets when it
maintains its links: the two ends, the port counts, the propagation settings
and what the commands for single links set.
-/

namespace Chem

/-- The identifier under which a node registers. -/
abbrev NodeId := String

inductive PropagationModel where
  | unknown
  | freeSpace
  | twoRay
  | threeGPP_38_901
  | okumuraHata
  | longleyRice
  | none
deriving DecidableEq

inductive PathLossType where
  | twoRay
  | freeSpace
  | multiPath
  | threeGPP_38_901
  | okumuraHata
  | longleyRice
deriving DecidableEq

/-- The parameters of the irregular terrain model. -/
structure ITMParams where
  refractivity : FloatValue
  groundConductivity : FloatValue
  groundPermittivity : FloatValue
  climateZone : ℤ
deriving DecidableEq

/-- `301.0f`, `0.005f`, `15.0f` and `5`; the second is the float nearest to
the decimal number. -/
def ITMParams.default : ITMParams where
  refractivity := .finite 301
  groundConductivity := .finite (5368709 / 2 ^ 30)
  groundPermittivity := .finite 15
  climateZone := 5

/-- `std::clamp(climate_zone, 1, 7)`. -/
def clampClimateZone (zone : ℤ) : ℤ :=
  max 1 (min zone 7)

inductive NoiseType where
  | none
  | awgn
deriving DecidableEq

/-- What a command sets for one link.  Of `_portChCoeffs` only the cells are
kept whose coefficient has been set; the others hold 1. -/
structure LinkSettings where
  portChCoeffs : FiniteMap (ℕ × ℕ) ℚ
  chTaps : FiniteMap (ℕ × ℕ) (List (ℚ × ℚ))
  noiseType : NoiseType
  snrOverride : Option ℚ
  freqOffsetHz : ℚ
  dopplerEnabled : Bool
deriving DecidableEq

/-- The initial values of the members. -/
def LinkSettings.default : LinkSettings where
  portChCoeffs := ∅
  chTaps := ∅
  noiseType := .awgn
  snrOverride := .none
  freqOffsetHz := 0
  dopplerEnabled := false

structure Channel where
  source : NodeId
  dest : NodeId
  txNumCh : UInt8
  rxNumCh : UInt8
  plType : PathLossType
  scenario3gpp : String
  hataEnvironment : String
  itm : ITMParams
  shadowingStd : FloatValue
  link : LinkSettings
deriving DecidableEq

namespace Channel

/-- The constructor. -/
def create (source dest : NodeId) (txNumCh rxNumCh : UInt8) : Channel where
  source := source
  dest := dest
  txNumCh := txNumCh
  rxNumCh := rxNumCh
  plType := .freeSpace
  scenario3gpp := "UMa"
  hataEnvironment := "URBAN"
  itm := .default
  shadowingStd := .finite 0
  link := .default

def updatePlType (pl : PathLossType) (ch : Channel) : Channel :=
  { ch with plType := pl }

def update3gppScenario (scenario : String) (ch : Channel) : Channel :=
  if scenario.isEmpty then ch else { ch with scenario3gpp := scenario }

def updateHataEnvironment (environment : String) (ch : Channel) : Channel :=
  if environment.isEmpty then ch
  else { ch with hataEnvironment := environment }

/-- A value that is not finite leaves its parameter as it was. -/
def updateITMParams (itm : ITMParams) (ch : Channel) : Channel :=
  let keep (new old : FloatValue) := if new.isfinite then new else old
  { ch with itm :=
      { refractivity := keep itm.refractivity ch.itm.refractivity
        groundConductivity :=
          keep itm.groundConductivity ch.itm.groundConductivity
        groundPermittivity :=
          keep itm.groundPermittivity ch.itm.groundPermittivity
        climateZone := clampClimateZone itm.climateZone } }

def setShadowingSTD (std : FloatValue) (ch : Channel) : Channel :=
  { ch with shadowingStd := std }

/-! ## Settings of a single link -/

def updateLink (f : LinkSettings → LinkSettings) (ch : Channel) : Channel :=
  { ch with link := f ch.link }

def updateNoiseType (noise : NoiseType) : Channel → Channel :=
  updateLink fun link => { link with noiseType := noise }

def updateSNR (snr : ℚ) : Channel → Channel :=
  updateLink fun link => { link with snrOverride := some snr }

def clearSNROverride : Channel → Channel :=
  updateLink fun link => { link with snrOverride := none }

/-- The constructor has made a cell for every pair of ports; there is no other
one to write to. -/
def updateChCoeff (id : ℕ × ℕ) (val : ℚ) (ch : Channel) : Channel :=
  if id.1 < ch.txNumCh.toNat ∧ id.2 < ch.rxNumCh.toNat then
    ch.updateLink fun link =>
      { link with portChCoeffs := link.portChCoeffs.insert id val }
  else ch

def updateChTaps (id : ℕ × ℕ) (taps : List (ℚ × ℚ)) : Channel → Channel :=
  updateLink fun link => { link with chTaps := link.chTaps.insert id taps }

def clearChTaps (id : ℕ × ℕ) : Channel → Channel :=
  updateLink fun link => { link with chTaps := link.chTaps.erase id }

/-- The numbers that arrive here are finite. -/
def setFrequencyOffsetHz (offsetHz : ℚ) : Channel → Channel :=
  updateLink fun link => { link with freqOffsetHz := offsetHz }

def setDopplerEnabled (enabled : Bool) : Channel → Channel :=
  updateLink fun link => { link with dopplerEnabled := enabled }

/-! ## What a link keeps -/

/-- The two ends of a link. -/
def ends (ch : Channel) : NodeId × NodeId := (ch.source, ch.dest)

@[simp] theorem ends_create (source dest : NodeId) (txNumCh rxNumCh : UInt8) :
    (create source dest txNumCh rxNumCh).ends = (source, dest) := rfl

/-- What a link keeps as long as it is there. -/
def wiring (ch : Channel) : (NodeId × NodeId) × UInt8 × UInt8 :=
  (ch.ends, ch.txNumCh, ch.rxNumCh)

@[simp] theorem wiring_updatePlType (pl : PathLossType) (ch : Channel) :
    (ch.updatePlType pl).wiring = ch.wiring := rfl

@[simp] theorem wiring_update3gppScenario (scenario : String) (ch : Channel) :
    (ch.update3gppScenario scenario).wiring = ch.wiring := by
  by_cases h : scenario.isEmpty <;> simp [update3gppScenario, wiring, ends, h]

@[simp] theorem wiring_updateHataEnvironment (env : String) (ch : Channel) :
    (ch.updateHataEnvironment env).wiring = ch.wiring := by
  by_cases h : env.isEmpty <;> simp [updateHataEnvironment, wiring, ends, h]

@[simp] theorem wiring_updateITMParams (itm : ITMParams) (ch : Channel) :
    (ch.updateITMParams itm).wiring = ch.wiring := rfl

@[simp] theorem wiring_setShadowingSTD (std : FloatValue) (ch : Channel) :
    (ch.setShadowingSTD std).wiring = ch.wiring := rfl

@[simp] theorem wiring_updateLink (f : LinkSettings → LinkSettings)
    (ch : Channel) : (ch.updateLink f).wiring = ch.wiring := rfl

@[simp] theorem wiring_updateChCoeff (id : ℕ × ℕ) (val : ℚ) (ch : Channel) :
    (ch.updateChCoeff id val).wiring = ch.wiring := by
  unfold updateChCoeff
  split_ifs <;> rfl

end Channel

end Chem
