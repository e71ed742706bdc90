import ChemEmulator.Channel.Channel

/-!
# Node configurations

`include/chem/models/node_config.hpp` and `usrp_channel.hpp`: what a node
sends when it registers, after decoding.  Numbers that come from JSON are
finite; a coordinate may also be given as text, and text can denote any
floating-point value.  Antenna patterns do not come with a request; they are
set later, by the coordinator.
-/

namespace Chem

inductive NodeType where
  | unknown
  | fixed
  | aerpawFixed
  | aerpawPortable
  | vehicleMavproxy
  /-- `static_cast` of an integer that is no enumerator. -/
  | other (code : ℤ)
deriving DecidableEq

namespace Usrp

structure Channel where
  txTuneFreq : ℚ
  rxTuneFreq : ℚ
  txGain : ℚ
  rxGain : ℚ
  txAnt : String
  rxAnt : String
deriving DecidableEq

def Channel.compare (c d : Channel) : Bool :=
  decide (c.txTuneFreq = d.txTuneFreq) && decide (c.rxTuneFreq = d.rxTuneFreq) &&
    decide (c.txGain = d.txGain) && decide (c.rxGain = d.rxGain) &&
    decide (c.txAnt = d.txAnt) && decide (c.rxAnt = d.rxAnt)

structure SampleRate where
  txRate : ℚ
  rxRate : ℚ
deriving DecidableEq

end Usrp

structure Location where
  lat : FloatValue
  lon : FloatValue
  alt : FloatValue
deriving DecidableEq

/-- The location that is reported when there is none. -/
def Location.isZero (loc : Location) : Bool :=
  decide (loc.lat = .finite 0) && decide (loc.lon = .finite 0) &&
    decide (loc.alt = .finite 0)

/-- `ResolveAerpawLocation`: the known sites. -/
def resolveAerpawLocation (keyRaw : String) : Option Location :=
  let site (lat lon alt : ℚ) : Option Location :=
    some ⟨.double lat, .double lon, .finite alt⟩
  let upper := keyRaw.toUpper
  if upper = "CC-1" ∨ upper = "CC1" then
    site 35.773871026537634 (-78.67694781603241) 10
  else if upper = "CC-2" ∨ upper = "CC2" then
    site 35.772182310053005 (-78.67476986245003) 10
  else if upper = "CC-3" ∨ upper = "CC3" then none
  else if upper = "LW-1" ∨ upper = "LW1" then
    site 35.72750947 (-78.69595819) 12
  else if upper = "LW-2" ∨ upper = "LW2" then
    site 35.72821305 (-78.70090823) 10
  else if upper = "LW-3" ∨ upper = "LW3" then
    site 35.72491205 (-78.69190014) 20
  else if upper = "LW-4" ∨ upper = "LW4" then
    site 35.73318358 (-78.6983642) 12
  else if upper = "LW-5" ∨ upper = "LW5" then
    site 35.74294142 (-78.69962993) 18
  else none

structure NodeCharacteristics where
  txPaGainDb : FloatValue
  rxGainDb : FloatValue
  txNoiseFigureDb : FloatValue
  rxNoiseFigureDb : FloatValue
  cableLossDb : FloatValue
  sourcePowerDbfs : FloatValue
  txAntennas : List String
  rxAntennas : List String
deriving DecidableEq

/-- `1.45 + NOISE_FIGURE_RX`, in double arithmetic. -/
def lnaNoiseFigure : FloatValue :=
  .double (FloatValue.roundBinary 53 1.45 + 6)

/-- `fixed_node::characteristics`. -/
def fixedNodeCharacteristics : NodeCharacteristics where
  txPaGainDb := .finite 30
  rxGainDb := .finite 19
  txNoiseFigureDb := .finite 5
  rxNoiseFigureDb := lnaNoiseFigure
  cableLossDb := .finite 5
  sourcePowerDbfs := .finite (-12)
  txAntennas := ["rm-wb1-dn-blk right side up"]
  rxAntennas := ["rm-wb1-dn-blk right side up"]

/-- `portable_node::characteristics`. -/
def portableNodeCharacteristics : NodeCharacteristics where
  txPaGainDb := .finite 25
  rxGainDb := .finite 19
  txNoiseFigureDb := .double 4.1
  rxNoiseFigureDb := lnaNoiseFigure
  cableLossDb := .finite 1
  sourcePowerDbfs := .finite (-12)
  txAntennas := ["sa-1400-5900"]
  rxAntennas := ["sa-1400-5900"]

structure NodeConfig where
  ipAddress : String
  id : NodeId
  name : String
  /-- The ports hold arbitrary values until an endpoint is created. -/
  portTxNum : Int16
  portRxNum : Int16
  numChannels : UInt8
  sampleRate : Usrp.SampleRate
  channels : List Usrp.Channel
  /-- An `int`.  The port of a portable node's vehicle is 5760 more, so a number
  from `2 ^ 31 - 5760` on would overflow and is taken not to occur. -/
  logicalNode : ℤ
  location : Location
  hasLocation : Bool
  vehicleAddress : String
  aerpawKey : String
  nodeType : NodeType
  characteristics : Option NodeCharacteristics
  deviceTxGain : ℚ
  deviceRxGain : ℚ
  hasDeviceTxGain : Bool
  hasDeviceRxGain : Bool
  txAntennaPattern : String := ""
  rxAntennaPattern : String := ""
  hasTxAntennaPattern : Bool := false
  hasRxAntennaPattern : Bool := false
  inputFormat : String
  outputFormat : String
deriving DecidableEq

namespace NodeConfig

def hasLogicalNode (n : NodeConfig) : Bool := decide (0 ≤ n.logicalNode)

def hasVehicleAddress (n : NodeConfig) : Bool := !n.vehicleAddress.isEmpty

def hasAerpawKey (n : NodeConfig) : Bool := !n.aerpawKey.isEmpty

def setLocation (n : NodeConfig) (loc : Location) : NodeConfig :=
  { n with location := loc, hasLocation := true }

def setDeviceTxGain (n : NodeConfig) (gain : ℚ) : NodeConfig :=
  { n with deviceTxGain := gain, hasDeviceTxGain := true }

def setDeviceRxGain (n : NodeConfig) (gain : ℚ) : NodeConfig :=
  { n with deviceRxGain := gain, hasDeviceRxGain := true }

def setTxAntennaPattern (n : NodeConfig) (pattern : String) : NodeConfig :=
  { n with txAntennaPattern := pattern, hasTxAntennaPattern := true }

def setRxAntennaPattern (n : NodeConfig) (pattern : String) : NodeConfig :=
  { n with rxAntennaPattern := pattern, hasRxAntennaPattern := true }

def setAntennaPattern (n : NodeConfig) (pattern : String) : NodeConfig :=
  (n.setTxAntennaPattern pattern).setRxAntennaPattern pattern

/-- A portable node: its key starts with `PN`. -/
def isPortable (n : NodeConfig) : Bool :=
  n.hasAerpawKey && n.aerpawKey.toUpper.startsWith "PN"

/-- The part of the AERPAW key from its first digit on. -/
def keyDigits (n : NodeConfig) : List Char :=
  n.aerpawKey.toList.dropWhile fun c => !c.isDigit

end NodeConfig

/-- `std::stoi` on text that starts with a digit; it throws when the number
does not fit an `int`. -/
def stoi (text : List Char) : Option ℤ :=
  let value := (text.takeWhile Char.isDigit).foldl
    (fun n c => 10 * n + (c.toNat - '0'.toNat)) 0
  if value < 2 ^ 31 then some (value : ℤ) else none

end Chem
