import ChemEmulator.Channel.Intermediate
import ChemEmulator.Models.NodeConfig

/-!
# Nodes

`src/chem/node/node_entity.cpp`, with the parts of `receiver.cpp` and
`transmitter.cpp` that the controller uses: a node, its stored configuration
and the two endpoints it owns.  The velocity estimate is left out.

The receiver of a node takes in what the node transmits, so it belongs to the
uplink; the transmitter belongs to the downlink.  The code has every function
twice, once for each direction; here it is a parameter.
-/

namespace Chem

inductive Direction where
  | uplink
  | downlink
deriving DecidableEq

namespace Direction

instance {P : Direction → Prop} [∀ dir, Decidable (P dir)] :
    Decidable (∀ dir, P dir) :=
  decidable_of_iff (P .uplink ∧ P .downlink)
    ⟨fun h dir => match dir with
      | .uplink => h.1
      | .downlink => h.2, fun h => ⟨h .uplink, h .downlink⟩⟩

/-- The tuning frequency of a channel: `getTxFreq` and `getRxFreq`. -/
def freqOf : Direction → Usrp.Channel → ℚ
  | uplink, ch => ch.txTuneFreq
  | downlink, ch => ch.rxTuneFreq

/-- `setTxFreq` and `setRxFreq`. -/
def setFreq : Direction → ℚ → Usrp.Channel → Usrp.Channel
  | uplink, freq, ch => { ch with txTuneFreq := freq }
  | downlink, freq, ch => { ch with rxTuneFreq := freq }

/-- `getTxRate` and `getRxRate`. -/
def rateOf : Direction → Usrp.SampleRate → ℚ
  | uplink, sr => sr.txRate
  | downlink, sr => sr.rxRate

/-- `setTxRate` and `setRxRate`. -/
def setRate : Direction → ℚ → Usrp.SampleRate → Usrp.SampleRate
  | uplink, rate, sr => { sr with txRate := rate }
  | downlink, rate, sr => { sr with rxRate := rate }

end Direction

/-! ## Endpoints -/

/-- A `Receiver` or a `Transmitter`: what intermediates see of it, and what
the controller changes. -/
structure EndpointState where
  endpoint : Endpoint
  sampleRate : UInt32
  freq : ℚ
  nodeConfig : NodeConfig
deriving DecidableEq

/-- Conversion of a `double` to `uint32_t`.  A value out of range has no
defined result; the hardware keeps the low bits. -/
def toUInt32 (rate : ℚ) : UInt32 :=
  UInt32.ofInt (if rate < 0 then rate.ceil else rate.floor)

namespace EndpointState

/-- The constructors.  They read `channels.at(0)`, which throws when there is
no channel. -/
def create (dir : Direction) (handle : ℕ) (nodeConfig : NodeConfig) :
    Option EndpointState :=
  match nodeConfig.channels with
  | [] => none
  | ch :: _ =>
      some
        { endpoint :=
            { handle := handle
              id := nodeConfig.id
              name := nodeConfig.name
              numChannels := nodeConfig.numChannels
              configId := nodeConfig.id
              configId_eq := rfl }
          sampleRate := toUInt32 (dir.rateOf nodeConfig.sampleRate)
          freq := dir.freqOf ch
          nodeConfig := nodeConfig }

def setSampleRate (dir : Direction) (rate : UInt32) (e : EndpointState) :
    EndpointState :=
  { e with
    sampleRate := rate
    nodeConfig :=
      { e.nodeConfig with
        sampleRate := dir.setRate rate.toNat e.nodeConfig.sampleRate } }

def updateFreq (freq : ℚ) (e : EndpointState) : EndpointState :=
  { e with freq := freq }

def setFormats (inputFormat outputFormat : String) (e : EndpointState) :
    EndpointState :=
  { e with nodeConfig :=
      { e.nodeConfig with
        inputFormat := inputFormat
        outputFormat := outputFormat } }

end EndpointState

/-! ## Vehicle handlers -/

/-- A running `vehicle::Handler`. -/
structure VehicleHandler where
  connection : String
  key : String
  /-- The node that it holds a pointer to. -/
  node : NodeId
deriving DecidableEq

abbrev VehicleHandlers := FiniteMap String VehicleHandler

/-! ## Nodes -/

structure Node where
  config : NodeConfig
  characteristics : Option NodeCharacteristics
  /-- The location and the logical node, once reported. -/
  location : Option (Location × UInt8)
  receiver : Option EndpointState
  transmitter : Option EndpointState
  /-- In nanoseconds of the steady clock. -/
  lastHeartbeat : ℤ
deriving DecidableEq

namespace Node

/-- The constructor. -/
def create (config : NodeConfig) (now : ℤ) : Node where
  config := config
  characteristics := none
  location := none
  receiver := none
  transmitter := none
  lastHeartbeat := now

def updateHeartbeat (node : Node) (now : ℤ) : Node :=
  { node with lastHeartbeat := now }

/-- Whether fewer than `timeout` whole seconds have passed. -/
def isAlive (node : Node) (timeout now : ℤ) : Bool :=
  decide ((now - node.lastHeartbeat).tdiv 1000000000 < timeout)

/-- `getReceiver` and `getTransmitter`. -/
def endpoint (node : Node) : Direction → Option EndpointState
  | .uplink => node.receiver
  | .downlink => node.transmitter

/-- `setReceiver` and `setTransmitter`. -/
def setEndpoint (node : Node) : Direction → EndpointState → Node
  | .uplink, e => { node with receiver := some e }
  | .downlink, e => { node with transmitter := some e }

/-- The stored frequency of channel 0. -/
def freq? (node : Node) (dir : Direction) : Option ℚ :=
  node.config.channels.head?.map dir.freqOf

/-- The loop of `compare` over two lists of the same length. -/
def compareChannels (ch1 ch2 : List Usrp.Channel) : Bool :=
  decide (ch1.length = ch2.length) &&
    (ch1.zip ch2).all fun c => c.1.compare c.2

def compare (node : Node) (nc : NodeConfig) : Bool :=
  let m := node.config
  decide (m.id = nc.id) && decide (m.name = nc.name) &&
    decide (m.ipAddress = nc.ipAddress) &&
    decide (m.sampleRate = nc.sampleRate) &&
    decide (m.inputFormat = nc.inputFormat) &&
    decide (m.outputFormat = nc.outputFormat) &&
    decide (m.nodeType = nc.nodeType) &&
    decide (m.hasDeviceTxGain = nc.hasDeviceTxGain) &&
    decide (m.hasDeviceRxGain = nc.hasDeviceRxGain) &&
    (!(m.hasDeviceTxGain && nc.hasDeviceTxGain) ||
      decide (m.deviceTxGain = nc.deviceTxGain)) &&
    (!(m.hasDeviceRxGain && nc.hasDeviceRxGain) ||
      decide (m.deviceRxGain = nc.deviceRxGain)) &&
    compareChannels m.channels nc.channels

def setCharacteristics (node : Node) (c : NodeCharacteristics) : Node :=
  { node with
    characteristics := some c
    config := { node.config with characteristics := some c } }

def clearCharacteristics (node : Node) : Node :=
  { node with
    characteristics := none
    config := { node.config with characteristics := none } }

def setLocation (node : Node) (loc : Location) (logicalNode : UInt8) : Node :=
  { node with
    location := some (loc, logicalNode)
    config :=
      { node.config.setLocation loc with
        logicalNode := (logicalNode.toNat : ℤ) } }

def addVehicle (node : Node) (nodeConfig : NodeConfig)
    (handlers : VehicleHandlers) : Bool × Node × VehicleHandlers :=
  let key := if node.config.name.isEmpty then node.config.id
    else node.config.name
  if key.isEmpty ∨ key ∈ handlers then (false, node, handlers)
  else
    let vehicleAddress :=
      if nodeConfig.vehicleAddress.isEmpty && nodeConfig.isPortable then
        let logicalNode :=
          if nodeConfig.hasLogicalNode then nodeConfig.logicalNode
          else if nodeConfig.keyDigits.isEmpty then 0
          else (stoi nodeConfig.keyDigits).getD 0
        -- as for `NodeConfig.logicalNode`, the sum is taken to fit an `int`
        "tcp://127.0.0.1:" ++ toString (5760 + logicalNode)
      else nodeConfig.vehicleAddress
    if vehicleAddress.isEmpty then (false, node, handlers)
    else
      let node := { node with
        config := { node.config with vehicleAddress := vehicleAddress } }
      (true, node, handlers.insert key ⟨vehicleAddress, key, node.config.id⟩)

/-! ## Refreshing a node -/

/-- `resolveLogicalNode`: the logical node of a request, from its field or
from the digits of its key.  It is stored in the request. -/
def resolveLogicalNode (n : NodeConfig) : NodeConfig × ℤ :=
  if n.hasLogicalNode then (n, n.logicalNode)
  else
    let fallback : NodeConfig × ℤ := ({ n with logicalNode := 0 }, 0)
    if n.keyDigits.isEmpty then fallback
    else
      match stoi n.keyDigits with
      | some logicalNode => ({ n with logicalNode := logicalNode }, logicalNode)
      | none => fallback

/-- `getResolvedLogicalNode`: resolves once and keeps the answer, together
with whether the request held any information about it. -/
def getResolvedLogicalNode (n : NodeConfig) (resolved : Option (ℤ × Bool)) :
    NodeConfig × (ℤ × Bool) :=
  match resolved with
  | some answer => (n, answer)
  | none =>
      let hasInfo := n.hasLogicalNode || !n.keyDigits.isEmpty
      let (n, logicalNode) := resolveLogicalNode n
      (n, (logicalNode, hasInfo))

/-- The variables of `refreshFromConfig`. -/
structure Refresh where
  node : Node
  /-- The request, which the function also writes to. -/
  request : NodeConfig
  handlers : VehicleHandlers
  nodeType : NodeType
  vehicleAdded : Bool
  resolved : Option (ℤ × Bool)

namespace Refresh

def addVehicle (r : Refresh) : Refresh :=
  let (added, node, handlers) := r.node.addVehicle r.request r.handlers
  { r with node := node, handlers := handlers, vehicleAdded := added }

def resolve (r : Refresh) : Refresh × (ℤ × Bool) :=
  let (request, answer) := getResolvedLogicalNode r.request r.resolved
  ({ r with request := request, resolved := some answer }, answer)

/-- The fields that are taken over from the request. -/
def copyFields (r : Refresh) : Refresh :=
  let n := r.request
  let m := { r.node.config with
    id := n.id
    name := n.name
    ipAddress := n.ipAddress
    inputFormat := n.inputFormat
    outputFormat := n.outputFormat
    numChannels := n.numChannels
    nodeType := n.nodeType }
  let m := if n.hasVehicleAddress then
    { m with vehicleAddress := n.vehicleAddress } else m
  let m := if n.hasAerpawKey then { m with aerpawKey := n.aerpawKey } else m
  let m := if n.hasDeviceTxGain then m.setDeviceTxGain n.deviceTxGain else m
  let m := if n.hasDeviceRxGain then m.setDeviceRxGain n.deviceRxGain else m
  { r with node := { r.node with config := m } }

/-- The node type that follows from what the request reports. -/
def deduceNodeType (r : Refresh) : Refresh :=
  if r.request.hasVehicleAddress then
    { r with nodeType := .vehicleMavproxy }.addVehicle
  else if r.request.hasLocation then
    if r.request.location.isZero then r else { r with nodeType := .fixed }
  else if r.request.hasAerpawKey then
    if r.request.isPortable then
      { r with nodeType := .aerpawPortable }.resolve.1
    else { r with nodeType := .aerpawFixed }
  else r

def storeNodeType (r : Refresh) : Refresh :=
  { r with
    request := { r.request with nodeType := r.nodeType }
    node := { r.node with
      config := { r.node.config with nodeType := r.nodeType } } }

/-- Characteristics stored in the node and in the request. -/
def setCharacteristics (r : Refresh) (c : NodeCharacteristics) : Refresh :=
  { r with
    node := r.node.setCharacteristics c
    request := { r.request with characteristics := some c } }

def assignCharacteristics (r : Refresh) : Refresh :=
  match r.nodeType with
  | .aerpawFixed => r.setCharacteristics fixedNodeCharacteristics
  | .aerpawPortable => r.setCharacteristics portableNodeCharacteristics
  | .vehicleMavproxy =>
      match r.request.characteristics with
      | some c => { r with node := r.node.setCharacteristics c }
      | none => r.setCharacteristics portableNodeCharacteristics
  | _ =>
      { r with
        node := r.node.clearCharacteristics
        request := { r.request with characteristics := none } }

/-- The new location, in the node and in the request. -/
def storeLocation (r : Refresh) (loc : Location) (logicalNode : UInt8) :
    Refresh :=
  { r with
    node := r.node.setLocation loc logicalNode
    request :=
      { r.request.setLocation loc with
        logicalNode := (logicalNode.toNat : ℤ) } }

def updateLocation (r : Refresh) : Refresh :=
  if r.request.hasLocation then
    if r.request.location.isZero then r
    else
      let logicalNode := if r.request.hasLogicalNode then
        UInt8.ofInt r.request.logicalNode else 0
      let r := r.storeLocation r.request.location logicalNode
      { r with node := r.node.setCharacteristics fixedNodeCharacteristics }
  else if r.request.hasAerpawKey then
    match resolveAerpawLocation r.request.aerpawKey with
    | some loc =>
        if r.request.hasLogicalNode then
          r.storeLocation loc (UInt8.ofInt r.request.logicalNode)
        else
          let (r, answer) := r.resolve
          r.storeLocation loc (UInt8.ofInt answer.1)
    | none => r
  else r

/-- A portable node without a vehicle gets the one of its logical node. -/
def connectPortable (r : Refresh) (isPnNode : Bool) : Refresh :=
  if isPnNode && !r.vehicleAdded then
    let (r, answer) := r.resolve
    if answer.2 then
      { r with request := { r.request with
          vehicleAddress :=
            "tcp://127.0.0.1:" ++ toString (5760 + answer.1) } }.addVehicle
    else r
  else r

def storeVehicleAddress (r : Refresh) : Refresh :=
  if r.request.hasVehicleAddress then
    { r with node := { r.node with config := { r.node.config with
        vehicleAddress := r.request.vehicleAddress } } }
  else r

end Refresh

/-- `refreshFromConfig`: the node, the request and the vehicle handlers
afterwards. -/
def refreshFromConfig (node : Node) (nodeConfig : NodeConfig)
    (handlers : VehicleHandlers) : Refresh :=
  let isPnNode := nodeConfig.isPortable
  let r : Refresh :=
    { node := node
      request := nodeConfig
      handlers := handlers
      nodeType := nodeConfig.nodeType
      vehicleAdded := false
      resolved := none }
  ((r.copyFields.deduceNodeType.storeNodeType.assignCharacteristics
    ).updateLocation.connectPortable isPnNode).storeVehicleAddress

end Node

end Chem
