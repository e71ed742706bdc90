import ChemEmulator.Node.NodeEntity

/-!
# The node controller

`src/chem/node/controller.cpp`: the handler of registration, update, heartbeat
and disconnect requests, and the removal of silent nodes.  A request is taken
after JSON decoding.  An operation has no result when an exception leaves the
handler, which nothing catches, or a null pointer is dereferenced.

The database is written to and never read by the controller; of its functions
only the one that can throw is kept.  Opening the sockets of an endpoint and
starting threads are assumed to succeed.
-/

namespace Chem

/-- What `CreateChannel` reads of the propagation defaults. -/
structure PropagationDefaults where
  model : PropagationModel
  groundCoeff : FloatValue
  scenario : String
deriving DecidableEq

inductive Status where
  | success
  | fail
deriving DecidableEq

structure Response where
  status : Status
  /-- `txPort` and `rxPort`. -/
  ports : Option (Int16 × Int16)
deriving DecidableEq

inductive Request where
  /-- Not JSON. -/
  | malformed
  /-- JSON that throws when it is read: a `type` that is not a string, or an
  `id` that is missing or no string in a heartbeat or a disconnect. -/
  | illTyped
  | heartbeat (id : NodeId)
  | disconnect (id : NodeId)
  | config (nodeConfig : NodeConfig)

structure Controller where
  /-- `RuntimeConfig::sandbox_enabled`. -/
  sandbox : Bool
  nodeMap : FiniteMap NodeId Node
  intermediateMap : FiniteMap ℚ Intermediate
  vehicleHandlers : VehicleHandlers
  propagationDefaults : Option PropagationDefaults
  txPortPool : List UInt16
  rxPortPool : List UInt16
  ipAddrMap : FiniteMap String UInt8
  /-- The number of endpoints created so far. -/
  nextHandle : ℕ

namespace Intermediate

/-- The receivers or the transmitters attached to an intermediate. -/
def members (I : Intermediate) : Direction → FiniteMap NodeId Endpoint
  | .uplink => I.sourceMap
  | .downlink => I.destinationMap

/-- `AttachSource` and `AttachDestination`. -/
def attach (I : Intermediate) : Direction → Endpoint → Option Intermediate
  | .uplink, e => I.attachSource e
  | .downlink, e => I.attachDestination e

/-- `DetachSource` and `DetachDestination`. -/
def detach (I : Intermediate) : Direction → Endpoint → Bool × Intermediate
  | .uplink, e => I.detachSource e
  | .downlink, e => I.detachDestination e

end Intermediate

namespace Controller

/-- `GeneratePortPool`: 400 ports, counting down. -/
def generatePortPool (portEnd : UInt16) : List UInt16 :=
  (List.range 400).map fun i => portEnd - UInt16.ofNat i

/-- The constructor. -/
def create (sandbox : Bool) (defaults : Option PropagationDefaults) :
    Controller where
  sandbox := sandbox
  nodeMap := ∅
  intermediateMap := ∅
  vehicleHandlers := ∅
  propagationDefaults := defaults
  txPortPool := generatePortPool 11400
  rxPortPool := generatePortPool 10400
  ipAddrMap := ∅
  nextHandle := 0

/-! ## Ports -/

/-- `AssignTXPort` and `AssignRXPort`: the last port of the pool, or 0. -/
def assignPort (C : Controller) : Direction → UInt16 × Controller
  | .uplink =>
      (C.txPortPool.getLast?.getD 0,
        { C with txPortPool := C.txPortPool.dropLast })
  | .downlink =>
      (C.rxPortPool.getLast?.getD 0,
        { C with rxPortPool := C.rxPortPool.dropLast })

def restoreTXPort (C : Controller) (ipAddress : String) : Controller :=
  match C.ipAddrMap.lookup ipAddress with
  | none => C
  | some count =>
      if count - 1 = 0 then
        { C with ipAddrMap := C.ipAddrMap.erase ipAddress }
      else { C with ipAddrMap := C.ipAddrMap.insert ipAddress (count - 1) }

/-! ## Channels -/

/-- Changes the intermediate of one frequency, if there is one. -/
def updateIntermediate (C : Controller) (freq : ℚ)
    (f : Intermediate → Intermediate) : Controller :=
  match C.intermediateMap.lookup freq with
  | none => C
  | some I =>
      { C with intermediateMap := C.intermediateMap.insert freq (f I) }

/-- A new intermediate with the propagation defaults applied. -/
def newIntermediate (C : Controller) (freq : ℚ) : Intermediate :=
  let I := Intermediate.create freq
  match C.propagationDefaults with
  | none => I
  | some d =>
      if d.model = .freeSpace ∨ d.model = .unknown then I
      else
        let I := I.updatePathLoss d.model d.groundCoeff
        if d.model = .threeGPP_38_901 then I.set3gppScenario d.scenario
        else I

def createChannel (C : Controller) (freq : ℚ) : Controller :=
  if freq ∈ C.intermediateMap then C
  else
    { C with intermediateMap :=
        C.intermediateMap.insert freq (C.newIntermediate freq) }

/-- Drops the intermediate that is found under `freq` when nobody uses it
anymore; the entry that goes is the one of its own frequency. -/
def isChannelEmpty (C : Controller) (freq : ℚ) : Controller :=
  match C.intermediateMap.lookup freq with
  | none => C
  | some I =>
      if I.isEmpty then
        { C with intermediateMap := C.intermediateMap.erase I.freq }
      else C

/-- `CreateReceiver` and `CreateTransmitter`. -/
def createEndpoint (dir : Direction) (C : Controller) (node : Node) :
    Option (EndpointState × Controller × Node) :=
  let (port, C) := C.assignPort dir
  let config := match dir with
    | .uplink => { node.config with portTxNum := port.toInt16 }
    | .downlink => { node.config with portRxNum := port.toInt16 }
  let node := { node with config := config }
  (EndpointState.create dir C.nextHandle node.config).map fun e =>
    (e, { C with nextHandle := C.nextHandle + 1 }, node)

/-- The endpoint of a node, created if it has none, with the node's current
formats. -/
def ensureEndpoint (dir : Direction) (C : Controller) (node : Node) :
    Option (EndpointState × Controller × Node) :=
  let found := match node.endpoint dir with
    | some e => some (e, C, node)
    | none => createEndpoint dir C node
  found.map fun (e, C, node) =>
    let e := e.setFormats node.config.inputFormat node.config.outputFormat
    (e, C, node.setEndpoint dir e)

/-- `std::abs(prevFreq - freq) >= 10e3`, in double arithmetic. -/
def freqChanged (prevFreq freq : ℚ) : Bool :=
  decide (10000 ≤ |FloatValue.roundBinary 53 (prevFreq - freq)|)

/-- `updateTxFreq(freq, 0)` and `updateRxFreq(freq, 0)`: they throw when there
is no channel. -/
def updateFreq (dir : Direction) (config : NodeConfig) (freq : ℚ) :
    Option NodeConfig :=
  match config.channels with
  | [] => none
  | ch :: rest =>
      some { config with channels := dir.setFreq freq ch :: rest }

/-- The branch of a small or no change of frequency: only the sample rate is
taken over. -/
def keepChannel (dir : Direction) (e : Option EndpointState) (node : Node)
    (newConfig : NodeConfig) : Node :=
  let node := { node with
    config := { node.config with sampleRate := newConfig.sampleRate } }
  match e with
  | none => node
  | some e =>
      node.setEndpoint dir
        (e.setSampleRate dir (toUInt32 (dir.rateOf node.config.sampleRate)))

/-- The node leaves the intermediate of its old frequency. -/
def leaveChannel (dir : Direction) (C : Controller) (prevFreq : ℚ)
    (e : Option EndpointState) (node : Node) : Controller :=
  let leave (I : Intermediate) := match e with
    | none => I.removeSandboxNode node.config.id
    | some e => (I.detach dir e.endpoint).2
  (C.updateIntermediate prevFreq leave).isChannelEmpty prevFreq

/-- The node enters the intermediate of its new frequency, which exists. -/
def joinChannel (dir : Direction) (C : Controller) (freq : ℚ)
    (e : Option EndpointState) (node : Node) (newConfig : NodeConfig) :
    Option (Controller × Node) := do
  let config ← updateFreq dir node.config freq
  let node := { node with config := config }
  let I ← C.intermediateMap.lookup freq
  match e with
  | none =>
      let I := I.addSandboxNode node.config.id newConfig.numChannels.toNat
      return ({ C with
        intermediateMap := C.intermediateMap.insert freq I }, node)
  | some e =>
      let e := (e.updateFreq freq).setSampleRate dir
        (toUInt32 (dir.rateOf node.config.sampleRate))
      let I ← I.attach dir e.endpoint
      return ({ C with
        intermediateMap := C.intermediateMap.insert freq I },
        node.setEndpoint dir e)

/-- The common body of `AssignULChannel` and `AssignDLChannel`. -/
def assignChannel (dir : Direction) (C : Controller) (node : Node)
    (newConfig : NodeConfig) : Option (Bool × Controller × Node) :=
  match newConfig.channels with
  | [] => some (false, C, node)
  | ch :: _ => do
      let freq := dir.freqOf ch
      let prevFreq := (node.freq? dir).getD 0
      let chFound := decide (freq ∈ C.intermediateMap)
      let prevChFound := decide (prevFreq ∈ C.intermediateMap)
      let isSame := node.compare newConfig
      -- in sandbox mode the endpoint is a null pointer
      let (e, C, node) ←
        if C.sandbox then some (none, C, node)
        else (ensureEndpoint dir C node).map fun (e, C, node) =>
          (some e, C, node)
      let C := if chFound then C else C.createChannel freq
      if isSame && !chFound then return (false, C, node)
      let C := if freqChanged prevFreq freq && prevChFound then
        leaveChannel dir C prevFreq e node else C
      if freqChanged prevFreq freq then
        let (C, node) ← joinChannel dir C freq e node newConfig
        return (true, C, node)
      return (false, C, keepChannel dir e node newConfig)

def assignULChannel (C : Controller) (node : Node) (newConfig : NodeConfig) :
    Option (Bool × Controller × Node) :=
  assignChannel .uplink C node newConfig

def assignDLChannel (C : Controller) (node : Node) (newConfig : NodeConfig) :
    Option (Bool × Controller × Node) :=
  assignChannel .downlink C node newConfig

/-! ## Nodes -/

/-- `AddNode`: the database row is built from `channels.at(0)`. -/
def addNode (node : Node) : Option Unit :=
  if node.config.channels.isEmpty then none else some ()

def getOrCreateNode (C : Controller) (node : Node) :
    Option (Node × Bool × Controller) :=
  match C.nodeMap.lookup node.config.id with
  | some stored => some (stored, false, C)
  | none =>
      (addNode node).map fun _ =>
        (node, true,
          { C with nodeMap := C.nodeMap.insert node.config.id node })

/-- An endpoint leaves every intermediate. -/
def detachAll (dir : Direction) (C : Controller) (e : Option EndpointState) :
    Controller :=
  match e with
  | none => C
  | some e =>
      { C with
        intermediateMap :=
          FiniteMap.mapValues (fun I => (I.detach dir e.endpoint).2)
            C.intermediateMap }

def removeEmptyChannels (C : Controller) : Controller :=
  { C with intermediateMap :=
      FiniteMap.filter (fun _ I => !I.isEmpty) C.intermediateMap }

/-- Stops and forgets the handler that runs under the node's name. -/
def removeVehicleHandler (C : Controller) (node : Node) : Controller :=
  let key := if node.config.name.isEmpty then node.config.id
    else node.config.name
  { C with vehicleHandlers := C.vehicleHandlers.erase key }

/-- What a disconnect and a timeout have in common. -/
def removeNode (C : Controller) (id : NodeId) (node : Node) : Controller :=
  let C := detachAll .downlink C node.transmitter
  let C := detachAll .uplink C node.receiver
  let C := (C.removeVehicleHandler node).removeEmptyChannels
  { C with nodeMap := C.nodeMap.erase id }

/-! ## Requests -/

/-- The ports of a node, as they are sent back. -/
def success (node : Node) : Response :=
  ⟨.success, some (node.config.portTxNum, node.config.portRxNum)⟩

/-- The normal configuration request. -/
def handleConfig (C : Controller) (nodeConfig : NodeConfig)
    (remoteIp : String) (now : ℤ) : Option (Response × Controller) := do
  let nodeConfig := { nodeConfig with ipAddress := remoteIp }
  let (target, newlyInserted, C) ←
    C.getOrCreateNode (Node.create nodeConfig now)
  let r := target.refreshFromConfig nodeConfig C.vehicleHandlers
  let C := { C with vehicleHandlers := r.handlers }
  let (createdUL, C, node) ← C.assignULChannel r.node r.request
  let (createdDL, C, node) ← C.assignDLChannel node r.request
  let C := { C with nodeMap := C.nodeMap.insert nodeConfig.id node }
  if !(createdUL || createdDL) && !newlyInserted then
    if node.compare r.request then return (success node, C)
    return (⟨.fail, none⟩, C)
  addNode node
  return (success node, C)

def requestHandler (C : Controller) (request : Request) (remoteIp : String)
    (now : ℤ) : Option (Response × Controller) :=
  match request with
  | .malformed => some (⟨.fail, none⟩, C)
  | .illTyped => none
  | .heartbeat id =>
      match C.nodeMap.lookup id with
      | none => some (⟨.fail, none⟩, C)
      | some node =>
          some (⟨.success, none⟩, { C with
            nodeMap := C.nodeMap.insert id (node.updateHeartbeat now) })
  | .disconnect id =>
      match C.nodeMap.lookup id with
      | none => some (⟨.fail, none⟩, C)
      | some node =>
          let C := C.restoreTXPort node.config.ipAddress
          some (⟨.success, none⟩, C.removeNode id node)
  | .config nodeConfig => C.handleConfig nodeConfig remoteIp now

/-- One round of the loop in `CheckTimeouts`. -/
def checkTimeout (C : Controller) (id : NodeId) (now : ℤ) : Controller :=
  match C.nodeMap.lookup id with
  | none => C
  | some node => if node.isAlive 10 now then C else C.removeNode id node

inductive Event where
  | request (request : Request) (remoteIp : String) (now : ℤ)
  | checkTimeout (id : NodeId) (now : ℤ)

def step (C : Controller) : Event → Option Controller
  | .request request remoteIp now =>
      (C.requestHandler request remoteIp now).map fun result => result.2
  | .checkTimeout id now => some (C.checkTimeout id now)

end Controller

end Chem
