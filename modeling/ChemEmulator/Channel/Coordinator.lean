import ChemEmulator.Node.Controller
import Mathlib.Data.List.Sort

/-!
# The coordinator

`src/chem/channel/coordinator.cpp`: the two commands of the operator that
change the configuration of a node, `CHG_ANTENNA` and `CHG_SOURCE_POWER`.  The
coordinator works on the node map and the intermediates of the controller.  A
command is taken after JSON decoding; whether the database row could be
changed is an input.

The receivers and transmitters that an intermediate lists are the objects of
the nodes.  Changing one through the intermediate changes it in its node.
-/

namespace Chem

namespace Coordinator

inductive Status where
  | success
  /-- The status `partial`. -/
  | partly
  | fail
deriving DecidableEq

structure Response where
  status : Status
  message : Option String
  warning : Option String
  sourcePowerDbfs : Option ℚ
deriving DecidableEq

def Response.failed (message : String) : Response :=
  ⟨.fail, some message, none, none⟩

/-! ## Finding a node -/

/-- The first node of the map that passes a test; the map is ordered by
identifier. -/
def firstNode (C : Controller) (test : NodeId → Node → Bool) :
    Option NodeId :=
  (C.nodeMap.keys.insertionSort (· ≤ ·)).find? fun id =>
    (C.nodeMap.lookup id).any (test id)

/-- `resolveNodeId`: an identifier, or the name of a node. -/
def resolveNodeId (C : Controller) (raw : String) : NodeId :=
  if raw ∈ C.nodeMap then raw
  else
    match firstNode C fun _ node => decide (node.config.name = raw) with
    | some id => ((C.nodeMap.lookup id).map fun node => node.config.id).getD raw
    | none => raw

/-! ## CHG_ANTENNA -/

/-- One pattern for both directions, or one for each. -/
structure Patterns where
  both : String
  tx : String
  rx : String
deriving DecidableEq

def Patterns.isMissing (p : Patterns) : Bool :=
  p.both.isEmpty && p.tx.isEmpty && p.rx.isEmpty

/-- The patterns that are given are stored. -/
def Patterns.apply (p : Patterns) (config : NodeConfig) : NodeConfig :=
  if p.both.isEmpty then
    let config := if p.tx.isEmpty then config
      else config.setTxAntennaPattern p.tx
    if p.rx.isEmpty then config else config.setRxAntennaPattern p.rx
  else config.setAntennaPattern p.both

/-- The endpoint answers to a name or an identifier. -/
def isCalled (e : Endpoint) (node : String) : Bool :=
  decide (e.name = node) || decide (e.id = node)

/-- An intermediate has an object of that name among its receivers or
transmitters. -/
def isListed (C : Controller) (dir : Direction) (node : String)
    (object : Endpoint → Bool) : Bool :=
  (FiniteMap.values C.intermediateMap).any fun I =>
    (FiniteMap.values (I.members dir)).any fun e => isCalled e node && object e

/-- `updateNodeAntenna`, for all intermediates: what it does to an endpoint of
a node.  An endpoint that is listed more than once gets the same patterns
again. -/
def updateNodeAntenna (C : Controller) (dir : Direction) (node : String)
    (p : Patterns) (st : EndpointState) : EndpointState :=
  if isListed C dir node fun e => decide (e.handle = st.endpoint.handle) then
    { st with nodeConfig := p.apply st.nodeConfig }
  else st

/-- The node that `CHG_ANTENNA` changes. -/
def antennaTarget (C : Controller) (node : String) : Option NodeId :=
  firstNode C fun id n => decide (n.config.name = node) || decide (id = node)

/-- What `CHG_ANTENNA` does to one node of the map. -/
def changeNode (C : Controller) (node : String) (p : Patterns) (id : NodeId)
    (n : Node) : Node :=
  { n with
    config := if antennaTarget C node = some id then p.apply n.config
      else n.config
    receiver := n.receiver.map (updateNodeAntenna C .uplink node p)
    transmitter := n.transmitter.map (updateNodeAntenna C .downlink node p) }

def changeAntenna (C : Controller) (dbOk : Bool) (node : String)
    (p : Patterns) : Response × Controller :=
  if node.isEmpty || p.isMissing then
    (.failed ("Missing node or pattern (use 'pattern' for both, or " ++
      "'tx_pattern'/'rx_pattern' separately)"), C)
  else
    let memOk := (antennaTarget C node).isSome
    let intermOk := isListed C .uplink node (fun _ => true) ||
      isListed C .downlink node (fun _ => true)
    let status := if dbOk && memOk && intermOk then Status.success
      else if dbOk || memOk || intermOk then .partly
      else .fail
    let warning := if memOk || intermOk then none
      else some "Node not found in memory, only database updated"
    (⟨status, none, warning, none⟩,
      { C with nodeMap := FiniteMap.mapEntries (changeNode C node p) C.nodeMap })

/-! ## CHG_SOURCE_POWER -/

/-- A number, or nothing: then the measured power counts. -/
def powerOf (sourcePowerDbfs : Option ℚ) : FloatValue :=
  match sourcePowerDbfs with
  | some power => .finite power
  | none => .nan

def changeSourcePower (C : Controller) (node : String)
    (sourcePowerDbfs : Option ℚ) : Response × Controller :=
  if node.isEmpty then (.failed "Missing 'node' field", C)
  else
    let nodeId := resolveNodeId C node
    match C.nodeMap.lookup nodeId with
    | none => (.failed "Node not found", C)
    | some n =>
        match n.config.characteristics with
        | none => (.failed "Node has no characteristics", C)
        | some chars =>
            let chars := { chars with
              sourcePowerDbfs := powerOf sourcePowerDbfs }
            let n := { n with config := { n.config with
              characteristics := some chars } }
            (⟨.success, none, none, sourcePowerDbfs⟩,
              { C with nodeMap := C.nodeMap.insert nodeId n })

/-! ## Commands -/

inductive Command where
  | changeAntenna (dbOk : Bool) (node : String) (patterns : Patterns)
  | changeSourcePower (node : String) (sourcePowerDbfs : Option ℚ)

/-- The part of `requestHandler` for these commands. -/
def requestHandler (C : Controller) : Command → Response × Controller
  | .changeAntenna dbOk node p => changeAntenna C dbOk node p
  | .changeSourcePower node power => changeSourcePower C node power

end Coordinator

end Chem
