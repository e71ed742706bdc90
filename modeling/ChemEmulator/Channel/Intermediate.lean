import ChemEmulator.Channel.Channel
import ChemEmulator.Support.FiniteMap

/-!
# Intermediates

`src/chem/channel/intermediate.cpp`: the membership and the links of one
frequency.  An intermediate keeps the receivers and transmitters attached to
it, the sandbox nodes, which have neither, and one `Channel` for every link
between them.

The endpoints are shared objects that live in their nodes; an intermediate
reads only data that is fixed when they are constructed.  The attach flag that
it sets on them is never read.
-/

namespace Chem

/-- What an intermediate reads of a `Receiver` or a `Transmitter`. -/
structure Endpoint where
  /-- Which object it is. -/
  handle : ℕ
  id : NodeId
  name : String
  numChannels : UInt8
  /-- `getNodeConfig().getId()`: the constructor takes `m_NodeId` from the
  configuration it copies, and neither is changed afterwards. -/
  configId : NodeId
  configId_eq : configId = id
deriving DecidableEq

abbrev Receiver := Endpoint

abbrev Transmitter := Endpoint

/-- The identity of the worker of one receiver. -/
structure WorkerContext where
  receiverId : NodeId
  srcNodeId : NodeId
  /-- The object behind `src_config`. -/
  srcConfig : ℕ
deriving DecidableEq

structure Intermediate where
  work : Bool
  freq : ℚ
  propagationModel : PropagationModel
  grReflection : FloatValue
  scenario3gpp : String
  hataEnvironment : String
  itm : ITMParams
  sourceMap : FiniteMap NodeId Receiver
  destinationMap : FiniteMap NodeId Transmitter
  destCount : UInt64
  destVersion : UInt64
  channelMap : FiniteMap (NodeId × NodeId) Channel
  workers : FiniteMap NodeId WorkerContext
  sandboxNodes : List NodeId
  sandboxNumChannels : FiniteMap NodeId ℕ
deriving DecidableEq

namespace Intermediate

/-- The constructor. -/
def create (freq : ℚ) : Intermediate where
  work := true
  freq := freq
  propagationModel := .freeSpace
  grReflection := .finite (-1)
  scenario3gpp := "UMa"
  hataEnvironment := "URBAN"
  itm := .default
  sourceMap := ∅
  destinationMap := ∅
  destCount := 0
  destVersion := 0
  channelMap := ∅
  workers := ∅
  sandboxNodes := []
  sandboxNumChannels := ∅

/-! ## Channel map management -/

/-- The path-loss type of a propagation model; the switch of `currentPlType`
and of `setPathLossMode`. -/
def plTypeOf : PropagationModel → PathLossType
  | .twoRay => .twoRay
  | .threeGPP_38_901 => .threeGPP_38_901
  | .okumuraHata => .okumuraHata
  | .longleyRice => .longleyRice
  | .none => .freeSpace
  | .unknown => .freeSpace
  | .freeSpace => .freeSpace

def currentPlType (I : Intermediate) : PathLossType :=
  plTypeOf I.propagationModel

/-- The channel that `insertChannelIfMissing` builds. -/
def newChannel (I : Intermediate) (srcId destId : NodeId)
    (destNumCh srcNumCh : UInt8) : Channel :=
  (((Channel.create srcId destId destNumCh srcNumCh).updatePlType
    I.currentPlType).update3gppScenario I.scenario3gpp).updateHataEnvironment
      I.hataEnvironment |>.updateITMParams I.itm

def insertChannelIfMissing (I : Intermediate)
    (channelMap : FiniteMap (NodeId × NodeId) Channel)
    (srcId destId : NodeId) (destNumCh srcNumCh : UInt8) :
    FiniteMap (NodeId × NodeId) Channel :=
  FiniteMap.insertIfMissing (srcId, destId)
    (I.newChannel srcId destId destNumCh srcNumCh) channelMap

/-- `static_cast<uint8_t>` of the stored number of channels, or of 1. -/
def sandboxChannels (I : Intermediate) (node : NodeId) : UInt8 :=
  UInt8.ofNat ((I.sandboxNumChannels.lookup node).getD 1)

/-- The links from real sources to real destinations. -/
def linkEndpoints (I : Intermediate)
    (channelMap : FiniteMap (NodeId × NodeId) Channel) :
    FiniteMap (NodeId × NodeId) Channel :=
  (FiniteMap.values I.sourceMap).foldl
    (fun channelMap src =>
      (FiniteMap.values I.destinationMap).foldl
        (fun channelMap dest =>
          I.insertChannelIfMissing channelMap src.id dest.id
            dest.numChannels src.numChannels)
        channelMap)
    channelMap

/-- The links of one sandbox node, which acts as both source and
destination. -/
def linkSandboxNode (I : Intermediate)
    (channelMap : FiniteMap (NodeId × NodeId) Channel) (nodeA : NodeId) :
    FiniteMap (NodeId × NodeId) Channel :=
  let chA := I.sandboxChannels nodeA
  let channelMap := I.sandboxNodes.foldl
    (fun channelMap nodeB =>
      if nodeA = nodeB then channelMap
      else I.insertChannelIfMissing channelMap nodeA nodeB
        (I.sandboxChannels nodeB) chA)
    channelMap
  let channelMap := (FiniteMap.values I.destinationMap).foldl
    (fun channelMap dest =>
      I.insertChannelIfMissing channelMap nodeA dest.id dest.numChannels chA)
    channelMap
  (FiniteMap.values I.sourceMap).foldl
    (fun channelMap src =>
      I.insertChannelIfMissing channelMap src.id nodeA chA src.numChannels)
    channelMap

def updateChannelMap (I : Intermediate) : Intermediate :=
  { I with channelMap :=
      I.sandboxNodes.foldl I.linkSandboxNode (I.linkEndpoints I.channelMap) }

/-- Drops every link whose channel has the node at either end. -/
def removeChannel (I : Intermediate) (nodeId : NodeId) : Intermediate :=
  let survives := fun (_ : NodeId × NodeId) (ch : Channel) =>
    !(ch.source = nodeId || ch.dest = nodeId)
  { I with channelMap := FiniteMap.filter survives I.channelMap }

/-! ## Status -/

def isEmpty (I : Intermediate) : Bool :=
  I.destinationMap.keys.isEmpty && I.sourceMap.keys.isEmpty &&
    I.sandboxNodes.isEmpty

def emptyChannelChecker (I : Intermediate) : Intermediate :=
  if I.isEmpty then { I with work := false } else I

/-- `printStatus` looks up the receiver and the transmitter of every channel
and dereferences what it finds.  A missing one is a null pointer: the process
does not survive, and there is no result. -/
def printStatus (I : Intermediate) : Option Intermediate :=
  if (FiniteMap.values I.channelMap).all fun ch =>
      decide (ch.source ∈ I.sourceMap) && decide (ch.dest ∈ I.destinationMap)
  then some I
  else none

/-! ## Sources and destinations -/

def attachDestination (I : Intermediate) (transmitter : Transmitter) :
    Option Intermediate :=
  if transmitter.configId ∈ I.destinationMap then some I
  else
    let I := { I with
      destinationMap := I.destinationMap.insert transmitter.configId transmitter
      destCount := I.destCount + 1 }
    let I := I.updateChannelMap
    printStatus { I with destVersion := I.destVersion + 1 }

def detachDestination (I : Intermediate) (transmitter : Transmitter) :
    Bool × Intermediate :=
  if transmitter.id ∈ I.destinationMap then
    let I := I.removeChannel transmitter.id
    let I := { I with
      destinationMap := I.destinationMap.erase transmitter.id
      destCount := I.destCount - 1
      destVersion := I.destVersion + 1 }
    (true, I.emptyChannelChecker)
  else (false, I)

def attachSource (I : Intermediate) (receiver : Receiver) :
    Option Intermediate :=
  if receiver.id ∈ I.sourceMap then some I
  else
    let I := { I with
      sourceMap := I.sourceMap.insert receiver.id receiver
      workers := I.workers.insert receiver.id
        ⟨receiver.id, receiver.configId, receiver.handle⟩ }
    let I := I.updateChannelMap
    printStatus { I with destVersion := I.destVersion + 1 }

def detachSource (I : Intermediate) (receiver : Receiver) :
    Bool × Intermediate :=
  if receiver.id ∈ I.sourceMap then
    let I := { I with workers := I.workers.erase receiver.id }
    let I := I.removeChannel receiver.id
    let I := { I with
      destVersion := I.destVersion + 1
      sourceMap := I.sourceMap.erase receiver.id }
    (true, I.emptyChannelChecker)
  else (false, I)

/-! ## Sandbox nodes -/

def addSandboxNode (I : Intermediate) (nodeId : NodeId) (numChannels : ℕ) :
    Intermediate :=
  let I := { I with
    sandboxNodes := I.sandboxNodes.insert nodeId
    sandboxNumChannels := I.sandboxNumChannels.insert nodeId numChannels }
  let I := I.updateChannelMap
  { I with destVersion := I.destVersion + 1 }

def removeSandboxNode (I : Intermediate) (nodeId : NodeId) : Intermediate :=
  let I := { I with
    sandboxNodes := I.sandboxNodes.filter (· ≠ nodeId)
    sandboxNumChannels := I.sandboxNumChannels.erase nodeId }
  let I := I.removeChannel nodeId
  { I with destVersion := I.destVersion + 1 }

/-! ## Propagation settings -/

def setPathLossMode (I : Intermediate) (plMode : PropagationModel) :
    Intermediate :=
  { I with
    propagationModel := plMode
    channelMap :=
      FiniteMap.mapValues (Channel.updatePlType (plTypeOf plMode))
        I.channelMap }

def set3gppScenario (I : Intermediate) (scenario : String) : Intermediate :=
  if scenario.isEmpty then I
  else
    { I with
      scenario3gpp := scenario
      channelMap :=
        FiniteMap.mapValues (Channel.update3gppScenario scenario)
          I.channelMap }

def setHataEnvironment (I : Intermediate) (environment : String) :
    Intermediate :=
  if environment.isEmpty then I
  else
    { I with
      hataEnvironment := environment
      channelMap :=
        FiniteMap.mapValues (Channel.updateHataEnvironment environment)
          I.channelMap }

def setITMParams (I : Intermediate) (itm : ITMParams) : Intermediate :=
  let itm := { itm with climateZone := clampClimateZone itm.climateZone }
  { I with
    itm := itm
    channelMap :=
      FiniteMap.mapValues (Channel.updateITMParams itm) I.channelMap }

def setShadowingSTD (I : Intermediate) (std : FloatValue) : Intermediate :=
  { I with channelMap :=
      FiniteMap.mapValues (Channel.setShadowingSTD std) I.channelMap }

def updatePathLoss (I : Intermediate) (plMode : PropagationModel)
    (grCoeff : FloatValue) : Intermediate :=
  { I.setPathLossMode plMode with grReflection := grCoeff }

/-! ## Settings of a single link -/

/-- A change of the channel that `getChannel` finds. -/
def updateChannel (I : Intermediate) (ends : NodeId × NodeId)
    (f : Channel → Channel) : Intermediate :=
  { I with
    channelMap :=
      FiniteMap.mapEntries (fun k ch => if k = ends then f ch else ch)
        I.channelMap }

def updateChannelCoeff (I : Intermediate) (ends : NodeId × NodeId)
    (id : ℕ × ℕ) (coeff : ℚ) : Intermediate :=
  I.updateChannel ends (Channel.updateChCoeff id coeff)

def updateAWGN (I : Intermediate) (ends : NodeId × NodeId)
    (awgnEnabled : Bool) (snr : ℚ) : Intermediate :=
  I.updateChannel ends fun ch =>
    if awgnEnabled then (ch.updateNoiseType .awgn).updateSNR snr
    else (ch.updateNoiseType .none).clearSNROverride

def updateFrequencyOffset (I : Intermediate) (ends : NodeId × NodeId)
    (offsetHz : ℚ) : Intermediate :=
  I.updateChannel ends (Channel.setFrequencyOffsetHz offsetHz)

def updateDopplerEnabled (I : Intermediate) (ends : NodeId × NodeId)
    (enabled : Bool) : Intermediate :=
  I.updateChannel ends (Channel.setDopplerEnabled enabled)

/-- Without taps those of the pair of ports are dropped. -/
def updateCIR (I : Intermediate) (ends : NodeId × NodeId) (id : ℕ × ℕ)
    (taps : List (ℚ × ℚ)) : Intermediate :=
  I.updateChannel ends
    (if taps.isEmpty then Channel.clearChTaps id
      else Channel.updateChTaps id taps)

end Intermediate

end Chem
