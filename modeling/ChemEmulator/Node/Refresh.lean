import ChemEmulator.Node.NodeEntity

/-!
# What refreshing a node keeps

`refreshFromConfig` goes through the request field by field, but it never
touches the channels of either side or the endpoints of the node.  `core` is
that part of the state, together with the two identifiers; every stage after
the first leaves it alone.
-/

namespace Chem

namespace Node

@[simp] theorem endpoint_setEndpoint_same (node : Node) (dir : Direction)
    (e : EndpointState) : (node.setEndpoint dir e).endpoint dir = some e := by
  cases dir <;> rfl

theorem endpoint_setEndpoint_ne (node : Node) {dir dir' : Direction}
    (e : EndpointState) (h : dir' ≠ dir) :
    (node.setEndpoint dir e).endpoint dir' = node.endpoint dir' := by
  cases dir <;> cases dir' <;> first | rfl | exact absurd rfl h

@[simp] theorem config_setEndpoint (node : Node) (dir : Direction)
    (e : EndpointState) : (node.setEndpoint dir e).config = node.config := by
  cases dir <;> rfl

/-- Equal configurations are tuned to equal frequencies. -/
theorem freq?_of_compare {node : Node} {nc : NodeConfig}
    (h : node.compare nc = true) (dir : Direction) :
    node.freq? dir = nc.channels.head?.map dir.freqOf := by
  have hchannels : compareChannels node.config.channels nc.channels = true := by
    simp only [compare, Bool.and_eq_true] at h
    exact h.2
  unfold freq?
  cases hm : node.config.channels with
  | nil =>
      cases hn : nc.channels with
      | nil => rfl
      | cons d ds => simp [compareChannels, hm, hn] at hchannels
  | cons c cs =>
      cases hn : nc.channels with
      | nil => simp [compareChannels, hm, hn] at hchannels
      | cons d ds =>
          simp only [compareChannels, hm, hn, List.zip_cons_cons, List.all_cons,
            Bool.and_eq_true, Usrp.Channel.compare, decide_eq_true_eq]
            at hchannels
          obtain ⟨-, ⟨⟨⟨⟨⟨htx, hrx⟩, -⟩, -⟩, -⟩, -⟩, -⟩ := hchannels
          cases dir
          · simp [Direction.freqOf, htx]
          · simp [Direction.freqOf, hrx]

namespace Refresh

/-- The part of the state that does not depend on the request's fields. -/
structure Core where
  id : NodeId
  channels : List Usrp.Channel
  receiver : Option EndpointState
  transmitter : Option EndpointState
  requestId : NodeId
  requestChannels : List Usrp.Channel

def core (r : Refresh) : Core where
  id := r.node.config.id
  channels := r.node.config.channels
  receiver := r.node.receiver
  transmitter := r.node.transmitter
  requestId := r.request.id
  requestChannels := r.request.channels

theorem core_addVehicle (r : Refresh) : r.addVehicle.core = r.core := by
  simp only [addVehicle, Node.addVehicle, core]
  split_ifs <;> rfl

theorem core_resolve (r : Refresh) : r.resolve.1.core = r.core := by
  unfold resolve getResolvedLogicalNode
  cases r.resolved with
  | some answer => rfl
  | none =>
      by_cases hlogical : r.request.hasLogicalNode
      · simp [resolveLogicalNode, hlogical, core]
      · by_cases hdigits : r.request.keyDigits.isEmpty
        · simp [resolveLogicalNode, hlogical, hdigits, core]
        · cases hnumber : stoi r.request.keyDigits <;>
            simp [resolveLogicalNode, hlogical, hdigits, hnumber, core]

theorem core_copyFields (r : Refresh) :
    r.copyFields.core = { r.core with id := r.request.id } := by
  simp only [copyFields, core, NodeConfig.setDeviceTxGain,
    NodeConfig.setDeviceRxGain]
  split_ifs <;> rfl

theorem core_deduceNodeType (r : Refresh) :
    r.deduceNodeType.core = r.core := by
  unfold deduceNodeType
  split_ifs
  · exact core_addVehicle _
  · rfl
  · rfl
  · exact core_resolve _
  · rfl
  · rfl

theorem core_assignCharacteristics (r : Refresh) :
    r.assignCharacteristics.core = r.core := by
  unfold assignCharacteristics
  split
  · rfl
  · rfl
  · split <;> rfl
  · rfl

theorem core_updateLocation (r : Refresh) :
    r.updateLocation.core = r.core := by
  have hresolve := core_resolve r
  unfold updateLocation
  split_ifs
  · rfl
  · rfl
  · rfl
  · split <;> rfl
  · split
    · exact hresolve
    · rfl
  · rfl

theorem core_connectPortable (r : Refresh) (isPnNode : Bool) :
    (r.connectPortable isPnNode).core = r.core := by
  have hresolve := core_resolve r
  unfold connectPortable
  by_cases hconnect : (isPnNode && !r.vehicleAdded) = true
  · simp only [hconnect, if_true]
    by_cases hinfo : r.resolve.2.2 = true
    · simp only [hinfo, if_true]
      exact (core_addVehicle _).trans hresolve
    · simpa only [hinfo, Bool.false_eq_true, if_false] using hresolve
  · simp only [hconnect, Bool.false_eq_true, if_false]

theorem core_storeVehicleAddress (r : Refresh) :
    r.storeVehicleAddress.core = r.core := by
  unfold storeVehicleAddress
  split_ifs <;> rfl

end Refresh

/-- A refreshed node has the request's identifier, and its own channels and
endpoints. -/
theorem core_refreshFromConfig (node : Node) (nodeConfig : NodeConfig)
    (handlers : VehicleHandlers) :
    (node.refreshFromConfig nodeConfig handlers).core =
      { id := nodeConfig.id
        channels := node.config.channels
        receiver := node.receiver
        transmitter := node.transmitter
        requestId := nodeConfig.id
        requestChannels := nodeConfig.channels } := by
  rw [refreshFromConfig, Refresh.core_storeVehicleAddress,
    Refresh.core_connectPortable, Refresh.core_updateLocation,
    Refresh.core_assignCharacteristics]
  exact (Refresh.core_deduceNodeType _).trans (Refresh.core_copyFields _)

end Node

end Chem
