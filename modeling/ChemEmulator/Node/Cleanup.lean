import ChemEmulator.Node.Intermediates
import ChemEmulator.Node.Reregistration

/-!
# What a removed node leaves behind

A disconnect and a timeout take the node's endpoints out of every intermediate
and drop the intermediates that this leaves empty.  Neither of them knows about
sandbox nodes: a node that is one somewhere stays there, together with its
channels.

The mode may be switched between two events, so an intermediate can have
members of both kinds.
-/

namespace Chem

open PartialRuns

namespace Controller

/-! ## Who is attached, in either mode -/

theorem attached_of_leaveChannel {C : Controller} {dir dir' : Direction}
    {prevFreq k : ℚ} {e : Option EndpointState} {node : Node} {id : NodeId}
    {e' : Endpoint}
    (h : (leaveChannel dir C prevFreq e node).Attached dir' k id e') :
    C.Attached dir' k id e' := by
  obtain ⟨I, hI, hmember⟩ := h
  have hupdated : ∀ D : Controller, ∀ freq,
      (D.isChannelEmpty freq).intermediateMap.lookup k = some I →
      D.intermediateMap.lookup k = some I := by
    intro D freq hlookup
    unfold isChannelEmpty at hlookup
    split at hlookup
    · exact hlookup
    next J hJ =>
      split_ifs at hlookup with hempty
      · by_cases hk : k = J.freq
        · subst hk
          simp at hlookup
        · rwa [AList.lookup_erase_ne hk] at hlookup
      · exact hlookup
  have hleft := hupdated _ prevFreq hI
  unfold updateIntermediate at hleft
  split at hleft
  · exact ⟨I, hleft, hmember⟩
  next J hJ =>
    by_cases hk : k = prevFreq
    · subst hk
      rw [AList.lookup_insert, Option.some.injEq] at hleft
      subst hleft
      refine ⟨J, hJ, ?_⟩
      cases e with
      | none =>
          cases dir' <;> exact hmember
      | some st =>
          dsimp only at hmember
          rw [Intermediate.lookup_detach] at hmember
          split_ifs at hmember
          exact hmember
    · rw [AList.lookup_insert_ne hk] at hleft
      exact ⟨I, hleft, hmember⟩

theorem attached_of_joinChannel {C C' : Controller} {dir dir' : Direction}
    {freq k : ℚ} {e : Option EndpointState} {node node' : Node}
    {newConfig : NodeConfig} {id : NodeId} {e' : Endpoint}
    (h : joinChannel dir C freq e node newConfig = some (C', node'))
    (hattached : C'.Attached dir' k id e') :
    C.Attached dir' k id e' ∨
      ∃ st, e = some st ∧ dir' = dir ∧ id = st.endpoint.id := by
  obtain ⟨J, hJ, hmember⟩ := hattached
  cases joined_of_joinChannel h with
  | @sandbox _ _ I _ hI =>
      refine Or.inl ?_
      by_cases hk : k = freq
      · subst hk
        rw [AList.lookup_insert, Option.some.injEq] at hJ
        subst hJ
        exact ⟨I, hI, by cases dir' <;> exact hmember⟩
      · rw [AList.lookup_insert_ne hk] at hJ
        exact ⟨J, hJ, hmember⟩
  | @endpoint _ _ st I I' _ hI hattach =>
      by_cases hk : k = freq
      · subst hk
        rw [AList.lookup_insert, Option.some.injEq] at hJ
        subst hJ
        rw [Intermediate.lookup_attach hattach] at hmember
        split_ifs at hmember with hcase
        · exact Or.inr ⟨st, rfl, hcase.1, hcase.2.1⟩
        · exact Or.inl ⟨I, hI, hmember⟩
      · rw [AList.lookup_insert_ne hk] at hJ
        exact Or.inl ⟨J, hJ, hmember⟩

/-- The object that a node has for a direction. -/
def endpointOf (node : Node) (dir : Direction) : Option Endpoint :=
  (node.endpoint dir).map EndpointState.endpoint

theorem endpointOf_setEndpoint {node : Node} {dir : Direction}
    {st : EndpointState} (h : endpointOf node dir = some st.endpoint)
    (dir' : Direction) :
    endpointOf (node.setEndpoint dir st) dir' = endpointOf node dir' := by
  by_cases hdir : dir' = dir
  · subst hdir
    rw [h, endpointOf, Node.endpoint_setEndpoint_same]
    rfl
  · rw [endpointOf, Node.endpoint_setEndpoint_ne _ _ hdir]
    rfl

/-- Past the endpoint, an assignment exchanges no object. -/
theorem endpointOf_of_ends {dir : Direction} {C C₁ C' : Controller}
    {node node₁ node' : Node} {e : Option EndpointState}
    {newConfig : NodeConfig} {ch : Usrp.Channel} {created : Bool}
    (h : Ends dir C C₁ node node₁ e newConfig ch created C' node')
    (hstored : ∀ st, e = some st → node₁.endpoint dir = some st)
    (dir' : Direction) : endpointOf node' dir' = endpointOf node₁ dir' := by
  have hobject : ∀ st, e = some st → ∀ config : NodeConfig,
      endpointOf { node₁ with config := config } dir = some st.endpoint := by
    intro st hst config
    have hnode : Node.endpoint { node₁ with config := config } dir =
        node₁.endpoint dir := by
      cases dir <;> rfl
    rw [endpointOf, hnode, hstored st hst]
    rfl
  cases h with
  | repeated => rfl
  | kept =>
      cases e with
      | none => cases dir' <;> rfl
      | some st =>
          refine (endpointOf_setEndpoint ?_ dir').trans ?_
          · exact hobject st rfl _
          · cases dir' <;> rfl
  | moved _ _ hjoin =>
      cases joined_of_joinChannel hjoin with
      | sandbox => cases dir' <;> rfl
      | endpoint =>
          refine (endpointOf_setEndpoint ?_ dir').trans ?_
          · exact hobject _ rfl _
          · cases dir' <;> rfl

/-- What an assignment does in either mode to the endpoints of its node and to
who is attached. -/
structure Retained (C C' : Controller) (node node' : Node) : Prop where
  nodeMap : C'.nodeMap = C.nodeMap
  id : node'.config.id = node.config.id
  kept : ∀ dir e, endpointOf node dir = some e → endpointOf node' dir = some e
  created : ∀ dir e, endpointOf node' dir = some e →
    endpointOf node dir = some e ∨ e.id = node.config.id
  attached : ∀ dir k id e, C'.Attached dir k id e →
    C.Attached dir k id e ∨ ∃ e', endpointOf node' dir = some e' ∧ id = e'.id

theorem retained_of_same {C C' : Controller} {node node' : Node}
    (hnodes : C'.nodeMap = C.nodeMap)
    (hmap : C'.intermediateMap = C.intermediateMap)
    (hid : node'.config.id = node.config.id)
    (hendpoint : ∀ dir, node'.endpoint dir = node.endpoint dir) :
    Retained C C' node node' where
  nodeMap := hnodes
  id := hid
  kept dir e he := by
    rw [endpointOf, hendpoint]
    exact he
  created dir e he := by
    rw [endpointOf, hendpoint] at he
    exact Or.inl he
  attached dir k id e hattached := Or.inl ((Attached.congr hmap).mp hattached)

theorem retained_equip {dir : Direction} {C C₁ : Controller}
    {node node₁ : Node} {e : Option EndpointState}
    (h : equip dir C node = some (e, C₁, node₁)) :
    Retained C C₁ node node₁ ∧
      ∀ st, e = some st → node₁.endpoint dir = some st := by
  rcases equip_cases h with ⟨-, rfl, rfl, rfl⟩ | ⟨-, st, rfl, hensured⟩
  · refine ⟨retained_of_same rfl rfl rfl fun _ => rfl, fun st hst => ?_⟩
    cases hst
  · have hequipped := hensured.equipped
    obtain ⟨hmap, hnodes, -, -⟩ := hensured.state_eq
    have hstored : endpointOf node₁ dir = some st.endpoint := by
      rw [endpointOf, hequipped.stored]
      rfl
    have hothers : ∀ dir' ≠ dir,
        endpointOf node₁ dir' = endpointOf node dir' := by
      intro dir' hdir
      rw [endpointOf, hequipped.same.endpoint dir' hdir]
      rfl
    refine ⟨⟨hnodes, hequipped.same.id, ?_, ?_, ?_⟩, ?_⟩
    · intro dir' e' he'
      by_cases hdir : dir' = dir
      · subst hdir
        obtain ⟨st₀, hst₀, rfl⟩ := Option.map_eq_some_iff.mp he'
        rw [hstored, hequipped.kept st₀ hst₀]
      · rw [hothers dir' hdir, he']
    · intro dir' e' he'
      by_cases hdir : dir' = dir
      · subst hdir
        rw [hstored, Option.some.injEq] at he'
        subst he'
        cases hst : node.endpoint dir' with
        | none => exact Or.inr (hequipped.created hst)
        | some st₀ =>
            refine Or.inl ?_
            rw [endpointOf, hst, hequipped.kept st₀ hst]
            rfl
      · rw [hothers dir' hdir] at he'
        exact Or.inl he'
    · exact fun dir' k id e' hattached =>
        Or.inl ((Attached.congr hmap).mp hattached)
    · intro st' hst'
      cases hst'
      exact hequipped.stored

theorem attached_of_ends {dir : Direction} {C C₁ C' : Controller}
    {node node₁ node' : Node} {e : Option EndpointState}
    {newConfig : NodeConfig} {ch : Usrp.Channel} {created : Bool}
    (h : Ends dir C C₁ node node₁ e newConfig ch created C' node')
    {dir' : Direction} {k : ℚ} {id : NodeId} {e' : Endpoint}
    (hattached : C'.Attached dir' k id e') :
    C₁.Attached dir' k id e' ∨
      ∃ st, e = some st ∧ dir' = dir ∧ id = st.endpoint.id := by
  cases h with
  | repeated => exact Or.inl ((attached_createChannel ..).mp hattached)
  | kept => exact Or.inl ((attached_createChannel ..).mp hattached)
  | moved _ _ hjoin =>
      rcases attached_of_joinChannel hjoin hattached with hold | hnew
      · refine Or.inl ((C₁.attached_createChannel (dir.freqOf ch)).mp ?_)
        split_ifs at hold
        · exact attached_of_leaveChannel hold
        · exact hold
      · exact Or.inr hnew

theorem retained_assignChannel {dir : Direction} {C C' : Controller}
    {node node' : Node} {newConfig : NodeConfig} {created : Bool}
    (h : assignChannel dir C node newConfig = some (created, C', node')) :
    Retained C C' node node' := by
  cases hchannels : newConfig.channels with
  | nil =>
      rw [assignChannel, hchannels] at h
      cases h
      exact retained_of_same rfl rfl rfl fun _ => rfl
  | cons ch rest =>
      have houtcome := assignChannel_outcome hchannels h
      obtain ⟨e, C₁, node₁, hequip, hends⟩ := assignChannel_ends hchannels h
      obtain ⟨hretained, hstored⟩ := retained_equip hequip
      have hobject := endpointOf_of_ends hends hstored
      refine ⟨houtcome.nodeMap, ?_, ?_, ?_, ?_⟩
      · rw [houtcome.record.config]
      · intro dir' e' he'
        rw [hobject]
        exact hretained.kept dir' e' he'
      · intro dir' e' he'
        rw [hobject] at he'
        exact hretained.created dir' e' he'
      · intro dir' k id e' hattached
        rcases attached_of_ends hends hattached with hold | ⟨st, hst, rfl, rfl⟩
        · rcases hretained.attached dir' k id e' hold with hbefore | hown
          · exact Or.inl hbefore
          · exact Or.inr (by rwa [hobject])
        · refine Or.inr ⟨st.endpoint, ?_, rfl⟩
          rw [hobject, endpointOf, hstored st hst]
          rfl

/-! ## Endpoints belong to known nodes, in either mode -/

theorem Owned.of_lookup {C C' : Controller} (hC : C.Owned)
    (hmap : C'.intermediateMap = C.intermediateMap)
    (hnodes : ∀ id, C'.nodeMap.lookup id = C.nodeMap.lookup id) :
    C'.Owned where
  ids id node hlookup := hC.ids id node (hnodes id ▸ hlookup)
  endpoints id node dir st hlookup :=
    hC.endpoints id node dir st (hnodes id ▸ hlookup)
  attached dir k id e hattached := by
    rw [hnodes]
    exact hC.attached dir k id e ((Attached.congr hmap).mp hattached)

/-- A node that is stored where it belongs can be written back. -/
theorem Owned.put_stored {C : Controller} {id : NodeId} {node : Node}
    (hC : C.Owned) (hnode : C.nodeMap.lookup id = some node) :
    (C.put id node).Owned := by
  refine hC.of_lookup rfl fun id' => ?_
  rw [lookup_put]
  split_ifs with hcase
  · rw [hcase, hnode]
  · rfl

theorem Owned.put {C C' : Controller} {node node' : Node}
    (hC : (C.put node.config.id node).Owned) (h : Retained C C' node node') :
    (C'.put node'.config.id node').Owned := by
  have hlookup : (C.put node.config.id node).nodeMap.lookup node.config.id =
      some node := by
    simp [lookup_put]
  have hown : ∀ dir e, endpointOf node' dir = some e →
      e.id = node.config.id := by
    intro dir e he
    rcases h.created dir e he with hkept | hcreated
    · obtain ⟨st, hst, rfl⟩ := Option.map_eq_some_iff.mp hkept
      exact hC.endpoints _ node dir st hlookup hst
    · exact hcreated
  rw [h.id]
  refine ⟨?_, ?_, ?_⟩
  · intro id stored hstored
    rw [lookup_put, h.nodeMap] at hstored
    split_ifs at hstored with hcase
    · cases hstored
      rw [h.id, hcase]
    · exact hC.ids id stored (by rw [lookup_put, if_neg hcase, hstored])
  · intro id stored dir st hstored hst
    rw [lookup_put, h.nodeMap] at hstored
    split_ifs at hstored with hcase
    · cases hstored
      rw [hcase]
      refine hown dir st.endpoint ?_
      rw [endpointOf, hst]
      rfl
    · exact hC.endpoints id stored dir st
        (by rw [lookup_put, if_neg hcase, hstored]) hst
  · intro dir k id e hattached
    -- the node that was written, or one that was there before
    have hwritten : ∀ e', endpointOf node' dir = some e' →
        id = node.config.id →
        ∃ stored st, (C'.put node.config.id node').nodeMap.lookup id =
          some stored ∧ stored.endpoint dir = some st := by
      rintro e' he' rfl
      obtain ⟨st, hst, -⟩ := Option.map_eq_some_iff.mp he'
      exact ⟨node', st, by simp [lookup_put], hst⟩
    rcases h.attached dir k id e hattached with hold | ⟨e', he', hid⟩
    · obtain ⟨stored, st, hstored, hst⟩ := hC.attached dir k id e hold
      rw [lookup_put] at hstored
      split_ifs at hstored with hcase
      · cases hstored
        refine hwritten st.endpoint (h.kept dir st.endpoint ?_) hcase
        rw [endpointOf, hst]
        rfl
      · refine ⟨stored, st, ?_, hst⟩
        rw [lookup_put, if_neg hcase, h.nodeMap, hstored]
    · exact hwritten e' he' (hid.trans (hown dir e' he'))

theorem Owned.put_create {C : Controller} (hC : C.Owned)
    {config : NodeConfig} (now : ℤ)
    (hnone : C.nodeMap.lookup config.id = none) :
    (C.put config.id (Node.create config now)).Owned where
  ids id node hlookup := by
    rw [lookup_put] at hlookup
    split_ifs at hlookup with hcase
    · cases hlookup
      exact hcase.symm
    · exact hC.ids id node hlookup
  endpoints id node dir st hlookup hst := by
    rw [lookup_put] at hlookup
    split_ifs at hlookup with hcase
    · cases hlookup
      cases dir <;> cases hst
    · exact hC.endpoints id node dir st hlookup hst
  attached dir k id e hattached := by
    obtain ⟨node, st, hlookup, hst⟩ := hC.attached dir k id e hattached
    have hne : id ≠ config.id := by
      rintro rfl
      rw [hnone] at hlookup
      cases hlookup
    exact ⟨node, st, by rw [lookup_put, if_neg hne, hlookup], hst⟩

theorem owned_handleConfig {C C' : Controller} {nodeConfig : NodeConfig}
    {remoteIp : String} {now : ℤ} {response : Response} (hC : C.Owned)
    (h : C.handleConfig nodeConfig remoteIp now = some (response, C')) :
    C'.Owned := by
  obtain ⟨target, newlyInserted, C₁, C₂, C₃, node₂, node₃, createdUL,
    createdDL, hget, r, hr, hUL, hDL, rfl, -⟩ := handleConfig_some h
  have htarget : (C₁.put nodeConfig.id target).Owned := by
    rcases getOrCreateNode_some hget with
      ⟨hstored, rfl, -⟩ | ⟨hnone, -, rfl, rfl, -⟩
    · exact hC.put_stored hstored
    · exact (hC.put_create now hnone).put_stored (by simp [lookup_put])
  have hid : target.config.id = nodeConfig.id :=
    htarget.ids _ target (by simp [lookup_put])
  obtain ⟨hrid, -, hsame⟩ := refresh_same hr
  rw [← hid] at htarget
  have hretained : Retained C₁ { C₁ with vehicleHandlers := r.handlers }
      target r.node :=
    retained_of_same rfl rfl (hrid.trans hid.symm) fun dir => (hsame dir).1
  have hretainedUL := retained_assignChannel hUL
  have hretainedDL := retained_assignChannel hDL
  have howned := ((htarget.put hretained).put hretainedUL).put hretainedDL
  rw [hretainedDL.id, hretainedUL.id, hrid] at howned
  exact howned

theorem owned_removeNode {C : Controller} {id : NodeId} {node : Node}
    (hC : C.Owned) (hnode : C.nodeMap.lookup id = some node) :
    (C.removeNode id node).Owned := by
  refine ⟨?_, ?_, ?_⟩
  · exact fun id' stored hlookup =>
      hC.ids id' stored (lookup_removeNode hlookup)
  · exact fun id' stored dir st hlookup =>
      hC.endpoints id' stored dir st (lookup_removeNode hlookup)
  · intro dir k id' e hattached
    obtain ⟨hold, hne⟩ := attached_removeNode hC hnode hattached
    obtain ⟨stored, st, hlookup, hst⟩ := hC.attached dir k id' e hold
    refine ⟨stored, st, ?_, hst⟩
    rw [nodeMap_removeNode, AList.lookup_erase_ne hne, hlookup]

theorem owned_step {C C' : Controller} {event : Event} (hC : C.Owned)
    (h : C.step event = some C') : C'.Owned := by
  cases transition_of_step h with
  | nothing => exact hC
  | @heartbeat id node _ now hnode =>
      have hid := hC.ids id node hnode
      subst hid
      have hretained : Retained C C node (node.updateHeartbeat now) :=
        retained_of_same rfl rfl rfl fun dir => by cases dir <;> rfl
      exact (hC.put_stored hnode).put hretained
  | removal _ ipAddrMap hnode =>
      have hrest : { C with ipAddrMap := ipAddrMap }.Owned :=
        hC.of_lookup rfl fun _ => rfl
      exact owned_removeNode hrest hnode
  | configuration hconfig => exact owned_handleConfig hC hconfig

/-! ## Both ways to remove a node do the same -/

theorem ipAddrMap_assignChannel {dir : Direction} {C C' : Controller}
    {node node' : Node} {newConfig : NodeConfig} {created : Bool}
    (h : assignChannel dir C node newConfig = some (created, C', node')) :
    C'.ipAddrMap = C.ipAddrMap := by
  cases hchannels : newConfig.channels with
  | nil =>
      rw [assignChannel, hchannels] at h
      cases h
      rfl
  | cons ch rest =>
      obtain ⟨e, C₁, node₁, hequip, hends⟩ := assignChannel_ends hchannels h
      have hchannelsOnly : C' = { C₁ with
          intermediateMap := C'.intermediateMap } := hends.onlyChannels
      rw [hchannelsOnly]
      rcases equip_cases hequip with ⟨-, -, rfl, -⟩ | ⟨-, st, -, hensured⟩
      · rfl
      · rw [hensured.state]

theorem ipAddrMap_handleConfig {C C' : Controller} {nodeConfig : NodeConfig}
    {remoteIp : String} {now : ℤ} {response : Response}
    (h : C.handleConfig nodeConfig remoteIp now = some (response, C')) :
    C'.ipAddrMap = C.ipAddrMap := by
  obtain ⟨target, newlyInserted, C₁, C₂, C₃, node₂, node₃, createdUL,
    createdDL, hget, r, hr, hUL, hDL, rfl, -⟩ := handleConfig_some h
  have hC₁ : C₁.ipAddrMap = C.ipAddrMap := by
    rcases getOrCreateNode_some hget with ⟨-, rfl, -⟩ | ⟨-, -, -, rfl, -⟩ <;>
      rfl
  have huplink := ipAddrMap_assignChannel hUL
  have hdownlink := ipAddrMap_assignChannel hDL
  calc
    (C₃.put nodeConfig.id node₃).ipAddrMap = C₃.ipAddrMap := rfl
    _ = C₂.ipAddrMap := hdownlink
    _ = C₁.ipAddrMap := huplink
    _ = C.ipAddrMap := hC₁

theorem ipAddrMap_removeNode (C : Controller) (id : NodeId) (node : Node) :
    (C.removeNode id node).ipAddrMap = C.ipAddrMap := by
  unfold removeNode detachAll removeVehicleHandler removeEmptyChannels
  cases node.transmitter <;> cases node.receiver <;> rfl

theorem restoreTXPort_of_unused {C : Controller} (h : C.ipAddrMap = ∅)
    (ipAddress : String) : C.restoreTXPort ipAddress = C := by
  simp [restoreTXPort, h]

theorem lookup_of_removed {C : Controller} {event : Event} {id : NodeId}
    {node : Node} (h : C.removed event = some (id, node)) :
    C.nodeMap.lookup id = some node := by
  cases event with
  | request request remoteIp now =>
      cases request with
      | disconnect id' =>
          obtain ⟨node', hnode, hpair⟩ := Option.map_eq_some_iff.mp h
          cases hpair
          exact hnode
      | _ => cases h
  | checkTimeout id' now =>
      obtain ⟨node', hfound, hpair⟩ := Option.map_eq_some_iff.mp h
      cases hpair
      exact (Option.filter_eq_some_iff.mp hfound).1

/-- As long as no address is counted, every event that removes a node does
just that. -/
theorem step_of_removed {C : Controller} {event : Event} {id : NodeId}
    {node : Node} (hunused : C.ipAddrMap = ∅)
    (h : C.removed event = some (id, node)) :
    C.step event = some (C.removeNode id node) := by
  have hnode := lookup_of_removed h
  cases event with
  | request request remoteIp now =>
      cases request with
      | disconnect id' =>
          obtain ⟨node', -, hpair⟩ := Option.map_eq_some_iff.mp h
          cases hpair
          simp only [step, requestHandler, hnode, Option.map_some,
            restoreTXPort_of_unused hunused]
      | _ => cases h
  | checkTimeout id' now =>
      obtain ⟨node', hfound, hpair⟩ := Option.map_eq_some_iff.mp h
      cases hpair
      have hdead := (Option.filter_eq_some_iff.mp hfound).2
      rw [Bool.not_eq_true'] at hdead
      simp [step, checkTimeout, hnode, hdead]

/-! ## Runs in which the mode is switched -/

inductive ModeEvent where
  | event (event : Event)
  /-- `RuntimeConfig::sandbox_enabled.store(enabled)`. -/
  | setSandbox (enabled : Bool)

def modeStep (C : Controller) : ModeEvent → Option Controller
  | .event event => C.step event
  | .setSandbox enabled => some { C with sandbox := enabled }

/-- What every history leaves, whatever the mode. -/
structure Orderly (C : Controller) : Prop where
  owned : C.Owned
  tended : FiniteMap.All (fun _ I => I.Tended) C.intermediateMap
  unused : C.ipAddrMap = ∅

theorem orderly_create (sandbox : Bool)
    (defaults : Option PropagationDefaults) :
    (create sandbox defaults).Orderly := by
  refine ⟨⟨?_, ?_, ?_⟩, FiniteMap.all_empty, rfl⟩
  · intro id node hlookup
    simp [create] at hlookup
  · intro id node dir st hlookup
    simp [create] at hlookup
  · rintro dir k id e ⟨I, hI, -⟩
    simp [create] at hI

theorem orderly_step {C C' : Controller} {event : Event} (hC : C.Orderly)
    (h : C.step event = some C') : C'.Orderly := by
  refine ⟨owned_step hC.owned h, (kept_tended _).step hC.tended h, ?_⟩
  cases handled_of_step h with
  | nothing => exact hC.unused
  | heartbeat => exact hC.unused
  | removal ipAddrMap hremoved hnode =>
      rw [step_of_removed hC.unused hremoved, Option.some.injEq] at h
      rw [← h, ipAddrMap_removeNode]
      exact hC.unused
  | configuration hconfig =>
      exact (ipAddrMap_handleConfig hconfig).trans hC.unused

theorem orderly_of_run {sandbox : Bool}
    {defaults : Option PropagationDefaults} {events : List ModeEvent}
    {C : Controller}
    (hrun : run modeStep (create sandbox defaults) events = some C) :
    C.Orderly := by
  refine (everyState_of_invariant ?_ (orderly_create sandbox defaults)
    events).of_run hrun
  intro C event C' hC hstep
  cases event with
  | event event => exact orderly_step hC hstep
  | setSandbox enabled =>
      cases hstep
      exact ⟨hC.owned.of_lookup rfl fun _ => rfl, hC.tended, hC.unused⟩

/-! ## What is left -/

/-- Nothing is left of the node. -/
structure Clean (C : Controller) (id : NodeId) : Prop where
  node : id ∉ C.nodeMap
  source : ∀ freq I, C.intermediateMap.lookup freq = some I →
    id ∉ I.sourceMap
  destination : ∀ freq I, C.intermediateMap.lookup freq = some I →
    id ∉ I.destinationMap
  sandbox : ∀ freq I, C.intermediateMap.lookup freq = some I →
    id ∉ I.sandboxNodes
  worker : ∀ freq I, C.intermediateMap.lookup freq = some I →
    id ∉ I.workers
  channel : ∀ freq I, C.intermediateMap.lookup freq = some I →
    ∀ s d, (s, d) ∈ I.channelMap → s ≠ id ∧ d ≠ id

theorem sandboxed_detachAll (dir : Direction) (C : Controller)
    (e : Option EndpointState) {freq : ℚ} {id : NodeId} :
    (detachAll dir C e).Sandboxed freq id ↔ C.Sandboxed freq id := by
  cases e with
  | none => rfl
  | some st =>
      simp only [detachAll, Sandboxed, FiniteMap.lookup_mapValues,
        Option.map_eq_some_iff]
      constructor
      · rintro ⟨-, ⟨I, hI, rfl⟩, hmem⟩
        exact ⟨I, hI, by rwa [sandboxNodes_detach] at hmem⟩
      · rintro ⟨I, hI, hmem⟩
        exact ⟨_, ⟨I, hI, rfl⟩, by rwa [sandboxNodes_detach]⟩

/-- A removal leaves all sandbox nodes where they are; an intermediate that
has one is not empty. -/
theorem sandboxed_removeNode (C : Controller) (id : NodeId) (node : Node)
    {freq : ℚ} {x : NodeId} :
    (C.removeNode id node).Sandboxed freq x ↔ C.Sandboxed freq x := by
  have hdrop : ∀ D : Controller,
      D.removeEmptyChannels.Sandboxed freq x ↔ D.Sandboxed freq x := by
    intro D
    simp only [removeEmptyChannels, Sandboxed, FiniteMap.lookup_filter]
    constructor
    · rintro ⟨I, ⟨hI, -⟩, hmem⟩
      exact ⟨I, hI, hmem⟩
    · rintro ⟨I, hI, hmem⟩
      refine ⟨I, ⟨hI, ?_⟩, hmem⟩
      have hsome : I.sandboxNodes.isEmpty = false := by
        rw [List.isEmpty_eq_false_iff]
        exact List.ne_nil_of_mem hmem
      simp [Intermediate.isEmpty, hsome]
  refine (hdrop _).trans ?_
  refine (sandboxed_detachAll .uplink _ node.receiver).trans ?_
  exact sandboxed_detachAll .downlink C node.transmitter

theorem clean_removeNode_iff {C : Controller} {id : NodeId} {node : Node}
    (hC : C.Orderly) (hnode : C.nodeMap.lookup id = some node) :
    (C.removeNode id node).Clean id ↔ ∀ freq, ¬C.Sandboxed freq id := by
  constructor
  · intro hclean freq hsandboxed
    obtain ⟨I, hI, hmem⟩ := (C.sandboxed_removeNode id node).mpr hsandboxed
    exact hclean.sandbox freq I hI hmem
  · intro hsandboxed
    have htended := (kept_tended C.sandbox).removeNode hC.tended id node
    -- the endpoints are gone, and there was no sandbox node
    have hmember : ∀ dir freq I,
        (C.removeNode id node).intermediateMap.lookup freq = some I →
        id ∉ I.members dir := by
      intro dir freq I hI hmem
      obtain ⟨e, he⟩ := FiniteMap.mem_iff_lookup.mp hmem
      exact (attached_removeNode hC.owned hnode ⟨I, hI, he⟩).2 rfl
    have hbox : ∀ freq I,
        (C.removeNode id node).intermediateMap.lookup freq = some I →
        id ∉ I.sandboxNodes := by
      intro freq I hI hmem
      exact hsandboxed freq ((C.sandboxed_removeNode id node).mp ⟨I, hI, hmem⟩)
    refine ⟨?_, hmember .uplink, hmember .downlink, hbox, ?_, ?_⟩
    · rw [nodeMap_removeNode, AList.mem_erase]
      exact fun h => h.1 rfl
    · intro freq I hI hworker
      exact hmember .uplink freq I hI (((htended freq I hI).workers id).mp hworker)
    · intro freq I hI s d hchannel
      obtain ⟨hs, hd⟩ := ((htended freq I hI).linked s d hchannel).ends
      refine ⟨?_, ?_⟩
      · rintro rfl
        exact hs.elim (hmember .uplink freq I hI) (hbox freq I hI)
      · rintro rfl
        exact hd.elim (hmember .downlink freq I hI) (hbox freq I hI)

/-- After any history, in which the mode may have been switched, the removal of
a node leaves nothing of it, and the same state whichever event causes it,
exactly when the node is nowhere a sandbox node. -/
theorem removal_cleans_iff_not_sandboxed (sandbox : Bool)
    (defaults : Option PropagationDefaults) (events : List ModeEvent)
    {C D : Controller} {event : Event} {id : NodeId} {node : Node}
    (hrun : run modeStep (create sandbox defaults) events = some C)
    (hremoved : C.removed event = some (id, node))
    (hstep : C.step event = some D) :
    (D.Clean id ∧ ∀ event', C.removed event' = some (id, node) →
        C.step event' = some D) ↔
      ∀ freq, ¬C.Sandboxed freq id := by
  have hC := orderly_of_run hrun
  have hD := (step_of_removed hC.unused hremoved).symm.trans hstep
  cases hD
  rw [← clean_removeNode_iff hC (lookup_of_removed hremoved)]
  refine ⟨fun h => h.1, fun hclean => ⟨hclean, ?_⟩⟩
  exact fun event' hevent => step_of_removed hC.unused hevent

/-- A node that was attached leaves nothing behind. -/
theorem disconnect_cleans_attached :
    ∃ C D node,
      run modeStep (create false none)
        [.event (.request (.config (plainConfig "n" 2400000000 2500000000))
            "10.0.0.1" 0),
          .event (.request (.config (plainConfig "n" 2450000000 2550000000))
            "10.0.0.1" 1)] = some C ∧
      C.removed (.request (.disconnect "n") "10.0.0.1" 2) =
        some ("n", node) ∧
      C.step (.request (.disconnect "n") "10.0.0.1" 2) = some D ∧
      D.Clean "n" := by
  have hcheck : (run modeStep (create false none)
      [.event (.request (.config (plainConfig "n" 2400000000 2500000000))
          "10.0.0.1" 0),
        .event (.request (.config (plainConfig "n" 2450000000 2550000000))
          "10.0.0.1" 1)]).any
      (fun C => (FiniteMap.values C.intermediateMap).all
          (fun I => I.sandboxNodes.isEmpty) &&
        (C.nodeMap.lookup "n").isSome &&
        (C.step (.request (.disconnect "n") "10.0.0.1" 2)).isSome) = true := by
    decide +kernel
  obtain ⟨C, hrun, hC⟩ := (Option.any_eq_true _ _).mp hcheck
  rw [Bool.and_eq_true, Bool.and_eq_true] at hC
  obtain ⟨⟨hbox, hknown⟩, hsome⟩ := hC
  obtain ⟨node, hnode⟩ := Option.isSome_iff_exists.mp hknown
  obtain ⟨D, hstep⟩ := Option.isSome_iff_exists.mp hsome
  have hremoved : C.removed (.request (.disconnect "n") "10.0.0.1" 2) =
      some ("n", node) := by
    simp [removed, hnode]
  refine ⟨C, D, node, hrun, hremoved, hstep, ?_⟩
  refine ((removal_cleans_iff_not_sandboxed false none _ hrun hremoved
    hstep).mpr ?_).1
  rintro freq ⟨I, hI, hmem⟩
  have hempty := List.all_eq_true.mp hbox I
    (FiniteMap.mem_values_iff.mpr ⟨freq, hI⟩)
  rw [List.isEmpty_iff] at hempty
  rw [hempty] at hmem
  cases hmem

/-- A sandbox node stays in its intermediate after it has disconnected. -/
theorem sandbox_node_left_behind :
    ∃ C D node,
      run modeStep (create true none)
        [.event (.request (.config (plainConfig "n" 2400000000 2500000000))
            "10.0.0.1" 0),
          .event (.request (.config (plainConfig "n" 2450000000 2500000000))
            "10.0.0.1" 1)] = some C ∧
      C.removed (.request (.disconnect "n") "10.0.0.1" 2) =
        some ("n", node) ∧
      C.step (.request (.disconnect "n") "10.0.0.1" 2) = some D ∧
      ¬D.Clean "n" := by
  have hcheck : (run modeStep (create true none)
      [.event (.request (.config (plainConfig "n" 2400000000 2500000000))
          "10.0.0.1" 0),
        .event (.request (.config (plainConfig "n" 2450000000 2500000000))
          "10.0.0.1" 1)]).any
      (fun C => (C.nodeMap.lookup "n").isSome &&
        (C.step (.request (.disconnect "n") "10.0.0.1" 2)).any fun D =>
          (D.intermediateMap.lookup 2450000000).any fun I =>
            decide ("n" ∈ I.sandboxNodes)) = true := by
    decide +kernel
  obtain ⟨C, hrun, hC⟩ := (Option.any_eq_true _ _).mp hcheck
  obtain ⟨hknown, hresult⟩ := Bool.and_eq_true_iff.mp hC
  obtain ⟨node, hnode⟩ := Option.isSome_iff_exists.mp hknown
  obtain ⟨D, hstep, hD⟩ := (Option.any_eq_true _ _).mp hresult
  obtain ⟨I, hI, hmem⟩ := (Option.any_eq_true _ _).mp hD
  refine ⟨C, D, node, hrun, by simp [removed, hnode], hstep, ?_⟩
  intro hclean
  exact hclean.sandbox 2450000000 I hI (of_decide_eq_true hmem)

end Controller

end Chem
