import ChemEmulator.Channel.Coordinator
import ChemEmulator.Node.Reregistration

/-!
# Three copies of a configuration

The configuration of a node is stored in the node and copied into its receiver
and its transmitter when these are created.  The link budget reads the copies.
A later request changes the node's own configuration only; of the copies just
the formats and the rate are kept up to date.  The two commands of the
coordinator reach the copies through the intermediates, or not at all.

The copies agree along every run in which no request changes what the link
budget reads, and every antenna command reaches the endpoints of the node that
it changes and no others.
-/

namespace Chem

open PartialRuns

/-! ## What the link budget reads -/

/-- Gains, characteristics, antenna patterns and number of channels. -/
structure LinkFields where
  deviceTxGain : ℚ
  deviceRxGain : ℚ
  hasDeviceTxGain : Bool
  hasDeviceRxGain : Bool
  characteristics : Option NodeCharacteristics
  txAntennaPattern : String
  rxAntennaPattern : String
  hasTxAntennaPattern : Bool
  hasRxAntennaPattern : Bool
  numChannels : UInt8
deriving DecidableEq

def NodeConfig.linkFields (n : NodeConfig) : LinkFields where
  deviceTxGain := n.deviceTxGain
  deviceRxGain := n.deviceRxGain
  hasDeviceTxGain := n.hasDeviceTxGain
  hasDeviceRxGain := n.hasDeviceRxGain
  characteristics := n.characteristics
  txAntennaPattern := n.txAntennaPattern
  rxAntennaPattern := n.rxAntennaPattern
  hasTxAntennaPattern := n.hasTxAntennaPattern
  hasRxAntennaPattern := n.hasRxAntennaPattern
  numChannels := n.numChannels

/-- The copies in the endpoints of a node agree with its own
configuration. -/
def Node.Coherent (node : Node) : Prop :=
  ∀ dir st, node.endpoint dir = some st →
    st.nodeConfig.linkFields = node.config.linkFields

namespace Controller

def Coherent (C : Controller) : Prop :=
  ∀ id node, C.nodeMap.lookup id = some node → node.Coherent

/-! ## Assignments -/

/-- What the endpoint of a direction has copied: as before, or from the node
just now. -/
theorem equip_copies {dir : Direction} {C C₁ : Controller} {node node₁ : Node}
    {e : Option EndpointState} (h : equip dir C node = some (e, C₁, node₁)) :
    (∀ st, node₁.endpoint dir = some st →
      (∃ st₀, node.endpoint dir = some st₀ ∧
        st.nodeConfig.linkFields = st₀.nodeConfig.linkFields) ∨
      st.nodeConfig.linkFields = node.config.linkFields) ∧
    ∀ st, e = some st → node₁.endpoint dir = some st := by
  rcases equip_cases h with ⟨-, rfl, -, rfl⟩ | ⟨-, st₁, rfl, hensured⟩
  · refine ⟨fun st hst => Or.inl ⟨st, hst, rfl⟩, fun st hst => ?_⟩
    cases hst
  · have hstored := hensured.stored
    obtain ⟨st₀, hst₁, hsource⟩ := hensured.endpoint
    refine ⟨fun st hst => ?_, fun st hst => ?_⟩
    · cases hstored.symm.trans hst
      rcases hsource with hkept | ⟨-, handle, hcreate⟩
      · refine Or.inl ⟨st₀, hkept, ?_⟩
        rw [hst₁]
        rfl
      · right
        obtain ⟨-, hcopy, -⟩ := endpoint_of_create hcreate
        rw [hensured.config_eq] at hcopy
        rw [hst₁, EndpointState.setFormats, hcopy]
        rfl
    · cases hst
      exact hstored

theorem SameRecord.linkFields {node node' : Node} (h : SameRecord node node') :
    node'.config.linkFields = node.config.linkFields := by
  rw [h.config]
  rfl

/-- Every endpoint has copied what the same endpoint of `node` has copied. -/
def SameCopies (node node' : Node) : Prop :=
  ∀ dir st', node'.endpoint dir = some st' → ∃ st,
    node.endpoint dir = some st ∧
      st'.nodeConfig.linkFields = st.nodeConfig.linkFields

theorem sameCopies_setEndpoint {dir : Direction} {node node' : Node}
    {st st' : EndpointState}
    (hendpoints : ∀ dir, node'.endpoint dir = node.endpoint dir)
    (hst : node.endpoint dir = some st)
    (hsame : st'.nodeConfig.linkFields = st.nodeConfig.linkFields) :
    SameCopies node (node'.setEndpoint dir st') := by
  intro dir' st'' hst''
  by_cases hdir : dir' = dir
  · subst hdir
    rw [Node.endpoint_setEndpoint_same] at hst''
    cases hst''
    exact ⟨st, hst, hsame⟩
  · rw [Node.endpoint_setEndpoint_ne _ _ hdir, hendpoints] at hst''
    exact ⟨st'', hst'', rfl⟩

theorem keepChannel_sameCopies {dir : Direction} {e : Option EndpointState}
    {node : Node} (newConfig : NodeConfig)
    (hstored : ∀ st, e = some st → node.endpoint dir = some st) :
    SameCopies node (keepChannel dir e node newConfig) := by
  unfold keepChannel
  cases e with
  | none =>
      intro dir' st' hst'
      exact ⟨st', by cases dir' <;> exact hst', rfl⟩
  | some st =>
      refine sameCopies_setEndpoint ?_ (hstored st rfl) rfl
      intro dir'
      cases dir' <;> rfl

theorem joinChannel_sameCopies {dir : Direction} {C C' : Controller} {freq : ℚ}
    {e : Option EndpointState} {node node' : Node} {newConfig : NodeConfig}
    (hstored : ∀ st, e = some st → node.endpoint dir = some st)
    (h : joinChannel dir C freq e node newConfig = some (C', node')) :
    SameCopies node node' := by
  cases joined_of_joinChannel h with
  | sandbox =>
      intro dir' st' hst'
      exact ⟨st', by cases dir' <;> exact hst', rfl⟩
  | endpoint =>
      refine sameCopies_setEndpoint ?_ (hstored _ rfl) rfl
      intro dir'
      cases dir' <;> rfl

/-- An assignment keeps the copies of a node in agreement. -/
theorem assignChannel_coherent {dir : Direction} {C C' : Controller}
    {node node' : Node} {newConfig : NodeConfig} {created : Bool}
    (hnode : node.Coherent)
    (h : assignChannel dir C node newConfig = some (created, C', node')) :
    node'.Coherent := by
  cases hchannels : newConfig.channels with
  | nil =>
      rw [assignChannel_of_nil hchannels] at h
      cases h
      exact hnode
  | cons ch rest =>
      have hout := assignChannel_outcome hchannels h
      obtain ⟨e, C₁, node₁, hequip, hends⟩ := assignChannel_ends hchannels h
      obtain ⟨hcopies, hstored⟩ := equip_copies hequip
      have hequipped : ∀ dir' st, node₁.endpoint dir' = some st →
          st.nodeConfig.linkFields = node.config.linkFields := by
        intro dir' st hst
        by_cases hdir : dir' = dir
        · subst hdir
          rcases hcopies st hst with ⟨st₀, hst₀, hsame⟩ | hsame
          · rw [hsame]
            exact hnode dir' st₀ hst₀
          · exact hsame
        · rw [(equip_spec hequip).others dir' hdir] at hst
          exact hnode dir' st hst
      have hsame : SameCopies node₁ node' := by
        cases hends with
        | repeated => exact fun dir' st hst => ⟨st, hst, rfl⟩
        | moved _ _ hjoin => exact joinChannel_sameCopies hstored hjoin
        | kept => exact keepChannel_sameCopies newConfig hstored
      intro dir' st' hst'
      obtain ⟨st, hst, hfields⟩ := hsame dir' st' hst'
      rw [hfields, hequipped dir' st hst, hout.record.linkFields]

/-! ## Configuration requests -/

/-- The request leaves what the link budget reads as it is stored. -/
def KeepsLink (stored n : NodeConfig) : Prop :=
  (n.hasDeviceTxGain = true → stored.hasDeviceTxGain = true ∧
      stored.deviceTxGain = n.deviceTxGain) ∧
    (n.hasDeviceRxGain = true → stored.hasDeviceRxGain = true ∧
      stored.deviceRxGain = n.deviceRxGain) ∧
    stored.characteristics = n.profile ∧ stored.numChannels = n.numChannels

instance (stored n : NodeConfig) : Decidable (KeepsLink stored n) :=
  inferInstanceAs (Decidable (_ ∧ _ ∧ _ ∧ _))

theorem refreshed_linkFields {node : Node} {n : NodeConfig}
    (h : KeepsLink node.config n) (handlers : VehicleHandlers) :
    (node.refreshed n handlers).config.linkFields =
      node.config.linkFields := by
  obtain ⟨htx, hrx, hcharacteristics, hchannels⟩ := h
  have htake : (node.config.takeOver n).linkFields =
      node.config.linkFields := by
    have htxs := Node.gain_kept htx
    have hrxs := Node.gain_kept hrx
    unfold NodeConfig.linkFields NodeConfig.takeOver
    dsimp only
    rw [htxs.1, htxs.2, hrxs.1, hrxs.2, ← hcharacteristics, ← hchannels]
  rw [← htake]
  unfold Node.refreshed
  rcases n.placement with _ | ⟨loc, number⟩ <;>
    cases n.storedAddress handlers <;> rfl

/-- A request for a known node with endpoints leaves the link alone. -/
def KeepsCopies (C : Controller) (n : NodeConfig) : Prop :=
  ∀ node ∈ C.nodeMap.lookup n.id, ∀ dir, ∀ st ∈ node.endpoint dir,
    KeepsLink node.config n

theorem Coherent.put {C : Controller} (hC : C.Coherent) {id : NodeId}
    {node : Node} (hnode : node.Coherent) : (C.put id node).Coherent := by
  intro id' node' hlookup
  rw [lookup_put] at hlookup
  split_ifs at hlookup
  · cases hlookup
    exact hnode
  · exact hC id' node' hlookup

theorem coherent_handleConfig {C C' : Controller} {n : NodeConfig}
    {remoteIp : String} {now : ℤ} {response : Response} (hC : C.Coherent)
    (hkeeps : C.KeepsCopies n)
    (h : C.handleConfig n remoteIp now = some (response, C')) :
    C'.Coherent := by
  obtain ⟨target, newlyInserted, C₁, C₂, C₃, node₂, node₃, createdUL,
    createdDL, hget, r, hr, hUL, hDL, rfl, -⟩ := handleConfig_some h
  obtain ⟨hnode, -, -, -⟩ := Node.refreshFromConfig_spec hr
  obtain ⟨-, -, hkeptRx, hkeptTx, -, -⟩ := Node.refreshed_kept target
    { n with ipAddress := remoteIp } C₁.vehicleHandlers
  rw [← hnode] at hkeptRx hkeptTx
  have hendpoints : ∀ dir, r.node.endpoint dir = target.endpoint dir := by
    intro dir
    cases dir
    · exact hkeptRx
    · exact hkeptTx
  have hrefreshed : r.node.Coherent ∧ C₁.Coherent := by
    rcases getOrCreateNode_some hget with
      ⟨hstored, rfl, -⟩ | ⟨-, -, rfl, rfl, -⟩
    · refine ⟨?_, hC⟩
      intro dir st hst
      rw [hendpoints] at hst
      have hlink : KeepsLink target.config { n with ipAddress := remoteIp } :=
        hkeeps target hstored dir st hst
      rw [hC _ target hstored dir st hst, hnode,
        refreshed_linkFields hlink]
    · refine ⟨?_, hC.put ?_⟩
      · intro dir st hst
        rw [hendpoints] at hst
        cases dir <;> cases hst
      · intro dir st hst
        cases dir <;> cases hst
  have hcoherent₃ := assignChannel_coherent
    (assignChannel_coherent hrefreshed.1 hUL) hDL
  have hnodes : C₃.nodeMap = C₁.nodeMap := by
    cases hchannels : r.request.channels with
    | nil =>
        rw [assignChannel_of_nil hchannels] at hUL
        cases hUL
        rw [assignChannel_of_nil hchannels] at hDL
        cases hDL
        rfl
    | cons ch rest =>
        exact (assignChannel_outcome hchannels hDL).nodeMap.trans
          (assignChannel_outcome hchannels hUL).nodeMap
  have hC₃ : C₃.Coherent := by
    unfold Coherent
    rw [hnodes]
    exact hrefreshed.2
  exact hC₃.put hcoherent₃

/-! ## Other events of the controller -/

theorem Coherent.removeNode {C : Controller} (hC : C.Coherent) (id : NodeId)
    (node : Node) : (C.removeNode id node).Coherent :=
  fun id' node' hlookup => hC id' node' (lookup_removeNode hlookup)

/-- A request of a node leaves the link of a node with endpoints alone. -/
def EventKeeps (C : Controller) : Event → Prop
  | .request (.config n) _ _ => C.KeepsCopies n
  | _ => True

theorem coherent_step {C C' : Controller} {event : Event} (hC : C.Coherent)
    (hkeeps : C.EventKeeps event) (h : C.step event = some C') :
    C'.Coherent := by
  cases transition_of_step h with
  | nothing => exact hC
  | heartbeat _ now hnode =>
      refine hC.put ?_
      intro dir st hst
      exact hC _ _ hnode dir st (by cases dir <;> exact hst)
  | removal _ ipAddrMap _ =>
      have hrest : { C with ipAddrMap := ipAddrMap }.Coherent := hC
      exact hrest.removeNode _ _
  | configuration hconfig => exact coherent_handleConfig hC hkeeps hconfig

end Controller

namespace Coordinator

open Controller

/-! ## Commands of the coordinator -/

/-- An antenna command reaches the endpoints of the node that it changes and
no others, unless the patterns are stored already. -/
def AntennaReaches (C : Controller) (node : String) (p : Patterns) : Prop :=
  FiniteMap.All (fun id n => ∀ dir, ∀ st ∈ n.endpoint dir,
    ((antennaTarget C node = some id) ↔ isListed C dir node
      (fun e => decide (e.handle = st.endpoint.handle)) = true) ∨
    (p.apply n.config).linkFields = n.config.linkFields) C.nodeMap

/-- The power is the stored one, or there is no copy of it. -/
def PowerKept (C : Controller) (node : String) (power : Option ℚ) : Prop :=
  ∀ n ∈ C.nodeMap.lookup (resolveNodeId C node),
    ∀ chars ∈ n.config.characteristics, ∀ dir, ∀ _ ∈ n.endpoint dir,
      chars.sourcePowerDbfs = powerOf power

/-- A command that is refused, or that leaves the copies in agreement. -/
def CommandKeeps (C : Controller) : Command → Prop
  | .changeAntenna _ node p =>
      node.isEmpty = true ∨ p.isMissing = true ∨ AntennaReaches C node p
  | .changeSourcePower node power =>
      node.isEmpty = true ∨ PowerKept C node power

/-- The patterns depend on nothing but what the link budget reads. -/
theorem linkFields_apply (p : Patterns) {a b : NodeConfig}
    (h : a.linkFields = b.linkFields) :
    (p.apply a).linkFields = (p.apply b).linkFields := by
  simp only [NodeConfig.linkFields, LinkFields.mk.injEq] at h
  obtain ⟨htx, hrx, hhasTx, hhasRx, hchars, htxp, hrxp, hhasTxp, hhasRxp,
    hnum⟩ := h
  unfold Patterns.apply
  cases p.both.isEmpty <;> cases p.tx.isEmpty <;> cases p.rx.isEmpty <;>
    simp [NodeConfig.linkFields, NodeConfig.setAntennaPattern,
      NodeConfig.setTxAntennaPattern, NodeConfig.setRxAntennaPattern, htx, hrx,
      hhasTx, hhasRx, hchars, htxp, hrxp, hhasTxp, hhasRxp, hnum]

theorem coherent_changeNode {C : Controller} {node : String} {p : Patterns}
    (hC : C.Coherent) (hreaches : AntennaReaches C node p) {id : NodeId}
    {n : Node} (hn : C.nodeMap.lookup id = some n) :
    (changeNode C node p id n).Coherent := by
  intro dir st' hst'
  have hendpoint : (changeNode C node p id n).endpoint dir =
      (n.endpoint dir).map (updateNodeAntenna C dir node p) := by
    cases dir <;> rfl
  rw [hendpoint, Option.map_eq_some_iff] at hst'
  obtain ⟨st, hst, rfl⟩ := hst'
  have hcopy := hC id n hn dir st hst
  have happlied := linkFields_apply p hcopy
  have hconfig : (changeNode C node p id n).config =
      if antennaTarget C node = some id then p.apply n.config
        else n.config := rfl
  have hupdated : (updateNodeAntenna C dir node p st).nodeConfig =
      if isListed C dir node
          (fun e => decide (e.handle = st.endpoint.handle)) = true then
        p.apply st.nodeConfig else st.nodeConfig := by
    unfold updateNodeAntenna
    split_ifs <;> rfl
  rw [hconfig, hupdated]
  rcases hreaches id n hn dir st hst with hiff | hstored
  · by_cases htarget : antennaTarget C node = some id
    · rw [if_pos htarget, if_pos (hiff.mp htarget)]
      exact happlied
    · rw [if_neg htarget, if_neg (fun hlisted => htarget (hiff.mpr hlisted))]
      exact hcopy
  · have hsame : (p.apply st.nodeConfig).linkFields =
        n.config.linkFields := happlied.trans hstored
    split_ifs
    · exact happlied
    · exact hsame
    · exact hcopy.trans hstored.symm
    · exact hcopy

theorem coherent_requestHandler {C : Controller} {command : Command}
    (hC : C.Coherent) (hkeeps : CommandKeeps C command) :
    (requestHandler C command).2.Coherent := by
  cases command with
  | changeAntenna dbOk node p =>
      unfold requestHandler changeAntenna
      dsimp only
      by_cases hmissing : (node.isEmpty || p.isMissing) = true
      · rw [if_pos hmissing]
        exact hC
      · rw [if_neg hmissing]
        have hreaches : AntennaReaches C node p := by
          simp only [Bool.or_eq_true, not_or] at hmissing
          exact (hkeeps.resolve_left hmissing.1).resolve_left hmissing.2
        intro id n' hlookup
        rw [FiniteMap.lookup_mapEntries, Option.map_eq_some_iff] at hlookup
        obtain ⟨n, hn, rfl⟩ := hlookup
        exact coherent_changeNode hC hreaches hn
  | changeSourcePower node power =>
      unfold requestHandler changeSourcePower
      dsimp only
      split_ifs with hmissing
      · exact hC
      · have hpower := hkeeps.resolve_left hmissing
        cases hn : C.nodeMap.lookup (resolveNodeId C node) with
        | none => exact hC
        | some n =>
            dsimp only
            cases hchars : n.config.characteristics with
            | none => exact hC
            | some chars =>
                dsimp only
                refine hC.put ?_
                intro dir st hst
                have hst₀ : n.endpoint dir = some st := by
                  cases dir <;> exact hst
                have hsame := hpower n hn chars hchars dir st hst₀
                rw [hC _ n hn dir st hst₀]
                unfold NodeConfig.linkFields
                dsimp only
                rw [hchars, ← hsame]

end Coordinator

namespace Controller

/-! ## Whole runs -/

/-- A request to the controller, a timeout, or a command of the operator. -/
inductive Control where
  | event (event : Event)
  | command (command : Coordinator.Command)

def control (C : Controller) : Control → Option Controller
  | .event event => C.step event
  | .command command => some (Coordinator.requestHandler C command).2

/-- The condition on one step, in the state before it. -/
def ControlKeeps (C : Controller) : Control → Prop
  | .event event => C.EventKeeps event
  | .command command => Coordinator.CommandKeeps C command

/-- In both modes, the copies agree in every state of a run whose steps all
leave them in agreement. -/
theorem copies_coherent (sandbox : Bool)
    (defaults : Option PropagationDefaults) (steps : List Control)
    (h : EveryStep control ControlKeeps (create sandbox defaults) steps) :
    EveryState control Coherent (create sandbox defaults) steps := by
  refine everyState_of_everyStep ?_ ?_ h
  · intro C step C' hC hkeeps hstep
    cases step with
    | event event => exact coherent_step hC hkeeps hstep
    | command command =>
        cases hstep
        exact Coordinator.coherent_requestHandler hC hkeeps
  · intro id node hlookup
    cases hlookup

/-! ## Conditions that can be evaluated -/

instance (C : Controller) : ∀ event, Decidable (C.EventKeeps event)
  | .request (.config n) _ _ =>
      inferInstanceAs (Decidable (∀ node ∈ C.nodeMap.lookup n.id, ∀ dir,
        ∀ st ∈ node.endpoint dir, KeepsLink node.config n))
  | .request .malformed _ _ => isTrue trivial
  | .request .illTyped _ _ => isTrue trivial
  | .request (.heartbeat _) _ _ => isTrue trivial
  | .request (.disconnect _) _ _ => isTrue trivial
  | .checkTimeout _ _ => isTrue trivial

instance (C : Controller) (node : String) (p : Coordinator.Patterns) :
    Decidable (Coordinator.AntennaReaches C node p) :=
  inferInstanceAs (Decidable (FiniteMap.All _ _))

instance (C : Controller) (node : String) (power : Option ℚ) :
    Decidable (Coordinator.PowerKept C node power) :=
  inferInstanceAs (Decidable (∀ n ∈ C.nodeMap.lookup
    (Coordinator.resolveNodeId C node), ∀ chars ∈ n.config.characteristics,
      ∀ dir, ∀ _ ∈ n.endpoint dir,
        chars.sourcePowerDbfs = Coordinator.powerOf power))

instance (C : Controller) : ∀ command,
    Decidable (Coordinator.CommandKeeps C command)
  | .changeAntenna _ node p =>
      inferInstanceAs (Decidable (node.isEmpty = true ∨ p.isMissing = true ∨
        Coordinator.AntennaReaches C node p))
  | .changeSourcePower node power =>
      inferInstanceAs (Decidable (node.isEmpty = true ∨
        Coordinator.PowerKept C node power))

instance (C : Controller) : ∀ step, Decidable (C.ControlKeeps step)
  | .event event => inferInstanceAs (Decidable (C.EventKeeps event))
  | .command command =>
      inferInstanceAs (Decidable (Coordinator.CommandKeeps C command))

/-- A node that registers, moves, and then gets a new antenna. -/
theorem copies_coherent_new_antenna :
    EveryState control Coherent (create false none)
      [.event (.request (.config (plainConfig "n" 2400000000 2500000000))
          "10.0.0.1" 0),
        .event (.request (.config (plainConfig "n" 2450000000 2550000000))
          "10.0.0.1" 1),
        .command (.changeAntenna true "n" ⟨"dipole", "", ""⟩)] :=
  copies_coherent false none _ (by decide +kernel)

/-- A new source power is reported as a success and reaches neither the
receiver nor the transmitter. -/
theorem new_source_power_not_copied :
    ∃ C, run control (create false none)
        [.event (.request (.config { plainConfig "n" 2400000000 2500000000 with
          aerpawKey := "LW1" }) "10.0.0.1" 0)] = some C ∧
      (Coordinator.requestHandler C
        (.changeSourcePower "n" (some (-20)))).1.status = .success ∧
      ¬(Coordinator.requestHandler C
        (.changeSourcePower "n" (some (-20)))).2.Coherent := by
  have hcheck : (run control (create false none)
      [.event (.request (.config { plainConfig "n" 2400000000 2500000000 with
        aerpawKey := "LW1" }) "10.0.0.1" 0)]).any (fun C =>
      decide ((Coordinator.requestHandler C
        (.changeSourcePower "n" (some (-20)))).1.status = .success) &&
      ((Coordinator.requestHandler C
        (.changeSourcePower "n" (some (-20)))).2.nodeMap.lookup "n").any
          fun node => node.receiver.any fun st =>
            decide (st.nodeConfig.linkFields ≠ node.config.linkFields)) =
        true := by
    decide +kernel
  obtain ⟨C, hrun, hC⟩ := (Option.any_eq_true _ _).mp hcheck
  obtain ⟨hstatus, hnode⟩ := Bool.and_eq_true_iff.mp hC
  obtain ⟨node, hlookup, hreceiver⟩ := (Option.any_eq_true _ _).mp hnode
  obtain ⟨st, hst, hdiffers⟩ := (Option.any_eq_true _ _).mp hreceiver
  refine ⟨C, hrun, of_decide_eq_true hstatus, ?_⟩
  intro hcoherent
  exact of_decide_eq_true hdiffers (hcoherent "n" node hlookup .uplink st hst)

end Controller

end Chem
