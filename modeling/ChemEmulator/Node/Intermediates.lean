import ChemEmulator.Node.Registration
import ChemEmulator.Node.Assignment

/-!
# What the controller does to its intermediates

In both modes the controller creates intermediates, calls their membership
operations and drops them; nothing else.  A property of single intermediates
that new ones have and every membership operation keeps therefore holds of all
of them in every state.
-/

namespace Chem

open PartialRuns

/-! ## Links of the members -/

namespace Roles

variable {ν : Type*}

/-- Without any role of `x`. -/
def without (R : Roles ν) (x : ν) : Roles ν where
  sources := R.sources \ {x}
  destinations := R.destinations \ {x}
  sandbox := R.sandbox \ {x}

theorem linked_without {R : Roles ν} {x s d : ν} (h : R.Linked s d)
    (hs : s ≠ x) (hd : d ≠ x) : (R.without x).Linked s d := by
  rcases h with ⟨hsrc, hdest⟩ | ⟨hsrc, hdest, hne⟩ | ⟨hsrc, hdest⟩ |
    ⟨hsrc, hdest⟩
  · exact Or.inl ⟨⟨hsrc, hs⟩, hdest, hd⟩
  · exact Or.inr (Or.inl ⟨⟨hsrc, hs⟩, ⟨hdest, hd⟩, hne⟩)
  · exact Or.inr (Or.inr (Or.inl ⟨⟨hsrc, hs⟩, hdest, hd⟩))
  · exact Or.inr (Or.inr (Or.inr ⟨⟨hsrc, hs⟩, hdest, hd⟩))

theorem without_le_removeSource (R : Roles ν) (x : ν) :
    (R.without x).Le (R.removeSource x) :=
  ⟨subset_rfl, Set.sdiff_subset, Set.sdiff_subset⟩

theorem without_le_removeDestination (R : Roles ν) (x : ν) :
    (R.without x).Le (R.removeDestination x) :=
  ⟨Set.sdiff_subset, subset_rfl, Set.sdiff_subset⟩

theorem without_le_removeSandbox (R : Roles ν) (x : ν) :
    (R.without x).Le (R.removeSandbox x) :=
  ⟨Set.sdiff_subset, Set.sdiff_subset, subset_rfl⟩

/-- A linked node has a role at its end of the link. -/
theorem Linked.ends {R : Roles ν} {s d : ν} (h : R.Linked s d) :
    (s ∈ R.sources ∨ s ∈ R.sandbox) ∧
      (d ∈ R.destinations ∨ d ∈ R.sandbox) := by
  rcases h with ⟨hs, hd⟩ | ⟨hs, hd, -⟩ | ⟨hs, hd⟩ | ⟨hs, hd⟩
  · exact ⟨Or.inl hs, Or.inl hd⟩
  · exact ⟨Or.inr hs, Or.inr hd⟩
  · exact ⟨Or.inr hs, Or.inl hd⟩
  · exact ⟨Or.inl hs, Or.inr hd⟩

end Roles

namespace Intermediate

/-- Every channel links two members, and exactly the sources have workers. -/
structure Tended (I : Intermediate) : Prop where
  consistent : I.Consistent
  linked : ∀ s d, (s, d) ∈ I.channelMap → I.roles.Linked s d
  workers : ∀ id, id ∈ I.workers ↔ id ∈ I.sourceMap

/-- Filling the map after a node has joined. -/
theorem Tended.updateChannelMap {I J : Intermediate} (hI : I.Tended)
    (hJ : J.Consistent) (hchannels : J.channelMap = I.channelMap)
    (hle : I.roles.Le J.roles)
    (hworkers : ∀ id, id ∈ J.workers ↔ id ∈ J.sourceMap) :
    J.updateChannelMap.Tended := by
  refine ⟨hJ.updateChannelMap, ?_, hworkers⟩
  intro s d hmem
  rcases (mem_updateChannelMap hJ s d).mp hmem with hold | hnew
  · rw [hchannels] at hold
    exact hle.linked (hI.linked s d hold)
  · exact hnew

/-- Taking a role and the channels from a node. -/
theorem Tended.unlinked {I I' : Intermediate} {R : Roles NodeId} {x : NodeId}
    (hI : I.Tended) (h : Unlinked I I' R x)
    (hle : (I.roles.without x).Le R)
    (hworkers : ∀ id, id ∈ I'.workers ↔ id ∈ I'.sourceMap) :
    I'.Tended := by
  refine ⟨h.consistent, ?_, hworkers⟩
  intro s d hmem
  obtain ⟨hold, hs, hd⟩ := (h.links s d).mp hmem
  rw [h.roles]
  exact hle.linked (Roles.linked_without (hI.linked s d hold) hs hd)

@[simp] theorem workers_emptyChannelChecker (I : Intermediate) :
    I.emptyChannelChecker.workers = I.workers := by
  by_cases h : I.isEmpty <;> simp [emptyChannelChecker, h]

@[simp] theorem sandboxNodes_emptyChannelChecker (I : Intermediate) :
    I.emptyChannelChecker.sandboxNodes = I.sandboxNodes := by
  by_cases h : I.isEmpty <;> simp [emptyChannelChecker, h]

/-- An intermediate whose new source has got its links. -/
def withSource (I : Intermediate) (receiver : Receiver) : Intermediate :=
  let I := { I with
    sourceMap := I.sourceMap.insert receiver.id receiver
    workers := I.workers.insert receiver.id
      ⟨receiver.id, receiver.configId, receiver.handle⟩ }
  let I := I.updateChannelMap
  { I with destVersion := I.destVersion + 1 }

theorem attachSource_eq (I : Intermediate) (receiver : Receiver) :
    I.attachSource receiver = if receiver.id ∈ I.sourceMap then some I
      else (I.withSource receiver).printStatus :=
  rfl

theorem Tended.withSource {I : Intermediate} (hI : I.Tended)
    (receiver : Receiver) : (I.withSource receiver).Tended := by
  have hfilled : ({ I with
      sourceMap := I.sourceMap.insert receiver.id receiver
      workers := I.workers.insert receiver.id
        ⟨receiver.id, receiver.configId, receiver.handle⟩ } :
      Intermediate).updateChannelMap.Tended := by
    refine hI.updateChannelMap
      ⟨hI.consistent.sources.insert rfl, hI.consistent.destinations,
        hI.consistent.channels⟩ rfl ⟨?_, subset_rfl, subset_rfl⟩ ?_
    · intro id hid
      exact AList.mem_insert _ |>.mpr (Or.inr hid)
    · intro id
      rw [AList.mem_insert, AList.mem_insert, hI.workers]
  exact ⟨⟨hfilled.consistent.sources, hfilled.consistent.destinations,
    hfilled.consistent.channels⟩, hfilled.linked, hfilled.workers⟩

/-- An intermediate whose new destination has got its links. -/
def withDestination (I : Intermediate) (transmitter : Transmitter) :
    Intermediate :=
  let I := { I with
    destinationMap :=
      I.destinationMap.insert transmitter.configId transmitter
    destCount := I.destCount + 1 }
  let I := I.updateChannelMap
  { I with destVersion := I.destVersion + 1 }

theorem attachDestination_eq (I : Intermediate) (transmitter : Transmitter) :
    I.attachDestination transmitter =
      if transmitter.configId ∈ I.destinationMap then some I
      else (I.withDestination transmitter).printStatus :=
  rfl

theorem Tended.withDestination {I : Intermediate} (hI : I.Tended)
    (transmitter : Transmitter) : (I.withDestination transmitter).Tended := by
  have hfilled : ({ I with
      destinationMap :=
        I.destinationMap.insert transmitter.configId transmitter
      destCount := I.destCount + 1 } :
      Intermediate).updateChannelMap.Tended := by
    refine hI.updateChannelMap
      ⟨hI.consistent.sources,
        hI.consistent.destinations.insert transmitter.configId_eq.symm,
        hI.consistent.channels⟩ rfl ⟨subset_rfl, ?_, subset_rfl⟩ hI.workers
    intro id hid
    exact AList.mem_insert _ |>.mpr (Or.inr hid)
  exact ⟨⟨hfilled.consistent.sources, hfilled.consistent.destinations,
    hfilled.consistent.channels⟩, hfilled.linked, hfilled.workers⟩

theorem Tended.addSandboxNode {I : Intermediate} (hI : I.Tended)
    (nodeId : NodeId) (numChannels : ℕ) :
    (I.addSandboxNode nodeId numChannels).Tended := by
  have hfilled : ({ I with
      sandboxNodes := I.sandboxNodes.insert nodeId
      sandboxNumChannels := I.sandboxNumChannels.insert nodeId numChannels } :
      Intermediate).updateChannelMap.Tended := by
    refine hI.updateChannelMap
      ⟨hI.consistent.sources, hI.consistent.destinations,
        hI.consistent.channels⟩ rfl ⟨subset_rfl, subset_rfl, ?_⟩ hI.workers
    intro id hid
    exact List.mem_insert_iff.mpr (Or.inr hid)
  exact ⟨⟨hfilled.consistent.sources, hfilled.consistent.destinations,
    hfilled.consistent.channels⟩, hfilled.linked, hfilled.workers⟩

theorem Tended.detachSource {I : Intermediate} (hI : I.Tended)
    (receiver : Receiver) : (I.detachSource receiver).2.Tended := by
  by_cases hmem : receiver.id ∈ I.sourceMap
  · refine hI.unlinked (detachSource_of_mem hI.consistent hmem)
      (I.roles.without_le_removeSource _) ?_
    intro id
    simp [Intermediate.detachSource, hmem, Intermediate.removeChannel,
      hI.workers]
  · simpa [Intermediate.detachSource, hmem] using hI

theorem Tended.detachDestination {I : Intermediate} (hI : I.Tended)
    (transmitter : Transmitter) :
    (I.detachDestination transmitter).2.Tended := by
  by_cases hmem : transmitter.id ∈ I.destinationMap
  · refine hI.unlinked (detachDestination_of_mem hI.consistent hmem)
      (I.roles.without_le_removeDestination _) ?_
    intro id
    simp [Intermediate.detachDestination, hmem, Intermediate.removeChannel,
      hI.workers]
  · simpa [Intermediate.detachDestination, hmem] using hI

theorem Tended.perform {I I' : Intermediate} {op : MembershipOp}
    (hI : I.Tended) (h : I.perform op = some I') : I'.Tended := by
  cases op with
  | attachSource receiver =>
      simp only [Intermediate.perform, attachSource_eq] at h
      split_ifs at h
      · cases h
        exact hI
      · cases printStatus_some h
        exact hI.withSource receiver
  | attachDestination transmitter =>
      simp only [Intermediate.perform, attachDestination_eq] at h
      split_ifs at h
      · cases h
        exact hI
      · cases printStatus_some h
        exact hI.withDestination transmitter
  | addSandboxNode nodeId numChannels =>
      cases h
      exact hI.addSandboxNode nodeId numChannels
  | detachSource receiver =>
      cases h
      exact hI.detachSource receiver
  | detachDestination transmitter =>
      cases h
      exact hI.detachDestination transmitter
  | removeSandboxNode nodeId =>
      cases h
      exact hI.unlinked (removeSandboxNode_unlinked hI.consistent nodeId)
        (I.roles.without_le_removeSandbox _) hI.workers

/-- Without sandbox nodes every channel has its receiver and its transmitter,
so that listing the status does no harm. -/
theorem Tended.printStatus {I : Intermediate} (hI : I.Tended)
    (hbox : I.sandboxNodes = []) : I.printStatus = some I := by
  refine if_pos (List.all_eq_true.mpr ?_)
  intro ch hch
  obtain ⟨⟨s, d⟩, hlookup⟩ := FiniteMap.mem_values_iff.mp hch
  obtain ⟨rfl, rfl⟩ := Prod.mk.inj (hI.consistent.channels _ ch hlookup)
  obtain ⟨hs, hd⟩ := (hI.linked ch.source ch.dest
    (FiniteMap.mem_iff_lookup.mpr ⟨ch, hlookup⟩)).ends
  have hnobody : ∀ id, id ∉ I.roles.sandbox := by
    intro id hid
    simp [roles, hbox] at hid
  rw [Bool.and_eq_true, decide_eq_true_eq, decide_eq_true_eq]
  exact ⟨hs.resolve_right (hnobody _), hd.resolve_right (hnobody _)⟩

theorem Tended.isSome_attach {I : Intermediate} (hI : I.Tended)
    (hbox : I.sandboxNodes = []) (dir : Direction) (e : Endpoint) :
    (I.attach dir e).isSome = true := by
  cases dir with
  | uplink =>
      rw [attach, attachSource_eq]
      split_ifs
      · rfl
      · rw [(hI.withSource e).printStatus hbox]
        rfl
  | downlink =>
      rw [attach, attachDestination_eq]
      split_ifs
      · rfl
      · rw [(hI.withDestination e).printStatus hbox]
        rfl

/-! ## Attaching and detaching are membership operations -/

/-- What the controller calls in a mode.  A node can be removed in either. -/
def MembershipOp.InMode (sandbox : Bool) : MembershipOp → Prop
  | .attachSource _ => sandbox = false
  | .attachDestination _ => sandbox = false
  | .detachSource _ => True
  | .detachDestination _ => True
  | .addSandboxNode _ _ => sandbox = true
  | .removeSandboxNode _ => sandbox = true

theorem exists_perform_attach (I : Intermediate) (dir : Direction)
    (e : Endpoint) :
    ∃ op, op.InMode false ∧ I.perform op = I.attach dir e := by
  cases dir
  · exact ⟨.attachSource e, rfl, rfl⟩
  · exact ⟨.attachDestination e, rfl, rfl⟩

theorem exists_perform_detach (I : Intermediate) (dir : Direction)
    (e : Endpoint) (sandbox : Bool) :
    ∃ op, op.InMode sandbox ∧ I.perform op = some (I.detach dir e).2 := by
  cases dir
  · exact ⟨.detachSource e, trivial, rfl⟩
  · exact ⟨.detachDestination e, trivial, rfl⟩

end Intermediate

namespace Controller

/-- New intermediates have the property, and the membership operations of a
mode keep it. -/
structure Kept (sandbox : Bool) (Q : ℚ → Intermediate → Prop) : Prop where
  created : ∀ (C : Controller) (freq : ℚ), Q freq (C.newIntermediate freq)
  performed : ∀ (freq : ℚ) (I I' : Intermediate)
    (op : Intermediate.MembershipOp), op.InMode sandbox → Q freq I →
    I.perform op = some I' → Q freq I'

namespace Kept

variable {sandbox : Bool} {Q : ℚ → Intermediate → Prop} {C C' : Controller}

/-- The property of the intermediate at one frequency. -/
theorem atFreq (hQ : Kept sandbox Q) (freq : ℚ) :
    Kept sandbox fun k I => k = freq → Q k I where
  created C k _ := hQ.created C k
  performed k I I' op hmode hI h hk := hQ.performed k I I' op hmode (hI hk) h

theorem createChannel (hQ : Kept sandbox Q)
    (hC : FiniteMap.All Q C.intermediateMap) (freq : ℚ) :
    FiniteMap.All Q (C.createChannel freq).intermediateMap := by
  unfold Controller.createChannel
  split_ifs
  · exact hC
  · exact hC.insert (hQ.created C freq)

theorem leaveChannel (hQ : Kept sandbox Q) {e : Option EndpointState}
    (he : e = none → sandbox = true)
    (hC : FiniteMap.All Q C.intermediateMap) (dir : Direction) (freq : ℚ)
    (node : Node) :
    FiniteMap.All Q (leaveChannel dir C freq e node).intermediateMap := by
  unfold Controller.leaveChannel
  dsimp only
  apply all_isChannelEmpty
  unfold updateIntermediate
  split
  · exact hC
  next I hI =>
    refine hC.insert ?_
    cases e with
    | none =>
        exact hQ.performed freq I _ (.removeSandboxNode node.config.id)
          (he rfl) (hC freq I hI) rfl
    | some st =>
        obtain ⟨op, hmode, hop⟩ :=
          I.exists_perform_detach dir st.endpoint sandbox
        exact hQ.performed freq I _ op hmode (hC freq I hI) hop

theorem joinChannel (hQ : Kept sandbox Q) {dir : Direction} {freq : ℚ}
    {e : Option EndpointState} {node node' : Node} {newConfig : NodeConfig}
    (he : e = none ↔ sandbox = true)
    (hC : FiniteMap.All Q C.intermediateMap)
    (h : joinChannel dir C freq e node newConfig = some (C', node')) :
    FiniteMap.All Q C'.intermediateMap := by
  cases joined_of_joinChannel h with
  | @sandbox _ _ I _ hI =>
      exact hC.insert (hQ.performed freq I _ (.addSandboxNode _ _)
        (he.mp rfl) (hC freq I hI) rfl)
  | @endpoint _ _ st I I' _ hI hattach =>
      have hoff : sandbox = false := by
        rw [← Bool.not_eq_true, ← he]
        exact Option.some_ne_none st
      obtain ⟨op, hmode, hop⟩ := I.exists_perform_attach dir st.endpoint
      rw [← hoff] at hmode
      exact hC.insert (hQ.performed freq I I' op hmode (hC freq I hI)
        (hop.trans hattach))

theorem assignChannel (hQ : Kept C.sandbox Q) {dir : Direction}
    {node node' : Node} {newConfig : NodeConfig} {created : Bool}
    (hC : FiniteMap.All Q C.intermediateMap)
    (h : assignChannel dir C node newConfig = some (created, C', node')) :
    FiniteMap.All Q C'.intermediateMap := by
  cases hchannels : newConfig.channels with
  | nil =>
      rw [Controller.assignChannel, hchannels] at h
      cases h
      exact hC
  | cons ch rest =>
      obtain ⟨e, C₁, node₁, hequip, hends⟩ := assignChannel_ends hchannels h
      have he : e = none ↔ C.sandbox = true := by
        rcases equip_cases hequip with ⟨hon, rfl, -⟩ | ⟨hoff, st, rfl, -⟩
        · simp [hon]
        · simp [hoff]
      rw [← (equip_some hequip).1] at hC
      have hcreated := hQ.createChannel hC (dir.freqOf ch)
      cases hends with
      | repeated => exact hcreated
      | kept => exact hcreated
      | moved _ _ hjoin =>
          refine hQ.joinChannel he ?_ hjoin
          split_ifs
          · exact hQ.leaveChannel he.mp hcreated dir _ node₁
          · exact hcreated

theorem handleConfig (hQ : Kept C.sandbox Q) {nodeConfig : NodeConfig}
    {remoteIp : String} {now : ℤ} {response : Response}
    (hC : FiniteMap.All Q C.intermediateMap)
    (h : C.handleConfig nodeConfig remoteIp now = some (response, C')) :
    FiniteMap.All Q C'.intermediateMap := by
  obtain ⟨target, newlyInserted, C₁, C₂, C₃, node₂, node₃, createdUL,
    createdDL, hget, r, hr, hUL, hDL, rfl, -⟩ := handleConfig_some h
  obtain ⟨hmap, hsandbox₁⟩ := getOrCreateNode_intermediates hget
  rw [← hsandbox₁] at hQ
  rw [← hmap] at hC
  have hC₂ := assignChannel
    (C := { C₁ with vehicleHandlers := r.handlers }) hQ hC hUL
  have hsandbox := sandbox_assignChannel hUL
  rw [← hsandbox] at hQ
  have hC₃ := hQ.assignChannel hC₂ hDL
  exact hC₃

theorem detachAll (hQ : Kept sandbox Q)
    (hC : FiniteMap.All Q C.intermediateMap) (dir : Direction)
    (e : Option EndpointState) :
    FiniteMap.All Q (detachAll dir C e).intermediateMap := by
  cases e with
  | none => exact hC
  | some st =>
      intro k I hI
      rw [Controller.detachAll, FiniteMap.lookup_mapValues,
        Option.map_eq_some_iff] at hI
      obtain ⟨J, hJ, rfl⟩ := hI
      obtain ⟨op, hmode, hop⟩ :=
        J.exists_perform_detach dir st.endpoint sandbox
      exact hQ.performed k J _ op hmode (hC k J hJ) hop

theorem removeNode (hQ : Kept sandbox Q)
    (hC : FiniteMap.All Q C.intermediateMap) (id : NodeId) (node : Node) :
    FiniteMap.All Q (C.removeNode id node).intermediateMap := by
  have hdownlink := hQ.detachAll hC .downlink node.transmitter
  exact (hQ.detachAll hdownlink .uplink node.receiver).filter _

theorem step (hQ : Kept C.sandbox Q) {event : Event}
    (hC : FiniteMap.All Q C.intermediateMap) (h : C.step event = some C') :
    FiniteMap.All Q C'.intermediateMap := by
  cases transition_of_step h with
  | nothing => exact hC
  | heartbeat => exact hC
  | removal _ ipAddrMap =>
      exact hQ.removeNode (C := { C with ipAddrMap := ipAddrMap }) hC _ _
  | configuration hconfig => exact hQ.handleConfig hC hconfig

end Kept

/-! ## Properties that are kept -/

theorem freq_perform {I I' : Intermediate} {op : Intermediate.MembershipOp}
    (h : I.perform op = some I') : I'.freq = I.freq := by
  cases op with
  | attachSource receiver =>
      have hattach : I.attach .uplink receiver = some I' := h
      exact Intermediate.freq_attach hattach
  | attachDestination transmitter =>
      have hattach : I.attach .downlink transmitter = some I' := h
      exact Intermediate.freq_attach hattach
  | detachSource receiver =>
      cases h
      exact I.freq_detach .uplink receiver
  | detachDestination transmitter =>
      cases h
      exact I.freq_detach .downlink transmitter
  | addSandboxNode =>
      cases h
      rfl
  | removeSandboxNode =>
      cases h
      rfl

theorem kept_freq (sandbox : Bool) :
    Kept sandbox fun freq I => I.freq = freq where
  created C freq := (C.newIntermediate_members freq).1
  performed _ _ _ _ _ hI h := (freq_perform h).trans hI

/-- The propagation defaults do not add channels or workers. -/
theorem newIntermediate_empty (C : Controller) (freq : ℚ) :
    (C.newIntermediate freq).channelMap = ∅ ∧
      (C.newIntermediate freq).workers = ∅ := by
  unfold newIntermediate
  split
  · exact ⟨rfl, rfl⟩
  · dsimp only
    split_ifs
    · exact ⟨rfl, rfl⟩
    · simp only [Intermediate.set3gppScenario]
      split_ifs <;> exact ⟨rfl, rfl⟩
    · exact ⟨rfl, rfl⟩

theorem tended_newIntermediate (C : Controller) (freq : ℚ) :
    (C.newIntermediate freq).Tended := by
  obtain ⟨hchannels, hworkers⟩ := C.newIntermediate_empty freq
  obtain ⟨-, hsources, hdestinations, -⟩ := C.newIntermediate_members freq
  refine ⟨⟨?_, ?_, ?_⟩, ?_, ?_⟩
  · rw [hsources]
    exact FiniteMap.all_empty
  · rw [hdestinations]
    exact FiniteMap.all_empty
  · rw [hchannels]
    exact FiniteMap.all_empty
  · intro s d hmem
    rw [hchannels] at hmem
    exact absurd hmem (AList.notMem_empty _)
  · intro id
    rw [hworkers, hsources]
    exact ⟨fun h => absurd h (AList.notMem_empty _),
      fun h => absurd h (AList.notMem_empty _)⟩

theorem kept_tended (sandbox : Bool) : Kept sandbox fun _ I => I.Tended where
  created C freq := C.tended_newIntermediate freq
  performed _ _ _ _ _ hI h := hI.perform h

theorem sandboxNodes_detach (I : Intermediate) (dir : Direction)
    (e : Endpoint) : (I.detach dir e).2.sandboxNodes = I.sandboxNodes := by
  cases dir <;>
    simp only [Intermediate.detach, Intermediate.detachSource,
      Intermediate.detachDestination] <;>
    split_ifs <;> simp [Intermediate.removeChannel]

theorem sandboxNodes_attach {I I' : Intermediate} {dir : Direction}
    {e : Endpoint} (h : I.attach dir e = some I') :
    I'.sandboxNodes = I.sandboxNodes := by
  cases dir with
  | uplink =>
      rw [Intermediate.attach, Intermediate.attachSource_eq] at h
      split_ifs at h
      · cases h
        rfl
      · cases Intermediate.printStatus_some h
        rfl
  | downlink =>
      rw [Intermediate.attach, Intermediate.attachDestination_eq] at h
      split_ifs at h
      · cases h
        rfl
      · cases Intermediate.printStatus_some h
        rfl

/-- Outside sandbox mode there are no sandbox nodes. -/
theorem kept_sandboxNodes : Kept false fun _ I => I.sandboxNodes = [] where
  created C freq := (C.newIntermediate_members freq).2.2.2
  performed freq I I' op hmode hI h := by
    cases op with
    | attachSource receiver =>
        have hattach : I.attach .uplink receiver = some I' := h
        rw [sandboxNodes_attach hattach, hI]
    | attachDestination transmitter =>
        have hattach : I.attach .downlink transmitter = some I' := h
        rw [sandboxNodes_attach hattach, hI]
    | detachSource receiver =>
        cases h
        exact (sandboxNodes_detach I .uplink receiver).trans hI
    | detachDestination transmitter =>
        cases h
        exact (sandboxNodes_detach I .downlink transmitter).trans hI
    | addSandboxNode nodeId numChannels => cases hmode
    | removeSandboxNode nodeId => cases hmode

/-! ## When a configuration request is handled -/

/-- Leaving an intermediate touches no other one. -/
theorem lookup_leaveChannel_ne {C : Controller} (hC : C.KeysMatch)
    (dir : Direction) {freq k : ℚ} (e : Option EndpointState) (node : Node)
    (hne : k ≠ freq) :
    (leaveChannel dir C freq e node).intermediateMap.lookup k =
      C.intermediateMap.lookup k := by
  -- whoever leaves, the intermediate keeps its frequency
  have hdrop : ∀ f : Intermediate → Intermediate, (∀ I, (f I).freq = I.freq) →
      ((C.updateIntermediate freq f).isChannelEmpty
        freq).intermediateMap.lookup k = C.intermediateMap.lookup k := by
    intro f hf
    ext I
    rw [lookup_isChannelEmpty (hC.updateIntermediate freq hf),
      lookup_updateIntermediate, if_neg hne]
    simp [hne]
  cases e with
  | none => exact hdrop _ fun _ => rfl
  | some st => exact hdrop _ fun I => I.freq_detach dir st.endpoint

/-- An intermediate that was created is still there when the old one is
left. -/
theorem lookup_created_of_left {C : Controller} {c : Prop} [Decidable c]
    (hC : C.KeysMatch) (dir : Direction) {freq prev : ℚ}
    (e : Option EndpointState) (node : Node) (hne : prev ≠ freq) :
    (if c then leaveChannel dir (C.createChannel freq) prev e node
      else C.createChannel freq).intermediateMap.lookup freq =
      (C.createChannel freq).intermediateMap.lookup freq := by
  split_ifs
  · exact lookup_leaveChannel_ne (hC.createChannel freq) dir e node hne.symm
  · rfl

/-- Intermediates to which endpoints can be attached: outside sandbox mode they
have no sandbox nodes. -/
structure Wired (C : Controller) : Prop where
  keys : C.KeysMatch
  tended : FiniteMap.All (fun _ I => I.Tended) C.intermediateMap
  plain : C.sandbox = false →
    FiniteMap.All (fun _ I => I.sandboxNodes = []) C.intermediateMap

/-- What keeps a configuration request from failing: endpoints can be
attached, and every node has a channel to be tuned. -/
structure Serviceable (C : Controller) : Prop where
  wired : C.Wired
  tuned : ∀ id node, C.nodeMap.lookup id = some node →
    node.config.channels ≠ []

/-- What holds in every state, however often the mode has been switched. -/
structure Sturdy (C : Controller) : Prop where
  keys : C.KeysMatch
  tended : FiniteMap.All (fun _ I => I.Tended) C.intermediateMap
  tuned : ∀ id node, C.nodeMap.lookup id = some node →
    node.config.channels ≠ []

theorem Serviceable.sturdy {C : Controller} (hC : C.Serviceable) : C.Sturdy :=
  ⟨hC.wired.keys, hC.wired.tended, hC.tuned⟩

/-- Outside sandbox mode the node does not move to an intermediate that has
sandbox nodes. -/
def Separate (dir : Direction) (C : Controller) (node : Node)
    (newConfig : NodeConfig) : Prop :=
  C.sandbox = false → ∀ ch rest, newConfig.channels = ch :: rest →
    moves dir node ch = true →
    ∀ I, C.intermediateMap.lookup (dir.freqOf ch) = some I →
      I.sandboxNodes = []

theorem Serviceable.separate {C : Controller} (hC : C.Serviceable)
    (dir : Direction) (node : Node) (newConfig : NodeConfig) :
    Separate dir C node newConfig :=
  fun hoff _ _ _ _ I hI => hC.wired.plain hoff _ I hI

theorem Outcome.channels_ne_nil {dir : Direction} {C C' : Controller}
    {node node' : Node} {newConfig : NodeConfig} {ch : Usrp.Channel}
    {created : Bool} (h : Outcome dir C C' node node' newConfig ch created)
    (htuned : node.config.channels ≠ []) : node'.config.channels ≠ [] := by
  rw [h.channels]
  split_ifs
  · cases hlist : node.config.channels with
    | nil => exact absurd hlist htuned
    | cons first rest => exact List.cons_ne_nil _ _
  · exact htuned

theorem isSome_equip {dir : Direction} {C : Controller} {node : Node}
    (htuned : node.config.channels ≠ []) :
    (equip dir C node).isSome = true := by
  obtain ⟨first, rest, hlist⟩ := List.exists_cons_of_ne_nil htuned
  unfold equip
  split_ifs
  · rfl
  · rw [Option.isSome_map, ensureEndpoint, Option.isSome_map]
    cases node.endpoint dir with
    | some st => rfl
    | none =>
        cases dir <;>
          simp [createEndpoint, EndpointState.create, assignPort, hlist]

theorem isSome_joinChannel {dir : Direction} {C : Controller} {freq : ℚ}
    {e : Option EndpointState} {node : Node} (newConfig : NodeConfig)
    (htuned : node.config.channels ≠ []) (hmem : freq ∈ C.intermediateMap)
    (hattach : ∀ st, e = some st → ∀ I,
      C.intermediateMap.lookup freq = some I →
      I.Tended ∧ I.sandboxNodes = []) :
    (joinChannel dir C freq e node newConfig).isSome = true := by
  obtain ⟨first, rest, hlist⟩ := List.exists_cons_of_ne_nil htuned
  obtain ⟨I, hI⟩ := FiniteMap.mem_iff_lookup.mp hmem
  have hconfig : updateFreq dir node.config freq = some { node.config with
      channels := dir.setFreq freq first :: rest } := by
    simp [updateFreq, hlist]
  simp only [joinChannel, hconfig, hI, Option.bind_eq_bind, Option.bind_some]
  cases e with
  | none => rfl
  | some st =>
      obtain ⟨htended, hbox⟩ := hattach st rfl I hI
      obtain ⟨I', hI'⟩ := Option.isSome_iff_exists.mp
        (htended.isSome_attach hbox dir st.endpoint)
      have hendpoint : ((st.updateFreq freq).setSampleRate dir
          (toUInt32 (dir.rateOf node.config.sampleRate))).endpoint =
          st.endpoint := rfl
      simp only [hendpoint, hI', Option.bind_some]
      rfl

theorem isSome_assignChannel (dir : Direction) {C : Controller} {node : Node}
    {newConfig : NodeConfig} (hkeys : C.KeysMatch)
    (htended : FiniteMap.All (fun _ I => I.Tended) C.intermediateMap)
    (htuned : node.config.channels ≠ [])
    (hseparate : Separate dir C node newConfig) :
    (assignChannel dir C node newConfig).isSome = true := by
  cases hchannels : newConfig.channels with
  | nil => simp [assignChannel, hchannels]
  | cons ch rest =>
      rw [assignChannel_eq hchannels]
      obtain ⟨⟨e, C₁, node₁⟩, hequip⟩ :=
        Option.isSome_iff_exists.mp (isSome_equip (C := C) htuned)
      obtain ⟨hmap, -, -, -⟩ := equip_some hequip
      have hspec := equip_spec hequip
      rw [hequip]
      dsimp only [Option.bind]
      by_cases hrepeat : isRepeat dir C node newConfig ch = true
      · rw [if_pos hrepeat]
        rfl
      rw [if_neg hrepeat]
      by_cases hmoves : moves dir node ch = true
      · rw [if_pos hmoves, Option.isSome_map]
        rw [← hmap] at htended
        have hkeys₁ : C₁.KeysMatch := hkeys.congr hmap
        have hlookup := lookup_created_of_left
          (c := prevFreq dir node ∈ C.intermediateMap) hkeys₁ dir e node₁
          (moves_ne hmoves)
        refine isSome_joinChannel newConfig ?_ ?_ ?_
        · rw [hspec.channels]
          exact htuned
        · rw [← AList.lookup_isSome, hlookup, AList.lookup_isSome,
            mem_createChannel]
          exact Or.inr rfl
        · intro st hst I hI
          have hoff : C.sandbox = false := by
            rcases equip_cases hequip with ⟨-, hnone, -⟩ | ⟨hoff, -⟩
            · cases hnone.symm.trans hst
            · exact hoff
          have hplain : FiniteMap.All (fun k I => k = dir.freqOf ch →
              I.sandboxNodes = []) C₁.intermediateMap := by
            rw [hmap]
            rintro k I hI rfl
            exact hseparate hoff ch rest hchannels hmoves I hI
          rw [hlookup] at hI
          exact ⟨(kept_tended false).createChannel htended _ _ I hI,
            (kept_sandboxNodes.atFreq _).createChannel hplain _ _ I hI rfl⟩
      · rw [if_neg hmoves]
        rfl

theorem channels_ne_nil_assignChannel {dir : Direction} {C C' : Controller}
    {node node' : Node} {newConfig : NodeConfig} {created : Bool}
    (h : assignChannel dir C node newConfig = some (created, C', node'))
    (htuned : node.config.channels ≠ []) : node'.config.channels ≠ [] := by
  cases hchannels : newConfig.channels with
  | nil =>
      rw [assignChannel, hchannels] at h
      cases h
      exact htuned
  | cons ch rest =>
      exact (assignChannel_outcome hchannels h).channels_ne_nil htuned

theorem refresh_channels_ne_nil {target : Node} {config : NodeConfig}
    {handlers : VehicleHandlers} {r : Node.Refresh}
    (hr : r = target.refreshFromConfig config handlers)
    (htuned : target.config.channels ≠ []) : r.node.config.channels ≠ [] := by
  rw [Ne, ← freq?_eq_none_iff r.node .uplink, ((refresh_same hr).2.2 _).2,
    freq?_eq_none_iff]
  exact htuned

/-- The node that a request works on has a channel. -/
theorem Sturdy.target_tuned {C C₁ : Controller} {config : NodeConfig}
    {now : ℤ} {target : Node} {newlyInserted : Bool} (hC : C.Sturdy)
    (h : C.getOrCreateNode (Node.create config now) =
      some (target, newlyInserted, C₁)) : target.config.channels ≠ [] := by
  rcases getOrCreateNode_some h with ⟨hknown, -, -⟩ | ⟨-, hchannels, rfl, -, -⟩
  · exact hC.tuned _ target hknown
  · exact hchannels

theorem tuned_handleConfig {C C' : Controller} {n : NodeConfig}
    {remoteIp : String} {now : ℤ} {response : Response} (hC : C.Sturdy)
    (h : C.handleConfig n remoteIp now = some (response, C'))
    (id : NodeId) (node : Node) (hlookup : C'.nodeMap.lookup id = some node) :
    node.config.channels ≠ [] := by
  obtain ⟨target, newlyInserted, C₁, C₂, C₃, node₂, node₃, createdUL,
    createdDL, hget, r, hr, hUL, hDL, rfl, -⟩ := handleConfig_some h
  have htuned := refresh_channels_ne_nil hr (hC.target_tuned hget)
  have htuned₃ := channels_ne_nil_assignChannel hDL
    (channels_ne_nil_assignChannel hUL htuned)
  rw [lookup_put, nodeMap_assignChannel hDL,
    nodeMap_assignChannel hUL] at hlookup
  split_ifs at hlookup with hcase
  · cases hlookup
    exact htuned₃
  · exact hC.tuned id node ((lookup_getOrCreateNode_ne hget hcase).symm.trans
      hlookup)

theorem sturdy_step {C C' : Controller} {event : Event} (hC : C.Sturdy)
    (h : C.step event = some C') : C'.Sturdy := by
  refine ⟨(kept_freq _).step hC.keys h, (kept_tended _).step hC.tended h, ?_⟩
  intro id' node' hlookup
  cases transition_of_step h with
  | nothing => exact hC.tuned id' node' hlookup
  | @heartbeat id node _ now hnode =>
      rw [lookup_put] at hlookup
      split_ifs at hlookup
      · cases hlookup
        exact hC.tuned id node hnode
      · exact hC.tuned id' node' hlookup
  | removal =>
      have hstored := lookup_removeNode hlookup
      exact hC.tuned id' node' hstored
  | configuration hconfig =>
      exact tuned_handleConfig hC hconfig id' node' hlookup

theorem sandbox_step {C C' : Controller} {event : Event}
    (h : C.step event = some C') : C'.sandbox = C.sandbox := by
  cases transition_of_step h with
  | nothing => rfl
  | heartbeat => rfl
  | removal => exact sandbox_removeNode _ _ _
  | configuration hconfig =>
      obtain ⟨target, newlyInserted, C₁, C₂, C₃, node₂, node₃, createdUL,
        createdDL, hget, r, hr, hUL, hDL, rfl, -⟩ := handleConfig_some hconfig
      exact ((sandbox_assignChannel hDL).trans
        (sandbox_assignChannel hUL)).trans (getOrCreateNode_intermediates hget).2

theorem serviceable_step {C C' : Controller} {event : Event}
    (hC : C.Serviceable) (h : C.step event = some C') : C'.Serviceable := by
  obtain ⟨hkeys, htended, htuned⟩ := sturdy_step hC.sturdy h
  refine ⟨⟨hkeys, htended, fun hoff => ?_⟩, htuned⟩
  rw [sandbox_step h] at hoff
  have hkept := kept_sandboxNodes
  rw [← hoff] at hkept
  exact hkept.step (hC.wired.plain hoff) h

theorem serviceable_create (sandbox : Bool)
    (defaults : Option PropagationDefaults) :
    (create sandbox defaults).Serviceable := by
  refine ⟨⟨FiniteMap.all_empty, FiniteMap.all_empty,
    fun _ => FiniteMap.all_empty⟩, ?_⟩
  intro id node hlookup
  simp [create] at hlookup

/-- A new node stays where its first request puts it. -/
theorem separate_create (dir : Direction) (C : Controller) (n : NodeConfig)
    (now : ℤ) : Separate dir C (Node.create n now) n := by
  intro _ ch rest hchannels hmoves
  refine absurd ?_ (moves_ne hmoves)
  simp [prevFreq, Node.freq?, Node.create, hchannels]

theorem Separate.congr {dir : Direction} {C C₁ : Controller}
    {node node₁ : Node} {n n₁ : NodeConfig} (h : Separate dir C node n)
    (hmap : C₁.intermediateMap = C.intermediateMap)
    (hsandbox : C₁.sandbox = C.sandbox)
    (hfreq : node₁.freq? dir = node.freq? dir)
    (hchannels : n₁.channels = n.channels) : Separate dir C₁ node₁ n₁ := by
  intro hoff ch rest hcons hmoves
  rw [hmap]
  rw [moves_congr ch hfreq] at hmoves
  exact h (hsandbox.symm.trans hoff) ch rest (hchannels.symm.trans hcons)
    hmoves

/-- The assignment of one direction does not bring sandbox nodes where the
other one needs none. -/
theorem Separate.assignChannel {dir dir' : Direction} {C C' : Controller}
    {node node' : Node} {newConfig : NodeConfig} {created : Bool}
    (hseparate : Separate dir' C node newConfig) (hdir : dir' ≠ dir)
    (h : assignChannel dir C node newConfig = some (created, C', node')) :
    Separate dir' C' node' newConfig := by
  intro hoff ch rest hchannels hmoves I hI
  rw [sandbox_assignChannel h] at hoff
  rw [moves_congr ch ((assignChannel_outcome hchannels h).freq?_of_ne
    hdir)] at hmoves
  have hplain : FiniteMap.All (fun k I => k = dir'.freqOf ch →
      I.sandboxNodes = []) C.intermediateMap := by
    rintro k J hJ rfl
    exact hseparate hoff ch rest hchannels hmoves J hJ
  have hkept := kept_sandboxNodes.atFreq (dir'.freqOf ch)
  rw [← hoff] at hkept
  exact hkept.assignChannel hplain h _ I hI rfl

/-- Only the first request of a node needs a channel. -/
theorem known_or_tuned_of_handleConfig {C : Controller} {n : NodeConfig}
    {remoteIp : String} {now : ℤ}
    (h : (C.handleConfig n remoteIp now).isSome = true) :
    n.id ∈ C.nodeMap ∨ n.channels ≠ [] := by
  obtain ⟨⟨response, C'⟩, hresult⟩ := Option.isSome_iff_exists.mp h
  obtain ⟨target, newlyInserted, C₁, C₂, C₃, node₂, node₃, createdUL,
    createdDL, hget, -⟩ := handleConfig_some hresult
  rcases getOrCreateNode_some hget with ⟨hknown, -⟩ | ⟨-, hchannels, -⟩
  · exact Or.inl (FiniteMap.mem_iff_lookup.mpr ⟨target, hknown⟩)
  · exact Or.inr hchannels

theorem exists_getOrCreateNode {C : Controller} {config : NodeConfig} (now : ℤ)
    (h : config.id ∈ C.nodeMap ∨ config.channels ≠ []) :
    ∃ target newlyInserted C₁,
      C.getOrCreateNode (Node.create config now) =
        some (target, newlyInserted, C₁) := by
  unfold getOrCreateNode
  split
  · exact ⟨_, _, _, rfl⟩
  next hnone =>
    have hchannels : config.channels ≠ [] := by
      refine h.resolve_left fun hmem => ?_
      exact (AList.lookup_eq_none.mp hnone) hmem
    refine ⟨_, _, _, Option.map_eq_some_iff.mpr ⟨(), ?_, rfl⟩⟩
    simp [addNode, Node.create, hchannels]

/-- A configuration request is handled if the node is known or has a channel,
and does not move among sandbox nodes. -/
theorem isSome_handleConfig {C : Controller} (hC : C.Sturdy) {n : NodeConfig}
    (hseparate : ∀ node, C.nodeMap.lookup n.id = some node →
      ∀ dir, Separate dir C node n)
    (h : n.id ∈ C.nodeMap ∨ n.channels ≠ []) (remoteIp : String) (now : ℤ) :
    (C.handleConfig n remoteIp now).isSome = true := by
  obtain ⟨target, newlyInserted, C₁, hget⟩ := exists_getOrCreateNode now
    (show ({ n with ipAddress := remoteIp } : NodeConfig).id ∈ C.nodeMap ∨
      ({ n with ipAddress := remoteIp } : NodeConfig).channels ≠ [] from h)
  obtain ⟨r, hr⟩ : ∃ r, r = target.refreshFromConfig
      { n with ipAddress := remoteIp } C₁.vehicleHandlers := ⟨_, rfl⟩
  obtain ⟨D, hD⟩ : ∃ D : Controller,
      D = { C₁ with vehicleHandlers := r.handlers } := ⟨_, rfl⟩
  obtain ⟨hmap, hsandbox⟩ : D.intermediateMap = C.intermediateMap ∧
      D.sandbox = C.sandbox := by
    have hsame := getOrCreateNode_intermediates hget
    rw [hD]
    exact hsame
  have htuned := refresh_channels_ne_nil hr (hC.target_tuned hget)
  have hseparate₁ : ∀ dir, Separate dir D r.node r.request := by
    intro dir
    have htarget : Separate dir C target n := by
      rcases getOrCreateNode_some hget with ⟨hknown, -⟩ | ⟨-, -, rfl, -⟩
      · exact hseparate target hknown dir
      · exact (separate_create dir C _ now).congr rfl rfl rfl rfl
    obtain ⟨-, hrequest, hsame⟩ := refresh_same hr
    exact htarget.congr hmap hsandbox (hsame dir).2 hrequest
  have hkeys : D.KeysMatch := hC.keys.congr hmap
  have htended := hC.tended
  rw [← hmap] at htended
  obtain ⟨⟨createdUL, C₂, node₂⟩, hUL⟩ := Option.isSome_iff_exists.mp
    (isSome_assignChannel .uplink hkeys htended htuned (hseparate₁ _))
  have htuned₂ := channels_ne_nil_assignChannel hUL htuned
  obtain ⟨⟨createdDL, C₃, node₃⟩, hDL⟩ := Option.isSome_iff_exists.mp
    (isSome_assignChannel .downlink ((kept_freq _).assignChannel hkeys hUL)
      ((kept_tended _).assignChannel htended hUL) htuned₂
      ((hseparate₁ .downlink).assignChannel (by decide) hUL))
  have htuned₃ := channels_ne_nil_assignChannel hDL htuned₂
  rw [hD, hr] at hUL
  rw [hr] at hDL
  have hadd : addNode node₃ = some () := by
    simp [addNode, htuned₃]
  unfold handleConfig assignULChannel assignDLChannel
  simp only [Option.bind_eq_bind, hget, Option.bind_some, hUL, hDL, hadd]
  split_ifs <;> rfl

/-- A configuration request is handled unless it is the first of its node and
has no channel. -/
theorem isSome_handleConfig_iff {C : Controller} (hC : C.Serviceable)
    (n : NodeConfig) (remoteIp : String) (now : ℤ) :
    (C.handleConfig n remoteIp now).isSome = true ↔
      n.id ∈ C.nodeMap ∨ n.channels ≠ [] := by
  refine ⟨known_or_tuned_of_handleConfig, fun h => ?_⟩
  exact isSome_handleConfig hC.sturdy
    (fun node _ dir => hC.separate dir node n) h remoteIp now

end Controller

end Chem
