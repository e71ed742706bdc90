import ChemEmulator.Channel.ChannelMap
import ChemEmulator.Node.Controller
import ChemEmulator.Node.Refresh

/-!
# Which nodes are attached where

`Attached` is the relation that the intermediates of a controller represent:
an endpoint is a member, under its node's identifier, of the intermediate of a
frequency.  Creating a channel and dropping an empty one do not change it; the
operations on intermediates add or remove single pairs.

`AssignULChannel` and `AssignDLChannel` have three ends: the request is the
stored configuration and its channel had to be created, the frequency stays,
or the node moves.

The state is sound when every attached endpoint belongs to a node that is
known and stored with the frequency of the intermediate.  Every event keeps
that, for all histories with the sandbox mode off.
-/

namespace Chem

open PartialRuns

/-! ## Members of one intermediate -/

namespace Intermediate

@[simp] theorem sourceMap_emptyChannelChecker (I : Intermediate) :
    I.emptyChannelChecker.sourceMap = I.sourceMap := by
  by_cases h : I.isEmpty <;> simp [emptyChannelChecker, h]

@[simp] theorem destinationMap_emptyChannelChecker (I : Intermediate) :
    I.emptyChannelChecker.destinationMap = I.destinationMap := by
  by_cases h : I.isEmpty <;> simp [emptyChannelChecker, h]

@[simp] theorem freq_emptyChannelChecker (I : Intermediate) :
    I.emptyChannelChecker.freq = I.freq := by
  by_cases h : I.isEmpty <;> simp [emptyChannelChecker, h]

theorem not_mem_members_of_isEmpty {I : Intermediate} (h : I.isEmpty = true)
    (dir : Direction) (id : NodeId) : id ∉ I.members dir := by
  simp only [isEmpty, Bool.and_eq_true, List.isEmpty_iff] at h
  obtain ⟨⟨hdest, hsrc⟩, -⟩ := h
  rw [AList.mem_keys]
  cases dir
  · simp [members, hsrc]
  · simp [members, hdest]

/-- Erasing an absent key changes no lookup. -/
private theorem lookup_erase_eq {m : FiniteMap NodeId Endpoint}
    (k id : NodeId) :
    (m.erase k).lookup id = if id = k then none else m.lookup id := by
  by_cases h : id = k
  · subst h
    simp
  · simp [h]

theorem lookup_detach (I : Intermediate) (dir dir' : Direction)
    (e : Endpoint) (id : NodeId) :
    ((I.detach dir e).2.members dir').lookup id =
      if dir' = dir ∧ id = e.id then none else (I.members dir').lookup id := by
  by_cases hmem : e.id ∈ I.members dir
  · cases dir <;> cases dir' <;> simp only [members] at hmem <;>
      simp [detach, detachSource, detachDestination, hmem, members,
        removeChannel, lookup_erase_eq]
  · have hnone : dir' = dir ∧ id = e.id →
        (I.members dir').lookup id = none := by
      rintro ⟨rfl, rfl⟩
      exact AList.lookup_eq_none.mpr hmem
    have hsame : (I.detach dir e).2 = I := by
      cases dir <;> simp only [members] at hmem <;>
        simp [detach, detachSource, detachDestination, hmem]
    rw [hsame]
    split_ifs with hcase
    · exact hnone hcase
    · rfl

theorem freq_detach (I : Intermediate) (dir : Direction) (e : Endpoint) :
    (I.detach dir e).2.freq = I.freq := by
  by_cases hmem : e.id ∈ I.members dir <;> cases dir <;>
    simp only [members] at hmem <;>
    simp [detach, detachSource, detachDestination, hmem, removeChannel]

/-- An attached endpoint is a member; one whose identifier was already there
changes nothing. -/
theorem lookup_attach {I I' : Intermediate} {dir : Direction} {e : Endpoint}
    (h : I.attach dir e = some I') (dir' : Direction) (id : NodeId) :
    (I'.members dir').lookup id =
      if dir' = dir ∧ id = e.id ∧ e.id ∉ I.members dir then some e
      else (I.members dir').lookup id := by
  have hinsert : ∀ m : FiniteMap NodeId Endpoint,
      (m.insert e.id e).lookup id =
        if id = e.id then some e else m.lookup id := by
    intro m
    by_cases hid : id = e.id
    · subst hid
      simp
    · simp [hid]
  cases dir with
  | uplink =>
      simp only [attach, attachSource] at h
      by_cases hmem : e.id ∈ I.sourceMap
      · simp only [hmem, if_true] at h
        cases h
        simp [members, hmem]
      · simp only [hmem, if_false] at h
        cases printStatus_some h
        cases dir' <;> simp [members, updateChannelMap, hmem, hinsert]
  | downlink =>
      simp only [attach, attachDestination, e.configId_eq] at h
      by_cases hmem : e.id ∈ I.destinationMap
      · simp only [hmem, if_true] at h
        cases h
        simp [members, hmem]
      · simp only [hmem, if_false] at h
        cases printStatus_some h
        cases dir' <;> simp [members, updateChannelMap, hmem, hinsert]

theorem freq_attach {I I' : Intermediate} {dir : Direction} {e : Endpoint}
    (h : I.attach dir e = some I') : I'.freq = I.freq := by
  cases dir with
  | uplink =>
      simp only [attach, attachSource] at h
      split_ifs at h
      · cases h
        rfl
      · cases printStatus_some h
        rfl
  | downlink =>
      simp only [attach, attachDestination] at h
      split_ifs at h
      · cases h
        rfl
      · cases printStatus_some h
        rfl

end Intermediate

namespace Controller

/-! ## The attachment relation -/

/-- The endpoint is attached under `id` to the intermediate of `freq`. -/
def Attached (C : Controller) (dir : Direction) (freq : ℚ) (id : NodeId)
    (e : Endpoint) : Prop :=
  ∃ I, C.intermediateMap.lookup freq = some I ∧
    (I.members dir).lookup id = some e

/-- Intermediates are stored under their own frequency. -/
def KeysMatch (C : Controller) : Prop :=
  FiniteMap.All (fun freq I => I.freq = freq) C.intermediateMap

theorem KeysMatch.congr {C C' : Controller} (hC : C.KeysMatch)
    (h : C'.intermediateMap = C.intermediateMap) : C'.KeysMatch := by
  unfold KeysMatch
  rw [h]
  exact hC

/-- The propagation defaults do not touch the members of an intermediate. -/
theorem newIntermediate_members (C : Controller) (freq : ℚ) :
    (C.newIntermediate freq).freq = freq ∧
      (C.newIntermediate freq).sourceMap = ∅ ∧
      (C.newIntermediate freq).destinationMap = ∅ ∧
      (C.newIntermediate freq).sandboxNodes = [] := by
  unfold newIntermediate
  split
  · exact ⟨rfl, rfl, rfl, rfl⟩
  · dsimp only
    split_ifs
    · exact ⟨rfl, rfl, rfl, rfl⟩
    · simp only [Intermediate.set3gppScenario]
      split_ifs <;> exact ⟨rfl, rfl, rfl, rfl⟩
    · exact ⟨rfl, rfl, rfl, rfl⟩

theorem members_newIntermediate (C : Controller) (freq : ℚ)
    (dir : Direction) : (C.newIntermediate freq).members dir = ∅ := by
  obtain ⟨-, hsources, hdestinations, -⟩ := C.newIntermediate_members freq
  cases dir
  · exact hsources
  · exact hdestinations

theorem attached_createChannel (C : Controller) (freq : ℚ) {dir : Direction}
    {k : ℚ} {id : NodeId} {e : Endpoint} :
    (C.createChannel freq).Attached dir k id e ↔ C.Attached dir k id e := by
  by_cases hmem : freq ∈ C.intermediateMap
  · simp [createChannel, hmem]
  · simp only [createChannel, hmem, if_false, Attached]
    by_cases hk : k = freq
    · subst hk
      rw [AList.lookup_insert, AList.lookup_eq_none.mpr hmem]
      simp [members_newIntermediate]
    · rw [AList.lookup_insert_ne hk]

theorem KeysMatch.createChannel {C : Controller} (hC : C.KeysMatch)
    (freq : ℚ) : (C.createChannel freq).KeysMatch := by
  by_cases hmem : freq ∈ C.intermediateMap
  · simpa [Controller.createChannel, hmem] using hC
  · simp only [Controller.createChannel, hmem, if_false]
    exact FiniteMap.All.insert hC (C.newIntermediate_members freq).1

/-- The intermediate of the frequency goes if it is empty. -/
theorem lookup_isChannelEmpty {C : Controller} (hC : C.KeysMatch)
    (freq k : ℚ) {I : Intermediate} :
    (C.isChannelEmpty freq).intermediateMap.lookup k = some I ↔
      C.intermediateMap.lookup k = some I ∧
        (k = freq → I.isEmpty = false) := by
  unfold isChannelEmpty
  cases hJ : C.intermediateMap.lookup freq with
  | none =>
      refine (and_iff_left_of_imp ?_).symm
      rintro hI rfl
      cases hJ.symm.trans hI
  | some J =>
      by_cases hk : k = freq
      · subst hk
        by_cases hempty : J.isEmpty = true
        · simp only [hempty, if_true, hC k J hJ, AList.lookup_erase, hJ,
            Option.some.injEq]
          constructor
          · intro hI
            cases hI
          · rintro ⟨rfl, hsome⟩
            cases hempty.symm.trans (hsome trivial)
        · simp only [hempty, Bool.false_eq_true, if_false, hJ,
            Option.some.injEq, forall_const]
          refine (and_iff_left_of_imp ?_).symm
          rintro rfl
          exact Bool.eq_false_iff.mpr hempty
      · dsimp only
        split_ifs
        · rw [hC freq J hJ, AList.lookup_erase_ne hk]
          simp [hk]
        · simp [hk]

/-- Dropping an intermediate that nobody uses drops no attachment. -/
theorem attached_isChannelEmpty {C : Controller} (hC : C.KeysMatch)
    (freq : ℚ) {dir : Direction} {k : ℚ} {id : NodeId} {e : Endpoint} :
    (C.isChannelEmpty freq).Attached dir k id e ↔ C.Attached dir k id e := by
  simp only [Attached, lookup_isChannelEmpty hC]
  refine exists_congr fun I => and_congr_left fun hmember => ?_
  refine and_iff_left_of_imp fun _ _ => ?_
  rw [← Bool.not_eq_true]
  intro hempty
  exact I.not_mem_members_of_isEmpty hempty dir id
    (FiniteMap.mem_iff_lookup.mpr ⟨e, hmember⟩)

/-- Dropping an intermediate keeps a property of the others. -/
theorem all_isChannelEmpty {Q : ℚ → Intermediate → Prop} {C : Controller}
    (hC : FiniteMap.All Q C.intermediateMap) (freq : ℚ) :
    FiniteMap.All Q (C.isChannelEmpty freq).intermediateMap := by
  unfold isChannelEmpty
  split
  · exact hC
  · split_ifs
    · exact hC.erase _
    · exact hC

theorem KeysMatch.isChannelEmpty {C : Controller} (hC : C.KeysMatch)
    (freq : ℚ) : (C.isChannelEmpty freq).KeysMatch :=
  all_isChannelEmpty hC freq

theorem lookup_updateIntermediate (C : Controller) (freq k : ℚ)
    (f : Intermediate → Intermediate) :
    (C.updateIntermediate freq f).intermediateMap.lookup k =
      (C.intermediateMap.lookup k).map (if k = freq then f else id) := by
  unfold updateIntermediate
  by_cases hk : k = freq
  · subst hk
    cases hI : C.intermediateMap.lookup k with
    | none => simp [hI]
    | some I => simp
  · cases C.intermediateMap.lookup freq with
    | none => simp [hk]
    | some I => simp [hk, AList.lookup_insert_ne hk]

theorem KeysMatch.updateIntermediate {C : Controller} (hC : C.KeysMatch)
    (freq : ℚ) {f : Intermediate → Intermediate}
    (hf : ∀ I, (f I).freq = I.freq) :
    (C.updateIntermediate freq f).KeysMatch := by
  intro k J hJ
  rw [lookup_updateIntermediate, Option.map_eq_some_iff] at hJ
  obtain ⟨I, hI, rfl⟩ := hJ
  split_ifs
  · exact (hf I).trans (hC k I hI)
  · exact hC k I hI

/-- A node that leaves an intermediate loses exactly that attachment. -/
theorem attached_leaveChannel {C : Controller} (hC : C.KeysMatch)
    (dir : Direction) (prevFreq : ℚ) (st : EndpointState) (node : Node)
    {dir' : Direction} {k : ℚ} {id : NodeId} {e : Endpoint} :
    (leaveChannel dir C prevFreq (some st) node).Attached dir' k id e ↔
      C.Attached dir' k id e ∧
        ¬(dir' = dir ∧ k = prevFreq ∧ id = st.endpoint.id) := by
  have hkeys := hC.updateIntermediate prevFreq fun I =>
    I.freq_detach dir st.endpoint
  have hleave : leaveChannel dir C prevFreq (some st) node =
      (C.updateIntermediate prevFreq fun I =>
        (I.detach dir st.endpoint).2).isChannelEmpty prevFreq := rfl
  rw [hleave, attached_isChannelEmpty hkeys]
  simp only [Attached, lookup_updateIntermediate]
  by_cases hk : k = prevFreq
  · subst hk
    cases C.intermediateMap.lookup k with
    | none => simp
    | some I =>
        simp only [if_true, Option.map_some, Option.some.injEq,
          exists_eq_left', Intermediate.lookup_detach]
        by_cases hcase : dir' = dir ∧ id = st.endpoint.id
        · simp [hcase]
        · simp only [hcase, if_false]
          constructor
          · exact fun h => ⟨h, fun hleft => hcase ⟨hleft.1, hleft.2.2⟩⟩
          · exact fun h => h.1
  · simp [hk]

theorem KeysMatch.leaveChannel {C : Controller} (hC : C.KeysMatch)
    (dir : Direction) (prevFreq : ℚ) (st : EndpointState) (node : Node) :
    (leaveChannel dir C prevFreq (some st) node).KeysMatch := by
  unfold Controller.leaveChannel
  apply KeysMatch.isChannelEmpty
  exact hC.updateIntermediate prevFreq fun I => I.freq_detach dir st.endpoint

/-- `C'` is `C` up to the intermediates. -/
def OnlyChannels (C C' : Controller) : Prop :=
  C' = { C with intermediateMap := C'.intermediateMap }

namespace OnlyChannels

variable {C C' C'' : Controller}

theorem trans (h : OnlyChannels C C') (h' : OnlyChannels C' C'') :
    OnlyChannels C C'' := by
  unfold OnlyChannels at h h' ⊢
  rw [h] at h'
  exact h'

theorem nodeMap (h : OnlyChannels C C') : C'.nodeMap = C.nodeMap := by
  unfold OnlyChannels at h
  rw [h]

theorem sandbox (h : OnlyChannels C C') : C'.sandbox = C.sandbox := by
  unfold OnlyChannels at h
  rw [h]

theorem vehicleHandlers (h : OnlyChannels C C') :
    C'.vehicleHandlers = C.vehicleHandlers := by
  unfold OnlyChannels at h
  rw [h]

theorem portPools (h : OnlyChannels C C') :
    C'.txPortPool = C.txPortPool ∧ C'.rxPortPool = C.rxPortPool := by
  unfold OnlyChannels at h
  rw [h]
  exact ⟨rfl, rfl⟩

end OnlyChannels

theorem onlyChannels_createChannel (C : Controller) (freq : ℚ) :
    OnlyChannels C (C.createChannel freq) := by
  unfold createChannel
  split_ifs <;> rfl

theorem onlyChannels_updateIntermediate (C : Controller) (freq : ℚ)
    (f : Intermediate → Intermediate) :
    OnlyChannels C (C.updateIntermediate freq f) := by
  unfold updateIntermediate
  split <;> rfl

theorem onlyChannels_isChannelEmpty (C : Controller) (freq : ℚ) :
    OnlyChannels C (C.isChannelEmpty freq) := by
  unfold isChannelEmpty
  split
  · rfl
  · split_ifs <;> rfl

theorem onlyChannels_leaveChannel (dir : Direction) (C : Controller)
    (prevFreq : ℚ) (e : Option EndpointState) (node : Node) :
    OnlyChannels C (leaveChannel dir C prevFreq e node) :=
  (onlyChannels_updateIntermediate ..).trans (onlyChannels_isChannelEmpty ..)

/-- How a node enters an intermediate: as a sandbox node, or with its
endpoint. -/
inductive Joined (dir : Direction) (C : Controller) (freq : ℚ) (node : Node)
    (newConfig : NodeConfig) :
    Option EndpointState → Controller → Node → Prop
  | sandbox {first : Usrp.Channel} {rest : List Usrp.Channel}
      {I : Intermediate} (hchannels : node.config.channels = first :: rest)
      (hI : C.intermediateMap.lookup freq = some I) :
      Joined dir C freq node newConfig none
        { C with
          intermediateMap := C.intermediateMap.insert freq
            (I.addSandboxNode node.config.id newConfig.numChannels.toNat) }
        { node with
          config := { node.config with
            channels := dir.setFreq freq first :: rest } }
  | endpoint {first : Usrp.Channel} {rest : List Usrp.Channel}
      {st : EndpointState} {I I' : Intermediate}
      (hchannels : node.config.channels = first :: rest)
      (hI : C.intermediateMap.lookup freq = some I)
      (hattach : I.attach dir st.endpoint = some I') :
      Joined dir C freq node newConfig (some st)
        { C with intermediateMap := C.intermediateMap.insert freq I' }
        (Node.setEndpoint { node with
            config := { node.config with
              channels := dir.setFreq freq first :: rest } } dir
          ((st.updateFreq freq).setSampleRate dir
            (toUInt32 (dir.rateOf node.config.sampleRate))))

theorem joined_of_joinChannel {dir : Direction} {C C' : Controller}
    {freq : ℚ} {e : Option EndpointState} {node node' : Node}
    {newConfig : NodeConfig}
    (h : joinChannel dir C freq e node newConfig = some (C', node')) :
    Joined dir C freq node newConfig e C' node' := by
  simp only [joinChannel, Option.bind_eq_bind, Option.bind_eq_some_iff] at h
  obtain ⟨config, hconfig, I, hI, hrest⟩ := h
  unfold updateFreq at hconfig
  split at hconfig <;> cases hconfig
  next first rest hchannels =>
    cases e with
    | none =>
        cases hrest
        exact .sandbox hchannels hI
    | some st =>
        simp only [Option.bind_eq_some_iff] at hrest
        obtain ⟨I', hattach, hresult⟩ := hrest
        cases hresult
        exact .endpoint hchannels hI hattach

theorem onlyChannels_joinChannel {dir : Direction} {C C' : Controller}
    {freq : ℚ} {e : Option EndpointState} {node node' : Node}
    {newConfig : NodeConfig}
    (h : joinChannel dir C freq e node newConfig = some (C', node')) :
    OnlyChannels C C' := by
  cases joined_of_joinChannel h with
  | sandbox => rfl
  | endpoint => rfl

/-! ## The endpoints of a node -/

/-- `node'` is `node` up to what belongs to one direction. -/
structure SameExcept (dir : Direction) (node node' : Node) : Prop where
  id : node'.config.id = node.config.id
  endpoint : ∀ dir' ≠ dir, node'.endpoint dir' = node.endpoint dir'
  freq : ∀ dir' ≠ dir, node'.freq? dir' = node.freq? dir'

theorem SameExcept.trans {dir : Direction} {node node' node'' : Node}
    (h : SameExcept dir node node') (h' : SameExcept dir node' node'') :
    SameExcept dir node node'' where
  id := h'.id.trans h.id
  endpoint dir' hdir := (h'.endpoint dir' hdir).trans (h.endpoint dir' hdir)
  freq dir' hdir := (h'.freq dir' hdir).trans (h.freq dir' hdir)

theorem sameExcept_setEndpoint {dir : Direction} {node node' : Node}
    (st : EndpointState) (hid : node'.config.id = node.config.id)
    (hreceiver : node'.receiver = node.receiver)
    (htransmitter : node'.transmitter = node.transmitter)
    (hfreq : ∀ dir' ≠ dir, node'.freq? dir' = node.freq? dir') :
    SameExcept dir node (node'.setEndpoint dir st) where
  id := by rw [Node.config_setEndpoint, hid]
  endpoint dir' hdir := by
    rw [Node.endpoint_setEndpoint_ne _ _ hdir]
    cases dir'
    · exact hreceiver
    · exact htransmitter
  freq dir' hdir := by
    rw [Node.freq?, Node.config_setEndpoint]
    exact hfreq dir' hdir

/-- The endpoint that a node has or gets. -/
structure Equipped (dir : Direction) (node node' : Node)
    (st : EndpointState) : Prop where
  same : SameExcept dir node node'
  stored : node'.endpoint dir = some st
  kept : ∀ st₀, node.endpoint dir = some st₀ → st.endpoint = st₀.endpoint
  created : node.endpoint dir = none → st.endpoint.id = node.config.id

theorem endpoint_of_create {dir : Direction} {handle : ℕ}
    {config : NodeConfig} {st : EndpointState}
    (h : EndpointState.create dir handle config = some st) :
    st.endpoint.id = config.id ∧ st.nodeConfig = config ∧
      st.sampleRate = toUInt32 (dir.rateOf config.sampleRate) := by
  unfold EndpointState.create at h
  split at h
  · cases h
  · cases h
    exact ⟨rfl, rfl, rfl⟩

/-- What getting hold of an endpoint can do.  Only a new one takes a port, and
it is made from the configuration with that port. -/
structure Ensured (dir : Direction) (C C' : Controller) (node node' : Node)
    (st : EndpointState) : Prop where
  state : C' = { C with
    txPortPool := C'.txPortPool
    rxPortPool := C'.rxPortPool
    nextHandle := C'.nextHandle }
  record : node' = Node.setEndpoint
    { node with
      config := { node.config with
        portTxNum := node'.config.portTxNum
        portRxNum := node'.config.portRxNum } } dir st
  endpoint : ∃ st₀, st = st₀.setFormats node.config.inputFormat
    node.config.outputFormat ∧
    (node.endpoint dir = some st₀ ∨ node.endpoint dir = none ∧
      ∃ handle, EndpointState.create dir handle node'.config = some st₀)

theorem ensureEndpoint_ensured {dir : Direction} {C C' : Controller}
    {node node' : Node} {st : EndpointState}
    (h : ensureEndpoint dir C node = some (st, C', node')) :
    Ensured dir C C' node node' st := by
  unfold ensureEndpoint at h
  obtain ⟨⟨st₁, C₁, node₁⟩, hfound, hresult⟩ := Option.map_eq_some_iff.mp h
  cases hresult
  cases hstored : node.endpoint dir with
  | some st₀ =>
      simp only [hstored] at hfound
      cases hfound
      refine ⟨rfl, ?_, _, rfl, Or.inl hstored⟩
      rw [Node.config_setEndpoint]
  | none =>
      simp only [hstored, createEndpoint] at hfound
      obtain ⟨st₂, hcreate, hresult⟩ := Option.map_eq_some_iff.mp hfound
      cases hresult
      cases dir <;>
        exact ⟨rfl, rfl, _, rfl, Or.inr ⟨hstored, _, hcreate⟩⟩

namespace Ensured

variable {dir : Direction} {C C' : Controller} {node node' : Node}
  {st : EndpointState}

/-- Only ports and handles are taken. -/
theorem state_eq (h : Ensured dir C C' node node' st) :
    C'.intermediateMap = C.intermediateMap ∧ C'.nodeMap = C.nodeMap ∧
      C'.sandbox = C.sandbox ∧ C'.vehicleHandlers = C.vehicleHandlers := by
  rw [h.state]
  exact ⟨rfl, rfl, rfl, rfl⟩

theorem config_eq (h : Ensured dir C C' node node' st) :
    node'.config = { node.config with
      portTxNum := node'.config.portTxNum
      portRxNum := node'.config.portRxNum } := by
  have hconfig := congrArg Node.config h.record
  rw [Node.config_setEndpoint] at hconfig
  exact hconfig

theorem stored (h : Ensured dir C C' node node' st) :
    node'.endpoint dir = some st := by
  rw [h.record, Node.endpoint_setEndpoint_same]

theorem freq?_eq (h : Ensured dir C C' node node' st) (dir' : Direction) :
    node'.freq? dir' = node.freq? dir' := by
  unfold Node.freq?
  rw [h.config_eq]

theorem sameExcept (h : Ensured dir C C' node node' st) :
    SameExcept dir node node' := by
  have hfreq := h.freq?_eq
  rw [h.record] at hfreq ⊢
  refine sameExcept_setEndpoint st rfl rfl rfl fun dir' _ => ?_
  rw [← hfreq dir', Node.freq?, Node.freq?, Node.config_setEndpoint]

theorem equipped (h : Ensured dir C C' node node' st) :
    Equipped dir node node' st := by
  obtain ⟨st₀, hst, hsource⟩ := h.endpoint
  refine ⟨h.sameExcept, h.stored, ?_, ?_⟩
  · intro st₁ hst₁
    rcases hsource with hkept | ⟨hnone, -⟩
    · cases hkept.symm.trans hst₁
      rw [hst]
      rfl
    · cases hnone.symm.trans hst₁
  · intro hnone
    rcases hsource with hkept | ⟨-, handle, hcreate⟩
    · cases hkept.symm.trans hnone
    · rw [hst, ← h.sameExcept.id, ← (endpoint_of_create hcreate).1]
      rfl

end Ensured

theorem Equipped.id_eq {dir : Direction} {node node' : Node}
    {st : EndpointState} (h : Equipped dir node node' st)
    (hids : ∀ st₀, node.endpoint dir = some st₀ →
      st₀.endpoint.id = node.config.id) :
    st.endpoint.id = node.config.id := by
  cases hstored : node.endpoint dir with
  | none => exact h.created hstored
  | some st₀ =>
      rw [h.kept st₀ hstored]
      exact hids st₀ hstored

/-! ## Entering an intermediate -/

theorem freqOf_setFreq_same (dir : Direction) (freq : ℚ)
    (ch : Usrp.Channel) : dir.freqOf (dir.setFreq freq ch) = freq := by
  cases dir <;> rfl

theorem freqOf_setFreq_ne {dir dir' : Direction} (h : dir' ≠ dir) (freq : ℚ)
    (ch : Usrp.Channel) : dir'.freqOf (dir.setFreq freq ch) = dir'.freqOf ch := by
  cases dir <;> cases dir' <;> first | rfl | exact absurd rfl h

/-- A node that enters an intermediate which does not know it is attached
there, and stored with its frequency. -/
theorem joinChannel_some {dir : Direction} {C C' : Controller} {freq : ℚ}
    {st : EndpointState} {node node' : Node} {newConfig : NodeConfig}
    (hC : C.KeysMatch)
    (habsent : ∀ e, ¬C.Attached dir freq st.endpoint.id e)
    (h : joinChannel dir C freq (some st) node newConfig = some (C', node')) :
    C'.KeysMatch ∧ SameExcept dir node node' ∧ node'.freq? dir = some freq ∧
      (∃ st', node'.endpoint dir = some st' ∧ st'.endpoint = st.endpoint) ∧
      ∀ dir' k id e, C'.Attached dir' k id e ↔ C.Attached dir' k id e ∨
        (dir' = dir ∧ k = freq ∧ id = st.endpoint.id ∧ e = st.endpoint) := by
  cases joined_of_joinChannel h with
  | @endpoint _ _ _ I I' hchannels hI hattach =>
    refine ⟨?_, ?_, ?_, ?_, ?_⟩
    · exact FiniteMap.All.insert hC
        ((Intermediate.freq_attach hattach).trans (hC freq I hI))
    · refine sameExcept_setEndpoint _ rfl rfl rfl ?_
      intro dir' hdir
      simp [Node.freq?, hchannels, freqOf_setFreq_ne hdir]
    · simp [Node.freq?, freqOf_setFreq_same]
    · exact ⟨_, Node.endpoint_setEndpoint_same .., rfl⟩
    · intro dir' k id e
      have hnew : st.endpoint.id ∉ I.members dir := by
        intro hmem
        obtain ⟨e', he'⟩ := FiniteMap.mem_iff_lookup.mp hmem
        exact habsent e' ⟨I, hI, he'⟩
      have hlookup := Intermediate.lookup_attach hattach dir' id
      simp only [Attached]
      by_cases hk : k = freq
      · subst hk
        simp only [AList.lookup_insert, Option.some.injEq, exists_eq_left', hI,
          hlookup, hnew, not_false_eq_true, and_true, true_and]
        by_cases hcase : dir' = dir ∧ id = st.endpoint.id
        · obtain ⟨rfl, rfl⟩ := hcase
          simp only [and_self, if_true, true_and, Option.some.injEq]
          constructor
          · rintro rfl
            exact Or.inr rfl
          · rintro (hold | rfl)
            · exact absurd ⟨I, hI, hold⟩ (habsent e)
            · rfl
        · simp only [hcase, if_false]
          constructor
          · exact Or.inl
          · rintro (hold | ⟨hdir, hid, -⟩)
            · exact hold
            · exact absurd ⟨hdir, hid⟩ hcase
      · rw [AList.lookup_insert_ne hk]
        simp [hk]

/-! ## The three ends of an assignment -/

theorem freqChanged_self (freq : ℚ) : freqChanged freq freq = false := by
  simp [freqChanged]

/-- The stored frequency of a direction, as the code reads it. -/
def prevFreq (dir : Direction) (node : Node) : ℚ := (node.freq? dir).getD 0

/-- The frequency changes by 10 kHz at least. -/
def moves (dir : Direction) (node : Node) (ch : Usrp.Channel) : Bool :=
  freqChanged (prevFreq dir node) (dir.freqOf ch)

/-- The request is the stored configuration, and its channel is missing. -/
def isRepeat (dir : Direction) (C : Controller) (node : Node)
    (newConfig : NodeConfig) (ch : Usrp.Channel) : Bool :=
  node.compare newConfig && !decide (dir.freqOf ch ∈ C.intermediateMap)

/-- The endpoint that the rest of the assignment works on; none in sandbox
mode. -/
def equip (dir : Direction) (C : Controller) (node : Node) :
    Option (Option EndpointState × Controller × Node) :=
  if C.sandbox then some (none, C, node)
  else (ensureEndpoint dir C node).map fun (e, C, node) => (some e, C, node)

theorem equip_cases {dir : Direction} {C C₁ : Controller} {node node₁ : Node}
    {e : Option EndpointState} (h : equip dir C node = some (e, C₁, node₁)) :
    (C.sandbox = true ∧ e = none ∧ C₁ = C ∧ node₁ = node) ∨
      (C.sandbox = false ∧ ∃ st, e = some st ∧
        Ensured dir C C₁ node node₁ st) := by
  unfold equip at h
  split_ifs at h with hsandbox
  · cases h
    exact Or.inl ⟨hsandbox, rfl, rfl, rfl⟩
  · obtain ⟨⟨st, C₂, node₂⟩, hensure, hresult⟩ := Option.map_eq_some_iff.mp h
    cases hresult
    exact Or.inr ⟨Bool.eq_false_iff.mpr hsandbox, st, rfl,
      ensureEndpoint_ensured hensure⟩

/-- What the endpoint and the ports do not touch. -/
theorem equip_some {dir : Direction} {C C₁ : Controller} {node node₁ : Node}
    {e : Option EndpointState} (h : equip dir C node = some (e, C₁, node₁)) :
    C₁.intermediateMap = C.intermediateMap ∧ C₁.nodeMap = C.nodeMap ∧
      C₁.sandbox = C.sandbox ∧ C₁.vehicleHandlers = C.vehicleHandlers := by
  rcases equip_cases h with ⟨-, -, rfl, -⟩ | ⟨-, st, -, hensured⟩
  · exact ⟨rfl, rfl, rfl, rfl⟩
  · exact hensured.state_eq

/-- Outside sandbox mode the node has the endpoint afterwards. -/
theorem ensured_of_equip {dir : Direction} {C C₁ : Controller}
    {node node₁ : Node} {e : Option EndpointState} (hoff : C.sandbox = false)
    (h : equip dir C node = some (e, C₁, node₁)) :
    ∃ st, e = some st ∧ Ensured dir C C₁ node node₁ st := by
  rcases equip_cases h with ⟨hsandbox, -, -, -⟩ | ⟨-, hst⟩
  · cases hsandbox.symm.trans hoff
  · exact hst

/-- The channel of the new frequency is created unless it exists, so it does
not matter who asks. -/
theorem createChannel_of_equip {dir : Direction} {C C₁ : Controller}
    {node node₁ : Node} {e : Option EndpointState}
    (h : equip dir C node = some (e, C₁, node₁)) (freq : ℚ) :
    (if freq ∈ C.intermediateMap then C₁ else C₁.createChannel freq) =
      C₁.createChannel freq := by
  split_ifs with hfound
  · have hfound₁ : freq ∈ C₁.intermediateMap := by
      rw [(equip_some h).1]
      exact hfound
    exact (if_pos hfound₁).symm
  · rfl

/-- The three ends of an assignment. -/
theorem assignChannel_eq {dir : Direction} {C : Controller} {node : Node}
    {newConfig : NodeConfig} {ch : Usrp.Channel} {rest : List Usrp.Channel}
    (hchannels : newConfig.channels = ch :: rest) :
    assignChannel dir C node newConfig =
      (equip dir C node).bind fun (e, C₁, node₁) =>
        let C₂ := C₁.createChannel (dir.freqOf ch)
        if isRepeat dir C node newConfig ch then some (false, C₂, node₁)
        else if moves dir node ch then
          (joinChannel dir
            (if prevFreq dir node ∈ C.intermediateMap then
              leaveChannel dir C₂ (prevFreq dir node) e node₁ else C₂)
            (dir.freqOf ch) e node₁ newConfig).map fun (C₃, node₃) =>
              (true, C₃, node₃)
        else some (false, C₂, keepChannel dir e node₁ newConfig) := by
  have hequip : ∀ f : Option EndpointState × Controller × Node →
      Option (Bool × Controller × Node),
      (if C.sandbox then (some (none, C, node)).bind f
        else ((ensureEndpoint dir C node).map fun x =>
          (some x.1, x.2.1, x.2.2)).bind f) = (equip dir C node).bind f := by
    intro f
    unfold equip
    split_ifs <;> rfl
  unfold assignChannel
  simp only [hchannels, Option.bind_eq_bind, decide_eq_true_eq]
  rw [hequip]
  refine Option.bind_congr ?_
  rintro ⟨e, C₁, node₁⟩ hequipped
  have hcreate := createChannel_of_equip hequipped (dir.freqOf ch)
  simp only [hcreate, isRepeat, moves, prevFreq]
  by_cases hmoves : freqChanged ((node.freq? dir).getD 0) (dir.freqOf ch) = true
  · simp only [hmoves, Bool.true_and, decide_eq_true_eq, if_true]
    rw [Option.map_eq_bind]
    by_cases hprev : (node.freq? dir).getD 0 ∈ C.intermediateMap
    · simp only [hprev, if_true]
      rfl
    · simp only [hprev, if_false]
      rfl
  · simp only [hmoves, Bool.false_and, if_false, Bool.false_eq_true]
    rfl

/-- A repeated request moves nothing. -/
theorem moves_of_isRepeat {dir : Direction} {C : Controller} {node : Node}
    {newConfig : NodeConfig} {ch : Usrp.Channel} {rest : List Usrp.Channel}
    (hchannels : newConfig.channels = ch :: rest)
    (h : isRepeat dir C node newConfig ch = true) :
    moves dir node ch = false := by
  have hfreq := Node.freq?_of_compare (Bool.and_eq_true_iff.mp h).1 dir
  rw [hchannels] at hfreq
  unfold moves prevFreq
  rw [hfreq]
  exact freqChanged_self _

theorem moves_ne {dir : Direction} {node : Node} {ch : Usrp.Channel}
    (h : moves dir node ch = true) : prevFreq dir node ≠ dir.freqOf ch := by
  intro hsame
  rw [moves, hsame, freqChanged_self] at h
  cases h

theorem moves_congr {dir : Direction} {node node' : Node} (ch : Usrp.Channel)
    (h : node'.freq? dir = node.freq? dir) :
    moves dir node' ch = moves dir node ch := by
  unfold moves prevFreq
  rw [h]

/-- How an assignment ends once the endpoint is there. -/
inductive Ends (dir : Direction) (C C₁ : Controller) (node node₁ : Node)
    (e : Option EndpointState) (newConfig : NodeConfig) (ch : Usrp.Channel) :
    Bool → Controller → Node → Prop
  | repeated (hrepeat : isRepeat dir C node newConfig ch = true)
      (hstill : moves dir node ch = false) :
      Ends dir C C₁ node node₁ e newConfig ch false
        (C₁.createChannel (dir.freqOf ch)) node₁
  | moved {C' : Controller} {node' : Node}
      (hrepeat : isRepeat dir C node newConfig ch = false)
      (hmoves : moves dir node ch = true)
      (hjoin : joinChannel dir
        (if prevFreq dir node ∈ C.intermediateMap then
          leaveChannel dir (C₁.createChannel (dir.freqOf ch))
            (prevFreq dir node) e node₁
          else C₁.createChannel (dir.freqOf ch))
        (dir.freqOf ch) e node₁ newConfig = some (C', node')) :
      Ends dir C C₁ node node₁ e newConfig ch true C' node'
  | kept (hrepeat : isRepeat dir C node newConfig ch = false)
      (hstill : moves dir node ch = false) :
      Ends dir C C₁ node node₁ e newConfig ch false
        (C₁.createChannel (dir.freqOf ch)) (keepChannel dir e node₁ newConfig)

theorem assignChannel_ends {dir : Direction} {C C' : Controller}
    {node node' : Node} {newConfig : NodeConfig} {ch : Usrp.Channel}
    {rest : List Usrp.Channel} {created : Bool}
    (hchannels : newConfig.channels = ch :: rest)
    (h : assignChannel dir C node newConfig = some (created, C', node')) :
    ∃ e C₁ node₁, equip dir C node = some (e, C₁, node₁) ∧
      Ends dir C C₁ node node₁ e newConfig ch created C' node' := by
  rw [assignChannel_eq hchannels] at h
  obtain ⟨⟨e, C₁, node₁⟩, hequip, hassign⟩ := Option.bind_eq_some_iff.mp h
  refine ⟨e, C₁, node₁, hequip, ?_⟩
  dsimp only at hassign
  by_cases hrepeat : isRepeat dir C node newConfig ch = true
  · rw [if_pos hrepeat] at hassign
    cases hassign
    exact .repeated hrepeat (moves_of_isRepeat hchannels hrepeat)
  · rw [if_neg hrepeat] at hassign
    rw [Bool.not_eq_true] at hrepeat
    by_cases hmoves : moves dir node ch = true
    · rw [if_pos hmoves] at hassign
      obtain ⟨⟨C₃, node₃⟩, hjoin, hresult⟩ :=
        Option.map_eq_some_iff.mp hassign
      cases hresult
      exact .moved hrepeat hmoves hjoin
    · rw [if_neg hmoves] at hassign
      cases hassign
      exact .kept hrepeat (Bool.not_eq_true _ ▸ hmoves)

theorem Ends.onlyChannels {dir : Direction} {C C₁ C' : Controller}
    {node node₁ node' : Node} {e : Option EndpointState}
    {newConfig : NodeConfig} {ch : Usrp.Channel} {created : Bool}
    (h : Ends dir C C₁ node node₁ e newConfig ch created C' node') :
    OnlyChannels C₁ C' := by
  have hcreate := C₁.onlyChannels_createChannel (dir.freqOf ch)
  cases h with
  | repeated => exact hcreate
  | moved _ _ hjoin =>
      refine OnlyChannels.trans ?_ (onlyChannels_joinChannel hjoin)
      split_ifs
      · exact hcreate.trans (onlyChannels_leaveChannel ..)
      · exact hcreate
  | kept => exact hcreate

/-! ## Assigning a channel -/

/-- What `AssignULChannel` and `AssignDLChannel` do for a request with
frequency `freq`: the node moves there when the frequency has changed by
10 kHz, and stays where it is otherwise. -/
structure Assigned (dir : Direction) (C C' : Controller) (node node' : Node)
    (freq : ℚ) : Prop where
  nodeMap : C'.nodeMap = C.nodeMap
  sandbox : C'.sandbox = C.sandbox
  keys : C'.KeysMatch
  same : SameExcept dir node node'
  endpoint : ∃ st, node'.endpoint dir = some st ∧
    st.endpoint.id = node.config.id ∧
    ∀ st₀, node.endpoint dir = some st₀ → st.endpoint = st₀.endpoint
  others : ∀ dir' k id e, ¬(dir' = dir ∧ id = node.config.id) →
    (C'.Attached dir' k id e ↔ C.Attached dir' k id e)
  moved : freqChanged ((node.freq? dir).getD 0) freq = true →
    node'.freq? dir = some freq ∧
      ∀ k e, C'.Attached dir k node.config.id e ↔
        k = freq ∧ ∃ st, node'.endpoint dir = some st ∧ st.endpoint = e
  kept : freqChanged ((node.freq? dir).getD 0) freq = false →
    node'.freq? dir = node.freq? dir ∧
      ∀ k e, C'.Attached dir k node.config.id e ↔
        C.Attached dir k node.config.id e

/-- The part of soundness that concerns one node and one direction. -/
structure NodeSound (C : Controller) (dir : Direction) (node : Node) :
    Prop where
  ids : ∀ st, node.endpoint dir = some st → st.endpoint.id = node.config.id
  attached : ∀ k e, C.Attached dir k node.config.id e →
    node.freq? dir = some k ∧
      ∃ st, node.endpoint dir = some st ∧ st.endpoint = e

theorem Attached.congr {C C' : Controller}
    (h : C'.intermediateMap = C.intermediateMap) {dir : Direction} {k : ℚ}
    {id : NodeId} {e : Endpoint} :
    C'.Attached dir k id e ↔ C.Attached dir k id e := by
  simp only [Attached, h]

/-- Before a node joins, it has left every intermediate.  `C₀` is the state
before the channel of the new frequency was created. -/
theorem not_attached_of_left {dir : Direction} {C₀ C : Controller}
    {node : Node} (node₁ : Node) {st : EndpointState} (hC : C.KeysMatch)
    (hsame : ∀ k e, C.Attached dir k node.config.id e ↔
      C₀.Attached dir k node.config.id e)
    (hsound : NodeSound C₀ dir node)
    (hid : st.endpoint.id = node.config.id) (k : ℚ) (e : Endpoint) :
    ¬Attached (if (node.freq? dir).getD 0 ∈ C₀.intermediateMap then
      leaveChannel dir C ((node.freq? dir).getD 0) (some st) node₁ else C)
      dir k node.config.id e := by
  intro hattached
  have hprev : ∀ k e, C₀.Attached dir k node.config.id e →
      (node.freq? dir).getD 0 = k := by
    intro k e h
    simp [(hsound.attached k e h).1]
  by_cases hfound : (node.freq? dir).getD 0 ∈ C₀.intermediateMap
  · rw [if_pos hfound] at hattached
    obtain ⟨hold, hleft⟩ :=
      (attached_leaveChannel hC dir _ st node₁).mp hattached
    exact hleft ⟨rfl, (hprev k e ((hsame k e).mp hold)).symm, hid.symm⟩
  · rw [if_neg hfound, hsame] at hattached
    obtain ⟨I, hI, hmember⟩ := hattached
    apply hfound
    rw [hprev k e ⟨I, hI, hmember⟩]
    exact FiniteMap.mem_iff_lookup.mpr ⟨I, hI⟩

/-- The state in which the old and the new frequency are compared: the node
has its endpoint, and the channel of the new frequency exists. -/
structure Prepared (dir : Direction) (C C₁ : Controller) (node node₁ : Node)
    (st : EndpointState) : Prop where
  nodeMap : C₁.nodeMap = C.nodeMap
  sandbox : C₁.sandbox = C.sandbox
  keys : C₁.KeysMatch
  attached : ∀ dir' k id e, C₁.Attached dir' k id e ↔ C.Attached dir' k id e
  equipped : Equipped dir node node₁ st
  freq : node₁.freq? dir = node.freq? dir
  id : st.endpoint.id = node.config.id

theorem prepared_of_ensured {dir : Direction} {C C₁ : Controller}
    {node node₁ : Node} {st : EndpointState} (hC : C.KeysMatch)
    (hsound : NodeSound C dir node)
    (h : Ensured dir C C₁ node node₁ st) (freq : ℚ) :
    Prepared dir C (C₁.createChannel freq) node node₁ st := by
  obtain ⟨hmap, hnodes, hbox, -⟩ := h.state_eq
  have hcreate := C₁.onlyChannels_createChannel freq
  have hC₁ : C₁.KeysMatch := hC.congr hmap
  refine ⟨hcreate.nodeMap.trans hnodes, hcreate.sandbox.trans hbox,
    hC₁.createChannel freq, ?_, h.equipped, h.freq?_eq dir,
    h.equipped.id_eq hsound.ids⟩
  intro dir' k id e
  rw [attached_createChannel]
  exact Attached.congr hmap

/-- The endpoint survives the request, under the id of the node. -/
theorem Prepared.endpoint_kept {dir : Direction} {C C₁ : Controller}
    {node node₁ node' : Node} {st st' : EndpointState}
    (hprep : Prepared dir C C₁ node node₁ st)
    (hstored : node'.endpoint dir = some st')
    (hst : st'.endpoint = st.endpoint) :
    ∃ st', node'.endpoint dir = some st' ∧
      st'.endpoint.id = node.config.id ∧
      ∀ st₀, node.endpoint dir = some st₀ →
        st'.endpoint = st₀.endpoint := by
  refine ⟨st', hstored, ?_, ?_⟩
  · rw [hst, hprep.id]
  · intro st₀ hst₀
    rw [hst, hprep.equipped.kept st₀ hst₀]

/-- Leaving the old channel, if there is one, changes nothing but the
attachments of the node itself. -/
theorem Prepared.leaveChannel_of_known {dir : Direction} {C C₁ : Controller}
    {node node₁ : Node} {st : EndpointState}
    (hprep : Prepared dir C C₁ node node₁ st) (old : ℚ) :
    let C₂ := if old ∈ C.intermediateMap then
      leaveChannel dir C₁ old (some st) node₁ else C₁
    C₂.nodeMap = C.nodeMap ∧ C₂.sandbox = C.sandbox ∧ C₂.KeysMatch ∧
      ∀ dir' k id e, ¬(dir' = dir ∧ id = node.config.id) →
        (C₂.Attached dir' k id e ↔ C.Attached dir' k id e) := by
  intro C₂
  simp only [C₂]
  split_ifs
  · have hleave := onlyChannels_leaveChannel dir C₁ old (some st) node₁
    refine ⟨hleave.nodeMap.trans hprep.nodeMap,
      hleave.sandbox.trans hprep.sandbox,
      hprep.keys.leaveChannel dir _ st node₁, ?_⟩
    · intro dir' k id e hother
      rw [attached_leaveChannel hprep.keys, hprep.attached]
      refine ⟨fun hleft => hleft.1, fun hold => ⟨hold, ?_⟩⟩
      rintro ⟨hdir, -, hid⟩
      exact hother ⟨hdir, hid.trans hprep.id⟩
  · exact ⟨hprep.nodeMap, hprep.sandbox, hprep.keys,
      fun dir' k id e _ => hprep.attached dir' k id e⟩

/-- A node that does not change its frequency keeps its attachments. -/
theorem Prepared.assigned_of_kept {dir : Direction} {C C₁ : Controller}
    {node node₁ node' : Node} {st st' : EndpointState} {freq : ℚ}
    (hprep : Prepared dir C C₁ node node₁ st)
    (hsame : SameExcept dir node₁ node')
    (hfreq : node'.freq? dir = node₁.freq? dir)
    (hstored : node'.endpoint dir = some st')
    (hst : st'.endpoint = st.endpoint)
    (hkept : freqChanged ((node.freq? dir).getD 0) freq = false) :
    Assigned dir C C₁ node node' freq where
  nodeMap := hprep.nodeMap
  sandbox := hprep.sandbox
  keys := hprep.keys
  same := hprep.equipped.same.trans hsame
  endpoint := hprep.endpoint_kept hstored hst
  others dir' k id e _ := hprep.attached dir' k id e
  moved hmoved := by
    rw [hkept] at hmoved
    cases hmoved
  kept _ := ⟨hfreq.trans hprep.freq, fun k e => hprep.attached dir k _ e⟩

/-- A node that changes its frequency ends up at the new one only. -/
theorem Prepared.assigned_of_moved {dir : Direction} {C C₁ C' : Controller}
    {node node₁ node' : Node} {st : EndpointState} {freq : ℚ}
    {newConfig : NodeConfig} (hprep : Prepared dir C C₁ node node₁ st)
    (hsound : NodeSound C dir node)
    (hmoved : freqChanged ((node.freq? dir).getD 0) freq = true)
    (h : joinChannel dir
      (if (node.freq? dir).getD 0 ∈ C.intermediateMap then
        leaveChannel dir C₁ ((node.freq? dir).getD 0) (some st) node₁ else C₁)
      freq (some st) node₁ newConfig = some (C', node')) :
    Assigned dir C C' node node' freq := by
  have habsent := not_attached_of_left node₁ hprep.keys
    (fun k e => hprep.attached dir k _ e) hsound hprep.id
  obtain ⟨hnodes₂, hbox₂, hkeys₂, hothers₂⟩ :=
    hprep.leaveChannel_of_known ((node.freq? dir).getD 0)
  obtain ⟨C₂, hC₂⟩ : ∃ C₂,
      (if (node.freq? dir).getD 0 ∈ C.intermediateMap then
        leaveChannel dir C₁ ((node.freq? dir).getD 0) (some st) node₁
        else C₁) = C₂ := ⟨_, rfl⟩
  rw [hC₂] at hnodes₂ hbox₂ hkeys₂ hothers₂
  rw [hC₂] at h habsent
  have habsent' : ∀ e, ¬C₂.Attached dir freq st.endpoint.id e := by
    rw [hprep.id]
    exact habsent freq
  have hjoin := onlyChannels_joinChannel h
  obtain ⟨hkeys, hsame, hfreq, ⟨st', hstored, hst⟩, hattached⟩ :=
    joinChannel_some hkeys₂ habsent' h
  exact
    { nodeMap := hjoin.nodeMap.trans hnodes₂
      sandbox := hjoin.sandbox.trans hbox₂
      keys := hkeys
      same := hprep.equipped.same.trans hsame
      endpoint := hprep.endpoint_kept hstored hst
      others := by
        intro dir' k id e hother
        rw [hattached, hothers₂ dir' k id e hother]
        refine ⟨?_, Or.inl⟩
        rintro (hold | ⟨hdir, -, hid, -⟩)
        · exact hold
        · exact absurd ⟨hdir, hid.trans hprep.id⟩ hother
      moved := by
        intro _
        refine ⟨hfreq, fun k e => ?_⟩
        rw [hattached, hprep.id]
        constructor
        · rintro (hold | ⟨-, hk, -, he⟩)
          · exact absurd hold (habsent k e)
          · exact ⟨hk, st', hstored, hst.trans he.symm⟩
        · rintro ⟨hk, st'', hstored', he⟩
          cases hstored.symm.trans hstored'
          exact Or.inr ⟨rfl, hk, rfl, he.symm.trans hst⟩
      kept := by
        intro hkept
        rw [hmoved] at hkept
        cases hkept }

theorem assignChannel_some {dir : Direction} {C C' : Controller}
    {node node' : Node} {newConfig : NodeConfig} {ch : Usrp.Channel}
    {rest : List Usrp.Channel} {created : Bool}
    (hsandbox : C.sandbox = false) (hC : C.KeysMatch)
    (hsound : NodeSound C dir node)
    (hchannels : newConfig.channels = ch :: rest)
    (h : assignChannel dir C node newConfig = some (created, C', node')) :
    Assigned dir C C' node node' (dir.freqOf ch) := by
  obtain ⟨e, C₁, node₁, hequip, hends⟩ := assignChannel_ends hchannels h
  obtain ⟨st, rfl, hensured⟩ := ensured_of_equip hsandbox hequip
  have hprep := prepared_of_ensured hC hsound hensured (dir.freqOf ch)
  cases hends with
  | repeated hrepeat hstill =>
      exact hprep.assigned_of_kept ⟨rfl, fun _ _ => rfl, fun _ _ => rfl⟩ rfl
        hprep.equipped.stored rfl hstill
  | moved hrepeat hmoves hjoin =>
      exact hprep.assigned_of_moved hsound hmoves hjoin
  | kept hrepeat hstill =>
      refine hprep.assigned_of_kept ?_ ?_ (Node.endpoint_setEndpoint_same ..)
        rfl hstill
      · exact sameExcept_setEndpoint _ rfl rfl rfl fun _ _ => rfl
      · simp [keepChannel, Node.freq?]

end Controller

end Chem
