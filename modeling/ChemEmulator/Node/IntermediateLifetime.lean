import ChemEmulator.Node.Cleanup
import ChemEmulator.Node.SampleRates

/-!
# The lifetime of an intermediate

An intermediate is created before it is known whether the node joins it, and
its thread ends once `work` is false.  Only the two detach operations clear the
flag, so an intermediate that is erased without having been emptied by one of
them leaves its thread running for good.
-/

namespace Chem

open PartialRuns

namespace Intermediate

/-- What is left without the node as a source and as a sandbox node. -/
def vacatedBy (I : Intermediate) (id : NodeId) : Bool :=
  I.destinationMap.keys.isEmpty && (I.sourceMap.erase id).keys.isEmpty &&
    (I.sandboxNodes.filter (· ≠ id)).isEmpty

theorem work_emptyChannelChecker {I : Intermediate} (h : I.isEmpty = true) :
    I.emptyChannelChecker.work = false := by
  simp [emptyChannelChecker, h]

@[simp] theorem isEmpty_emptyChannelChecker (I : Intermediate) :
    I.emptyChannelChecker.isEmpty = I.isEmpty := by
  simp [isEmpty]

/-- A detach that leaves nobody has cleared the flag. -/
theorem work_detach {I : Intermediate} {dir : Direction} {e : Endpoint}
    (hbefore : I.isEmpty = true → I.work = false)
    (h : (I.detach dir e).2.isEmpty = true) :
    (I.detach dir e).2.work = false := by
  cases dir with
  | uplink =>
      simp only [detach, detachSource] at h ⊢
      split_ifs at h ⊢
      · rw [isEmpty_emptyChannelChecker] at h
        exact work_emptyChannelChecker h
      · exact hbefore h
  | downlink =>
      simp only [detach, detachDestination] at h ⊢
      split_ifs at h ⊢
      · rw [isEmpty_emptyChannelChecker] at h
        exact work_emptyChannelChecker h
      · exact hbefore h

theorem isEmpty_of_members {I : Intermediate} {dir : Direction} {id : NodeId}
    (h : id ∈ I.members dir) : I.isEmpty = false := by
  rw [← Bool.not_eq_true]
  intro hempty
  exact I.not_mem_members_of_isEmpty hempty dir id h

theorem isEmpty_of_sandboxNodes {I : Intermediate} {id : NodeId}
    (h : id ∈ I.sandboxNodes) : I.isEmpty = false := by
  have hsome : I.sandboxNodes.isEmpty = false := by
    rw [List.isEmpty_eq_false_iff]
    exact List.ne_nil_of_mem h
  simp [isEmpty, hsome]

/-- A node can only empty an intermediate in which it is alone. -/
theorem vacatedBy_of_removeSandboxNode {I : Intermediate} {id : NodeId}
    (h : (I.removeSandboxNode id).isEmpty = true) : I.vacatedBy id = true := by
  simp only [isEmpty, removeSandboxNode, removeChannel, Bool.and_eq_true,
    List.isEmpty_iff] at h
  obtain ⟨⟨hdest, hsrc⟩, hbox⟩ := h
  rw [vacatedBy, AList.keys_erase, hdest, hsrc, hbox]
  rfl

theorem vacatedBy_of_detachSource {I : Intermediate} {e : Endpoint}
    (h : (I.detachSource e).2.isEmpty = true) : I.vacatedBy e.id = true := by
  rw [Controller.isEmpty_detachSource, Bool.and_eq_true,
    Bool.and_eq_true] at h
  obtain ⟨⟨hdest, hsrc⟩, hbox⟩ := h
  rw [List.isEmpty_iff] at hbox
  rw [vacatedBy, hdest, hsrc, hbox]
  rfl

theorem vacatedBy_addSandboxNode (I : Intermediate) (id : NodeId)
    (numChannels : ℕ) :
    (I.addSandboxNode id numChannels).vacatedBy id = I.vacatedBy id := by
  have hfilter : (I.sandboxNodes.insert id).filter (· ≠ id) =
      I.sandboxNodes.filter (· ≠ id) := by
    by_cases hmem : id ∈ I.sandboxNodes
    · rw [List.insert_of_mem hmem]
    · rw [List.insert_of_not_mem hmem]
      simp
  simp only [vacatedBy, addSandboxNode, updateChannelMap, hfilter]

theorem vacatedBy_removeSandboxNode (I : Intermediate) (id : NodeId) :
    (I.removeSandboxNode id).vacatedBy id = I.vacatedBy id := by
  simp only [vacatedBy, removeSandboxNode, removeChannel, List.filter_filter,
    Bool.and_self]

end Intermediate

namespace Controller

/-! ## What is erased -/

/-- The intermediate that `isChannelEmpty` erases. -/
def erasedAt (C : Controller) (freq : ℚ) : Option Intermediate :=
  (C.intermediateMap.lookup freq).filter Intermediate.isEmpty

/-- The node's way out of an intermediate. -/
def leaving (dir : Direction) (e : Option EndpointState) (node : Node)
    (I : Intermediate) : Intermediate :=
  match e with
  | none => I.removeSandboxNode node.config.id
  | some e => (I.detach dir e.endpoint).2

theorem freq_leaving (dir : Direction) (e : Option EndpointState)
    (node : Node) (I : Intermediate) :
    (leaving dir e node I).freq = I.freq := by
  cases e with
  | none => rfl
  | some st => exact I.freq_detach dir st.endpoint

theorem leaveChannel_eq (dir : Direction) (C : Controller) (prevFreq : ℚ)
    (e : Option EndpointState) (node : Node) :
    leaveChannel dir C prevFreq e node =
      (C.updateIntermediate prevFreq
        (leaving dir e node)).isChannelEmpty prevFreq := by
  cases e <;> rfl

/-- What an assignment erases, at the moment it is erased. -/
def assignErases (dir : Direction) (C : Controller) (node : Node)
    (newConfig : NodeConfig) : Option Intermediate :=
  match newConfig.channels with
  | [] => none
  | ch :: _ =>
      (equip dir C node).bind fun (e, C₁, node₁) =>
        if moves dir node ch = true ∧ prevFreq dir node ∈ C.intermediateMap then
          ((C₁.createChannel (dir.freqOf ch)).updateIntermediate
            (prevFreq dir node) (leaving dir e node₁)).erasedAt
              (prevFreq dir node)
        else none

/-- What a configuration request erases. -/
def configErases (C : Controller) (nodeConfig : NodeConfig)
    (remoteIp : String) (now : ℤ) : List Intermediate :=
  let nodeConfig := { nodeConfig with ipAddress := remoteIp }
  match C.getOrCreateNode (Node.create nodeConfig now) with
  | none => []
  | some (target, _, C) =>
      let r := target.refreshFromConfig nodeConfig C.vehicleHandlers
      let C := { C with vehicleHandlers := r.handlers }
      (assignErases .uplink C r.node r.request).toList ++
        match C.assignULChannel r.node r.request with
        | none => []
        | some (_, C, node) =>
            (assignErases .downlink C node r.request).toList

/-- What the removal of a node erases. -/
def removalErases (C : Controller) (node : Node) : List Intermediate :=
  let C := detachAll .downlink C node.transmitter
  let C := detachAll .uplink C node.receiver
  (FiniteMap.values C.intermediateMap).filter Intermediate.isEmpty

/-- The intermediates that an event erases, as they are when that happens. -/
def erased (C : Controller) (event : Event) : List Intermediate :=
  match event with
  | .request (.config nodeConfig) remoteIp now =>
      C.configErases nodeConfig remoteIp now
  | event => ((C.removed event).map fun (_, node) =>
      C.removalErases node).getD []

/-! ## Empty intermediates -/

/-- Only the intermediates of the frequencies in `X` can be empty. -/
def EmptyOnly (C : Controller) (X : ℚ → Prop) : Prop :=
  ∀ freq I, C.intermediateMap.lookup freq = some I → I.isEmpty = true → X freq

/-- Every intermediate has a source, a destination or a sandbox node. -/
def Occupied (C : Controller) : Prop :=
  ∀ freq I, C.intermediateMap.lookup freq = some I → I.isEmpty = false

theorem lookup_createChannel_some {C : Controller} {freq f : ℚ}
    {I : Intermediate}
    (h : (C.createChannel freq).intermediateMap.lookup f = some I) :
    C.intermediateMap.lookup f = some I ∨
      (f = freq ∧ f ∉ C.intermediateMap) := by
  by_cases hf : f = freq
  · subst hf
    by_cases hmem : f ∈ C.intermediateMap
    · rw [createChannel, if_pos hmem] at h
      exact Or.inl h
    · exact Or.inr ⟨rfl, hmem⟩
  · rw [lookup_createChannel_ne C hf] at h
    exact Or.inl h

theorem emptyOnly_createChannel {C : Controller} {X : ℚ → Prop}
    (hC : C.EmptyOnly X) (freq : ℚ) : (C.createChannel freq).EmptyOnly
      fun f => X f ∨ (f = freq ∧ freq ∉ C.intermediateMap) := by
  intro f I hI hempty
  rcases lookup_createChannel_some hI with hold | ⟨rfl, hnew⟩
  · exact Or.inl (hC f I hold hempty)
  · exact Or.inr ⟨rfl, hnew⟩

/-- What is found at the frequency that was left. -/
theorem lookup_leaveChannel_self {C : Controller} (hC : C.KeysMatch)
    (dir : Direction) (freq : ℚ) (e : Option EndpointState) (node : Node) :
    (leaveChannel dir C freq e node).intermediateMap.lookup freq =
      ((C.intermediateMap.lookup freq).map (leaving dir e node)).filter
        fun I => !I.isEmpty := by
  have hkeys : (C.updateIntermediate freq (leaving dir e node)).KeysMatch :=
    hC.updateIntermediate freq (freq_leaving dir e node)
  ext I
  rw [leaveChannel_eq, lookup_isChannelEmpty hkeys, lookup_updateIntermediate,
    if_pos rfl, Option.filter_eq_some_iff]
  simp

/-- Leaving drops an intermediate only if the node leaves it empty. -/
theorem empty_of_gone {C : Controller} (hC : C.KeysMatch) {dir : Direction}
    {freq f : ℚ} {e : Option EndpointState} {node : Node}
    (hmem : f ∈ C.intermediateMap)
    (hgone : f ∉ (leaveChannel dir C freq e node).intermediateMap) :
    f = freq ∧ ∃ I, C.intermediateMap.lookup f = some I ∧
      (leaving dir e node I).isEmpty = true := by
  have hfreq : f = freq := by
    by_contra hother
    apply hgone
    rw [← AList.lookup_isSome, lookup_leaveChannel_ne hC dir e node hother,
      AList.lookup_isSome]
    exact hmem
  subst hfreq
  obtain ⟨I, hI⟩ := FiniteMap.mem_iff_lookup.mp hmem
  refine ⟨rfl, I, hI, ?_⟩
  by_contra hsome
  apply hgone
  rw [FiniteMap.mem_iff_lookup, lookup_leaveChannel_self hC, hI]
  refine ⟨leaving dir e node I, Option.filter_eq_some_iff.mpr ⟨rfl, ?_⟩⟩
  simpa using hsome

theorem emptyOnly_leaveChannel {C : Controller} {X : ℚ → Prop}
    (hkeys : C.KeysMatch) (hC : C.EmptyOnly X) (dir : Direction) (freq : ℚ)
    (e : Option EndpointState) (node : Node) :
    (leaveChannel dir C freq e node).EmptyOnly X := by
  intro f I hI hempty
  by_cases hf : f = freq
  · subst hf
    rw [lookup_leaveChannel_self hkeys] at hI
    have hsome := (Option.filter_eq_some_iff.mp hI).2
    rw [hempty] at hsome
    cases hsome
  · rw [lookup_leaveChannel_ne hkeys dir e node hf] at hI
    exact hC f I hI hempty

theorem emptyOnly_joinChannel {C C' : Controller} {X : ℚ → Prop}
    {dir : Direction} {freq : ℚ} {e : Option EndpointState}
    {node node' : Node} {newConfig : NodeConfig} (hC : C.EmptyOnly X)
    (h : joinChannel dir C freq e node newConfig = some (C', node')) :
    C'.EmptyOnly fun f => X f ∧ f ≠ freq := by
  -- the one that was joined is not empty, the others are what they were
  have hjoined : ∀ I' : Intermediate, I'.isEmpty = false →
      EmptyOnly { C with
        intermediateMap := C.intermediateMap.insert freq I' }
        fun f => X f ∧ f ≠ freq := by
    intro I' hsome f J hJ hempty
    by_cases hf : f = freq
    · subst hf
      rw [AList.lookup_insert, Option.some.injEq] at hJ
      subst hJ
      cases hsome.symm.trans hempty
    · rw [AList.lookup_insert_ne hf] at hJ
      exact ⟨hC f J hJ hempty, hf⟩
  cases joined_of_joinChannel h with
  | @sandbox _ _ I =>
      have hmem : node.config.id ∈ (I.addSandboxNode node.config.id
          newConfig.numChannels.toNat).sandboxNodes := List.mem_insert_self
      exact hjoined _ (Intermediate.isEmpty_of_sandboxNodes hmem)
  | @endpoint _ _ st I I' _ _ hattach =>
      have hmember : st.endpoint.id ∈ I'.members dir := by
        rw [FiniteMap.mem_iff_lookup]
        have hlookup := Intermediate.lookup_attach hattach dir st.endpoint.id
        by_cases hmem : st.endpoint.id ∈ I.members dir
        · obtain ⟨e', he'⟩ := FiniteMap.mem_iff_lookup.mp hmem
          refine ⟨e', hlookup.trans ?_⟩
          rw [if_neg fun hnew => hnew.2.2 hmem, he']
        · exact ⟨_, hlookup.trans (if_pos ⟨rfl, rfl, hmem⟩)⟩
      exact hjoined I' (Intermediate.isEmpty_of_members hmember)

theorem emptyOnly_assignChannel {dir : Direction} {C C' : Controller}
    {node node' : Node} {newConfig : NodeConfig} {ch : Usrp.Channel}
    {rest : List Usrp.Channel} {created : Bool} {X : ℚ → Prop}
    (hkeys : C.KeysMatch) (hC : C.EmptyOnly X)
    (hchannels : newConfig.channels = ch :: rest)
    (h : assignChannel dir C node newConfig = some (created, C', node')) :
    C'.EmptyOnly fun f => if moves dir node ch then
        X f ∧ f ≠ dir.freqOf ch
      else X f ∨ (f = dir.freqOf ch ∧ dir.freqOf ch ∉ C.intermediateMap) := by
  obtain ⟨e, C₁, node₁, hequip, hends⟩ := assignChannel_ends hchannels h
  obtain ⟨hmap, -, -, -⟩ := equip_some hequip
  have hkeys₁ : C₁.KeysMatch := hkeys.congr hmap
  have hcreated : (C₁.createChannel (dir.freqOf ch)).EmptyOnly fun f =>
      X f ∨ (f = dir.freqOf ch ∧ dir.freqOf ch ∉ C.intermediateMap) := by
    have hC₁ : C₁.EmptyOnly X := by
      unfold EmptyOnly
      rw [hmap]
      exact hC
    rw [← hmap]
    exact emptyOnly_createChannel hC₁ (dir.freqOf ch)
  cases hends with
  | repeated _ hstill => simpa [hstill] using hcreated
  | kept _ hstill => simpa [hstill] using hcreated
  | moved _ hmoves hjoin =>
      have hleft : (if prevFreq dir node ∈ C.intermediateMap then
          leaveChannel dir (C₁.createChannel (dir.freqOf ch))
            (prevFreq dir node) e node₁
          else C₁.createChannel (dir.freqOf ch)).EmptyOnly fun f =>
          X f ∨ (f = dir.freqOf ch ∧
            dir.freqOf ch ∉ C.intermediateMap) := by
        split_ifs
        · exact emptyOnly_leaveChannel (hkeys₁.createChannel _) hcreated dir _ e
            node₁
        · exact hcreated
      intro f I hI hempty
      obtain ⟨hold, hne⟩ := emptyOnly_joinChannel hleft hjoin f I hI hempty
      rw [if_pos hmoves]
      exact ⟨hold.resolve_right fun hnew => hne hnew.1, hne⟩

/-! ## The flag of what an assignment erases -/

theorem work_assignErases {dir : Direction} {C : Controller} {node : Node}
    {newConfig : NodeConfig} {ch : Usrp.Channel} {rest : List Usrp.Channel}
    {X : ℚ → Prop} (hC : C.EmptyOnly X)
    (hchannels : newConfig.channels = ch :: rest)
    (hprev : moves dir node ch = true → ¬X (prevFreq dir node))
    (hbox : C.sandbox = true → moves dir node ch = true → ∀ I,
      C.intermediateMap.lookup (prevFreq dir node) = some I →
      I.vacatedBy node.config.id = false)
    {I : Intermediate} (h : assignErases dir C node newConfig = some I) :
    I.work = false := by
  rw [assignErases, hchannels] at h
  obtain ⟨⟨e, C₁, node₁⟩, hequip, herased⟩ := Option.bind_eq_some_iff.mp h
  dsimp only at herased
  split_ifs at herased with hleaves
  obtain ⟨hmoves, hfound⟩ := hleaves
  obtain ⟨J, hJ⟩ := FiniteMap.mem_iff_lookup.mp hfound
  have hlookup : (C₁.createChannel (dir.freqOf ch)).intermediateMap.lookup
      (prevFreq dir node) = some J := by
    rw [lookup_createChannel_ne C₁ (moves_ne hmoves), (equip_some hequip).1,
      hJ]
  rw [erasedAt, updateIntermediate, hlookup] at herased
  dsimp only at herased
  rw [AList.lookup_insert, Option.filter_eq_some_iff,
    Option.some.injEq] at herased
  obtain ⟨rfl, hempty⟩ := herased
  rcases equip_cases hequip with ⟨hon, rfl, -, rfl⟩ | ⟨-, st, rfl, -⟩
  · -- in sandbox mode somebody else is there
    have hvacated := Intermediate.vacatedBy_of_removeSandboxNode hempty
    rw [hbox hon hmoves J hJ] at hvacated
    cases hvacated
  · refine Intermediate.work_detach (fun hJempty => ?_) hempty
    exact absurd (hC _ J hJ hJempty) (hprev hmoves)

/-! ## What the uplink leaves for the downlink -/

theorem lookup_joinChannel_ne {C C' : Controller} {dir : Direction}
    {freq f : ℚ} {e : Option EndpointState} {node node' : Node}
    {newConfig : NodeConfig}
    (h : joinChannel dir C freq e node newConfig = some (C', node'))
    (hne : f ≠ freq) :
    C'.intermediateMap.lookup f = C.intermediateMap.lookup f := by
  cases joined_of_joinChannel h with
  | sandbox => exact AList.lookup_insert_ne hne
  | endpoint => exact AList.lookup_insert_ne hne

/-- Nobody but the node is in the intermediate of `freq`. -/
def aloneAt (C : Controller) (freq : ℚ) (id : NodeId) : Bool :=
  (C.intermediateMap.lookup freq).any fun I => I.vacatedBy id

/-- In sandbox mode an assignment adds and removes its own node only. -/
theorem vacatedBy_assignChannel {dir : Direction} {C C' : Controller}
    {node node' : Node} {newConfig : NodeConfig} {ch : Usrp.Channel}
    {rest : List Usrp.Channel} {created : Bool} (hon : C.sandbox = true)
    (hkeys : C.KeysMatch) (hchannels : newConfig.channels = ch :: rest)
    (h : assignChannel dir C node newConfig = some (created, C', node'))
    {f : ℚ} {I' : Intermediate} (hI' : C'.intermediateMap.lookup f = some I') :
    (∃ I, C.intermediateMap.lookup f = some I ∧
        I'.vacatedBy node.config.id = I.vacatedBy node.config.id) ∨
      (f = dir.freqOf ch ∧ f ∉ C.intermediateMap) := by
  obtain ⟨e, C₁, node₁, hequip, hends⟩ := assignChannel_ends hchannels h
  rcases equip_cases hequip with ⟨-, rfl, rfl, rfl⟩ | ⟨hoff, -⟩
  swap
  · cases hon.symm.trans hoff
  have hsame : (C₁.createChannel (dir.freqOf ch)).intermediateMap.lookup f =
      some I' → (∃ I, C₁.intermediateMap.lookup f = some I ∧
        I'.vacatedBy node₁.config.id = I.vacatedBy node₁.config.id) ∨
      (f = dir.freqOf ch ∧ f ∉ C₁.intermediateMap) :=
    fun hJ => (lookup_createChannel_some hJ).imp (fun hI => ⟨I', hI, rfl⟩) id
  cases hends with
  | repeated => exact hsame hI'
  | kept => exact hsame hI'
  | moved _ hmoves hjoin =>
      have hprev := moves_ne hmoves
      by_cases hf : f = dir.freqOf ch
      · -- the node has joined what was there or is new
        subst hf
        obtain @⟨_, _, J, -, hJ⟩ := joined_of_joinChannel hjoin
        rw [AList.lookup_insert, Option.some.injEq] at hI'
        subst hI'
        have hJ' : (C₁.createChannel
            (dir.freqOf ch)).intermediateMap.lookup (dir.freqOf ch) =
            some J := by
          rw [lookup_created_of_left hkeys dir none node₁ hprev] at hJ
          exact hJ
        refine (lookup_createChannel_some hJ').imp (fun hI => ⟨J, hI, ?_⟩)
          fun hnew => hnew
        rw [Intermediate.vacatedBy_addSandboxNode]
      · rw [lookup_joinChannel_ne hjoin hf] at hI'
        split_ifs at hI' with hfound
        · by_cases hfprev : f = prevFreq dir node₁
          · subst hfprev
            rw [lookup_leaveChannel_self (hkeys.createChannel _),
              lookup_createChannel_ne C₁ hf, Option.filter_eq_some_iff,
              Option.map_eq_some_iff] at hI'
            obtain ⟨⟨J, hJ, rfl⟩, -⟩ := hI'
            exact Or.inl ⟨J, hJ, J.vacatedBy_removeSandboxNode _⟩
          · rw [lookup_leaveChannel_ne (hkeys.createChannel _) dir none node₁
              hfprev] at hI'
            exact hsame hI'
        · exact hsame hI'

/-- The uplink assignment drops an intermediate only if its node was alone in
it. -/
theorem mem_assignUplink_of_mem {C C' : Controller} {node node' : Node}
    {newConfig : NodeConfig} {ch : Usrp.Channel} {rest : List Usrp.Channel}
    {created : Bool} (hkeys : C.KeysMatch)
    (hids : ∀ st, node.endpoint .uplink = some st →
      st.endpoint.id = node.config.id)
    (hchannels : newConfig.channels = ch :: rest)
    (h : assignChannel .uplink C node newConfig = some (created, C', node'))
    {f : ℚ} (hf : f = ch.txTuneFreq ∨ (f ∈ C.intermediateMap ∧
      ¬(moves .uplink node ch = true ∧ f = prevFreq .uplink node ∧
        C.aloneAt f node.config.id = true))) :
    f ∈ C'.intermediateMap := by
  obtain ⟨e, C₁, node₁, hequip, hends⟩ := assignChannel_ends hchannels h
  obtain ⟨hmap, -, -, -⟩ := equip_some hequip
  have hkeys₁ : C₁.KeysMatch := hkeys.congr hmap
  have hcreated : f ∈ (C₁.createChannel
      (Direction.uplink.freqOf ch)).intermediateMap := by
    rw [mem_createChannel, hmap]
    exact hf.symm.imp And.left fun hnew => hnew
  cases hends with
  | repeated => exact hcreated
  | kept => exact hcreated
  | moved _ hmoves hjoin =>
      rw [mem_joinChannel hjoin]
      by_cases hnew : f = Direction.uplink.freqOf ch
      · exact Or.inr hnew
      refine Or.inl ?_
      obtain ⟨hold, hkept⟩ := hf.resolve_left hnew
      split_ifs with hfound
      · -- if it is gone, the node was alone in it
        by_contra hgone
        obtain ⟨hprev, J, hJ, hempty⟩ :=
          empty_of_gone (hkeys₁.createChannel _) hcreated hgone
        rw [lookup_createChannel_ne C₁ hnew, hmap] at hJ
        have hvacated : J.vacatedBy node.config.id = true := by
          rcases equip_cases hequip with
            ⟨-, rfl, -, rfl⟩ | ⟨-, st, rfl, hensured⟩
          · exact Intermediate.vacatedBy_of_removeSandboxNode hempty
          · rw [← hensured.equipped.id_eq hids]
            exact Intermediate.vacatedBy_of_detachSource hempty
        refine hkept ⟨hmoves, hprev, ?_⟩
        rw [aloneAt, hJ, Option.any_some, hvacated]
      · exact hcreated

/-! ## Configuration requests -/

/-- A request for `ch` creates no channel that its node does not join, and in
sandbox mode, where leaving does not clear the flag, the node is not the last
one to leave. -/
structure FillsChannels (C : Controller) (node : Node) (ch : Usrp.Channel) :
    Prop where
  uplink : moves .uplink node ch = false →
    ch.txTuneFreq ∈ C.intermediateMap ∨
      (moves .downlink node ch = true ∧ ch.rxTuneFreq = ch.txTuneFreq)
  downlink : moves .downlink node ch = false →
    ch.rxTuneFreq = ch.txTuneFreq ∨ (ch.rxTuneFreq ∈ C.intermediateMap ∧
      ¬(moves .uplink node ch = true ∧
        ch.rxTuneFreq = prevFreq .uplink node ∧
        C.aloneAt ch.rxTuneFreq node.config.id = true))
  lastUplink : C.sandbox = true → moves .uplink node ch = true →
    C.aloneAt (prevFreq .uplink node) node.config.id = false
  lastDownlink : C.sandbox = true → moves .downlink node ch = true →
    (prevFreq .downlink node ∈ C.intermediateMap ∨
      (moves .uplink node ch = true ∧
        prevFreq .downlink node = ch.txTuneFreq)) →
    prevFreq .downlink node ∈ C.intermediateMap ∧
      C.aloneAt (prevFreq .downlink node) node.config.id = false

/-- How the assignments of a request start: with the intermediates of `C`, and
the node tuned as it was found. -/
structure Begins (C D : Controller) (node : Node) (r : Node.Refresh)
    (ch : Usrp.Channel) : Prop where
  map : D.intermediateMap = C.intermediateMap
  sandbox : D.sandbox = C.sandbox
  id : r.node.config.id = node.config.id
  request : ∃ rest, r.request.channels = ch :: rest
  ids : ∀ st, r.node.endpoint .uplink = some st →
    st.endpoint.id = r.node.config.id
  freq : ∀ dir, r.node.freq? dir = node.freq? dir

theorem begins_getOrCreateNode {C C₁ : Controller} {n : NodeConfig}
    {remoteIp : String} {now : ℤ} {target : Node} {newlyInserted : Bool}
    {ch : Usrp.Channel} {rest : List Usrp.Channel} {r : Node.Refresh}
    (hC : C.Owned) (hchannels : n.channels = ch :: rest)
    (hget : C.getOrCreateNode
      (Node.create { n with ipAddress := remoteIp } now) =
        some (target, newlyInserted, C₁))
    (hr : r = target.refreshFromConfig { n with ipAddress := remoteIp }
      C₁.vehicleHandlers) :
    Begins C { C₁ with vehicleHandlers := r.handlers } (C.found n now) r
      ch := by
  obtain ⟨hid, hrequest, hsame⟩ := refresh_same hr
  have hcons : r.request.channels = ch :: rest := hrequest.trans hchannels
  rcases getOrCreateNode_some hget with
    ⟨hknown, rfl, -⟩ | ⟨hnone, -, rfl, rfl, -⟩
  · have hlookup : C₁.nodeMap.lookup n.id = some target := hknown
    have hfound : C₁.found n now = target := by
      rw [found, hlookup, Option.getD_some]
    have htarget := hC.ids n.id target hlookup
    rw [hfound]
    refine ⟨rfl, rfl, hid.trans htarget.symm, ⟨rest, hcons⟩, ?_, ?_⟩
    · intro st hst
      rw [(hsame .uplink).1] at hst
      rw [hC.endpoints n.id target .uplink st hlookup hst]
      exact hid.symm
    · exact fun dir => (hsame dir).2
  · have hlookup : C.nodeMap.lookup n.id = none := hnone
    have hfound : C.found n now = Node.create n now := by
      rw [found, hlookup, Option.getD_none]
    rw [hfound]
    refine ⟨rfl, rfl, hid, ⟨rest, hcons⟩, ?_, ?_⟩
    · intro st hst
      rw [(hsame .uplink).1] at hst
      cases hst
    · exact fun dir => (hsame dir).2

namespace Begins

variable {C D : Controller} {node : Node} {r : Node.Refresh}
  {ch : Usrp.Channel}

theorem moves_eq (h : Begins C D node r ch) (dir : Direction) :
    moves dir r.node ch = moves dir node ch :=
  moves_congr ch (h.freq dir)

theorem prevFreq_eq (h : Begins C D node r ch) (dir : Direction) :
    prevFreq dir r.node = prevFreq dir node := by
  rw [prevFreq, h.freq dir, prevFreq]

theorem keys (h : Begins C D node r ch) (hC : C.KeysMatch) : D.KeysMatch :=
  hC.congr h.map

theorem emptyOnly (h : Begins C D node r ch) (hC : C.Occupied) :
    D.EmptyOnly fun _ => False := by
  intro freq I hI hempty
  rw [h.map] at hI
  cases (hC freq I hI).symm.trans hempty

/-- The uplink assignment erases nothing that still works. -/
theorem work_uplink (h : Begins C D node r ch) (hC : C.Occupied)
    (hfills : FillsChannels C node ch) {I : Intermediate}
    (herased : assignErases .uplink D r.node r.request = some I) :
    I.work = false := by
  obtain ⟨rest, hrequest⟩ := h.request
  refine work_assignErases (h.emptyOnly hC) hrequest (fun _ => not_false) ?_
    herased
  intro hon hmoves J hJ
  rw [h.sandbox] at hon
  rw [h.moves_eq] at hmoves
  rw [h.map, h.prevFreq_eq] at hJ
  have halone := hfills.lastUplink hon hmoves
  rw [aloneAt, hJ, Option.any_some] at halone
  rw [h.id]
  exact halone

end Begins

/-- What the downlink assignment finds. -/
structure Continues (C C₂ : Controller) (node node₂ : Node)
    (ch : Usrp.Channel) : Prop where
  id : node₂.config.id = node.config.id
  sandbox : C₂.sandbox = C.sandbox
  keys : C₂.KeysMatch
  moves_eq : moves .downlink node₂ ch = moves .downlink node ch
  prevFreq_eq : prevFreq .downlink node₂ = prevFreq .downlink node
  emptyOnly : C₂.EmptyOnly fun f => moves .uplink node ch = false ∧
    f = ch.txTuneFreq ∧ ch.txTuneFreq ∉ C.intermediateMap
  alone : C.sandbox = true → ∀ f I₂,
    C₂.intermediateMap.lookup f = some I₂ →
    (∃ I, C.intermediateMap.lookup f = some I ∧
        I₂.vacatedBy node.config.id = I.vacatedBy node.config.id) ∨
      (f = ch.txTuneFreq ∧ f ∉ C.intermediateMap)
  mem : ∀ f, (f = ch.txTuneFreq ∨ (f ∈ C.intermediateMap ∧
      ¬(moves .uplink node ch = true ∧ f = prevFreq .uplink node ∧
        C.aloneAt f node.config.id = true))) →
    f ∈ C₂.intermediateMap

theorem Begins.continues {C D C₂ : Controller} {node node₂ : Node}
    {r : Node.Refresh} {ch : Usrp.Channel} {created : Bool}
    (h : Begins C D node r ch) (hkeys : C.KeysMatch) (hC : C.Occupied)
    (hUL : assignChannel .uplink D r.node r.request =
      some (created, C₂, node₂)) : Continues C C₂ node node₂ ch := by
  obtain ⟨rest, hrequest⟩ := h.request
  have hout := assignChannel_outcome hrequest hUL
  have hfreq : node₂.freq? .downlink = node.freq? .downlink :=
    (hout.freq?_of_ne (by simp)).trans (h.freq .downlink)
  refine ⟨?_, hout.sandbox.trans h.sandbox, ?_, moves_congr ch hfreq, ?_, ?_,
    ?_, ?_⟩
  · rw [hout.record.config]
    exact h.id
  · exact (kept_freq _).assignChannel (h.keys hkeys) hUL
  · rw [prevFreq, hfreq, prevFreq]
  · intro f I hI hempty
    have hX := emptyOnly_assignChannel (h.keys hkeys) (h.emptyOnly hC)
      hrequest hUL f I hI hempty
    rw [h.moves_eq, h.map] at hX
    split_ifs at hX with hmoves
    · exact hX.1.elim
    · exact ⟨Bool.not_eq_true _ ▸ hmoves, hX.resolve_left not_false⟩
  · intro hon f I₂ hI₂
    have hbefore := vacatedBy_assignChannel (h.sandbox.trans hon)
      (h.keys hkeys) hrequest hUL hI₂
    rw [h.map, h.id] at hbefore
    exact hbefore
  · intro f hf
    refine mem_assignUplink_of_mem (h.keys hkeys) h.ids hrequest hUL ?_
    rw [aloneAt, h.map, h.moves_eq, h.prevFreq_eq, h.id]
    exact hf

namespace Continues

variable {C C₂ : Controller} {node node₂ : Node} {ch : Usrp.Channel}
  {newConfig : NodeConfig} {rest : List Usrp.Channel}

/-- The old receive frequency is not the one that the uplink has just created
without joining it. -/
theorem prevFreq_ne_created (hfills : FillsChannels C node ch)
    (hmoves : moves .downlink node₂ ch = true) :
    ¬(moves .uplink node ch = false ∧
      prevFreq .downlink node₂ = ch.txTuneFreq ∧
      ch.txTuneFreq ∉ C.intermediateMap) := by
  rintro ⟨hstill, hprev, hmissing⟩
  obtain ⟨-, hrx⟩ := (hfills.uplink hstill).resolve_left hmissing
  exact moves_ne hmoves (hprev.trans hrx.symm)

theorem work_downlink (h : Continues C C₂ node node₂ ch)
    (hfills : FillsChannels C node ch)
    (hrequest : newConfig.channels = ch :: rest) {I : Intermediate}
    (herased : assignErases .downlink C₂ node₂ newConfig = some I) :
    I.work = false := by
  refine work_assignErases h.emptyOnly hrequest
    (prevFreq_ne_created hfills) ?_ herased
  intro hon hmoves J hJ
  have hnotCreated := prevFreq_ne_created hfills hmoves
  rw [h.sandbox] at hon
  rw [h.moves_eq] at hmoves
  rw [h.prevFreq_eq] at hJ hnotCreated
  rw [h.id]
  rcases h.alone hon _ J hJ with ⟨J₀, hJ₀, hsame⟩ | ⟨hcreated, hmissing⟩
  · have halone := (hfills.lastDownlink hon hmoves
      (Or.inl (FiniteMap.mem_iff_lookup.mpr ⟨J₀, hJ₀⟩))).2
    rw [aloneAt, hJ₀, Option.any_some] at halone
    rw [hsame, halone]
  · -- the uplink has created it, so it has joined it
    have hjoined : moves .uplink node ch = true := by
      rw [← Bool.not_eq_false]
      exact fun hstill => hnotCreated
        ⟨hstill, hcreated, hcreated ▸ hmissing⟩
    exact absurd (hfills.lastDownlink hon hmoves
      (Or.inr ⟨hjoined, hcreated⟩)).1 hmissing

theorem occupied_downlink {C₃ : Controller} {node₃ : Node} {created : Bool}
    (h : Continues C C₂ node node₂ ch) (hfills : FillsChannels C node ch)
    (hrequest : newConfig.channels = ch :: rest)
    (hDL : assignChannel .downlink C₂ node₂ newConfig =
      some (created, C₃, node₃)) : C₃.Occupied := by
  intro f I hI
  rw [← Bool.not_eq_true]
  intro hempty
  have hX := emptyOnly_assignChannel h.keys h.emptyOnly hrequest hDL f I hI
    hempty
  rw [h.moves_eq] at hX
  split_ifs at hX with hmoves
  · -- the downlink joins what the uplink has created
    obtain ⟨⟨hstill, rfl, hmissing⟩, hne⟩ := hX
    obtain ⟨-, hrx⟩ := (hfills.uplink hstill).resolve_left hmissing
    exact hne hrx.symm
  · rcases hX with ⟨hstill, -, hmissing⟩ | ⟨-, hmissing⟩
    · obtain ⟨hmoved, -⟩ := (hfills.uplink hstill).resolve_left hmissing
      exact hmoves hmoved
    · exact hmissing (h.mem ch.rxTuneFreq
        (hfills.downlink (Bool.not_eq_true _ ▸ hmoves)))

end Continues

/-- A configuration request fills the channels that it creates; other events
create none. -/
def KeepsOccupied (C : Controller) : Event → Prop
  | .request (.config n) _ now =>
      ∀ ch, n.channels.head? = some ch → FillsChannels C (C.found n now) ch
  | _ => True

/-- Whatever the event erases has been told to stop. -/
def StopsErased (C : Controller) (event : Event) : Prop :=
  ∀ I ∈ C.erased event, I.work = false

theorem occupied_handleConfig {C C' : Controller} {n : NodeConfig}
    {remoteIp : String} {now : ℤ} {response : Response} (hkeys : C.KeysMatch)
    (howned : C.Owned) (hC : C.Occupied)
    (hkeeps : C.KeepsOccupied (.request (.config n) remoteIp now))
    (h : C.handleConfig n remoteIp now = some (response, C')) :
    C'.Occupied := by
  obtain ⟨target, newlyInserted, C₁, C₂, C₃, node₂, node₃, createdUL,
    createdDL, hget, r, hr, hUL, hDL, rfl, -⟩ := handleConfig_some h
  cases hchannels : n.channels with
  | nil =>
      have hnil : r.request.channels = [] :=
        (refresh_same hr).2.1.trans hchannels
      rw [assignChannel_of_nil hnil] at hUL
      cases hUL
      rw [assignChannel_of_nil hnil] at hDL
      cases hDL
      rcases getOrCreateNode_some hget with
        ⟨-, rfl, -⟩ | ⟨-, -, -, rfl, -⟩ <;> exact hC
  | cons ch rest =>
      have hbegins := begins_getOrCreateNode howned hchannels hget hr
      have hfills := hkeeps ch (by rw [hchannels]; rfl)
      obtain ⟨rest', hrequest⟩ := hbegins.request
      have hoccupied : C₃.Occupied :=
        (hbegins.continues hkeys hC hUL).occupied_downlink hfills hrequest hDL
      exact hoccupied

theorem work_configErases {C : Controller} {n : NodeConfig}
    {remoteIp : String} {now : ℤ} (hkeys : C.KeysMatch) (howned : C.Owned)
    (hC : C.Occupied)
    (hkeeps : C.KeepsOccupied (.request (.config n) remoteIp now))
    {I : Intermediate} (h : I ∈ C.configErases n remoteIp now) :
    I.work = false := by
  unfold configErases at h
  dsimp only at h
  split at h
  · cases h
  next target newlyInserted C₁ hget =>
    obtain ⟨r, hr⟩ : ∃ r, r = target.refreshFromConfig
        { n with ipAddress := remoteIp } C₁.vehicleHandlers := ⟨_, rfl⟩
    rw [← hr] at h
    cases hchannels : n.channels with
    | nil =>
        have hnil : r.request.channels = [] :=
          (refresh_same hr).2.1.trans hchannels
        have hnothing : ∀ dir D node,
            assignErases dir D node r.request = none := by
          intro dir D node
          rw [assignErases, hnil]
        simp only [hnothing, Option.toList_none, List.nil_append] at h
        split at h <;> cases h
    | cons ch rest =>
        have hbegins := begins_getOrCreateNode howned hchannels hget hr
        have hfills := hkeeps ch (by rw [hchannels]; rfl)
        obtain ⟨rest', hrequest⟩ := hbegins.request
        rcases List.mem_append.mp h with huplink | hdownlink
        · exact hbegins.work_uplink hC hfills (Option.mem_toList.mp huplink)
        · split at hdownlink
          · cases hdownlink
          next createdUL C₂ node₂ hUL =>
            exact (hbegins.continues hkeys hC hUL).work_downlink hfills
              hrequest (Option.mem_toList.mp hdownlink)

/-! ## Removals -/

theorem lookup_detachAll {C : Controller} {dir : Direction}
    {e : Option EndpointState} {freq : ℚ} {I : Intermediate}
    (h : (detachAll dir C e).intermediateMap.lookup freq = some I) :
    ∃ J, C.intermediateMap.lookup freq = some J ∧
      ((J.isEmpty = true → J.work = false) →
        I.isEmpty = true → I.work = false) := by
  cases e with
  | none => exact ⟨I, h, id⟩
  | some st =>
      rw [detachAll, FiniteMap.lookup_mapValues, Option.map_eq_some_iff] at h
      obtain ⟨J, hJ, rfl⟩ := h
      exact ⟨J, hJ, Intermediate.work_detach⟩

/-- A removal erases what its detach operations have emptied. -/
theorem work_removalErases {C : Controller} {node : Node} (hC : C.Occupied)
    {I : Intermediate} (h : I ∈ C.removalErases node) : I.work = false := by
  obtain ⟨hvalue, hempty⟩ := List.mem_filter.mp h
  obtain ⟨freq, hI⟩ := FiniteMap.mem_values_iff.mp hvalue
  obtain ⟨J, hJ, huplink⟩ := lookup_detachAll hI
  obtain ⟨K, hK, hdownlink⟩ := lookup_detachAll hJ
  refine huplink (hdownlink fun hKempty => ?_) hempty
  cases (hC freq K hK).symm.trans hKempty

theorem occupied_removeNode (C : Controller) (id : NodeId) (node : Node) :
    (C.removeNode id node).Occupied := by
  intro freq I hI
  have hkept : (!I.isEmpty) = true := (FiniteMap.lookup_filter.mp hI).2
  simpa using hkept

/-! ## Nothing else disappears -/

theorem erased_of_assignChannel {dir : Direction} {C C' : Controller}
    {node node' : Node} {newConfig : NodeConfig} {created : Bool}
    (hkeys : C.KeysMatch)
    (h : assignChannel dir C node newConfig = some (created, C', node'))
    {f : ℚ} (hmem : f ∈ C.intermediateMap) (hgone : f ∉ C'.intermediateMap) :
    ∃ I, assignErases dir C node newConfig = some I ∧ I.freq = f := by
  cases hchannels : newConfig.channels with
  | nil =>
      rw [assignChannel_of_nil hchannels] at h
      cases h
      exact absurd hmem hgone
  | cons ch rest =>
      obtain ⟨e, C₁, node₁, hequip, hends⟩ := assignChannel_ends hchannels h
      obtain ⟨hmap, -, -, -⟩ := equip_some hequip
      have hkeys₁ : C₁.KeysMatch := hkeys.congr hmap
      have hcreated : f ∈ (C₁.createChannel (dir.freqOf ch)).intermediateMap := by
        rw [mem_createChannel, hmap]
        exact Or.inl hmem
      cases hends with
      | repeated => exact absurd hcreated hgone
      | kept => exact absurd hcreated hgone
      | moved _ hmoves hjoin =>
          rw [mem_joinChannel hjoin, not_or] at hgone
          obtain ⟨hleft, hne⟩ := hgone
          split_ifs at hleft with hfound
          · obtain ⟨rfl, J, hJ, hempty⟩ :=
              empty_of_gone (hkeys₁.createChannel _) hcreated hleft
            refine ⟨leaving dir e node₁ J, ?_, ?_⟩
            · rw [assignErases, hchannels]
              dsimp only
              rw [hequip, Option.bind_some, if_pos ⟨hmoves, hfound⟩, erasedAt,
                updateIntermediate, hJ]
              dsimp only
              rw [AList.lookup_insert]
              exact Option.filter_eq_some_iff.mpr ⟨rfl, hempty⟩
            · exact (freq_leaving dir e node₁ J).trans
                (hkeys₁.createChannel (dir.freqOf ch) _ J hJ)
          · exact absurd hcreated hleft

/-- A frequency that has no intermediate anymore is one that the event has
erased. -/
theorem mem_erased_of_gone {C C' : Controller} {event : Event}
    (hkeys : C.KeysMatch) (h : C.step event = some C') {f : ℚ}
    (hmem : f ∈ C.intermediateMap) (hgone : f ∉ C'.intermediateMap) :
    ∃ I ∈ C.erased event, I.freq = f := by
  cases handled_of_step h with
  | nothing => exact absurd hmem hgone
  | heartbeat => exact absurd hmem hgone
  | @removal _ id node ipAddrMap hremoved hnode =>
      have hdown := (kept_freq C.sandbox).detachAll hkeys .downlink
        node.transmitter
      have hboth := (kept_freq C.sandbox).detachAll hdown .uplink node.receiver
      have hpresent : f ∈ (detachAll .uplink (detachAll .downlink C
          node.transmitter) node.receiver).intermediateMap := by
        rw [← AList.lookup_isSome] at hmem ⊢
        cases node.transmitter <;> cases node.receiver <;>
          simpa [detachAll, FiniteMap.lookup_mapValues] using hmem
      obtain ⟨I, hI⟩ := FiniteMap.mem_iff_lookup.mp hpresent
      refine ⟨I, ?_, hboth f I hI⟩
      have hempty : I.isEmpty = true := by
        by_contra hsome
        apply hgone
        refine FiniteMap.mem_filter.mpr ⟨I, ?_, by simpa using hsome⟩
        cases htx : node.transmitter <;> cases hrx : node.receiver <;>
          simpa [htx, hrx, detachAll, removeVehicleHandler] using hI
      have herased : C.erased event = C.removalErases node := by
        unfold erased
        split
        · cases hremoved
        · rw [hremoved]
          rfl
      rw [herased]
      exact List.mem_filter.mpr
        ⟨FiniteMap.mem_values_iff.mpr ⟨f, hI⟩, hempty⟩
  | configuration hconfig =>
      obtain ⟨target, newlyInserted, C₁, C₂, C₃, node₂, node₃, createdUL,
        createdDL, hget, r, hr, hUL, hDL, rfl, -⟩ := handleConfig_some hconfig
      have hmap := (getOrCreateNode_intermediates hget).1
      have hkeys₁ : ({ C₁ with vehicleHandlers := r.handlers } :
          Controller).KeysMatch := hkeys.congr hmap
      subst hr
      simp only [erased, configErases, hget, assignULChannel, hUL,
        List.mem_append, Option.mem_toList]
      by_cases huplink : f ∈ C₂.intermediateMap
      · obtain ⟨I, hI, hfreq⟩ := erased_of_assignChannel
          ((kept_freq _).assignChannel hkeys₁ hUL) hDL huplink hgone
        exact ⟨I, Or.inr hI, hfreq⟩
      · obtain ⟨I, hI, hfreq⟩ :=
          erased_of_assignChannel hkeys₁ hUL (hmap ▸ hmem) huplink
        exact ⟨I, Or.inl hI, hfreq⟩

/-! ## Runs -/

theorem occupied_step {C C' : Controller} {event : Event}
    (hkeys : C.KeysMatch) (howned : C.Owned) (hC : C.Occupied)
    (hkeeps : C.KeepsOccupied event) (h : C.step event = some C') :
    C'.Occupied := by
  cases transition_of_step h with
  | nothing => exact hC
  | heartbeat => exact hC
  | removal => exact occupied_removeNode _ _ _
  | configuration hconfig =>
      exact occupied_handleConfig hkeys howned hC hkeeps hconfig

theorem stopsErased_event {C : Controller} {event : Event}
    (hkeys : C.KeysMatch) (howned : C.Owned) (hC : C.Occupied)
    (hkeeps : C.KeepsOccupied event) : C.StopsErased event := by
  intro I hI
  unfold erased at hI
  split at hI
  · exact work_configErases hkeys howned hC hkeeps hI
  · cases hremoved : C.removed event with
    | none =>
        rw [hremoved] at hI
        cases hI
    | some removed =>
        rw [hremoved] at hI
        exact work_removalErases hC hI

/-- From every state that a history reaches with all intermediates in use, in
either mode: when every request that follows fills the channels it creates, all
intermediates stay in use and whatever is erased has been told to stop. -/
theorem occupied_of_keepsOccupied (sandbox : Bool)
    (defaults : Option PropagationDefaults) (before events : List Event)
    {C : Controller}
    (hrun : run step (create sandbox defaults) before = some C)
    (hC : C.Occupied) (hkeeps : EveryStep step KeepsOccupied C events) :
    EveryState step Occupied C events ∧ EveryStep step StopsErased C events := by
  have hinv : ∀ D event D', D.KeysMatch ∧ D.Owned → step D event = some D' →
      D'.KeysMatch ∧ D'.Owned := fun D event D' hD hstep =>
    ⟨(kept_freq _).step hD.1 hstep, owned_step hD.2 hstep⟩
  have hsound : C.KeysMatch ∧ C.Owned := by
    refine (everyState_of_invariant hinv ⟨?_, ?_⟩ before).of_run hrun
    · exact FiniteMap.all_empty
    · exact (orderly_create sandbox defaults).owned
  clear hrun
  induction events generalizing C with
  | nil => exact ⟨hC, trivial⟩
  | cons event events ih =>
      obtain ⟨hfirst, hrest⟩ := hkeeps
      have htail : ∀ D, step C event = some D →
          EveryState step Occupied D events ∧
            EveryStep step StopsErased D events := by
        intro D hstep
        exact ih (occupied_step hsound.1 hsound.2 hC hfirst hstep)
          (hrest D hstep) (hinv C event D hsound hstep)
      refine ⟨⟨hC, fun D hstep => (htail D hstep).1⟩, ?_,
        fun D hstep => (htail D hstep).2⟩
      exact stopsErased_event hsound.1 hsound.2 hC hfirst

theorem fillsChannels_of_present {C : Controller} {node : Node}
    {ch : Usrp.Channel} (hstill : ∀ dir, moves dir node ch = false)
    (htx : ch.txTuneFreq ∈ C.intermediateMap)
    (hrx : ch.rxTuneFreq ∈ C.intermediateMap) : FillsChannels C node ch where
  uplink _ := Or.inl htx
  downlink _ := by
    refine Or.inr ⟨hrx, ?_⟩
    rintro ⟨hmoves, -⟩
    cases (hstill .uplink).symm.trans hmoves
  lastUplink _ hmoves := by cases (hstill .uplink).symm.trans hmoves
  lastDownlink _ hmoves := by cases (hstill .downlink).symm.trans hmoves

/-- A second node registers on the channels that the first one uses. -/
theorem occupied_with_second_node :
    ∃ C,
      run step (create false none)
        [.request (.config (plainConfig "n" 2400000000 2500000000))
            "10.0.0.1" 0,
          .request (.config (plainConfig "n" 2450000000 2550000000))
            "10.0.0.1" 1] = some C ∧
      EveryState step Occupied C
        [.request (.config (plainConfig "m" 2450000000 2550000000))
            "10.0.0.2" 2,
          .request (.disconnect "n") "10.0.0.1" 3] ∧
      EveryStep step StopsErased C
        [.request (.config (plainConfig "m" 2450000000 2550000000))
            "10.0.0.2" 2,
          .request (.disconnect "n") "10.0.0.1" 3] := by
  have hcheck : (run step (create false none)
      [.request (.config (plainConfig "n" 2400000000 2500000000))
          "10.0.0.1" 0,
        .request (.config (plainConfig "n" 2450000000 2550000000))
          "10.0.0.1" 1]).any
      (fun C => (FiniteMap.values C.intermediateMap).all
          (fun I => !I.isEmpty) &&
        decide ("m" ∉ C.nodeMap) &&
        decide ((2450000000 : ℚ) ∈ C.intermediateMap) &&
        decide ((2550000000 : ℚ) ∈ C.intermediateMap)) = true := by
    decide +kernel
  obtain ⟨C, hrun, hC⟩ := (Option.any_eq_true _ _).mp hcheck
  simp only [Bool.and_eq_true, decide_eq_true_eq] at hC
  obtain ⟨⟨⟨hall, hnew⟩, htx⟩, hrx⟩ := hC
  refine ⟨C, hrun, ?_⟩
  refine occupied_of_keepsOccupied false none _ _ hrun ?_ ?_
  · intro freq I hI
    have hsome := List.all_eq_true.mp hall I
      (FiniteMap.mem_values_iff.mpr ⟨freq, hI⟩)
    simpa using hsome
  · refine ⟨?_, fun D _ => ⟨trivial, fun _ _ => trivial⟩⟩
    intro ch hch
    cases hch
    refine fillsChannels_of_present ?_ htx hrx
    intro dir
    have hfound : C.found (plainConfig "m" 2450000000 2550000000) 2 =
        Node.create (plainConfig "m" 2450000000 2550000000) 2 := by
      have hnone : C.nodeMap.lookup (plainConfig "m" 2450000000
          2550000000).id = none := AList.lookup_eq_none.mpr hnew
      rw [found, hnone, Option.getD_none]
    rw [hfound]
    cases dir <;> exact freqChanged_self _

/-- The first registration creates two intermediates that nobody is in. -/
theorem first_registration_creates_empty :
    ¬EveryState step Occupied (create false none)
      [.request (.config (plainConfig "n" 2400000000 2500000000))
        "10.0.0.1" 0] := by
  intro h
  have hcheck : (run step (create false none)
      [.request (.config (plainConfig "n" 2400000000 2500000000))
        "10.0.0.1" 0]).any
      (fun C => (C.intermediateMap.lookup 2400000000).any
        Intermediate.isEmpty) = true := by
    decide +kernel
  obtain ⟨C, hrun, hC⟩ := (Option.any_eq_true _ _).mp hcheck
  obtain ⟨I, hI, hempty⟩ := (Option.any_eq_true _ _).mp hC
  have hoccupied : C.Occupied := h.of_run hrun
  cases (hoccupied 2400000000 I hI).symm.trans hempty

end Controller

end Chem
