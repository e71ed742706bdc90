import ChemEmulator.Node.Attachment
import ChemEmulator.Node.RefreshResult

/-!
# What a channel assignment writes

The three ends of `AssignULChannel` and `AssignDLChannel` with the node and
the state they leave, in both modes; nothing is assumed about the state
before.
-/

namespace Chem

namespace Controller

/-! ## What is written -/

/-- `node'` is `node` up to the fields that an assignment writes: channels,
sample rate, ports and endpoints. -/
structure SameRecord (node node' : Node) : Prop where
  config : node'.config = { node.config with
    channels := node'.config.channels
    sampleRate := node'.config.sampleRate
    portTxNum := node'.config.portTxNum
    portRxNum := node'.config.portRxNum }
  characteristics : node'.characteristics = node.characteristics
  location : node'.location = node.location

theorem SameRecord.trans {node node' node'' : Node}
    (h : SameRecord node node') (h' : SameRecord node' node'') :
    SameRecord node node'' where
  config := by
    have hconfig := h'.config
    rw [h.config] at hconfig
    exact hconfig
  characteristics := h'.characteristics.trans h.characteristics
  location := h'.location.trans h.location

theorem sameRecord_setEndpoint (dir : Direction) {node node' : Node}
    (h : SameRecord node node') (st : EndpointState) :
    SameRecord node (node'.setEndpoint dir st) := by
  cases dir <;> exact ⟨h.config, h.characteristics, h.location⟩

/-- What an assignment for `ch` leaves in the node and in the state. -/
structure Outcome (dir : Direction) (C C' : Controller) (node node' : Node)
    (newConfig : NodeConfig) (ch : Usrp.Channel) (created : Bool) : Prop where
  created : created = moves dir node ch
  nodeMap : C'.nodeMap = C.nodeMap
  sandbox : C'.sandbox = C.sandbox
  vehicleHandlers : C'.vehicleHandlers = C.vehicleHandlers
  record : SameRecord node node'
  sampleRate : node'.config.sampleRate =
    if moves dir node ch then node.config.sampleRate else newConfig.sampleRate
  channels : node'.config.channels = if moves dir node ch then
    node.config.channels.modifyHead (dir.setFreq (dir.freqOf ch))
    else node.config.channels
  tuned : moves dir node ch = true → node.config.channels ≠ []
  endpoint : C.sandbox = false → ∃ st, node'.endpoint dir = some st
  others : ∀ dir' ≠ dir, node'.endpoint dir' = node.endpoint dir'

/-- The node with its endpoint. -/
structure Equips (dir : Direction) (C C₁ : Controller) (node node₁ : Node)
    (e : Option EndpointState) : Prop where
  record : SameRecord node node₁
  sampleRate : node₁.config.sampleRate = node.config.sampleRate
  channels : node₁.config.channels = node.config.channels
  endpoint : C.sandbox = false → ∃ st, e = some st ∧
    node₁.endpoint dir = some st
  formats : ∀ st, e = some st →
    st.nodeConfig.inputFormat = node.config.inputFormat ∧
      st.nodeConfig.outputFormat = node.config.outputFormat
  others : ∀ dir' ≠ dir, node₁.endpoint dir' = node.endpoint dir'

theorem equip_spec {dir : Direction} {C C₁ : Controller} {node node₁ : Node}
    {e : Option EndpointState} (h : equip dir C node = some (e, C₁, node₁)) :
    Equips dir C C₁ node node₁ e := by
  rcases equip_cases h with
    ⟨hsandbox, rfl, -, rfl⟩ | ⟨-, st, rfl, hensured⟩
  · refine ⟨⟨rfl, rfl, rfl⟩, rfl, rfl, fun hoff => ?_, fun st hst => ?_,
      fun _ _ => rfl⟩
    · cases hsandbox.symm.trans hoff
    · cases hst
  · have hconfig := hensured.config_eq
    have hrecord : SameRecord node node₁ := by
      rw [hensured.record]
      apply sameRecord_setEndpoint
      exact ⟨rfl, rfl, rfl⟩
    refine ⟨hrecord, ?_, ?_, fun _ => ⟨st, rfl, hensured.stored⟩, ?_,
      hensured.sameExcept.endpoint⟩
    · rw [hconfig]
    · rw [hconfig]
    · intro st' hst'
      cases hst'
      obtain ⟨st₀, hst, -⟩ := hensured.endpoint
      rw [hst]
      exact ⟨rfl, rfl⟩

/-- A node that has its endpoint only gets new formats. -/
theorem equip_of_endpoint {dir : Direction} {C : Controller} {node : Node}
    {st : EndpointState} (hsandbox : C.sandbox = false)
    (hst : node.endpoint dir = some st) :
    equip dir C node =
      let e := st.setFormats node.config.inputFormat node.config.outputFormat
      some (some e, C, node.setEndpoint dir e) := by
  unfold equip ensureEndpoint
  simp [hsandbox, hst]

theorem sampleRate_of_compare {node : Node} {nc : NodeConfig}
    (h : node.compare nc = true) : node.config.sampleRate = nc.sampleRate := by
  simp only [Node.compare, Bool.and_eq_true, decide_eq_true_eq] at h
  obtain ⟨⟨⟨⟨⟨⟨⟨⟨⟨-, hrate⟩, -⟩, -⟩, -⟩, -⟩, -⟩, -⟩, -⟩, -⟩ := h
  exact hrate

theorem joinChannel_spec {dir : Direction} {C C' : Controller} {freq : ℚ}
    {e : Option EndpointState} {node node' : Node} {newConfig : NodeConfig}
    (h : joinChannel dir C freq e node newConfig = some (C', node')) :
    SameRecord node node' ∧
      node'.config.sampleRate = node.config.sampleRate ∧
      node.config.channels ≠ [] ∧ node'.config.channels =
        node.config.channels.modifyHead (dir.setFreq freq) ∧
      (∀ st, e = some st → node'.endpoint dir =
        some ((st.updateFreq freq).setSampleRate dir
          (toUInt32 (dir.rateOf node.config.sampleRate)))) ∧
      ∀ dir' ≠ dir, node'.endpoint dir' = node.endpoint dir' := by
  cases joined_of_joinChannel h with
  | sandbox hchannels =>
      refine ⟨⟨rfl, rfl, rfl⟩, rfl, by simp [hchannels], ?_, ?_,
        fun _ _ => rfl⟩
      · rw [hchannels]
        rfl
      · intro st hst
        cases hst
  | endpoint hchannels =>
      refine ⟨?_, ?_, by simp [hchannels], ?_, ?_, ?_⟩
      · apply sameRecord_setEndpoint
        exact ⟨rfl, rfl, rfl⟩
      · rw [Node.config_setEndpoint]
      · rw [Node.config_setEndpoint, hchannels]
        rfl
      · intro st' hst'
        cases hst'
        exact Node.endpoint_setEndpoint_same ..
      · intro dir' hdir
        rw [Node.endpoint_setEndpoint_ne _ _ hdir]
        cases dir' <;> rfl

theorem mem_createChannel (C : Controller) (freq freq' : ℚ) :
    freq' ∈ (C.createChannel freq).intermediateMap ↔
      freq' ∈ C.intermediateMap ∨ freq' = freq := by
  unfold createChannel
  split_ifs with hmem
  · constructor
    · exact Or.inl
    · rintro (hfound | rfl)
      · exact hfound
      · exact hmem
  · rw [AList.mem_insert, or_comm]

theorem keepChannel_spec (dir : Direction) (e : Option EndpointState)
    (node : Node) (newConfig : NodeConfig) :
    SameRecord node (keepChannel dir e node newConfig) ∧
      (keepChannel dir e node newConfig).config =
        { node.config with sampleRate := newConfig.sampleRate } ∧
      (∀ st, e = some st → (keepChannel dir e node newConfig).endpoint dir =
        some (st.setSampleRate dir
          (toUInt32 (dir.rateOf newConfig.sampleRate)))) ∧
      ∀ dir' ≠ dir, (keepChannel dir e node newConfig).endpoint dir' =
        node.endpoint dir' := by
  unfold keepChannel
  cases e with
  | none =>
      refine ⟨⟨rfl, rfl, rfl⟩, rfl, ?_, fun _ _ => rfl⟩
      intro st hst
      cases hst
  | some st =>
      refine ⟨?_, Node.config_setEndpoint .., ?_, ?_⟩
      · apply sameRecord_setEndpoint
        exact ⟨rfl, rfl, rfl⟩
      · intro st' hst'
        cases hst'
        exact Node.endpoint_setEndpoint_same ..
      · intro dir' hdir
        dsimp only
        rw [Node.endpoint_setEndpoint_ne _ _ hdir]
        cases dir' <;> rfl

theorem assignChannel_outcome {dir : Direction} {C C' : Controller}
    {node node' : Node} {newConfig : NodeConfig} {ch : Usrp.Channel}
    {rest : List Usrp.Channel} {created : Bool}
    (hchannels : newConfig.channels = ch :: rest)
    (h : assignChannel dir C node newConfig = some (created, C', node')) :
    Outcome dir C C' node node' newConfig ch created := by
  obtain ⟨e, C₁, node₁, hequip, hends⟩ := assignChannel_ends hchannels h
  obtain ⟨-, hnodes, hbox, hhandlers⟩ := equip_some hequip
  have hspec := equip_spec hequip
  have hrest := hends.onlyChannels
  have hnodes' := hrest.nodeMap.trans hnodes
  have hbox' := hrest.sandbox.trans hbox
  have hhandlers' := hrest.vehicleHandlers.trans hhandlers
  cases hends with
  | repeated hrepeat hstill =>
      refine ⟨hstill.symm, hnodes', hbox', hhandlers', hspec.record, ?_, ?_, ?_,
        ?_, hspec.others⟩
      · rw [hstill, if_neg Bool.false_ne_true, hspec.sampleRate]
        exact sampleRate_of_compare (Bool.and_eq_true_iff.mp hrepeat).1
      · rw [hstill, if_neg Bool.false_ne_true, hspec.channels]
      · intro hmoves
        cases hstill.symm.trans hmoves
      · intro hoff
        obtain ⟨st, -, hst⟩ := hspec.endpoint hoff
        exact ⟨st, hst⟩
  | moved hrepeat hmoves hjoin =>
      obtain ⟨hrecord, hrate, htuned, hch, hst, hothers⟩ :=
        joinChannel_spec hjoin
      refine ⟨hmoves.symm, hnodes', hbox', hhandlers',
        hspec.record.trans hrecord, ?_, ?_, fun _ => hspec.channels ▸ htuned,
        ?_, ?_⟩
      · rw [if_pos hmoves, hrate, hspec.sampleRate]
      · rw [if_pos hmoves, hch, hspec.channels]
      · intro hoff
        obtain ⟨st, he, -⟩ := hspec.endpoint hoff
        exact ⟨_, hst st he⟩
      · intro dir' hdir
        rw [hothers dir' hdir, hspec.others dir' hdir]
  | kept hrepeat hstill =>
      obtain ⟨hrecord, hconfig, hst, hothers⟩ :=
        keepChannel_spec dir e node₁ newConfig
      refine ⟨hstill.symm, hnodes', hbox', hhandlers',
        hspec.record.trans hrecord, ?_, ?_, ?_, ?_, ?_⟩
      · rw [hstill, if_neg Bool.false_ne_true, hconfig]
      · rw [hstill, if_neg Bool.false_ne_true, hconfig, ← hspec.channels]
      · intro hmoves
        cases hstill.symm.trans hmoves
      · intro hoff
        obtain ⟨st, he, -⟩ := hspec.endpoint hoff
        exact ⟨_, hst st he⟩
      · intro dir' hdir
        rw [hothers dir' hdir, hspec.others dir' hdir]

/-- An assignment works on the node it is given, not on the node map. -/
theorem nodeMap_assignChannel {dir : Direction} {C C' : Controller}
    {node node' : Node} {newConfig : NodeConfig} {created : Bool}
    (h : assignChannel dir C node newConfig = some (created, C', node')) :
    C'.nodeMap = C.nodeMap := by
  cases hchannels : newConfig.channels with
  | nil =>
      rw [assignChannel, hchannels] at h
      cases h
      rfl
  | cons ch rest => exact (assignChannel_outcome hchannels h).nodeMap

theorem sandbox_assignChannel {dir : Direction} {C C' : Controller}
    {node node' : Node} {newConfig : NodeConfig} {created : Bool}
    (h : assignChannel dir C node newConfig = some (created, C', node')) :
    C'.sandbox = C.sandbox := by
  cases hchannels : newConfig.channels with
  | nil =>
      rw [assignChannel, hchannels] at h
      cases h
      rfl
  | cons ch rest => exact (assignChannel_outcome hchannels h).sandbox

/-! ## Nodes that stay -/

/-- A node that stays and has its endpoint, or needs none. -/
structure Stays (dir : Direction) (C : Controller) (node : Node)
    (ch : Usrp.Channel) : Prop where
  still : moves dir node ch = false
  endpoint : C.sandbox = false → ∃ st, node.endpoint dir = some st

/-- What becomes of the endpoint of a node that stays. -/
def stillEndpoint (dir : Direction) (C : Controller) (node : Node)
    (newConfig : NodeConfig) (ch : Usrp.Channel) (st : EndpointState) :
    EndpointState :=
  let st := st.setFormats node.config.inputFormat node.config.outputFormat
  if isRepeat dir C node newConfig ch then st
  else st.setSampleRate dir (toUInt32 (dir.rateOf newConfig.sampleRate))

/-- The node that an assignment leaves when nothing moves. -/
structure Remains (dir : Direction) (C : Controller) (node node' : Node)
    (newConfig : NodeConfig) (ch : Usrp.Channel) : Prop where
  config : node'.config =
    { node.config with sampleRate := newConfig.sampleRate }
  characteristics : node'.characteristics = node.characteristics
  location : node'.location = node.location
  lastHeartbeat : node'.lastHeartbeat = node.lastHeartbeat
  sandbox : C.sandbox = true → node'.endpoint dir = node.endpoint dir
  endpoint : C.sandbox = false → node'.endpoint dir =
    (node.endpoint dir).map (stillEndpoint dir C node newConfig ch)
  others : ∀ dir' ≠ dir, node'.endpoint dir' = node.endpoint dir'

/-- An assignment that moves nothing always succeeds; it creates the channel
if it is missing. -/
theorem assignChannel_of_stays {dir : Direction} {C : Controller} {node : Node}
    {newConfig : NodeConfig} {ch : Usrp.Channel} {rest : List Usrp.Channel}
    (hchannels : newConfig.channels = ch :: rest)
    (hstays : Stays dir C node ch) :
    ∃ node', assignChannel dir C node newConfig =
        some (false, C.createChannel (dir.freqOf ch), node') ∧
      Remains dir C node node' newConfig ch := by
  have hsame : isRepeat dir C node newConfig ch = true →
      node.config = { node.config with sampleRate := newConfig.sampleRate } := by
    intro hrepeat
    rw [← sampleRate_of_compare (Bool.and_eq_true_iff.mp hrepeat).1]
  rw [assignChannel_eq hchannels, hstays.still]
  by_cases hsandbox : C.sandbox = true
  · have hequip : equip dir C node = some (none, C, node) := if_pos hsandbox
    have hoff : C.sandbox ≠ false := by simp [hsandbox]
    rw [hequip]
    dsimp only [Option.bind]
    by_cases hrepeat : isRepeat dir C node newConfig ch = true
    · rw [if_pos hrepeat]
      exact ⟨node, rfl, hsame hrepeat, rfl, rfl, rfl, fun _ => rfl,
        fun h => absurd h hoff, fun _ _ => rfl⟩
    · rw [if_neg hrepeat]
      exact ⟨_, rfl, rfl, rfl, rfl, rfl, fun _ => by cases dir <;> rfl,
        fun h => absurd h hoff, fun dir' _ => by cases dir' <;> rfl⟩
  · have hoff : C.sandbox = false := Bool.not_eq_true _ ▸ hsandbox
    obtain ⟨st, hst⟩ := hstays.endpoint hoff
    rw [equip_of_endpoint hoff hst]
    dsimp only [Option.bind]
    by_cases hrepeat : isRepeat dir C node newConfig ch = true
    · rw [if_pos hrepeat]
      refine ⟨_, rfl, ?_, ?_, ?_, ?_, fun h => absurd h hsandbox, ?_, ?_⟩
      · rw [Node.config_setEndpoint]
        exact hsame hrepeat
      · cases dir <;> rfl
      · cases dir <;> rfl
      · cases dir <;> rfl
      · intro _
        rw [Node.endpoint_setEndpoint_same, hst]
        simp only [Option.map_some, stillEndpoint, hrepeat, if_true]
      · intro dir' hdir
        exact Node.endpoint_setEndpoint_ne _ _ hdir
    · rw [if_neg hrepeat]
      obtain ⟨hrecord, hconfig, hendpoint, hothers⟩ := keepChannel_spec dir
        (some (st.setFormats node.config.inputFormat node.config.outputFormat))
        (node.setEndpoint dir
          (st.setFormats node.config.inputFormat node.config.outputFormat))
        newConfig
      refine ⟨_, rfl, ?_, ?_, ?_, ?_, fun h => absurd h hsandbox, ?_, ?_⟩
      · rw [hconfig, Node.config_setEndpoint]
      · cases dir <;> rfl
      · cases dir <;> rfl
      · cases dir <;> rfl
      · intro _
        rw [hendpoint _ rfl, hst]
        simp only [Option.map_some, stillEndpoint, hrepeat, if_false,
          Bool.false_eq_true]
      · intro dir' hdir
        rw [hothers dir' hdir]
        exact Node.endpoint_setEndpoint_ne _ _ hdir

/-- After an assignment the same request would move nothing. -/
theorem Outcome.still {dir : Direction} {C C' : Controller}
    {node node' : Node} {newConfig : NodeConfig} {ch : Usrp.Channel}
    {created : Bool} (h : Outcome dir C C' node node' newConfig ch created) :
    moves dir node' ch = false := by
  by_cases hmoves : moves dir node ch = true
  · have hchannels := h.channels
    obtain ⟨first, rest, hfirst⟩ := List.exists_cons_of_ne_nil (h.tuned hmoves)
    rw [if_pos hmoves, hfirst, List.modifyHead_cons] at hchannels
    unfold moves prevFreq Node.freq?
    rw [hchannels, List.head?_cons, Option.map_some, freqOf_setFreq_same]
    exact freqChanged_self _
  · have hchannels := h.channels
    rw [if_neg hmoves] at hchannels
    unfold moves prevFreq Node.freq?
    rw [hchannels]
    exact Bool.not_eq_true _ ▸ hmoves

/-- The frequency of the other direction is not touched. -/
theorem Outcome.freq?_of_ne {dir : Direction} {C C' : Controller}
    {node node' : Node} {newConfig : NodeConfig} {ch : Usrp.Channel}
    {created : Bool} (h : Outcome dir C C' node node' newConfig ch created)
    {dir' : Direction} (hdir : dir' ≠ dir) :
    node'.freq? dir' = node.freq? dir' := by
  unfold Node.freq?
  rw [h.channels]
  split_ifs
  · cases node.config.channels with
    | nil => rfl
    | cons first rest =>
        rw [List.modifyHead_cons, List.head?_cons, List.head?_cons,
          Option.map_some, Option.map_some, freqOf_setFreq_ne hdir]
  · rfl

end Controller

end Chem
