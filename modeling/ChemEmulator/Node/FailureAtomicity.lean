import ChemEmulator.Node.Reregistration

/-!
# What a failed request leaves

A request that is answered with `fail` should leave everything as it was.  A
configuration request is refreshed and assigned before its status is decided,
so a failed one has been carried out all the same.  The state is untouched
exactly when the request has nothing to report that is not stored already.
-/

namespace Chem

open PartialRuns

namespace Controller

/-- Nodes with their endpoints, intermediates with their members, ports and
vehicle handlers are the same. -/
structure Untouched (C C' : Controller) : Prop where
  nodes : ∀ id, C'.nodeMap.lookup id = C.nodeMap.lookup id
  intermediates : ∀ freq,
    C'.intermediateMap.lookup freq = C.intermediateMap.lookup freq
  txPortPool : C'.txPortPool = C.txPortPool
  rxPortPool : C'.rxPortPool = C.rxPortPool
  vehicleHandlers : ∀ key,
    C'.vehicleHandlers.lookup key = C.vehicleHandlers.lookup key

theorem Untouched.refl (C : Controller) : Untouched C C :=
  ⟨fun _ => rfl, fun _ => rfl, rfl, rfl, fun _ => rfl⟩

/-! ## Requests without news -/

/-- The endpoint works with the formats and the rate of the request. -/
@[mk_iff]
structure UpToDate (dir : Direction) (st : EndpointState) (n : NodeConfig) :
    Prop where
  inputFormat : st.nodeConfig.inputFormat = n.inputFormat
  outputFormat : st.nodeConfig.outputFormat = n.outputFormat
  sampleRate : st.sampleRate = toUInt32 (dir.rateOf n.sampleRate)
  copy : dir.rateOf st.nodeConfig.sampleRate =
    ((toUInt32 (dir.rateOf n.sampleRate)).toNat : ℚ)

/-- The channels of the request are there, and the node works with its
rate. -/
@[mk_iff]
structure Served (C : Controller) (node : Node) (n : NodeConfig)
    (ch : Usrp.Channel) : Prop where
  sampleRate : node.config.sampleRate = n.sampleRate
  channels : ∀ dir : Direction, dir.freqOf ch ∈ C.intermediateMap
  endpoints : C.sandbox = false →
    ∀ dir, ∃ st, node.endpoint dir = some st ∧ UpToDate dir st n

/-- The node has everything that the request reports: the fields, the vehicle
address with no handler to be added for it, and, if it has channels, the rate
and the intermediates. -/
@[mk_iff]
structure Informed (C : Controller) (node : Node) (n : NodeConfig) : Prop where
  carries : node.Carries n
  address : ∀ address, n.storedAddress C.vehicleHandlers = some address →
    node.config.vehicleAddress = address ∧
      n.canConnect C.vehicleHandlers = false
  served : ∀ ch, n.channels.head? = some ch → Served C node n ch

/-- Only a configuration request for a known node can bring news. -/
def NothingNew (C : Controller) (remoteIp : String) : Request → Prop
  | .config n => ∀ node, C.nodeMap.lookup n.id = some node →
      C.Informed node { n with ipAddress := remoteIp }
  | _ => True

/-! The conditions can be evaluated. -/

instance (node : Node) (n : NodeConfig) : Decidable (node.Carries n) :=
  decidable_of_iff _ (Node.carries_iff node n).symm

instance (dir : Direction) (st : EndpointState) (n : NodeConfig) :
    Decidable (UpToDate dir st n) :=
  decidable_of_iff _ (upToDate_iff dir st n).symm

instance (C : Controller) (node : Node) (n : NodeConfig)
    (ch : Usrp.Channel) : Decidable (Served C node n ch) :=
  decidable_of_iff _ (served_iff C node n ch).symm

instance (C : Controller) (node : Node) (n : NodeConfig) :
    Decidable (Informed C node n) :=
  decidable_of_iff _ (informed_iff C node n).symm

instance (C : Controller) (remoteIp : String) :
    ∀ request, Decidable (C.NothingNew remoteIp request)
  | .config n => inferInstanceAs (Decidable (∀ node,
      C.nodeMap.lookup n.id = some node →
        C.Informed node { n with ipAddress := remoteIp }))
  | .malformed | .illTyped | .heartbeat _ | .disconnect _ => isTrue trivial

/-! ## A request without news changes nothing -/

theorem storedHandlers_eq_self {n : NodeConfig} {handlers : VehicleHandlers}
    (h : ∀ address, n.storedAddress handlers = some address →
      n.canConnect handlers = false) : n.storedHandlers handlers = handlers := by
  unfold NodeConfig.storedHandlers
  split_ifs with hroom
  · cases haddress : n.storedAddress handlers with
    | none => rfl
    | some address =>
        rw [h address haddress] at hroom
        cases hroom
  · rfl

theorem UpToDate.stillEndpoint_eq {dir : Direction} {C : Controller}
    {node : Node} {n q : NodeConfig} {ch : Usrp.Channel} {st : EndpointState}
    (h : UpToDate dir st n) (hcarries : node.Carries n)
    (hrate : q.sampleRate = n.sampleRate) :
    stillEndpoint dir C node q ch st = st := by
  have hformats : st.setFormats node.config.inputFormat
      node.config.outputFormat = st := by
    unfold EndpointState.setFormats
    rw [hcarries.inputFormat, hcarries.outputFormat, ← h.inputFormat,
      ← h.outputFormat]
  have hset : st.setSampleRate dir (toUInt32 (dir.rateOf q.sampleRate)) =
      st := by
    have hcopy := h.copy
    unfold EndpointState.setSampleRate
    rw [hrate, ← hcopy, ← h.sampleRate]
    cases dir <;> rfl
  unfold stillEndpoint
  simp only [hformats, hset, ite_self]

theorem Remains.eq_self {dir : Direction} {C : Controller} {node node' : Node}
    {n q : NodeConfig} {ch : Usrp.Channel}
    (h : Remains dir C node node' q ch) (hcarries : node.Carries n)
    (hrate : q.sampleRate = n.sampleRate)
    (hstored : node.config.sampleRate = n.sampleRate)
    (hendpoint : C.sandbox = false →
      ∃ st, node.endpoint dir = some st ∧ UpToDate dir st n) :
    node' = node := by
  have hconfig : node'.config = node.config := by
    rw [h.config, hrate, ← hstored]
  have hendpoints : ∀ dir', node'.endpoint dir' = node.endpoint dir' := by
    intro dir'
    by_cases hdir : dir' = dir
    · subst hdir
      by_cases hsandbox : C.sandbox = true
      · exact h.sandbox hsandbox
      · have hoff : C.sandbox = false := Bool.not_eq_true _ ▸ hsandbox
        obtain ⟨st, hst, hdate⟩ := hendpoint hoff
        rw [h.endpoint hoff, hst, Option.map_some,
          hdate.stillEndpoint_eq hcarries hrate]
    · exact h.others dir' hdir
  have hreceiver : node'.receiver = node.receiver := hendpoints .uplink
  have htransmitter : node'.transmitter = node.transmitter :=
    hendpoints .downlink
  cases node
  cases node'
  simp only [Node.mk.injEq]
  exact ⟨hconfig, h.characteristics, h.location, hreceiver, htransmitter,
    h.lastHeartbeat⟩

theorem createChannel_of_mem {C : Controller} {freq : ℚ}
    (h : freq ∈ C.intermediateMap) : C.createChannel freq = C :=
  if_pos h

/-- An assignment for a request without news. -/
theorem assignChannel_of_served {dir : Direction} {C : Controller}
    {node : Node} {n q : NodeConfig} {ch : Usrp.Channel}
    {rest : List Usrp.Channel} (hchannels : q.channels = ch :: rest)
    (hstill : moves dir node ch = false) (hcarries : node.Carries n)
    (hrate : q.sampleRate = n.sampleRate) (hserved : Served C node n ch) :
    assignChannel dir C node q = some (false, C, node) := by
  have hstays : Stays dir C node ch := by
    refine ⟨hstill, fun hoff => ?_⟩
    obtain ⟨st, hst, -⟩ := hserved.endpoints hoff dir
    exact ⟨st, hst⟩
  obtain ⟨node', hassign, hremains⟩ := assignChannel_of_stays hchannels hstays
  have hsame := hremains.eq_self hcarries hrate hserved.sampleRate
    fun hoff => hserved.endpoints hoff dir
  rw [hassign, hsame, createChannel_of_mem (hserved.channels dir)]

/-! ## Failed requests -/

/-- What a failed configuration request has gone through: nothing was created,
and the node differs from the request in the end. -/
structure Fails (C : Controller) (m : NodeConfig) (node : Node)
    (r : Node.Refresh) (C₂ C₃ : Controller) (node₂ node₃ : Node) : Prop where
  known : C.nodeMap.lookup m.id = some node
  refresh : r = node.refreshFromConfig m C.vehicleHandlers
  uplink : assignChannel .uplink { C with vehicleHandlers := r.handlers }
    r.node r.request = some (false, C₂, node₂)
  downlink : assignChannel .downlink C₂ node₂ r.request =
    some (false, C₃, node₃)
  differs : node₃.compare r.request = false

/-- A configuration request fails only for a known node. -/
theorem handleConfig_fail {C C' : Controller} {n : NodeConfig}
    {remoteIp : String} {now : ℤ} {ports : Option (Int16 × Int16)}
    (h : C.handleConfig n remoteIp now = some (⟨.fail, ports⟩, C')) :
    ∃ node r C₂ C₃ node₂ node₃,
      Fails C { n with ipAddress := remoteIp } node r C₂ C₃ node₂ node₃ ∧
        C' = C₃.put n.id node₃ := by
  obtain ⟨target, newlyInserted, C₁, C₂, C₃, node₂, node₃, createdUL,
    createdDL, hget, r, hr, hUL, hDL, rfl, hfail⟩ := handleConfig_some h
  obtain ⟨rfl, rfl, rfl, hcompare⟩ := hfail rfl
  rcases getOrCreateNode_some hget with ⟨hstored, rfl, -⟩ | ⟨-, -, -, -, hnew⟩
  · exact ⟨target, r, C₂, C₃, node₂, node₃,
      ⟨hstored, hr, hUL, hDL, hcompare⟩, rfl⟩
  · cases hnew

/-- An assignment that moves nothing leaves an equal configuration equal. -/
theorem Outcome.compare {dir : Direction} {C C' : Controller}
    {node node' : Node} {q : NodeConfig} {ch : Usrp.Channel} {created : Bool}
    (h : Outcome dir C C' node node' q ch created)
    (hstill : moves dir node ch = false) (hcompare : node.compare q = true) :
    node'.compare q = true := by
  have hrate := h.sampleRate
  have hchannels := h.channels
  rw [hstill, if_neg Bool.false_ne_true] at hrate hchannels
  rw [← sampleRate_of_compare hcompare] at hrate
  have hsame : node'.compare q = node.compare q := by
    unfold Node.compare
    rw [h.record.config, hrate, hchannels]
  rw [hsame, hcompare]

/-- What an assignment has done that neither moved nor was a repetition. -/
theorem assignChannel_kept {dir : Direction} {C C' : Controller}
    {node node' : Node} {q : NodeConfig} {ch : Usrp.Channel}
    {rest : List Usrp.Channel} (hchannels : q.channels = ch :: rest)
    (hrepeat : isRepeat dir C node q ch = false)
    (h : assignChannel dir C node q = some (false, C', node')) :
    (∀ freq, freq ∈ C'.intermediateMap ↔
      freq ∈ C.intermediateMap ∨ freq = dir.freqOf ch) ∧
    (C.sandbox = false → ∃ st, node'.endpoint dir = some st ∧
      ∀ n : NodeConfig, node.config.inputFormat = n.inputFormat →
        node.config.outputFormat = n.outputFormat →
        q.sampleRate = n.sampleRate → UpToDate dir st n) := by
  obtain ⟨e, C₁, node₁, hequip, hends⟩ := assignChannel_ends hchannels h
  have hspec := equip_spec hequip
  cases hends with
  | repeated hsame _ => cases hrepeat.symm.trans hsame
  | kept _ _ =>
      refine ⟨fun freq => ?_, fun hoff => ?_⟩
      · rw [mem_createChannel, (equip_some hequip).1]
      · obtain ⟨st, rfl, -⟩ := hspec.endpoint hoff
        obtain ⟨-, -, hendpoint, -⟩ := keepChannel_spec dir (some st) node₁ q
        obtain ⟨hinput, houtput⟩ := hspec.formats st rfl
        refine ⟨_, hendpoint st rfl, fun n hin hout hrate => ?_⟩
        rw [hrate]
        refine ⟨hinput.trans hin, houtput.trans hout, rfl, ?_⟩
        cases dir <;> rfl

/-- A new handler shows in the map. -/
theorem canConnect_of_lookup {n : NodeConfig} {handlers : VehicleHandlers}
    {address : String} (haddress : n.storedAddress handlers = some address)
    (h : ∀ key, (n.storedHandlers handlers).lookup key = handlers.lookup key) :
    n.canConnect handlers = false := by
  by_contra hroom
  rw [Bool.not_eq_false] at hroom
  have hkey := h n.handlerKey
  have hfree : n.handlerKey ∉ handlers := by
    simpa using (Bool.and_eq_true_iff.mp hroom).2
  unfold NodeConfig.storedHandlers at hkey
  simp only [hroom, haddress, if_true, AList.lookup_insert] at hkey
  rw [AList.lookup_eq_none.mpr hfree] at hkey
  cases hkey

/-- The two assignments of a failed request. -/
theorem assigned_of_fail {C C₂ C₃ : Controller} {node node₂ node₃ : Node}
    {q : NodeConfig} {ch : Usrp.Channel} {rest : List Usrp.Channel}
    (hchannels : q.channels = ch :: rest)
    (hUL : assignChannel .uplink C node q = some (false, C₂, node₂))
    (hDL : assignChannel .downlink C₂ node₂ q = some (false, C₃, node₃))
    (hcompare : node₃.compare q = false) :
    C₃.vehicleHandlers = C.vehicleHandlers ∧ SameRecord node node₃ ∧
      node₃.config.sampleRate = q.sampleRate ∧
      (∀ dir : Direction, dir.freqOf ch ∈ C₃.intermediateMap) ∧
      (C.sandbox = false → ∀ dir, ∃ st, node₃.endpoint dir = some st ∧
        ∀ n : NodeConfig, node.config.inputFormat = n.inputFormat →
          node.config.outputFormat = n.outputFormat →
          q.sampleRate = n.sampleRate → UpToDate dir st n) := by
  have hout₂ := assignChannel_outcome hchannels hUL
  have hout₃ := assignChannel_outcome hchannels hDL
  -- a repetition would have been answered with success
  have hrepeat : ∀ (dir : Direction) (D : Controller) (m : Node),
      m.compare q = false → isRepeat dir D m q ch = false := by
    intro dir D m hdiffers
    unfold isRepeat
    rw [hdiffers, Bool.false_and]
  have hcompare₂ : node₂.compare q = false := by
    by_contra hsame
    rw [hout₃.compare hout₃.created.symm (Bool.not_eq_false _ ▸ hsame)]
      at hcompare
    cases hcompare
  have hcompare₁ : node.compare q = false := by
    by_contra hsame
    rw [hout₂.compare hout₂.created.symm (Bool.not_eq_false _ ▸ hsame)]
      at hcompare₂
    cases hcompare₂
  obtain ⟨hmap₂, hst₂⟩ :=
    assignChannel_kept hchannels (hrepeat _ _ _ hcompare₁) hUL
  obtain ⟨hmap₃, hst₃⟩ :=
    assignChannel_kept hchannels (hrepeat _ _ _ hcompare₂) hDL
  have hformats₂ := hout₂.record.config
  refine ⟨hout₃.vehicleHandlers.trans hout₂.vehicleHandlers,
    hout₂.record.trans hout₃.record, ?_, ?_, ?_⟩
  · rw [hout₃.sampleRate, ← hout₃.created, if_neg Bool.false_ne_true]
  · intro dir
    rw [hmap₃, hmap₂]
    cases dir
    · exact Or.inl (Or.inr rfl)
    · exact Or.inr rfl
  · intro hoff dir
    cases dir with
    | uplink =>
        rw [hout₃.others .uplink (by simp)]
        exact hst₂ hoff
    | downlink =>
        obtain ⟨st, hst, hdate⟩ := hst₃ (hout₂.sandbox.trans hoff)
        refine ⟨st, hst, fun n hin hout hrate => hdate n ?_ ?_ hrate⟩
        · rw [hformats₂]
          exact hin
        · rw [hformats₂]
          exact hout

namespace Fails

variable {C C₂ C₃ : Controller} {m : NodeConfig} {node node₂ node₃ : Node}
  {r : Node.Refresh}

/-- A node that is found unchanged was informed before. -/
theorem informed (h : Fails C m node r C₂ C₃ node₂ node₃)
    (hsame : Untouched C (C₃.put m.id node₃)) : C.Informed node m := by
  obtain ⟨hnode, hhandlers, -, hrequest⟩ :=
    Node.refreshFromConfig_spec h.refresh
  obtain ⟨hchannels, hrate⟩ := request_of_unaddressed hrequest
  have hnode₃ : node₃ = node := by
    have hlookup := hsame.nodes m.id
    rw [lookup_put, if_pos rfl, h.known] at hlookup
    exact Option.some.inj hlookup
  have hcarries := Node.carries_refreshed node m C.vehicleHandlers
  obtain ⟨-, -, -, -, -, haddress⟩ :=
    Node.refreshed_kept node m C.vehicleHandlers
  rw [← hnode] at hcarries haddress
  -- what holds in both cases, with or without channels
  have hcommon : C₃.vehicleHandlers = r.handlers → SameRecord r.node node →
      node.Carries m ∧ ∀ address,
        m.storedAddress C.vehicleHandlers = some address →
        node.config.vehicleAddress = address ∧
          m.canConnect C.vehicleHandlers = false := by
    intro hafter hrecord
    refine ⟨hrecord.carries hcarries, fun address hstored => ⟨?_, ?_⟩⟩
    · rw [hrecord.config]
      rw [hstored] at haddress
      exact haddress
    · refine canConnect_of_lookup hstored fun key => ?_
      rw [← hhandlers, ← hafter]
      exact hsame.vehicleHandlers key
  cases hlist : m.channels with
  | nil =>
      have hnil : r.request.channels = [] := hchannels.trans hlist
      have hUL := h.uplink
      have hDL := h.downlink
      rw [assignChannel_of_nil hnil] at hUL hDL
      cases hUL
      cases hDL
      obtain ⟨hown, hconnect⟩ := hcommon rfl (hnode₃ ▸ ⟨rfl, rfl, rfl⟩)
      refine ⟨hown, hconnect, fun ch hhead => ?_⟩
      rw [hlist] at hhead
      cases hhead
  | cons ch rest =>
      have hcons : r.request.channels = ch :: rest := hchannels.trans hlist
      obtain ⟨hafter, hrecord, hstored, hmem, hendpoints⟩ :=
        assigned_of_fail hcons h.uplink h.downlink h.differs
      rw [hnode₃] at hrecord hstored hendpoints
      obtain ⟨hown, hconnect⟩ := hcommon hafter hrecord
      refine ⟨hown, hconnect, fun ch' hhead => ?_⟩
      rw [hlist] at hhead
      cases hhead
      refine ⟨hstored.trans hrate, fun dir => ?_, fun hoff dir => ?_⟩
      · rw [FiniteMap.mem_iff_lookup, ← hsame.intermediates,
          ← FiniteMap.mem_iff_lookup]
        exact hmem dir
      · obtain ⟨st, hst, hdate⟩ := hendpoints hoff dir
        exact ⟨st, hst, hdate m hcarries.inputFormat hcarries.outputFormat
          hrate⟩

/-- For an informed node nothing is done at all. -/
theorem eq_of_informed (h : Fails C m node r C₂ C₃ node₂ node₃)
    (hown : C.Informed node m) : C₃ = C ∧ node₃ = node := by
  obtain ⟨hnode, hhandlers, -, hrequest⟩ :=
    Node.refreshFromConfig_spec h.refresh
  obtain ⟨hchannels, hrate⟩ := request_of_unaddressed hrequest
  have hsame : r.node = node := by
    rw [hnode]
    exact Node.refreshed_eq_self_iff.mpr
      ⟨hown.carries, fun address hstored => (hown.address address hstored).1⟩
  have hkept : r.handlers = C.vehicleHandlers := by
    rw [hhandlers]
    exact storedHandlers_eq_self fun address hstored =>
      (hown.address address hstored).2
  have hUL := h.uplink
  have hDL := h.downlink
  rw [hsame, hkept] at hUL
  cases hlist : m.channels with
  | nil =>
      have hnil : r.request.channels = [] := hchannels.trans hlist
      rw [assignChannel_of_nil hnil] at hUL hDL
      cases hUL
      cases hDL
      exact ⟨rfl, rfl⟩
  | cons ch rest =>
      have hcons : r.request.channels = ch :: rest := hchannels.trans hlist
      have hserved := hown.served ch (by rw [hlist]; rfl)
      have hstillUL := (assignChannel_outcome hcons hUL).created.symm
      have hULsame := assignChannel_of_served hcons hstillUL hown.carries
        hrate hserved
      cases hULsame.symm.trans hUL
      have hstillDL := (assignChannel_outcome hcons hDL).created.symm
      have hDLsame := assignChannel_of_served hcons hstillDL hown.carries
        hrate hserved
      cases hDLsame.symm.trans hDL
      exact ⟨rfl, rfl⟩

end Fails

/-- A failed configuration request leaves the state untouched exactly when the
node was informed before. -/
theorem untouched_config_iff {C C' : Controller} {n : NodeConfig}
    {remoteIp : String} {now : ℤ} {ports : Option (Int16 × Int16)}
    (h : C.handleConfig n remoteIp now = some (⟨.fail, ports⟩, C')) :
    Untouched C C' ↔ ∀ node, C.nodeMap.lookup n.id = some node →
      C.Informed node { n with ipAddress := remoteIp } := by
  obtain ⟨node, r, C₂, C₃, node₂, node₃, hfails, rfl⟩ := handleConfig_fail h
  constructor
  · intro hsame node' hknown'
    cases hfails.known.symm.trans hknown'
    exact hfails.informed hsame
  · intro hinformed
    obtain ⟨rfl, rfl⟩ :=
      hfails.eq_of_informed (hinformed node hfails.known)
    refine ⟨fun id => ?_, fun _ => rfl, rfl, rfl, fun _ => rfl⟩
    rw [lookup_put]
    split_ifs with hid
    · rw [hid]
      exact hfails.known.symm
    · rfl

/-- The request of a node that reports the gains of its device. -/
def gainedConfig : NodeConfig :=
  { plainConfig "n" 2400000000 2500000000 with
    hasDeviceTxGain := true
    hasDeviceRxGain := true }

/-- The same with another gain of the channel.  Without the gains of the device
the decoder would take them from the channel. -/
def regainedConfig : NodeConfig :=
  { gainedConfig with
    channels := [⟨2400000000, 2500000000, 10, 0, "TX/RX", "RX2"⟩] }

end Controller

end Chem
