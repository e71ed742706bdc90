import ChemEmulator.Node.Assignment
import ChemEmulator.Node.Registration

/-!
# Registering twice

A registration that is sent again should find everything as the first one left
it.  Two things are not settled by the first request.  A portable node that
reports an address of its own keeps it only as long as the call itself adds
the handler, and a sample rate is not stored when both frequencies change in
the same request.  These are the only differences, in every state and in both
modes.
-/

namespace Chem

open PartialRuns

namespace Node

/-- An entry of the node map, without the time of the last heartbeat.  The
endpoints are shared objects; the entry says which ones. -/
structure Entry where
  config : NodeConfig
  characteristics : Option NodeCharacteristics
  location : Option (Location × UInt8)
  receiver : Option Endpoint
  transmitter : Option Endpoint
deriving DecidableEq

def entry (node : Node) : Entry where
  config := node.config
  characteristics := node.characteristics
  location := node.location
  receiver := node.receiver.map EndpointState.endpoint
  transmitter := node.transmitter.map EndpointState.endpoint

end Node

namespace NodeConfig

/-- The request's own address gets a handler, and its key stands for another
address. -/
def TwoAddresses (n : NodeConfig) (handlers : VehicleHandlers) : Prop :=
  n.connects handlers = true ∧
    ∃ address, n.portableAddress = some address ∧ address ≠ n.vehicleAddress

/-! ## The handlers of a repeated request -/

theorem canConnect_storedHandlers {n : NodeConfig} {handlers : VehicleHandlers}
    (haddress : n.storedAddress handlers ≠ none) :
    n.canConnect (n.storedHandlers handlers) = false := by
  obtain ⟨address, hstored⟩ := Option.ne_none_iff_exists'.mp haddress
  unfold storedHandlers
  rw [hstored]
  by_cases hroom : n.canConnect handlers = true
  · rw [if_pos hroom]
    simp [canConnect]
  · rw [if_neg hroom]
    exact Bool.not_eq_true _ ▸ hroom

/-- The address that is stored the second time. -/
theorem storedAddress_storedHandlers (n : NodeConfig)
    (handlers : VehicleHandlers) :
    n.storedAddress (n.storedHandlers handlers) =
      n.fallbackAddress := by
  have hfree : n.connects (n.storedHandlers handlers) = false := by
    unfold connects
    by_cases hvehicle : n.hasVehicleAddress = true
    · rw [canConnect_storedHandlers (storedAddress_ne_none hvehicle handlers),
        Bool.and_false]
    · simp [hvehicle]
  unfold storedAddress
  rw [hfree, if_neg Bool.false_ne_true]

/-- The same address is stored again, except where there are two. -/
theorem storedAddress_again_iff {n : NodeConfig} {handlers : VehicleHandlers}
    (before : String) :
    ((n.storedAddress (n.storedHandlers handlers)).getD
      ((n.storedAddress handlers).getD before) =
        (n.storedAddress handlers).getD before) ↔
      ¬n.TwoAddresses handlers := by
  rw [storedAddress_storedHandlers]
  unfold TwoAddresses
  by_cases hconnects : n.connects handlers = true
  · have hvehicle : n.hasVehicleAddress = true :=
      (Bool.and_eq_true_iff.mp hconnects).1
    have hfirst : n.storedAddress handlers = some n.vehicleAddress :=
      if_pos hconnects
    rw [hfirst, fallbackAddress]
    cases hportable : n.portableAddress with
    | none => simp [hvehicle]
    | some address => simp [hconnects]
  · have hfirst : n.storedAddress handlers = n.fallbackAddress :=
      if_neg hconnects
    rw [← hfirst]
    simp only [hconnects, false_and, not_false_eq_true, iff_true,
      Bool.false_eq_true]
    cases n.storedAddress handlers <;> rfl

/-- The second request adds no handler. -/
theorem storedHandlers_storedHandlers (n : NodeConfig)
    (handlers : VehicleHandlers) :
    n.storedHandlers (n.storedHandlers handlers) =
      n.storedHandlers handlers := by
  by_cases haddress : n.storedAddress handlers = none
  · have hsame : n.storedHandlers handlers = handlers := by
      unfold storedHandlers
      rw [haddress]
      exact ite_self handlers
    rw [hsame, hsame]
  · have htaken := canConnect_storedHandlers haddress
    unfold storedHandlers at htaken ⊢
    rw [if_neg]
    exact Bool.not_eq_true _ ▸ htaken

end NodeConfig

namespace Controller

/-! ## The registry -/

/-- A sandbox node of the intermediate of `freq`. -/
def Sandboxed (C : Controller) (freq : ℚ) (id : NodeId) : Prop :=
  ∃ I, C.intermediateMap.lookup freq = some I ∧ id ∈ I.sandboxNodes

/-- Two states agree on the nodes, on who belongs to which intermediate, on
the ports and on the names of the vehicle handlers. -/
structure SameRegistry (C C' : Controller) : Prop where
  nodes : ∀ id, (C'.nodeMap.lookup id).map Node.entry =
    (C.nodeMap.lookup id).map Node.entry
  attached : ∀ dir freq id e,
    C'.Attached dir freq id e ↔ C.Attached dir freq id e
  sandboxed : ∀ freq id, C'.Sandboxed freq id ↔ C.Sandboxed freq id
  txPortPool : C'.txPortPool = C.txPortPool
  rxPortPool : C'.rxPortPool = C.rxPortPool
  vehicleHandlers : ∀ key,
    key ∈ C'.vehicleHandlers ↔ key ∈ C.vehicleHandlers

theorem sandboxed_createChannel (C : Controller) (freq : ℚ) {k : ℚ}
    {id : NodeId} : (C.createChannel freq).Sandboxed k id ↔ C.Sandboxed k id := by
  by_cases hmem : freq ∈ C.intermediateMap
  · simp [createChannel, hmem]
  · simp only [createChannel, hmem, if_false, Sandboxed]
    by_cases hk : k = freq
    · subst hk
      rw [AList.lookup_insert, AList.lookup_eq_none.mpr hmem]
      simp [(C.newIntermediate_members k).2.2.2]
    · rw [AList.lookup_insert_ne hk]

/-- Creating a channel changes nothing in the registry. -/
theorem sameRegistry_createChannel (C : Controller) (freq : ℚ) :
    SameRegistry C (C.createChannel freq) := by
  have hcreate := C.onlyChannels_createChannel freq
  obtain ⟨htx, hrx⟩ := hcreate.portPools
  refine ⟨fun id => ?_, ?_, ?_, htx, hrx, fun key => ?_⟩
  · rw [hcreate.nodeMap]
  · exact fun dir k id e => C.attached_createChannel freq
  · exact fun k id => C.sandboxed_createChannel freq
  · rw [hcreate.vehicleHandlers]

theorem SameRegistry.trans {C C' C'' : Controller} (h : SameRegistry C C')
    (h' : SameRegistry C' C'') : SameRegistry C C'' where
  nodes id := (h'.nodes id).trans (h.nodes id)
  attached dir freq id e :=
    (h'.attached dir freq id e).trans (h.attached dir freq id e)
  sandboxed freq id := (h'.sandboxed freq id).trans (h.sandboxed freq id)
  txPortPool := h'.txPortPool.trans h.txPortPool
  rxPortPool := h'.rxPortPool.trans h.rxPortPool
  vehicleHandlers key :=
    (h'.vehicleHandlers key).trans (h.vehicleHandlers key)

/-- Only one node is written, so only its entry can make a difference. -/
theorem sameRegistry_put_iff {C C' : Controller} {id : NodeId}
    {node node' : Node} (hknown : C.nodeMap.lookup id = some node)
    (h : SameRegistry C C') :
    SameRegistry C (C'.put id node') ↔ node'.entry = node.entry := by
  constructor
  · intro hsame
    have hentry := hsame.nodes id
    rw [lookup_put, if_pos rfl, hknown] at hentry
    exact Option.some.inj hentry
  · intro hentry
    refine ⟨?_, h.attached, h.sandboxed, h.txPortPool, h.rxPortPool,
      h.vehicleHandlers⟩
    intro id'
    rw [lookup_put]
    split_ifs with hid
    · rw [hid, hknown, Option.map_some, Option.map_some, hentry]
    · exact h.nodes id'

/-! ## The second request -/

theorem getOrCreateNode_of_known {C : Controller} {config : NodeConfig}
    {node : Node} (hknown : C.nodeMap.lookup config.id = some node) (now : ℤ) :
    C.getOrCreateNode (Node.create config now) = some (node, false, C) := by
  unfold getOrCreateNode
  simp only [Node.create, hknown]

/-- The state after a request that moves nothing. -/
structure Again (C C' : Controller) (n : NodeConfig) (node node' : Node) :
    Prop where
  registry : SameRegistry { C with
    vehicleHandlers := n.storedHandlers C.vehicleHandlers } C'
  entry : node'.entry = { node.entry with
    config := { node.config with
      vehicleAddress := (n.storedAddress C.vehicleHandlers).getD
        node.config.vehicleAddress
      sampleRate := if n.channels = [] then node.config.sampleRate
        else n.sampleRate } }

theorem Remains.entry {dir : Direction} {C : Controller} {node node' : Node}
    {newConfig : NodeConfig} {ch : Usrp.Channel}
    (h : Remains dir C node node' newConfig ch) :
    node'.entry = { node.entry with
      config := { node.config with sampleRate := newConfig.sampleRate } } := by
  have hendpoint : ∀ dir', (node'.endpoint dir').map EndpointState.endpoint =
      (node.endpoint dir').map EndpointState.endpoint := by
    intro dir'
    by_cases hdir : dir' = dir
    · subst hdir
      by_cases hsandbox : C.sandbox = true
      · rw [h.sandbox hsandbox]
      · rw [h.endpoint (Bool.not_eq_true _ ▸ hsandbox), Option.map_map]
        refine congrFun (congrArg Option.map (funext fun st => ?_)) _
        unfold stillEndpoint
        simp only [Function.comp_apply]
        split_ifs <;> rfl
    · rw [h.others dir' hdir]
  have hreceiver := hendpoint .uplink
  have htransmitter := hendpoint .downlink
  unfold Node.endpoint at hreceiver htransmitter
  unfold Node.entry
  rw [h.config, h.characteristics, h.location, hreceiver, htransmitter]

/-- The answer to a known node for which nothing was created. -/
theorem handleConfig_of_assigned {C C₂ C₃ : Controller} {n : NodeConfig}
    {remoteIp : String} {node node₂ node₃ : Node} {r : Node.Refresh} (now : ℤ)
    (hknown : C.nodeMap.lookup n.id = some node)
    (hr : r = node.refreshFromConfig { n with ipAddress := remoteIp }
      C.vehicleHandlers)
    (hUL : assignChannel .uplink { C with vehicleHandlers := r.handlers } r.node
      r.request = some (false, C₂, node₂))
    (hDL : assignChannel .downlink C₂ node₂ r.request =
      some (false, C₃, node₃)) :
    ∃ response, C.handleConfig n remoteIp now =
      some (response, C₃.put n.id node₃) := by
  subst hr
  have hget : C.getOrCreateNode (Node.create { n with ipAddress := remoteIp }
      now) = some (node, false, C) := by
    apply getOrCreateNode_of_known
    exact hknown
  unfold handleConfig assignULChannel assignDLChannel
  simp only [Option.bind_eq_bind, hget, Option.bind_some, hUL, hDL]
  by_cases hcompare : node₃.compare (node.refreshFromConfig
      { n with ipAddress := remoteIp } C.vehicleHandlers).request = true
  · exact ⟨_, if_pos hcompare⟩
  · exact ⟨_, if_neg hcompare⟩

theorem assignChannel_of_nil {dir : Direction} {C : Controller} {node : Node}
    {newConfig : NodeConfig} (h : newConfig.channels = []) :
    assignChannel dir C node newConfig = some (false, C, node) := by
  unfold assignChannel
  rw [h]

/-- The fields of the request that the assignments read are not written. -/
theorem request_of_unaddressed {q n : NodeConfig}
    (h : Node.Refresh.unaddressed q = Node.Refresh.unaddressed n) :
    q.channels = n.channels ∧ q.sampleRate = n.sampleRate := by
  simp only [Node.Refresh.unaddressed, Node.Refresh.unplaced,
    Node.Refresh.unwritten, NodeConfig.mk.injEq] at h
  obtain ⟨-, -, -, -, -, -, hrate, hchannels, -⟩ := h
  exact ⟨hchannels, hrate⟩

theorem withAddress_fields (node : Node) (address : Option String) :
    (Node.Refresh.withAddress node address).entry = { node.entry with
        config := { node.config with
          vehicleAddress := address.getD node.config.vehicleAddress } } ∧
      (∀ dir, (Node.Refresh.withAddress node address).endpoint dir =
        node.endpoint dir) ∧
      (Node.Refresh.withAddress node address).config.channels =
        node.config.channels := by
  cases address <;> exact ⟨rfl, fun dir => by cases dir <;> rfl, rfl⟩

theorem Stays.congr {dir : Direction} {C C' : Controller} {node node' : Node}
    {ch : Usrp.Channel} (h : Stays dir C node ch)
    (hsandbox : C'.sandbox = C.sandbox)
    (hchannels : node'.config.channels = node.config.channels)
    (hendpoint : node'.endpoint dir = node.endpoint dir) :
    Stays dir C' node' ch where
  still := by
    unfold moves prevFreq Node.freq?
    rw [hchannels]
    exact h.still
  endpoint hoff := by
    rw [hendpoint]
    exact h.endpoint (hsandbox ▸ hoff)

theorem handleConfig_again {C : Controller} {n : NodeConfig}
    {remoteIp : String} {node : Node} (now : ℤ)
    (hknown : C.nodeMap.lookup n.id = some node)
    (hcarries : node.Carries { n with ipAddress := remoteIp })
    (hstays : ∀ ch rest, n.channels = ch :: rest →
      ∀ dir, Stays dir C node ch) :
    ∃ response C' node', C.handleConfig n remoteIp now =
        some (response, C'.put n.id node') ∧
      Again C C' { n with ipAddress := remoteIp } node node' := by
  obtain ⟨m, hm⟩ : ∃ m, m = { n with ipAddress := remoteIp } := ⟨_, rfl⟩
  have hmchannels : m.channels = n.channels := by rw [hm]
  rw [← hm] at hcarries ⊢
  obtain ⟨r, hr⟩ : ∃ r, r = node.refreshFromConfig m C.vehicleHandlers :=
    ⟨_, rfl⟩
  obtain ⟨hnode, hhandlers, -, hrequest⟩ := Node.refreshFromConfig_spec hr
  rw [hm] at hr
  obtain ⟨hchannels, hrate⟩ := request_of_unaddressed hrequest
  rw [hcarries.refreshed_eq] at hnode
  obtain ⟨hentry, hendpoints, hkept⟩ := withAddress_fields node
    (m.storedAddress C.vehicleHandlers)
  rw [← hnode] at hentry hendpoints hkept
  have hregistry : SameRegistry { C with
      vehicleHandlers := m.storedHandlers C.vehicleHandlers }
      { C with vehicleHandlers := r.handlers } := by
    rw [hhandlers]
    exact ⟨fun _ => rfl, fun _ _ _ _ => Iff.rfl, fun _ _ => Iff.rfl, rfl, rfl,
      fun _ => Iff.rfl⟩
  cases hlist : m.channels with
  | nil =>
      have hnil : r.request.channels = [] := hchannels.trans hlist
      obtain ⟨response, hresult⟩ := handleConfig_of_assigned now hknown hr
        (assignChannel_of_nil hnil) (assignChannel_of_nil hnil)
      refine ⟨response, _, _, hresult, hregistry, ?_⟩
      rw [hentry, hlist, if_pos rfl]
  | cons ch rest =>
      have hcons : r.request.channels = ch :: rest := hchannels.trans hlist
      have hstaysUL : Stays .uplink { C with vehicleHandlers := r.handlers }
          r.node ch :=
        (hstays ch rest (hmchannels ▸ hlist) .uplink).congr rfl hkept
          (hendpoints .uplink)
      obtain ⟨node₂, hUL, hremains₂⟩ := assignChannel_of_stays hcons hstaysUL
      have hstaysDL : Stays .downlink
          ({ C with vehicleHandlers := r.handlers }.createChannel
            (Direction.uplink.freqOf ch)) node₂ ch := by
        refine (hstays ch rest (hmchannels ▸ hlist) .downlink).congr ?_ ?_ ?_
        · exact (onlyChannels_createChannel ..).sandbox
        · rw [hremains₂.config]
          exact hkept
        · rw [hremains₂.others .downlink (by simp)]
          exact hendpoints .downlink
      obtain ⟨node₃, hDL, hremains₃⟩ := assignChannel_of_stays hcons hstaysDL
      obtain ⟨response, hresult⟩ :=
        handleConfig_of_assigned now hknown hr hUL hDL
      refine ⟨response, _, _, hresult, ?_, ?_⟩
      · exact hregistry.trans ((sameRegistry_createChannel _ _).trans
          (sameRegistry_createChannel _ _))
      · have hentry₂ := hremains₂.entry
        have hentry₃ := hremains₃.entry
        rw [hentry₂, hremains₂.config, hentry] at hentry₃
        rw [hentry₃, hlist, if_neg (List.cons_ne_nil _ _), hrate]
        have hconfig := congrArg Node.Entry.config hentry
        exact congrArg (fun config : NodeConfig => { node.entry with
          config := { config with sampleRate := m.sampleRate } }) hconfig

/-! ## The first request -/

/-- A known node that moves in both directions and gets a new rate. -/
def LosesRate (C : Controller) (n : NodeConfig) : Prop :=
  ∃ node ch, C.nodeMap.lookup n.id = some node ∧ n.channels.head? = some ch ∧
    (∀ dir, moves dir node ch = true) ∧
    node.config.sampleRate ≠ n.sampleRate

theorem SameRecord.carries {node node' : Node} {n : NodeConfig}
    (h : SameRecord node node') (hcarries : node.Carries n) :
    node'.Carries n where
  id := by rw [h.config]; exact hcarries.id
  name := by rw [h.config]; exact hcarries.name
  ipAddress := by rw [h.config]; exact hcarries.ipAddress
  inputFormat := by rw [h.config]; exact hcarries.inputFormat
  outputFormat := by rw [h.config]; exact hcarries.outputFormat
  numChannels := by rw [h.config]; exact hcarries.numChannels
  nodeType := by rw [h.config]; exact hcarries.nodeType
  aerpawKey := by rw [h.config]; exact hcarries.aerpawKey
  deviceTxGain := by rw [h.config]; exact hcarries.deviceTxGain
  deviceRxGain := by rw [h.config]; exact hcarries.deviceRxGain
  characteristics := by
    rw [h.config, h.characteristics]
    exact hcarries.characteristics
  location := by
    rw [h.config, h.location]
    exact hcarries.location

/-- What the first request leaves for the second one. -/
structure Settles (C C' : Controller) (n : NodeConfig) (target node : Node) :
    Prop where
  carries : node.Carries n
  stays : ∀ ch rest, n.channels = ch :: rest → ∀ dir, Stays dir C' node ch
  handlers : C'.vehicleHandlers = n.storedHandlers C.vehicleHandlers
  address : node.config.vehicleAddress =
    (n.storedAddress C.vehicleHandlers).getD target.config.vehicleAddress
  sampleRate : ∀ ch rest, n.channels = ch :: rest → node.config.sampleRate =
    if moves .uplink target ch && moves .downlink target ch then
      target.config.sampleRate else n.sampleRate

/-- After both assignments the node would stay in both directions. -/
theorem stays_of_outcomes {C C₂ C₃ : Controller} {node node₂ node₃ : Node}
    {q : NodeConfig} {ch : Usrp.Channel} {createdUL createdDL : Bool}
    (hUL : Outcome .uplink C C₂ node node₂ q ch createdUL)
    (hDL : Outcome .downlink C₂ C₃ node₂ node₃ q ch createdDL)
    (dir : Direction) : Stays dir C₃ node₃ ch := by
  cases dir with
  | downlink =>
      refine ⟨hDL.still, fun hoff => hDL.endpoint ?_⟩
      rw [← hDL.sandbox, hoff]
  | uplink =>
      refine ⟨?_, fun hoff => ?_⟩
      · rw [moves_congr ch (hDL.freq?_of_ne (by simp))]
        exact hUL.still
      · rw [hDL.others .uplink (by simp)]
        refine hUL.endpoint ?_
        rw [← hUL.sandbox, ← hDL.sandbox, hoff]

/-- The node as the request finds it: stored, or built from the request. -/
def Target (C : Controller) (n : NodeConfig) (now : ℤ) (target : Node) : Prop :=
  C.nodeMap.lookup n.id = some target ∨
    (C.nodeMap.lookup n.id = none ∧ target = Node.create n now)

theorem target_getOrCreateNode {C C₁ : Controller} {n : NodeConfig} {now : ℤ}
    {target : Node} {newlyInserted : Bool}
    (h : C.getOrCreateNode (Node.create n now) =
      some (target, newlyInserted, C₁)) : C.Target n now target := by
  rcases getOrCreateNode_some h with ⟨hstored, -⟩ | ⟨hnone, -, htarget, -⟩
  · exact Or.inl hstored
  · exact Or.inr ⟨hnone, htarget⟩

theorem handleConfig_settles {C C' : Controller} {n : NodeConfig}
    {remoteIp : String} {now : ℤ} {response : Response}
    (h : C.handleConfig n remoteIp now = some (response, C')) :
    ∃ target C₃ node₃, C' = C₃.put n.id node₃ ∧
      C.Target { n with ipAddress := remoteIp } now target ∧
      Settles C C₃ { n with ipAddress := remoteIp } target node₃ := by
  obtain ⟨target, newlyInserted, C₁, C₂, C₃, node₂, node₃, createdUL,
    createdDL, hget, r, hr, hUL, hDL, rfl, -⟩ := handleConfig_some h
  obtain ⟨m, hm⟩ : ∃ m, m = { n with ipAddress := remoteIp } := ⟨_, rfl⟩
  rw [← hm] at hget hr ⊢
  refine ⟨target, C₃, node₃, rfl, target_getOrCreateNode hget, ?_⟩
  have hhandlers₁ : C₁.vehicleHandlers = C.vehicleHandlers := by
    rcases getOrCreateNode_some hget with ⟨-, rfl, -⟩ | ⟨-, -, -, rfl, -⟩ <;>
      rfl
  rw [hhandlers₁] at hr
  obtain ⟨hnode, hhandlers, -, hrequest⟩ := Node.refreshFromConfig_spec hr
  obtain ⟨hchannels, hrate⟩ := request_of_unaddressed hrequest
  obtain ⟨hkeptRate, hkeptChannels, -, -, -, haddress⟩ :=
    Node.refreshed_kept target m C.vehicleHandlers
  have hcarries := Node.carries_refreshed target m C.vehicleHandlers
  rw [← hnode] at hkeptRate hkeptChannels haddress hcarries
  cases hlist : m.channels with
  | nil =>
      have hnil : r.request.channels = [] := hchannels.trans hlist
      rw [assignChannel_of_nil hnil] at hUL
      cases hUL
      rw [assignChannel_of_nil hnil] at hDL
      cases hDL
      refine ⟨hcarries, ?_, hhandlers, haddress, ?_⟩
      · intro ch rest hcons
        rw [hlist] at hcons
        cases hcons
      · intro ch rest hcons
        rw [hlist] at hcons
        cases hcons
  | cons ch rest =>
      have hcons : r.request.channels = ch :: rest := hchannels.trans hlist
      have hout₂ := assignChannel_outcome hcons hUL
      have hout₃ := assignChannel_outcome hcons hDL
      have hrecord := hout₂.record.trans hout₃.record
      have hfreq : ∀ dir, r.node.freq? dir = target.freq? dir := by
        intro dir
        unfold Node.freq?
        rw [hkeptChannels]
      have hULmoves : moves .uplink r.node ch = moves .uplink target ch :=
        moves_congr ch (hfreq _)
      have hDLmoves : moves .downlink node₂ ch =
          moves .downlink target ch :=
        moves_congr ch ((hout₂.freq?_of_ne (by simp)).trans (hfreq _))
      refine ⟨hrecord.carries hcarries, ?_, ?_, ?_, ?_⟩
      · intro ch' rest' hcons' dir
        rw [hlist] at hcons'
        cases hcons'
        exact stays_of_outcomes hout₂ hout₃ dir
      · rw [hout₃.vehicleHandlers, hout₂.vehicleHandlers]
        exact hhandlers
      · rw [hrecord.config]
        exact haddress
      · intro ch' rest' hcons'
        rw [hlist] at hcons'
        cases hcons'
        rw [hout₃.sampleRate, hout₂.sampleRate, hULmoves, hDLmoves,
          hkeptRate, hrate]
        cases moves .uplink target ch <;>
          cases moves .downlink target ch <;> rfl

/-! ## Two requests in a row -/

/-- Of the entry only the address and the rate can change. -/
theorem Again.entry_eq_iff {C C' : Controller} {n : NodeConfig}
    {node node' : Node} (h : Again C C' n node node') :
    node'.entry = node.entry ↔
      (n.storedAddress C.vehicleHandlers).getD node.config.vehicleAddress =
        node.config.vehicleAddress ∧
      (n.channels ≠ [] → node.config.sampleRate = n.sampleRate) := by
  rw [h.entry]
  constructor
  · intro hentry
    have hconfig := congrArg Node.Entry.config hentry
    refine ⟨congrArg NodeConfig.vehicleAddress hconfig, fun hchannels => ?_⟩
    have hrate := congrArg NodeConfig.sampleRate hconfig
    simp only [if_neg hchannels] at hrate
    exact hrate.symm
  · rintro ⟨haddress, hrate⟩
    have hkept : (if n.channels = [] then node.config.sampleRate
        else n.sampleRate) = node.config.sampleRate := by
      split_ifs with hchannels
      · rfl
      · exact (hrate hchannels).symm
    rw [haddress, hkept]
    rfl

/-- The rate is stored unless the node moves in both directions. -/
theorem Settles.sampleRate_iff {C C' : Controller} {n : NodeConfig}
    {target node : Node} {now : ℤ} (h : Settles C C' n target node)
    (htarget : C.Target n now target) :
    (n.channels ≠ [] → node.config.sampleRate = n.sampleRate) ↔
      ¬C.LosesRate n := by
  constructor
  · rintro hrate ⟨stored, ch, hstored, hhead, hmoves, hnew⟩
    obtain ⟨rest, hcons⟩ : ∃ rest, n.channels = ch :: rest := by
      cases hlist : n.channels with
      | nil =>
          rw [hlist] at hhead
          cases hhead
      | cons first rest =>
          rw [hlist] at hhead
          cases hhead
          exact ⟨rest, rfl⟩
    rcases htarget with hknown | ⟨hnone, -⟩
    · cases hstored.symm.trans hknown
      have hkept := h.sampleRate ch rest hcons
      rw [hmoves, hmoves, Bool.and_true, if_pos rfl] at hkept
      exact hnew (hkept.symm.trans (hrate (by simp [hcons])))
    · rw [hstored] at hnone
      cases hnone
  · intro hloses hchannels
    obtain ⟨ch, rest, hcons⟩ := List.exists_cons_of_ne_nil hchannels
    rw [h.sampleRate ch rest hcons]
    split_ifs with hmoves
    · obtain ⟨hUL, hDL⟩ := Bool.and_eq_true_iff.mp hmoves
      rcases htarget with hknown | ⟨-, rfl⟩
      · by_contra hnew
        refine hloses ⟨target, ch, hknown, by rw [hcons]; rfl, ?_, hnew⟩
        intro dir
        cases dir
        · exact hUL
        · exact hDL
      · rfl
    · rfl

/-- The address of the client plays no part in the vehicle's. -/
theorem portableAddress_ipAddress (n : NodeConfig) (remoteIp : String) :
    { n with ipAddress := remoteIp }.portableAddress = n.portableAddress := by
  have hanswer := Node.Refresh.answer_congr (n := n)
    (q := { n with ipAddress := remoteIp }) rfl rfl
  have hnumber : { n with ipAddress := remoteIp }.portableNumber =
      n.portableNumber := by
    unfold NodeConfig.portableNumber
    rw [show (Node.resolveLogicalNode { n with ipAddress := remoteIp }).2 =
      (Node.resolveLogicalNode n).2 from congrArg Prod.fst hanswer]
    rfl
  unfold NodeConfig.portableAddress
  rw [hnumber]
  rfl

theorem twoAddresses_ipAddress {n : NodeConfig} (remoteIp : String)
    (handlers : VehicleHandlers) :
    { n with ipAddress := remoteIp }.TwoAddresses handlers ↔
      n.TwoAddresses handlers := by
  unfold NodeConfig.TwoAddresses
  rw [portableAddress_ipAddress]
  rfl

/-- Handling a registration a second time always succeeds.  It leaves the
registry as the first one did, exactly when the request does not have two
addresses for a vehicle that this call connects, and does not change the rate
and both frequencies of a known node. -/
theorem reregistration_idempotent_iff {C C' : Controller} {n : NodeConfig}
    {remoteIp : String} {now : ℤ} {response : Response} (now' : ℤ)
    (h : C.requestHandler (.config n) remoteIp now = some (response, C')) :
    ∃ response' C'',
      C'.requestHandler (.config n) remoteIp now' = some (response', C'') ∧
      (SameRegistry C' C'' ↔
        ¬n.TwoAddresses C.vehicleHandlers ∧ ¬C.LosesRate n) := by
  obtain ⟨target, C₃, node, rfl, htarget, hsettles⟩ := handleConfig_settles h
  have hknown : (C₃.put n.id node).nodeMap.lookup n.id = some node := by
    simp [lookup_put]
  obtain ⟨response', C₄, node', hagain, hsecond⟩ :=
    handleConfig_again now' hknown hsettles.carries fun ch rest hch dir =>
      (hsettles.stays ch rest hch dir).congr rfl rfl rfl
  refine ⟨response', _, hagain, ?_⟩
  have hhandlers : (C₃.put n.id node).vehicleHandlers =
      { n with ipAddress := remoteIp }.storedHandlers C.vehicleHandlers :=
    hsettles.handlers
  have hregistry : SameRegistry (C₃.put n.id node) C₄ := by
    have hsame := hsecond.registry
    rw [hhandlers, NodeConfig.storedHandlers_storedHandlers, ← hhandlers]
      at hsame
    exact hsame
  rw [sameRegistry_put_iff hknown hregistry, hsecond.entry_eq_iff, hhandlers,
    hsettles.address, NodeConfig.storedAddress_again_iff,
    twoAddresses_ipAddress]
  exact and_congr_right fun _ => hsettles.sampleRate_iff htarget

/-- A node that registers for the first time can do so again. -/
theorem plain_reregistration_idempotent :
    ∃ response C' response' C'',
      (create false none).requestHandler
        (.config (plainConfig "n" 2400000000 2500000000)) "10.0.0.1" 0 =
          some (response, C') ∧
      C'.requestHandler (.config (plainConfig "n" 2400000000 2500000000))
        "10.0.0.1" 1 = some (response', C'') ∧
      SameRegistry C' C'' := by
  have hcheck : ((create false none).requestHandler
      (.config (plainConfig "n" 2400000000 2500000000)) "10.0.0.1"
      0).isSome = true := by
    decide +kernel
  obtain ⟨⟨response, C'⟩, hfirst⟩ := Option.isSome_iff_exists.mp hcheck
  obtain ⟨response', C'', hsecond, hiff⟩ :=
    reregistration_idempotent_iff 1 hfirst
  refine ⟨response, C', response', C'', hfirst, hsecond, hiff.mpr ⟨?_, ?_⟩⟩
  · rintro ⟨hconnects, -⟩
    exact absurd hconnects (by decide +kernel)
  · rintro ⟨node, ch, hknown, -⟩
    cases hknown

/-- A portable node that reports an address of its own. -/
def portableConfig : NodeConfig :=
  { plainConfig "PN1" 2400000000 2500000000 with
    aerpawKey := "PN1"
    vehicleAddress := "udp://:14550" }

/-- The second registration replaces the address that the first one stored and
connected to. -/
theorem second_registration_replaces_address :
    ∃ response C' response' C'',
      (create false none).requestHandler (.config portableConfig) "10.0.0.1"
        0 = some (response, C') ∧
      C'.requestHandler (.config portableConfig) "10.0.0.1" 1 =
        some (response', C'') ∧
      (C'.nodeMap.lookup "PN1").map (fun node => node.config.vehicleAddress) =
        some "udp://:14550" ∧
      (C''.nodeMap.lookup "PN1").map (fun node => node.config.vehicleAddress) =
        some "tcp://127.0.0.1:5761" ∧
      ¬SameRegistry C' C'' := by
  have hcheck : ((create false none).requestHandler (.config portableConfig)
      "10.0.0.1" 0).any (fun first =>
        decide ((first.2.nodeMap.lookup "PN1").map
          (fun node => node.config.vehicleAddress) = some "udp://:14550") &&
        (first.2.requestHandler (.config portableConfig) "10.0.0.1" 1).any
          fun second => decide ((second.2.nodeMap.lookup "PN1").map
            (fun node => node.config.vehicleAddress) =
              some "tcp://127.0.0.1:5761")) = true := by
    decide +kernel
  obtain ⟨⟨response, C'⟩, hfirst, hresult⟩ := (Option.any_eq_true _ _).mp hcheck
  obtain ⟨hbefore, hrest⟩ := Bool.and_eq_true_iff.mp hresult
  obtain ⟨⟨response', C''⟩, hsecond, hafter⟩ := (Option.any_eq_true _ _).mp hrest
  have hbefore := of_decide_eq_true hbefore
  have hafter := of_decide_eq_true hafter
  refine ⟨response, C', response', C'', hfirst, hsecond, hbefore, hafter, ?_⟩
  intro hsame
  have hentry := congrArg (Option.map fun entry : Node.Entry =>
    entry.config.vehicleAddress) (hsame.nodes "PN1")
  rw [Option.map_map, Option.map_map] at hentry
  have haddress := hafter.symm.trans (hentry.trans hbefore)
  exact absurd haddress (by decide)

end Controller

end Chem
