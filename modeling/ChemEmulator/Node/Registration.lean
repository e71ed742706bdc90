import ChemEmulator.Node.Attachment

/-!
# Registration and attachment

A registration that is answered with success should leave the node attached to
the intermediates of its frequencies.  The code compares the request with the
stored configuration and attaches only on a change of at least 10 kHz; for a
new node the stored configuration is the request itself, so a first
registration never attaches.

Soundness of the state, that every attached endpoint belongs to a known node
stored with that frequency, is kept by every event.  From it follows exactly
when a request leaves its node attached.
-/

namespace Chem

open PartialRuns

namespace Controller

/-! ## Sound states -/

structure Sound (C : Controller) : Prop where
  sandboxOff : C.sandbox = false
  keys : C.KeysMatch
  ids : ∀ id node, C.nodeMap.lookup id = some node → node.config.id = id
  endpoints : ∀ id node dir st, C.nodeMap.lookup id = some node →
    node.endpoint dir = some st → st.endpoint.id = id
  tuned : ∀ id node dir, C.nodeMap.lookup id = some node →
    node.freq? dir ≠ none
  attached : ∀ dir k id e, C.Attached dir k id e →
    ∃ node st, C.nodeMap.lookup id = some node ∧
      node.endpoint dir = some st ∧ st.endpoint = e ∧
      node.freq? dir = some k

/-- Nodes and endpoints carry the identifier under which they are stored, and
every attached endpoint belongs to a node that has one. -/
structure Owned (C : Controller) : Prop where
  ids : ∀ id node, C.nodeMap.lookup id = some node → node.config.id = id
  endpoints : ∀ id node dir st, C.nodeMap.lookup id = some node →
    node.endpoint dir = some st → st.endpoint.id = id
  attached : ∀ dir k id e, C.Attached dir k id e →
    ∃ node st, C.nodeMap.lookup id = some node ∧ node.endpoint dir = some st

theorem Sound.owned {C : Controller} (hC : C.Sound) : C.Owned where
  ids := hC.ids
  endpoints := hC.endpoints
  attached dir k id e hattached := by
    obtain ⟨node, st, hnode, hst, -, -⟩ := hC.attached dir k id e hattached
    exact ⟨node, st, hnode, hst⟩

/-- The state with a node written back. -/
def put (C : Controller) (id : NodeId) (node : Node) : Controller :=
  { C with nodeMap := C.nodeMap.insert id node }

theorem lookup_put (C : Controller) (id id' : NodeId) (node : Node) :
    (C.put id node).nodeMap.lookup id' =
      if id' = id then some node else C.nodeMap.lookup id' := by
  by_cases h : id' = id
  · subst h
    simp [put]
  · simp [put, h]

theorem freq?_eq_none_iff (node : Node) (dir : Direction) :
    node.freq? dir = none ↔ node.config.channels = [] := by
  simp [Node.freq?]

theorem Sound.nodeSound {C : Controller} {node : Node}
    (hC : (C.put node.config.id node).Sound) (dir : Direction) :
    NodeSound C dir node where
  ids st hst :=
    hC.endpoints node.config.id node dir st (by simp [lookup_put]) hst
  attached k e hattached := by
    obtain ⟨node', st, hlookup, hst, he, hfreq⟩ :=
      hC.attached dir k node.config.id e hattached
    rw [lookup_put, if_pos rfl, Option.some.injEq] at hlookup
    subst hlookup
    exact ⟨hfreq, st, hst, he⟩

/-- Writing back a node that is found where the old one was keeps the state
sound. -/
theorem Sound.put {C C' : Controller} {node node' : Node}
    (hC : (C.put node.config.id node).Sound)
    (hsandbox : C'.sandbox = C.sandbox) (hkeys : C'.KeysMatch)
    (hnodes : C'.nodeMap = C.nodeMap)
    (hid : node'.config.id = node.config.id)
    (hendpoint : ∀ dir st, node'.endpoint dir = some st →
      st.endpoint.id = node.config.id)
    (htuned : ∀ dir, node'.freq? dir ≠ none)
    (hothers : ∀ dir k id e, id ≠ node.config.id →
      C'.Attached dir k id e → C.Attached dir k id e)
    (hown : ∀ dir k e, C'.Attached dir k node.config.id e →
      ∃ st, node'.endpoint dir = some st ∧ st.endpoint = e ∧
        node'.freq? dir = some k) :
    (C'.put node.config.id node').Sound where
  sandboxOff := hsandbox.trans hC.sandboxOff
  keys := hkeys
  ids id stored hlookup := by
    rw [lookup_put, hnodes] at hlookup
    split_ifs at hlookup with hcase
    · cases hlookup
      rw [hid, hcase]
    · exact hC.ids id stored (by rw [lookup_put, if_neg hcase, hlookup])
  endpoints id stored dir st hlookup hst := by
    rw [lookup_put, hnodes] at hlookup
    split_ifs at hlookup with hcase
    · cases hlookup
      rw [hendpoint dir st hst, hcase]
    · exact hC.endpoints id stored dir st
        (by rw [lookup_put, if_neg hcase, hlookup]) hst
  tuned id stored dir hlookup := by
    rw [lookup_put, hnodes] at hlookup
    split_ifs at hlookup with hcase
    · cases hlookup
      exact htuned dir
    · exact hC.tuned id stored dir
        (by rw [lookup_put, if_neg hcase, hlookup])
  attached dir k id e hattached := by
    by_cases hcase : id = node.config.id
    · subst hcase
      obtain ⟨st, hst, he, hfreq⟩ := hown dir k e hattached
      exact ⟨node', st, by simp [lookup_put], hst, he, hfreq⟩
    · obtain ⟨stored, st, hlookup, hst, he, hfreq⟩ :=
        hC.attached dir k id e (hothers dir k id e hcase hattached)
      rw [lookup_put, if_neg hcase] at hlookup
      exact ⟨stored, st, by rw [lookup_put, if_neg hcase, hnodes, hlookup],
        hst, he, hfreq⟩

/-! ## Assigning channels keeps the state sound -/

theorem Assigned.tuned {dir : Direction} {C C' : Controller}
    {node node' : Node} {freq : ℚ}
    (h : Assigned dir C C' node node' freq)
    (htuned : ∀ dir, node.freq? dir ≠ none) (dir' : Direction) :
    node'.freq? dir' ≠ none := by
  -- the channel list is empty or not for both directions alike
  have hother : ∃ other, other ≠ dir := by
    cases dir
    · exact ⟨.downlink, by simp⟩
    · exact ⟨.uplink, by simp⟩
  obtain ⟨other, hne⟩ := hother
  rw [Ne, freq?_eq_none_iff, ← freq?_eq_none_iff node' other,
    h.same.freq other hne]
  exact htuned other

theorem Assigned.sound {dir : Direction} {C C' : Controller}
    {node node' : Node} {freq : ℚ}
    (h : Assigned dir C C' node node' freq)
    (hC : (C.put node.config.id node).Sound) :
    (C'.put node.config.id node').Sound := by
  have hlookup : (C.put node.config.id node).nodeMap.lookup node.config.id =
      some node := by
    simp [lookup_put]
  obtain ⟨st, hst, hstid, hkept⟩ := h.endpoint
  refine hC.put h.sandbox h.keys h.nodeMap h.same.id ?_ ?_ ?_ ?_
  · intro dir' st' hst'
    by_cases hdir : dir' = dir
    · subst hdir
      cases hst.symm.trans hst'
      exact hstid
    · rw [h.same.endpoint dir' hdir] at hst'
      exact hC.endpoints _ node dir' st' hlookup hst'
  · exact h.tuned fun dir' => hC.tuned _ node dir' hlookup
  · intro dir' k id e hid
    exact (h.others dir' k id e fun hcase => hid hcase.2).mp
  · intro dir' k e hattached
    by_cases hdir : dir' = dir
    · subst hdir
      by_cases hchanged :
          freqChanged ((node.freq? dir').getD 0) freq = true
      · obtain ⟨hfreq, hmoved⟩ := h.moved hchanged
        obtain ⟨rfl, st', hst', he⟩ := (hmoved k e).mp hattached
        exact ⟨st', hst', he, hfreq⟩
      · obtain ⟨hfreq, hsame⟩ := h.kept (Bool.not_eq_true _ ▸ hchanged)
        obtain ⟨hold, st₀, hst₀, he⟩ :=
          (hC.nodeSound dir').attached k e ((hsame k e).mp hattached)
        exact ⟨st, hst, (hkept st₀ hst₀).trans he, hfreq.trans hold⟩
    · have hold : C.Attached dir' k node.config.id e :=
        (h.others dir' k _ e fun hcase => hdir hcase.1).mp hattached
      obtain ⟨hfreq, st₀, hst₀, he⟩ := (hC.nodeSound dir').attached k e hold
      refine ⟨st₀, ?_, he, ?_⟩
      · rw [h.same.endpoint dir' hdir, hst₀]
      · rw [h.same.freq dir' hdir, hfreq]

/-! ## Configuration requests -/

/-- Soundness depends on the node map only through its lookups. -/
theorem Sound.of_lookup {C C' : Controller} (hC : C.Sound)
    (hsandbox : C'.sandbox = C.sandbox)
    (hmap : C'.intermediateMap = C.intermediateMap)
    (hnodes : ∀ id, C'.nodeMap.lookup id = C.nodeMap.lookup id) :
    C'.Sound where
  sandboxOff := hsandbox.trans hC.sandboxOff
  keys := by
    unfold KeysMatch
    rw [hmap]
    exact hC.keys
  ids id node hlookup := hC.ids id node (hnodes id ▸ hlookup)
  endpoints id node dir st hlookup :=
    hC.endpoints id node dir st (hnodes id ▸ hlookup)
  tuned id node dir hlookup := hC.tuned id node dir (hnodes id ▸ hlookup)
  attached dir k id e hattached := by
    rw [hnodes]
    exact hC.attached dir k id e ((Attached.congr hmap).mp hattached)

theorem Sound.put_create {C : Controller} (hC : C.Sound)
    {config : NodeConfig} (now : ℤ)
    (hnone : C.nodeMap.lookup config.id = none)
    (hchannels : config.channels ≠ []) :
    (C.put config.id (Node.create config now)).Sound where
  sandboxOff := hC.sandboxOff
  keys := hC.keys
  ids id node hlookup := by
    rw [lookup_put] at hlookup
    split_ifs at hlookup with hcase
    · cases hlookup
      exact hcase.symm
    · exact hC.ids id node hlookup
  endpoints id node dir st hlookup hst := by
    rw [lookup_put] at hlookup
    split_ifs at hlookup with hcase
    · cases hlookup
      cases dir <;> cases hst
    · exact hC.endpoints id node dir st hlookup hst
  tuned id node dir hlookup := by
    rw [lookup_put] at hlookup
    split_ifs at hlookup with hcase
    · cases hlookup
      rw [Ne, freq?_eq_none_iff]
      exact hchannels
    · exact hC.tuned id node dir hlookup
  attached dir k id e hattached := by
    -- nobody is attached under an identifier that is not known
    obtain ⟨node, st, hlookup, hst, he, hfreq⟩ :=
      hC.attached dir k id e hattached
    have hne : id ≠ config.id := by
      rintro rfl
      rw [hnone] at hlookup
      cases hlookup
    exact ⟨node, st, by rw [lookup_put, if_neg hne, hlookup], hst, he, hfreq⟩

/-- A node that is known is taken as it is stored; otherwise the request's own
node is stored. -/
theorem getOrCreateNode_some {C C₁ : Controller} {config : NodeConfig}
    {now : ℤ} {target : Node} {newlyInserted : Bool}
    (h : C.getOrCreateNode (Node.create config now) =
      some (target, newlyInserted, C₁)) :
    (C.nodeMap.lookup config.id = some target ∧ C₁ = C ∧
        newlyInserted = false) ∨
      (C.nodeMap.lookup config.id = none ∧ config.channels ≠ [] ∧
        target = Node.create config now ∧
        C₁ = C.put config.id (Node.create config now) ∧
        newlyInserted = true) := by
  unfold getOrCreateNode at h
  split at h
  next stored hstored =>
    cases h
    exact Or.inl ⟨hstored, rfl, rfl⟩
  next hnone =>
    obtain ⟨u, hadd, hresult⟩ := Option.map_eq_some_iff.mp h
    cases hresult
    refine Or.inr ⟨hnone, ?_, rfl, rfl, rfl⟩
    intro hempty
    simp [addNode, Node.create, hempty] at hadd

/-- Looking a node up leaves the intermediates and the mode as they are. -/
theorem getOrCreateNode_intermediates {C C₁ : Controller} {config : NodeConfig}
    {now : ℤ} {target : Node} {newlyInserted : Bool}
    (h : C.getOrCreateNode (Node.create config now) =
      some (target, newlyInserted, C₁)) :
    C₁.intermediateMap = C.intermediateMap ∧ C₁.sandbox = C.sandbox := by
  rcases getOrCreateNode_some h with ⟨-, rfl, -⟩ | ⟨-, -, -, rfl, -⟩ <;>
    exact ⟨rfl, rfl⟩

theorem lookup_getOrCreateNode_ne {C C₁ : Controller} {config : NodeConfig}
    {now : ℤ} {target : Node} {newlyInserted : Bool}
    (h : C.getOrCreateNode (Node.create config now) =
      some (target, newlyInserted, C₁)) {id : NodeId} (hne : id ≠ config.id) :
    C₁.nodeMap.lookup id = C.nodeMap.lookup id := by
  rcases getOrCreateNode_some h with ⟨-, rfl, -⟩ | ⟨-, -, -, rfl, -⟩
  · rfl
  · exact (lookup_put C config.id id _).trans (if_neg hne)

theorem sound_getOrCreateNode {C C₁ : Controller} {config : NodeConfig}
    {now : ℤ} {target : Node} {newlyInserted : Bool} (hC : C.Sound)
    (h : C.getOrCreateNode (Node.create config now) =
      some (target, newlyInserted, C₁)) :
    (C₁.put config.id target).Sound := by
  rcases getOrCreateNode_some h with
    ⟨hstored, rfl, -⟩ | ⟨hnone, hch, rfl, rfl, -⟩
  · refine hC.of_lookup rfl rfl ?_
    intro id
    rw [lookup_put]
    split_ifs with hcase
    · rw [hcase, hstored]
    · rfl
  · refine (hC.put_create now hnone hch).of_lookup rfl rfl ?_
    intro id
    rw [lookup_put, lookup_put]
    split_ifs <;> rfl

/-- The two assignments that a configuration request makes, one after the
other, on the refreshed node. -/
theorem handleConfig_some {C C' : Controller} {nodeConfig : NodeConfig}
    {remoteIp : String} {now : ℤ} {response : Response}
    (h : C.handleConfig nodeConfig remoteIp now = some (response, C')) :
    ∃ target newlyInserted C₁ C₂ C₃ node₂ node₃ createdUL createdDL,
      C.getOrCreateNode
        (Node.create { nodeConfig with ipAddress := remoteIp } now) =
          some (target, newlyInserted, C₁) ∧
      ∃ r, r = target.refreshFromConfig
          { nodeConfig with ipAddress := remoteIp } C₁.vehicleHandlers ∧
        assignChannel .uplink { C₁ with vehicleHandlers := r.handlers } r.node
          r.request = some (createdUL, C₂, node₂) ∧
        assignChannel .downlink C₂ node₂ r.request =
          some (createdDL, C₃, node₃) ∧
        C' = C₃.put nodeConfig.id node₃ ∧
        (response.status = .fail → createdUL = false ∧ createdDL = false ∧
          newlyInserted = false ∧ node₃.compare r.request = false) := by
  simp only [handleConfig, Option.bind_eq_bind, Option.bind_eq_some_iff,
    assignULChannel, assignDLChannel] at h
  obtain ⟨⟨target, newlyInserted, C₁⟩, hget, ⟨createdUL, C₂, node₂⟩, hUL,
    ⟨createdDL, C₃, node₃⟩, hDL, hresult⟩ := h
  refine ⟨target, newlyInserted, C₁, C₂, C₃, node₂, node₃, createdUL,
    createdDL, hget, _, rfl, hUL, hDL, ?_⟩
  dsimp only at hresult
  split_ifs at hresult with hnone hcompare
  · cases hresult
    refine ⟨rfl, fun hfail => ?_⟩
    cases hfail
  · cases hresult
    simp only [Bool.and_eq_true, Bool.not_eq_true', Bool.or_eq_false_iff]
      at hnone
    obtain ⟨⟨hUL', hDL'⟩, hknown⟩ := hnone
    exact ⟨rfl, fun _ => ⟨hUL', hDL', hknown, Bool.not_eq_true _ ▸ hcompare⟩⟩
  · obtain ⟨-, -, hresult⟩ := Option.bind_eq_some_iff.mp hresult
    cases hresult
    refine ⟨rfl, fun hfail => ?_⟩
    cases hfail

/-- A refreshed node is tuned and equipped as it was. -/
theorem refresh_same {target : Node} {config : NodeConfig}
    {handlers : VehicleHandlers} {r : Node.Refresh}
    (hr : r = target.refreshFromConfig config handlers) :
    r.node.config.id = config.id ∧ r.request.channels = config.channels ∧
      ∀ dir, r.node.endpoint dir = target.endpoint dir ∧
        r.node.freq? dir = target.freq? dir := by
  have hcore := Node.core_refreshFromConfig target config handlers
  rw [← hr] at hcore
  simp only [Node.Refresh.core, Node.Refresh.Core.mk.injEq] at hcore
  obtain ⟨hid, hchannels, hreceiver, htransmitter, -, hrequest⟩ := hcore
  refine ⟨hid, hrequest, fun dir => ⟨?_, ?_⟩⟩
  · cases dir
    · exact hreceiver
    · exact htransmitter
  · simp [Node.freq?, hchannels]

theorem sound_refresh {C : Controller} {target : Node} {config : NodeConfig}
    {handlers : VehicleHandlers} {r : Node.Refresh}
    (hC : (C.put config.id target).Sound)
    (hr : r = target.refreshFromConfig config handlers) :
    ({ C with vehicleHandlers := r.handlers }.put r.node.config.id
      r.node).Sound := by
  obtain ⟨hid, -, hsame⟩ := refresh_same hr
  have hlookup : (C.put config.id target).nodeMap.lookup config.id =
      some target := by
    simp [lookup_put]
  have htarget : target.config.id = config.id := hC.ids _ target hlookup
  rw [hid, ← htarget]
  rw [← htarget] at hC hlookup
  refine hC.put rfl hC.keys rfl (hid.trans htarget.symm) ?_ ?_ ?_ ?_
  · intro dir st hst
    rw [(hsame dir).1] at hst
    exact hC.endpoints _ target dir st hlookup hst
  · intro dir
    rw [(hsame dir).2]
    exact hC.tuned _ target dir hlookup
  · intro dir k id e _ hattached
    exact hattached
  · intro dir k e hattached
    obtain ⟨hfreq, st, hst, he⟩ := (hC.nodeSound dir).attached k e hattached
    exact ⟨st, (hsame dir).1.trans hst, he, (hsame dir).2.trans hfreq⟩

theorem Sound.assigned {dir : Direction} {C C' : Controller}
    {node node' : Node} {newConfig : NodeConfig} {ch : Usrp.Channel}
    {rest : List Usrp.Channel} {created : Bool}
    (hC : (C.put node.config.id node).Sound)
    (hchannels : newConfig.channels = ch :: rest)
    (h : assignChannel dir C node newConfig = some (created, C', node')) :
    Assigned dir C C' node node' (dir.freqOf ch) := by
  have hoff : C.sandbox = false := hC.sandboxOff
  have hkeys : C.KeysMatch := hC.keys
  exact assignChannel_some hoff hkeys (hC.nodeSound dir) hchannels h

theorem assignChannel_sound {dir : Direction} {C C' : Controller}
    {node node' : Node} {newConfig : NodeConfig} {created : Bool}
    (hC : (C.put node.config.id node).Sound)
    (h : assignChannel dir C node newConfig = some (created, C', node')) :
    (C'.put node'.config.id node').Sound ∧
      node'.config.id = node.config.id := by
  cases hchannels : newConfig.channels with
  | nil =>
      simp only [assignChannel, hchannels, Option.some.injEq,
        Prod.mk.injEq] at h
      obtain ⟨-, rfl, rfl⟩ := h
      exact ⟨hC, rfl⟩
  | cons ch rest =>
      have hassigned := hC.assigned hchannels h
      rw [hassigned.same.id]
      exact ⟨hassigned.sound hC, rfl⟩

theorem sound_handleConfig {C C' : Controller} {nodeConfig : NodeConfig}
    {remoteIp : String} {now : ℤ} {response : Response} (hC : C.Sound)
    (h : C.handleConfig nodeConfig remoteIp now = some (response, C')) :
    C'.Sound := by
  obtain ⟨target, newlyInserted, C₁, C₂, C₃, node₂, node₃, createdUL,
    createdDL, hget, r, hr, hUL, hDL, rfl, -⟩ := handleConfig_some h
  have hrefreshed := sound_refresh (sound_getOrCreateNode hC hget) hr
  obtain ⟨hsoundUL, hidUL⟩ := assignChannel_sound hrefreshed hUL
  obtain ⟨hsoundDL, hidDL⟩ := assignChannel_sound hsoundUL hDL
  rw [hidDL, hidUL, (refresh_same hr).1] at hsoundDL
  exact hsoundDL

/-! ## Removing a node -/

theorem attached_detachAll (dir : Direction) (C : Controller)
    (e : Option EndpointState) {dir' : Direction} {k : ℚ} {id : NodeId}
    {e' : Endpoint} :
    (detachAll dir C e).Attached dir' k id e' ↔
      C.Attached dir' k id e' ∧
        ∀ st, e = some st → ¬(dir' = dir ∧ id = st.endpoint.id) := by
  cases e with
  | none => simp [detachAll]
  | some st =>
      simp only [detachAll, Attached, FiniteMap.lookup_mapValues,
        Option.map_eq_some_iff, Option.some.injEq, forall_eq']
      constructor
      · rintro ⟨-, ⟨I, hI, rfl⟩, hmember⟩
        rw [Intermediate.lookup_detach] at hmember
        split_ifs at hmember with hcase
        exact ⟨⟨I, hI, hmember⟩, hcase⟩
      · rintro ⟨⟨I, hI, hmember⟩, hcase⟩
        refine ⟨_, ⟨I, hI, rfl⟩, ?_⟩
        rw [Intermediate.lookup_detach, if_neg hcase, hmember]

theorem KeysMatch.detachAll {C : Controller} (hC : C.KeysMatch)
    (dir : Direction) (e : Option EndpointState) :
    (detachAll dir C e).KeysMatch := by
  cases e with
  | none => exact hC
  | some st =>
      intro k I hI
      rw [Controller.detachAll, FiniteMap.lookup_mapValues,
        Option.map_eq_some_iff] at hI
      obtain ⟨J, hJ, rfl⟩ := hI
      rw [Intermediate.freq_detach]
      exact hC k J hJ

theorem attached_removeEmptyChannels (C : Controller) {dir : Direction}
    {k : ℚ} {id : NodeId} {e : Endpoint} :
    C.removeEmptyChannels.Attached dir k id e ↔ C.Attached dir k id e := by
  simp only [removeEmptyChannels, Attached, FiniteMap.lookup_filter]
  constructor
  · rintro ⟨I, ⟨hI, -⟩, hmember⟩
    exact ⟨I, hI, hmember⟩
  · rintro ⟨I, hI, hmember⟩
    refine ⟨I, ⟨hI, ?_⟩, hmember⟩
    by_contra hempty
    rw [Bool.not_eq_true, Bool.not_eq_false'] at hempty
    exact I.not_mem_members_of_isEmpty hempty dir id
      (FiniteMap.mem_iff_lookup.mpr ⟨e, hmember⟩)

/-- A removed node is attached nowhere. -/
theorem attached_removeNode {C : Controller} {id : NodeId} {node : Node}
    (hC : C.Owned) (hnode : C.nodeMap.lookup id = some node)
    {dir : Direction} {k : ℚ} {id' : NodeId} {e : Endpoint}
    (hattached : (C.removeNode id node).Attached dir k id' e) :
    C.Attached dir k id' e ∧ id' ≠ id := by
  have hstages := (attached_removeEmptyChannels _).mp hattached
  obtain ⟨hdown, huplink⟩ := (attached_detachAll .uplink _ _).mp hstages
  obtain ⟨hold, hdownlink⟩ := (attached_detachAll .downlink _ _).mp hdown
  refine ⟨hold, ?_⟩
  rintro rfl
  obtain ⟨stored, st, hlookup, hst⟩ := hC.attached dir k id' e hold
  rw [hnode, Option.some.injEq] at hlookup
  subst hlookup
  have hid : st.endpoint.id = id' := hC.endpoints id' node dir st hnode hst
  cases dir
  · exact huplink st hst ⟨rfl, hid.symm⟩
  · exact hdownlink st hst ⟨rfl, hid.symm⟩

theorem nodeMap_removeNode (C : Controller) (id : NodeId) (node : Node) :
    (C.removeNode id node).nodeMap = C.nodeMap.erase id := by
  unfold removeNode detachAll removeVehicleHandler removeEmptyChannels
  cases node.transmitter <;> cases node.receiver <;> rfl

theorem sandbox_removeNode (C : Controller) (id : NodeId) (node : Node) :
    (C.removeNode id node).sandbox = C.sandbox := by
  unfold removeNode detachAll removeVehicleHandler removeEmptyChannels
  cases node.transmitter <;> cases node.receiver <;> rfl

/-- Removing a node leaves the others as they are. -/
theorem lookup_removeNode {C : Controller} {id id' : NodeId}
    {node node' : Node}
    (h : (C.removeNode id node).nodeMap.lookup id' = some node') :
    C.nodeMap.lookup id' = some node' := by
  rw [nodeMap_removeNode] at h
  by_cases hid : id' = id
  · subst hid
    simp at h
  · rwa [AList.lookup_erase_ne hid] at h

theorem sound_removeNode {C : Controller} {id : NodeId} {node : Node}
    (hC : C.Sound) (hnode : C.nodeMap.lookup id = some node) :
    (C.removeNode id node).Sound := by
  refine ⟨?_, ?_, ?_, ?_, ?_, ?_⟩
  · rw [sandbox_removeNode]
    exact hC.sandboxOff
  · exact ((hC.keys.detachAll .downlink node.transmitter).detachAll .uplink
      node.receiver).filter _
  · exact fun id' stored hlookup =>
      hC.ids id' stored (lookup_removeNode hlookup)
  · exact fun id' stored dir st hlookup =>
      hC.endpoints id' stored dir st (lookup_removeNode hlookup)
  · exact fun id' stored dir hlookup =>
      hC.tuned id' stored dir (lookup_removeNode hlookup)
  · intro dir k id' e hattached
    obtain ⟨hold, hne⟩ := attached_removeNode hC.owned hnode hattached
    obtain ⟨stored, st, hlookup, hst, he, hfreq⟩ :=
      hC.attached dir k id' e hold
    refine ⟨stored, st, ?_, hst, he, hfreq⟩
    rw [nodeMap_removeNode, AList.lookup_erase_ne hne, hlookup]

/-! ## Runs -/

theorem sound_create (defaults : Option PropagationDefaults) :
    (create false defaults).Sound := by
  refine ⟨rfl, FiniteMap.all_empty, ?_, ?_, ?_, ?_⟩
  · intro id node hlookup
    simp [create] at hlookup
  · intro id node dir st hlookup
    simp [create] at hlookup
  · intro id node dir hlookup
    simp [create] at hlookup
  · rintro dir k id e ⟨I, hI, -⟩
    simp [create] at hI

theorem sound_heartbeat {C : Controller} {id : NodeId} {node : Node}
    (hC : C.Sound) (hnode : C.nodeMap.lookup id = some node) (now : ℤ) :
    (C.put id (node.updateHeartbeat now)).Sound := by
  have hid : node.config.id = id := hC.ids id node hnode
  have hput : (C.put node.config.id node).Sound := by
    refine hC.of_lookup rfl rfl ?_
    intro id'
    rw [lookup_put, hid]
    split_ifs with hcase
    · rw [hcase, hnode]
    · rfl
  subst hid
  refine hput.put rfl hC.keys rfl rfl ?_ ?_ ?_ ?_
  · exact fun dir st hst => hC.endpoints _ node dir st hnode hst
  · exact fun dir => hC.tuned _ node dir hnode
  · exact fun dir k id e _ hattached => hattached
  · intro dir k e hattached
    obtain ⟨hfreq, st, hst, he⟩ := (hput.nodeSound dir).attached k e hattached
    exact ⟨st, hst, he, hfreq⟩

/-- What an event can do.  A disconnect also counts its address down before
the node goes. -/
inductive Transition (C : Controller) : Event → Controller → Prop
  | nothing (event : Event) : Transition C event C
  | heartbeat {id : NodeId} {node : Node} (remoteIp : String) (now : ℤ)
      (hnode : C.nodeMap.lookup id = some node) :
      Transition C (.request (.heartbeat id) remoteIp now)
        (C.put id (node.updateHeartbeat now))
  | removal {id : NodeId} {node : Node} (event : Event)
      (ipAddrMap : FiniteMap String UInt8)
      (hnode : C.nodeMap.lookup id = some node) :
      Transition C event
        ({ C with ipAddrMap := ipAddrMap }.removeNode id node)
  | configuration {nodeConfig : NodeConfig} {remoteIp : String} {now : ℤ}
      {response : Response} {C' : Controller}
      (hconfig : C.handleConfig nodeConfig remoteIp now =
        some (response, C')) :
      Transition C (.request (.config nodeConfig) remoteIp now) C'

/-- The ports are not restored. -/
theorem restoreTXPort_eq (C : Controller) (ipAddress : String) :
    C.restoreTXPort ipAddress =
      { C with ipAddrMap := (C.restoreTXPort ipAddress).ipAddrMap } := by
  unfold restoreTXPort
  split
  · rfl
  · split_ifs <;> rfl

/-- The node that an event removes. -/
def removed (C : Controller) : Event → Option (NodeId × Node)
  | .request (.disconnect id) _ _ =>
      (C.nodeMap.lookup id).map fun node => (id, node)
  | .checkTimeout id now =>
      ((C.nodeMap.lookup id).filter fun node => !node.isAlive 10 now).map
        fun node => (id, node)
  | _ => none

/-- What an event does, told apart by the node that it removes. -/
inductive Handled (C : Controller) : Event → Controller → Prop
  | nothing {event : Event} (hnone : C.removed event = none) :
      Handled C event C
  | heartbeat {id : NodeId} {node : Node} (remoteIp : String) (now : ℤ)
      (hnode : C.nodeMap.lookup id = some node) :
      Handled C (.request (.heartbeat id) remoteIp now)
        (C.put id (node.updateHeartbeat now))
  | removal {event : Event} {id : NodeId} {node : Node}
      (ipAddrMap : FiniteMap String UInt8)
      (hremoved : C.removed event = some (id, node))
      (hnode : C.nodeMap.lookup id = some node) :
      Handled C event ({ C with ipAddrMap := ipAddrMap }.removeNode id node)
  | configuration {nodeConfig : NodeConfig} {remoteIp : String} {now : ℤ}
      {response : Response} {C' : Controller}
      (hconfig : C.handleConfig nodeConfig remoteIp now =
        some (response, C')) :
      Handled C (.request (.config nodeConfig) remoteIp now) C'

theorem handled_of_request {C C' : Controller} {request : Request}
    {remoteIp : String} {now : ℤ} {response : Response}
    (h : C.requestHandler request remoteIp now = some (response, C')) :
    Handled C (.request request remoteIp now) C' := by
  cases request with
  | malformed =>
      cases h
      exact .nothing rfl
  | illTyped => cases h
  | heartbeat id =>
      simp only [requestHandler] at h
      cases hnode : C.nodeMap.lookup id with
      | none =>
          simp only [hnode] at h
          cases h
          exact .nothing rfl
      | some node =>
          simp only [hnode] at h
          cases h
          exact .heartbeat remoteIp now hnode
  | disconnect id =>
      simp only [requestHandler] at h
      cases hnode : C.nodeMap.lookup id with
      | none =>
          simp only [hnode] at h
          cases h
          exact .nothing (by simp [removed, hnode])
      | some node =>
          simp only [hnode] at h
          cases h
          rw [restoreTXPort_eq]
          exact .removal _ (by simp [removed, hnode]) hnode
  | config nodeConfig => exact .configuration h

theorem handled_of_step {C C' : Controller} {event : Event}
    (h : C.step event = some C') : Handled C event C' := by
  cases event with
  | request request remoteIp now =>
      obtain ⟨⟨response, C''⟩, hhandled, rfl⟩ := Option.map_eq_some_iff.mp h
      exact handled_of_request hhandled
  | checkTimeout id now =>
      cases h
      unfold checkTimeout
      split
      · next hnone => exact .nothing (by simp [removed, hnone])
      · next node hnode =>
        split_ifs with halive
        · exact .nothing (by simp [removed, hnode, halive])
        · exact .removal C.ipAddrMap (by simp [removed, hnode, halive]) hnode

theorem Handled.transition {C C' : Controller} {event : Event}
    (h : Handled C event C') : Transition C event C' := by
  cases h with
  | nothing => exact .nothing _
  | heartbeat remoteIp now hnode => exact .heartbeat remoteIp now hnode
  | removal ipAddrMap _ hnode => exact .removal _ ipAddrMap hnode
  | configuration hconfig => exact .configuration hconfig

theorem transition_of_request {C C' : Controller} {request : Request}
    {remoteIp : String} {now : ℤ} {response : Response}
    (h : C.requestHandler request remoteIp now = some (response, C')) :
    Transition C (.request request remoteIp now) C' :=
  (handled_of_request h).transition

theorem transition_of_step {C C' : Controller} {event : Event}
    (h : C.step event = some C') : Transition C event C' :=
  (handled_of_step h).transition

theorem sound_step {C C' : Controller} {event : Event} (hC : C.Sound)
    (h : C.step event = some C') : C'.Sound := by
  cases transition_of_step h with
  | nothing => exact hC
  | heartbeat _ now hnode => exact sound_heartbeat hC hnode now
  | removal _ ipAddrMap hnode =>
      have hrest : { C with ipAddrMap := ipAddrMap }.Sound :=
        hC.of_lookup rfl rfl fun _ => rfl
      exact sound_removeNode hrest hnode
  | configuration hconfig => exact sound_handleConfig hC hconfig

/-- With the sandbox mode off, every history leaves a sound state. -/
theorem sound_of_run {defaults : Option PropagationDefaults}
    {events : List Event} {C : Controller}
    (hrun : run step (create false defaults) events = some C) : C.Sound :=
  (everyState_of_invariant (fun _ _ _ => sound_step) (sound_create defaults)
    events).of_run hrun

/-! ## Nobody is heard on two frequencies -/

/-- Every member of an intermediate is the endpoint of a known node that is
tuned to the intermediate's frequency, and it is a member there only. -/
structure Exclusive (C : Controller) : Prop where
  owned : ∀ (dir : Direction) (k : ℚ) (I : Intermediate) (id : NodeId)
      (e : Endpoint), C.intermediateMap.lookup k = some I →
    (I.members dir).lookup id = some e →
    ∃ node st, C.nodeMap.lookup id = some node ∧
      node.endpoint dir = some st ∧ st.endpoint = e ∧
      node.freq? dir = some k
  single : ∀ (dir : Direction) (k k' : ℚ) (I I' : Intermediate)
      (id id' : NodeId) (e e' : Endpoint),
    C.intermediateMap.lookup k = some I →
    (I.members dir).lookup id = some e →
    C.intermediateMap.lookup k' = some I' →
    (I'.members dir).lookup id' = some e' →
    id = id' ∨ e = e' → k = k'

theorem Sound.exclusive {C : Controller} (hC : C.Sound) : C.Exclusive where
  owned dir k I id e hI hmember := hC.attached dir k id e ⟨I, hI, hmember⟩
  single dir k k' I I' id id' e e' hI hmember hI' hmember' hsame := by
    obtain ⟨node, st, hnode, hst, he, hfreq⟩ :=
      hC.attached dir k id e ⟨I, hI, hmember⟩
    obtain ⟨node', st', hnode', hst', he', hfreq'⟩ :=
      hC.attached dir k' id' e' ⟨I', hI', hmember'⟩
    -- one endpoint carries one identifier
    have hid : id = id' := by
      rcases hsame with hid | rfl
      · exact hid
      · rw [← hC.endpoints id node dir st hnode hst,
          ← hC.endpoints id' node' dir st' hnode' hst', he, he']
    subst hid
    cases hnode.symm.trans hnode'
    exact Option.some.inj (hfreq.symm.trans hfreq')

/-- With the sandbox mode off, the members of the intermediates stay in step
with the stored frequencies through every history. -/
theorem attachments_exclusive (defaults : Option PropagationDefaults)
    (events : List Event) :
    EveryState step Exclusive (create false defaults) events :=
  (everyState_of_invariant (fun _ _ _ => sound_step) (sound_create defaults)
    events).imp fun _ => Sound.exclusive

/-! ## When a registration attaches -/

/-- The intermediate of `freq` exists and has the node's own endpoint among
its members. -/
def AttachedNode (C : Controller) (dir : Direction) (id : NodeId)
    (freq : ℚ) : Prop :=
  ∃ node st, C.nodeMap.lookup id = some node ∧
    node.endpoint dir = some st ∧ C.Attached dir freq id st.endpoint

/-- The node is known, and `freq` is at least 10 kHz from its frequency. -/
def Retunes (C : Controller) (dir : Direction) (id : NodeId) (freq : ℚ) :
    Prop :=
  ∃ node prevFreq, C.nodeMap.lookup id = some node ∧
    node.freq? dir = some prevFreq ∧ freqChanged prevFreq freq = true

theorem Sound.attachedNode_iff {C : Controller} (hC : C.Sound)
    {dir : Direction} {id : NodeId} {freq : ℚ} :
    C.AttachedNode dir id freq ↔ ∃ e, C.Attached dir freq id e := by
  constructor
  · rintro ⟨node, st, -, -, hattached⟩
    exact ⟨st.endpoint, hattached⟩
  · rintro ⟨e, hattached⟩
    obtain ⟨node, st, hlookup, hst, rfl, -⟩ :=
      hC.attached dir freq id e hattached
    exact ⟨node, st, hlookup, hst, hattached⟩

theorem Assigned.attached_iff {dir : Direction} {C C' : Controller}
    {node node' : Node} {freq : ℚ}
    (h : Assigned dir C C' node node' freq) :
    (∃ e, C'.Attached dir freq node.config.id e) ↔
      freqChanged ((node.freq? dir).getD 0) freq = true ∨
        ∃ e, C.Attached dir freq node.config.id e := by
  by_cases hchanged : freqChanged ((node.freq? dir).getD 0) freq = true
  · obtain ⟨st, hst, -, -⟩ := h.endpoint
    have hattached := ((h.moved hchanged).2 freq st.endpoint).mpr
      ⟨rfl, st, hst, rfl⟩
    simp only [hchanged, true_or, iff_true]
    exact ⟨st.endpoint, hattached⟩
  · have hkept := (h.kept (Bool.not_eq_true _ ▸ hchanged)).2
    simp only [hchanged, hkept, Bool.false_eq_true, false_or]

/-- Each of the two assignments decides about its own direction only. -/
theorem assigned_both_iff {C C₂ C₃ : Controller} {node node₂ node₃ : Node}
    {ch : Usrp.Channel}
    (hUL : Assigned .uplink C C₂ node node₂ (Direction.uplink.freqOf ch))
    (hDL : Assigned .downlink C₂ C₃ node₂ node₃
      (Direction.downlink.freqOf ch)) (dir : Direction) :
    (∃ e, C₃.Attached dir (dir.freqOf ch) node.config.id e) ↔
      freqChanged ((node.freq? dir).getD 0) (dir.freqOf ch) = true ∨
        ∃ e, C.Attached dir (dir.freqOf ch) node.config.id e := by
  cases dir with
  | uplink =>
      have hlater : ∀ e,
          C₃.Attached .uplink (Direction.uplink.freqOf ch) node.config.id e ↔
          C₂.Attached .uplink (Direction.uplink.freqOf ch)
            node.config.id e :=
        fun e => hDL.others .uplink _ _ e (by simp)
      simp only [hlater]
      exact hUL.attached_iff
  | downlink =>
      have hearlier : ∀ e,
          C₂.Attached .downlink (Direction.downlink.freqOf ch)
            node.config.id e ↔
          C.Attached .downlink (Direction.downlink.freqOf ch)
            node.config.id e :=
        fun e => hUL.others .downlink _ _ e (by simp)
      have hdecided := hDL.attached_iff
      rw [hUL.same.id, hUL.same.freq .downlink (by simp)] at hdecided
      simpa only [hearlier] using hdecided

theorem handleConfig_attached_iff {C C' : Controller}
    {nodeConfig : NodeConfig} {remoteIp : String} {now : ℤ}
    {response : Response} {ch : Usrp.Channel} {rest : List Usrp.Channel}
    (hC : C.Sound)
    (h : C.handleConfig nodeConfig remoteIp now = some (response, C'))
    (hchannels : nodeConfig.channels = ch :: rest) (dir : Direction) :
    C'.AttachedNode dir nodeConfig.id (dir.freqOf ch) ↔
      C.AttachedNode dir nodeConfig.id (dir.freqOf ch) ∨
        C.Retunes dir nodeConfig.id (dir.freqOf ch) := by
  rw [(sound_handleConfig hC h).attachedNode_iff, hC.attachedNode_iff]
  obtain ⟨target, newlyInserted, C₁, C₂, C₃, node₂, node₃, createdUL,
    createdDL, hget, r, hr, hUL, hDL, rfl, -⟩ := handleConfig_some h
  have hrefreshed := sound_refresh (sound_getOrCreateNode hC hget) hr
  obtain ⟨hid, hrequest, hsame⟩ := refresh_same hr
  have hrchannels : r.request.channels = ch :: rest := hrequest.trans hchannels
  have hsoundUL := (assignChannel_sound hrefreshed hUL).1
  have hassigned := assigned_both_iff (hrefreshed.assigned hrchannels hUL)
    (hsoundUL.assigned hrchannels hDL) dir
  rw [hid, (hsame dir).2] at hassigned
  refine hassigned.trans ?_
  rcases getOrCreateNode_some hget with
    ⟨hstored, rfl, -⟩ | ⟨hnone, -, rfl, rfl, -⟩
  · -- a known node: its stored frequency decides
    obtain ⟨prevFreq, hprev⟩ :=
      Option.ne_none_iff_exists'.mp (hC.tuned _ target dir hstored)
    rw [hprev, Option.getD_some, or_comm]
    refine or_congr Iff.rfl ⟨fun hchanged => ?_, ?_⟩
    · exact ⟨target, prevFreq, hstored, hprev, hchanged⟩
    · rintro ⟨node, prevFreq', hlookup, hprev', hchanged⟩
      cases hstored.symm.trans hlookup
      cases hprev.symm.trans hprev'
      exact hchanged
  · -- a new node: it is stored with the requested frequency
    have hfreq : (Node.create { nodeConfig with ipAddress := remoteIp }
        now).freq? dir = some (dir.freqOf ch) := by
      simp [Node.freq?, Node.create, hchannels]
    rw [hfreq, Option.getD_some, freqChanged_self, or_comm]
    refine or_congr Iff.rfl ⟨fun hfalse => absurd hfalse (by simp), ?_⟩
    rintro ⟨node, prevFreq, hlookup, -, -⟩
    cases hnone.symm.trans hlookup

/-- After any history without sandbox mode, a registration that is answered
with success leaves the node attached to the intermediates of its frequencies
exactly when, for each of them other than zero, the node was attached there
before or is a known node that moves by at least 10 kHz. -/
theorem registration_attaches_iff
    (defaults : Option PropagationDefaults) (events : List Event)
    {C C' : Controller} {nodeConfig : NodeConfig} {remoteIp : String}
    {now : ℤ} {ports : Option (Int16 × Int16)} {ch : Usrp.Channel}
    {rest : List Usrp.Channel}
    (hrun : run step (create false defaults) events = some C)
    (hrequest : C.requestHandler (.config nodeConfig) remoteIp now =
      some (⟨.success, ports⟩, C'))
    (hchannels : nodeConfig.channels = ch :: rest) :
    (∀ dir : Direction, dir.freqOf ch ≠ 0 →
      C'.AttachedNode dir nodeConfig.id (dir.freqOf ch)) ↔
    ∀ dir : Direction, dir.freqOf ch ≠ 0 →
      C.AttachedNode dir nodeConfig.id (dir.freqOf ch) ∨
        C.Retunes dir nodeConfig.id (dir.freqOf ch) := by
  refine forall_congr' fun dir => forall_congr' fun _ => ?_
  exact handleConfig_attached_iff (sound_of_run hrun) hrequest hchannels dir

/-- A request with one channel and default settings. -/
def plainConfig (id : NodeId) (txFreq rxFreq : ℚ) : NodeConfig where
  ipAddress := ""
  id := id
  name := id
  portTxNum := 0
  portRxNum := 0
  numChannels := 1
  sampleRate := ⟨1000000, 1000000⟩
  channels := [⟨txFreq, rxFreq, 0, 0, "TX/RX", "RX2"⟩]
  logicalNode := -1
  location := ⟨.finite 0, .finite 0, .finite 0⟩
  hasLocation := false
  vehicleAddress := ""
  aerpawKey := ""
  nodeType := .unknown
  characteristics := none
  deviceTxGain := 0
  deviceRxGain := 0
  hasDeviceTxGain := false
  hasDeviceRxGain := false
  inputFormat := "fc32"
  outputFormat := "fc32"

/-- A node that registers on 2.4 GHz and then moves to 2.45 GHz. -/
theorem registration_attaches_after_move :
    ∃ C C' ports,
      run step (create false none)
        [.request (.config (plainConfig "n" 2400000000 0)) "10.0.0.1" 0] =
          some C ∧
      C.requestHandler (.config (plainConfig "n" 2450000000 0)) "10.0.0.1" 1 =
        some (⟨.success, ports⟩, C') ∧
      C'.AttachedNode .uplink "n" 2450000000 := by
  have hcheck : (run step (create false none)
      [.request (.config (plainConfig "n" 2400000000 0)) "10.0.0.1" 0]).any
      (fun C => (C.nodeMap.lookup "n").any
          (fun node => decide (node.freq? .uplink = some 2400000000)) &&
        (C.requestHandler (.config (plainConfig "n" 2450000000 0)) "10.0.0.1"
          1).any fun result => decide (result.1.status = .success)) = true := by
    decide +kernel
  obtain ⟨C, hrun, hC⟩ := (Option.any_eq_true _ _).mp hcheck
  obtain ⟨hnode, hanswer⟩ := Bool.and_eq_true_iff.mp hC
  obtain ⟨node, hlookup, hfreq⟩ := (Option.any_eq_true _ _).mp hnode
  obtain ⟨⟨⟨status, ports⟩, C'⟩, hrequest, hstatus⟩ :=
    (Option.any_eq_true _ _).mp hanswer
  cases of_decide_eq_true hstatus
  refine ⟨C, C', ports, hrun, hrequest, ?_⟩
  refine (registration_attaches_iff none _ hrun hrequest rfl).mpr ?_ .uplink
    (by decide)
  intro dir hdir
  cases dir with
  | downlink => exact absurd rfl hdir
  | uplink =>
      exact Or.inr ⟨node, 2400000000, hlookup, of_decide_eq_true hfreq,
        by decide +kernel⟩

/-- The first registration of a node is answered with success and attaches
nothing. -/
theorem first_registration_not_attached :
    ∃ ports C',
      (create false none).requestHandler
        (.config (plainConfig "n" 2400000000 2500000000)) "10.0.0.1" 0 =
          some (⟨.success, ports⟩, C') ∧
      ¬C'.AttachedNode .uplink "n" 2400000000 ∧
      ¬C'.AttachedNode .downlink "n" 2500000000 := by
  have hcheck : ((create false none).requestHandler
      (.config (plainConfig "n" 2400000000 2500000000)) "10.0.0.1" 0).any
      (fun result => decide (result.1.status = .success) &&
        ((result.2.intermediateMap.lookup 2400000000).all
          fun I => decide ("n" ∉ I.sourceMap)) &&
        (result.2.intermediateMap.lookup 2500000000).all
          fun I => decide ("n" ∉ I.destinationMap)) = true := by
    decide +kernel
  obtain ⟨⟨⟨status, ports⟩, C'⟩, hrequest, hresult⟩ :=
    (Option.any_eq_true _ _).mp hcheck
  simp only [Bool.and_eq_true, decide_eq_true_eq] at hresult
  obtain ⟨⟨rfl, huplink⟩, hdownlink⟩ := hresult
  refine ⟨ports, C', hrequest, ?_, ?_⟩
  · rintro ⟨node, st, -, -, I, hI, hmember⟩
    rw [hI, Option.all_some, decide_eq_true_eq] at huplink
    exact huplink (FiniteMap.mem_iff_lookup.mpr ⟨_, hmember⟩)
  · rintro ⟨node, st, -, -, I, hI, hmember⟩
    rw [hI, Option.all_some, decide_eq_true_eq] at hdownlink
    exact hdownlink (FiniteMap.mem_iff_lookup.mpr ⟨_, hmember⟩)

end Controller

end Chem
