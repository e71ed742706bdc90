import ChemEmulator.Node.Intermediates
import ChemEmulator.Node.Reregistration

/-!
# Sandbox membership

In sandbox mode a node is a sandbox node of the intermediates of its two
frequencies.  Each intermediate has one set of sandbox nodes, for transmitting
and receiving alike, and the uplink is assigned before the downlink: leaving
one frequency takes the node out of an intermediate that its other role may
still need.  A new node is stored with the frequencies of its request, does not
seem to move, and is added nowhere.
-/

namespace Chem

open PartialRuns

namespace Controller

/-! ## What one assignment does -/

theorem sandboxed_isChannelEmpty {C : Controller} (hC : C.KeysMatch)
    (freq : ℚ) {k : ℚ} {x : NodeId} :
    (C.isChannelEmpty freq).Sandboxed k x ↔ C.Sandboxed k x := by
  simp only [Sandboxed, lookup_isChannelEmpty hC]
  refine exists_congr fun I => and_congr_left fun hmember => ?_
  refine and_iff_left_of_imp fun _ _ => ?_
  have hsome : I.sandboxNodes.isEmpty = false :=
    List.isEmpty_eq_false_iff.mpr (List.ne_nil_of_mem hmember)
  simp [Intermediate.isEmpty, hsome]

/-- A node that leaves an intermediate in sandbox mode loses exactly that
membership. -/
theorem sandboxed_leaveChannel {C : Controller} (hC : C.KeysMatch)
    (dir : Direction) (freq : ℚ) (node : Node) {k : ℚ} {x : NodeId} :
    (leaveChannel dir C freq none node).Sandboxed k x ↔
      C.Sandboxed k x ∧ ¬(k = freq ∧ x = node.config.id) := by
  have hkeys : (C.updateIntermediate freq fun I =>
      I.removeSandboxNode node.config.id).KeysMatch :=
    hC.updateIntermediate freq fun _ => rfl
  have hleave : leaveChannel dir C freq none node =
      (C.updateIntermediate freq fun I =>
        I.removeSandboxNode node.config.id).isChannelEmpty freq := rfl
  rw [hleave, sandboxed_isChannelEmpty hkeys]
  simp only [Sandboxed, lookup_updateIntermediate]
  by_cases hk : k = freq
  · subst hk
    cases C.intermediateMap.lookup k with
    | none => simp
    | some I =>
        simp [Intermediate.removeSandboxNode, Intermediate.removeChannel]
  · simp [hk]

theorem sandboxed_joinChannel {C C' : Controller} {dir : Direction}
    {freq : ℚ} {node node' : Node} {newConfig : NodeConfig}
    (h : joinChannel dir C freq none node newConfig = some (C', node'))
    {k : ℚ} {x : NodeId} :
    C'.Sandboxed k x ↔
      (k = freq ∧ x = node.config.id) ∨ C.Sandboxed k x := by
  cases joined_of_joinChannel h with
  | sandbox _ hI =>
      simp only [Sandboxed]
      by_cases hk : k = freq
      · subst hk
        simp [hI, Intermediate.addSandboxNode, Intermediate.updateChannelMap]
      · rw [AList.lookup_insert_ne hk]
        simp [hk]

/-- Who is a sandbox node where after an assignment in sandbox mode. -/
theorem sandboxed_assignChannel {dir : Direction} {C C' : Controller}
    {node node' : Node} {newConfig : NodeConfig} {ch : Usrp.Channel}
    {rest : List Usrp.Channel} {created : Bool} (hbox : C.sandbox = true)
    (hkeys : C.KeysMatch) (hchannels : newConfig.channels = ch :: rest)
    (h : assignChannel dir C node newConfig = some (created, C', node'))
    {k : ℚ} {x : NodeId} :
    C'.Sandboxed k x ↔
      if moves dir node ch = true ∧ x = node.config.id then
        k = dir.freqOf ch ∨ (k ≠ prevFreq dir node ∧ C.Sandboxed k x)
      else C.Sandboxed k x := by
  obtain ⟨e, C₁, node₁, hequip, hends⟩ := assignChannel_ends hchannels h
  rcases equip_cases hequip with ⟨-, rfl, rfl, rfl⟩ | ⟨hoff, -⟩
  swap
  · cases hbox.symm.trans hoff
  cases hends with
  | repeated _ hstill =>
      simp [hstill, sandboxed_createChannel]
  | kept _ hstill =>
      simp [hstill, sandboxed_createChannel]
  | moved _ hmoves hjoin =>
      rw [sandboxed_joinChannel hjoin]
      have hleft : ∀ (k : ℚ) (x : NodeId),
          (if prevFreq dir node₁ ∈ C₁.intermediateMap then
            leaveChannel dir (C₁.createChannel (dir.freqOf ch))
              (prevFreq dir node₁) none node₁
            else C₁.createChannel (dir.freqOf ch)).Sandboxed k x ↔
          C₁.Sandboxed k x ∧
            ¬(k = prevFreq dir node₁ ∧ x = node₁.config.id) := by
        intro k x
        split_ifs with hfound
        · rw [sandboxed_leaveChannel (hkeys.createChannel _),
            sandboxed_createChannel]
        · rw [sandboxed_createChannel]
          refine ⟨fun hold => ⟨hold, ?_⟩, fun hold => hold.1⟩
          rintro ⟨rfl, -⟩
          obtain ⟨I, hI, -⟩ := hold
          exact hfound (FiniteMap.mem_iff_lookup.mpr ⟨I, hI⟩)
      rw [hleft]
      by_cases hx : x = node₁.config.id
      · simp [hmoves, hx, and_comm]
      · simp [hx]

/-! ## One set for two roles -/

/-- The set of frequencies of a node after one of its roles has moved. -/
def moveRole (S : Set ℚ) (prev freq : ℚ) : Set ℚ :=
  insert freq (S \ {prev})

/-- The frequencies other than zero at which a node is needed. -/
def needed (txFreq rxFreq : ℚ) : Set ℚ := {txFreq, rxFreq} \ {0}

/-- Moving the transmit role alone. -/
theorem moveRole_tx_eq_iff {t t' r : ℚ} (ht : t ≠ t') :
    moveRole (needed t r) t t' = needed t' r ↔ t' ≠ 0 ∧ (t = r → r = 0) := by
  simp only [Set.ext_iff, moveRole, needed, Set.mem_insert_iff, Set.mem_sdiff,
    Set.mem_singleton_iff]
  constructor
  · intro h
    have hnew := h t'
    have hkept := h r
    grind
  · rintro ⟨hzero, hshared⟩ f
    grind

/-- Moving the receive role alone. -/
theorem moveRole_rx_eq_iff {t r r' : ℚ} (hr : r ≠ r') :
    moveRole (needed t r) r r' = needed t r' ↔ r' ≠ 0 ∧ (t = r → t = 0) := by
  simp only [Set.ext_iff, moveRole, needed, Set.mem_insert_iff, Set.mem_sdiff,
    Set.mem_singleton_iff]
  constructor
  · intro h
    have hnew := h r'
    have hkept := h t
    grind
  · rintro ⟨hzero, hshared⟩ f
    grind

/-- Moving the transmit role and then the receive role. -/
theorem moveRole_both_eq_iff {t t' r r' : ℚ} (hr : r ≠ r') :
    moveRole (moveRole (needed t r) t t') r r' = needed t' r' ↔
      r' ≠ 0 ∧ (t' = r ↔ t' = 0) := by
  simp only [Set.ext_iff, moveRole, needed, Set.mem_insert_iff, Set.mem_sdiff,
    Set.mem_singleton_iff]
  constructor
  · intro h
    have hrx := h r'
    have htx := h t'
    grind
  · rintro ⟨hzero, hswap⟩ f
    grind

/-! ## What one request does -/

/-- The frequencies at which a node is a sandbox node. -/
def boxes (C : Controller) (id : NodeId) : Set ℚ := {freq | C.Sandboxed freq id}

/-- What a request with channel `ch` does to the node it is about and to the
sandbox nodes. -/
structure Retuned (C C' : Controller) (id : NodeId) (target node' : Node)
    (ch : Usrp.Channel) : Prop where
  nodes : ∀ x, C'.nodeMap.lookup x =
    if x = id then some node' else C.nodeMap.lookup x
  freq : ∀ dir, node'.freq? dir =
    if moves dir target ch then some (dir.freqOf ch) else target.freq? dir
  others : ∀ x ≠ id, C'.boxes x = C.boxes x
  own : C'.boxes id =
    let S := if moves .uplink target ch then
      moveRole (C.boxes id) (prevFreq .uplink target) ch.txTuneFreq
      else C.boxes id
    if moves .downlink target ch then
      moveRole S (prevFreq .downlink target) ch.rxTuneFreq
    else S

theorem boxes_assignChannel {dir : Direction} {C C' : Controller}
    {node node' : Node} {newConfig : NodeConfig} {ch : Usrp.Channel}
    {rest : List Usrp.Channel} {created : Bool} (hbox : C.sandbox = true)
    (hkeys : C.KeysMatch) (hchannels : newConfig.channels = ch :: rest)
    (h : assignChannel dir C node newConfig = some (created, C', node')) :
    (∀ x ≠ node.config.id, C'.boxes x = C.boxes x) ∧
      C'.boxes node.config.id = if moves dir node ch then
        moveRole (C.boxes node.config.id) (prevFreq dir node) (dir.freqOf ch)
        else C.boxes node.config.id := by
  have hbefore := fun k x =>
    sandboxed_assignChannel (k := k) (x := x) hbox hkeys hchannels h
  constructor
  · intro x hx
    ext k
    simp only [boxes, Set.mem_ofPred_eq, hbefore, hx, and_false, if_false]
  · ext k
    simp only [boxes, Set.mem_ofPred_eq, hbefore, and_true]
    split_ifs
    · simp [moveRole, and_comm]
    · rfl

theorem Outcome.freq?_eq {dir : Direction} {C C' : Controller}
    {node node' : Node} {newConfig : NodeConfig} {ch : Usrp.Channel}
    {created : Bool} (h : Outcome dir C C' node node' newConfig ch created) :
    node'.freq? dir =
      if moves dir node ch then some (dir.freqOf ch) else node.freq? dir := by
  have hchannels := h.channels
  split_ifs at hchannels ⊢ with hmoves
  · obtain ⟨first, rest, hfirst⟩ := List.exists_cons_of_ne_nil (h.tuned hmoves)
    rw [hfirst, List.modifyHead_cons] at hchannels
    rw [Node.freq?, hchannels, List.head?_cons, Option.map_some,
      freqOf_setFreq_same]
  · rw [Node.freq?, hchannels]
    rfl

theorem retuned_handleConfig {C C' : Controller} {n : NodeConfig}
    {remoteIp : String} {now : ℤ} {response : Response} {ch : Usrp.Channel}
    {rest : List Usrp.Channel} (hC : C.KeysMatch) (hbox : C.sandbox = true)
    (hchannels : n.channels = ch :: rest)
    (h : C.handleConfig n remoteIp now = some (response, C')) :
    ∃ target node', C.Target { n with ipAddress := remoteIp } now target ∧
      Retuned C C' n.id target node' ch := by
  obtain ⟨target, newlyInserted, C₁, C₂, C₃, node₂, node₃, createdUL,
    createdDL, hget, r, hr, hUL, hDL, rfl, -⟩ := handleConfig_some h
  obtain ⟨hid, hrequest, hsame⟩ := refresh_same hr
  have hcons : r.request.channels = ch :: rest := hrequest.trans hchannels
  have houtUL := assignChannel_outcome hcons hUL
  have houtDL := assignChannel_outcome hcons hDL
  have hid₂ : node₂.config.id = n.id := by
    rw [houtUL.record.config]
    exact hid
  -- the target and the state before the assignments
  have htarget := target_getOrCreateNode hget
  obtain ⟨hmap, hsandbox₁⟩ := getOrCreateNode_intermediates hget
  have hboxes₁ : ∀ x, ({ C₁ with vehicleHandlers := r.handlers } :
      Controller).boxes x = C.boxes x := by
    intro x
    simp only [boxes, Sandboxed, hmap]
  have hkeys : ({ C₁ with vehicleHandlers := r.handlers } :
      Controller).KeysMatch := hC.congr hmap
  have hon₁ : ({ C₁ with vehicleHandlers := r.handlers } :
      Controller).sandbox = true := hsandbox₁.trans hbox
  obtain ⟨hothersUL, hownUL⟩ :=
    boxes_assignChannel hon₁ hkeys hcons hUL
  obtain ⟨hothersDL, hownDL⟩ :=
    boxes_assignChannel (houtUL.sandbox.trans hon₁)
      ((kept_freq _).assignChannel hkeys hUL) hcons hDL
  -- what moves is decided by the stored frequencies
  have hmovesUL : moves .uplink r.node ch = moves .uplink target ch :=
    moves_congr ch (hsame .uplink).2
  have hfreq₂ : node₂.freq? .downlink = target.freq? .downlink :=
    (houtUL.freq?_of_ne (by simp)).trans (hsame .downlink).2
  have hmovesDL : moves .downlink node₂ ch = moves .downlink target ch :=
    moves_congr ch hfreq₂
  have hprevUL : prevFreq .uplink r.node = prevFreq .uplink target := by
    rw [prevFreq, (hsame .uplink).2, prevFreq]
  have hprevDL : prevFreq .downlink node₂ = prevFreq .downlink target := by
    rw [prevFreq, hfreq₂, prevFreq]
  refine ⟨target, node₃, htarget, ?_, ?_, ?_, ?_⟩
  · intro x
    rw [lookup_put, nodeMap_assignChannel hDL, nodeMap_assignChannel hUL]
    split_ifs with hx
    · rfl
    · exact lookup_getOrCreateNode_ne hget hx
  · intro dir
    cases dir with
    | uplink =>
        rw [houtDL.freq?_of_ne (by simp), houtUL.freq?_eq, hmovesUL,
          (hsame .uplink).2]
    | downlink => rw [houtDL.freq?_eq, hmovesDL, hfreq₂]
  · intro x hx
    have hput : (C₃.put n.id node₃).boxes x = C₃.boxes x := rfl
    rw [hput, hothersDL x (hid₂ ▸ hx), hothersUL x (hid ▸ hx), hboxes₁]
  · have hput : (C₃.put n.id node₃).boxes n.id = C₃.boxes n.id := rfl
    rw [hid₂, hmovesDL, hprevDL] at hownDL
    rw [hid, hmovesUL, hprevUL, hboxes₁] at hownUL
    rw [hput, hownDL, hownUL]
    rfl

/-! ## Histories of registrations and updates -/

structure Update where
  nodeConfig : NodeConfig
  remoteIp : String
  now : ℤ

def update (C : Controller) (u : Update) : Option Controller :=
  C.step (.request (.config u.nodeConfig) u.remoteIp u.now)

/-- Every node is a sandbox node at exactly its two stored frequencies, as far
as they are not zero. -/
def SandboxFollows (C : Controller) : Prop :=
  ∀ id node, C.nodeMap.lookup id = some node → ∀ freq,
    C.Sandboxed freq id ↔ freq ≠ 0 ∧
      (node.freq? .uplink = some freq ∨ node.freq? .downlink = some freq)

/-- The move of a known node gives its roles the right frequencies.  A role
that moves alone does not leave the other one behind, and when both move, the
transmit role does not come where the receive role goes away; nothing moves to
zero, except where it is taken away again. -/
structure RolesApart (node : Node) (ch : Usrp.Channel) : Prop where
  uplink : moves .uplink node ch = true → moves .downlink node ch = false →
    ch.txTuneFreq ≠ 0 ∧
      (prevFreq .uplink node = prevFreq .downlink node →
        prevFreq .downlink node = 0)
  downlink : moves .uplink node ch = false → moves .downlink node ch = true →
    ch.rxTuneFreq ≠ 0 ∧
      (prevFreq .uplink node = prevFreq .downlink node →
        prevFreq .uplink node = 0)
  both : moves .uplink node ch = true → moves .downlink node ch = true →
    ch.rxTuneFreq ≠ 0 ∧
      (ch.txTuneFreq = prevFreq .downlink node ↔ ch.txTuneFreq = 0)

theorem rolesApart_of_still {node : Node} {ch : Usrp.Channel}
    (h : ∀ dir, moves dir node ch = false) : RolesApart node ch where
  uplink hUL _ := by
    rw [h] at hUL
    cases hUL
  downlink _ hDL := by
    rw [h] at hDL
    cases hDL
  both hUL _ := by
    rw [h] at hUL
    cases hUL

/-- A new node has no frequency other than zero, and the roles of a known one
stay apart. -/
def KeepsRoles (C : Controller) (u : Update) : Prop :=
  ∀ ch, u.nodeConfig.channels.head? = some ch →
    match C.nodeMap.lookup u.nodeConfig.id with
    | none => ch.txTuneFreq = 0 ∧ ch.rxTuneFreq = 0
    | some node => RolesApart node ch

/-- What holds throughout a history in sandbox mode. -/
structure SandboxSound (C : Controller) : Prop where
  sandbox : C.sandbox = true
  serviceable : C.Serviceable
  known : ∀ id, id ∉ C.nodeMap → C.boxes id = ∅

theorem freq?_eq_prevFreq {node : Node} (h : node.config.channels ≠ [])
    (dir : Direction) : node.freq? dir = some (prevFreq dir node) := by
  obtain ⟨freq, hfreq⟩ := Option.ne_none_iff_exists'.mp
    (mt (freq?_eq_none_iff node dir).mp h)
  rw [prevFreq, hfreq, Option.getD_some]

theorem sandboxFollows_iff {C : Controller} (hC : C.Serviceable) :
    C.SandboxFollows ↔ ∀ id node, C.nodeMap.lookup id = some node →
      C.boxes id = needed (prevFreq .uplink node) (prevFreq .downlink node) := by
  refine forall_congr' fun id => forall_congr' fun node =>
    forall_congr' fun hnode => ?_
  have htuned := freq?_eq_prevFreq (hC.tuned id node hnode)
  rw [Set.ext_iff]
  refine forall_congr' fun freq => ?_
  simp only [boxes, needed, Set.mem_ofPred_eq, htuned, Option.some.injEq,
    Set.mem_sdiff, Set.mem_insert_iff, Set.mem_singleton_iff]
  rw [and_comm, @eq_comm ℚ freq (prevFreq .uplink node),
    @eq_comm ℚ freq (prevFreq .downlink node)]

/-- The sets agree after a move exactly when it keeps the roles apart. -/
theorem own_eq_needed_iff {S : Set ℚ} {target : Node} {ch : Usrp.Channel}
    (hS : S = needed (prevFreq .uplink target) (prevFreq .downlink target)) :
    (let S' := if moves .uplink target ch then
        moveRole S (prevFreq .uplink target) ch.txTuneFreq else S
      if moves .downlink target ch then
        moveRole S' (prevFreq .downlink target) ch.rxTuneFreq else S') =
      needed
        (if moves .uplink target ch then ch.txTuneFreq
          else prevFreq .uplink target)
        (if moves .downlink target ch then ch.rxTuneFreq
          else prevFreq .downlink target) ↔
    RolesApart target ch := by
  subst hS
  cases hUL : moves .uplink target ch <;>
    cases hDL : moves .downlink target ch
  · have hapart : RolesApart target ch := by
      apply rolesApart_of_still
      intro dir
      cases dir
      · exact hUL
      · exact hDL
    simp [hapart]
  · have hrx : prevFreq .downlink target ≠ ch.rxTuneFreq := moves_ne hDL
    refine (moveRole_rx_eq_iff hrx).trans ⟨fun h => ⟨?_, ?_, ?_⟩, fun h => ?_⟩
    · exact fun hup => absurd (hUL.symm.trans hup) (by simp)
    · exact fun _ _ => h
    · exact fun hup => absurd (hUL.symm.trans hup) (by simp)
    · exact h.downlink hUL hDL
  · have htx : prevFreq .uplink target ≠ ch.txTuneFreq := moves_ne hUL
    refine (moveRole_tx_eq_iff htx).trans ⟨fun h => ⟨?_, ?_, ?_⟩, fun h => ?_⟩
    · exact fun _ _ => h
    · exact fun hup => absurd (hUL.symm.trans hup) (by simp)
    · exact fun _ hdown => absurd (hDL.symm.trans hdown) (by simp)
    · exact h.uplink hUL hDL
  · have hrx : prevFreq .downlink target ≠ ch.rxTuneFreq := moves_ne hDL
    refine (moveRole_both_eq_iff hrx).trans
      ⟨fun h => ⟨?_, ?_, ?_⟩, fun h => ?_⟩
    · exact fun _ hdown => absurd (hDL.symm.trans hdown) (by simp)
    · exact fun hup => absurd (hUL.symm.trans hup) (by simp)
    · exact fun _ _ => h
    · exact h.both hUL hDL

theorem Retuned.prevFreq_eq {C C' : Controller} {id : NodeId}
    {target node' : Node} {ch : Usrp.Channel}
    (h : Retuned C C' id target node' ch) (dir : Direction) :
    prevFreq dir node' =
      if moves dir target ch then dir.freqOf ch else prevFreq dir target := by
  rw [prevFreq, h.freq dir]
  split_ifs <;> rfl

theorem Retuned.boxes_eq_needed_iff {C C' : Controller} {id : NodeId}
    {target node' : Node} {ch : Usrp.Channel}
    (h : Retuned C C' id target node' ch)
    (hS : C.boxes id =
      needed (prevFreq .uplink target) (prevFreq .downlink target)) :
    C'.boxes id = needed (prevFreq .uplink node') (prevFreq .downlink node') ↔
      RolesApart target ch := by
  rw [h.prevFreq_eq, h.prevFreq_eq, h.own]
  exact own_eq_needed_iff hS

/-- A request without channels leaves its node as it is tuned, as one for the
stored channel would. -/
theorem retuned_of_nil {C C' : Controller} {n : NodeConfig}
    {remoteIp : String} {now : ℤ} {response : Response} (hC : C.Serviceable)
    (hchannels : n.channels = [])
    (h : C.handleConfig n remoteIp now = some (response, C')) :
    ∃ target node' ch, C.nodeMap.lookup n.id = some target ∧
      (∀ dir, moves dir target ch = false) ∧
      Retuned C C' n.id target node' ch := by
  obtain ⟨target, newlyInserted, C₁, C₂, C₃, node₂, node₃, createdUL,
    createdDL, hget, r, hr, hUL, hDL, rfl, -⟩ := handleConfig_some h
  obtain ⟨hid, hrequest, hsame⟩ := refresh_same hr
  have hnil : r.request.channels = [] := hrequest.trans hchannels
  rw [assignChannel_of_nil hnil] at hUL
  cases hUL
  rw [assignChannel_of_nil hnil] at hDL
  cases hDL
  rcases getOrCreateNode_some hget with ⟨hknown, rfl, -⟩ | ⟨-, hsome, -⟩
  · obtain ⟨first, rest, hfirst⟩ :=
      List.exists_cons_of_ne_nil (hC.tuned _ target hknown)
    have hstill : ∀ dir, moves dir target first = false := by
      intro dir
      rw [moves, prevFreq, Node.freq?, hfirst]
      exact freqChanged_self _
    refine ⟨target, r.node, first, hknown, hstill, ?_, ?_, ?_, ?_⟩
    · exact fun x => lookup_put _ _ _ _
    · intro dir
      rw [hstill dir, if_neg Bool.false_ne_true]
      exact (hsame dir).2
    · exact fun _ _ => rfl
    · rw [hstill, hstill]
      rfl
  · exact absurd hchannels hsome

theorem handleConfig_of_update {C C' : Controller} {u : Update}
    (h : C.update u = some C') : ∃ response,
      C.handleConfig u.nodeConfig u.remoteIp u.now = some (response, C') := by
  obtain ⟨⟨response, D⟩, hhandled, rfl⟩ := Option.map_eq_some_iff.mp h
  exact ⟨response, hhandled⟩

/-- What a request that is handled does in sandbox mode. -/
theorem retuned_update {C C' : Controller} {u : Update}
    (hC : C.SandboxSound) (h : C.update u = some C') :
    ∃ target node' ch, Retuned C C' u.nodeConfig.id target node' ch ∧
      ((C.nodeMap.lookup u.nodeConfig.id = some target ∧
          (C.KeepsRoles u ↔ RolesApart target ch)) ∨
        (C.nodeMap.lookup u.nodeConfig.id = none ∧
          prevFreq .uplink node' = ch.txTuneFreq ∧
          prevFreq .downlink node' = ch.rxTuneFreq ∧
          C'.boxes u.nodeConfig.id = ∅ ∧
          (C.KeepsRoles u ↔ ch.txTuneFreq = 0 ∧ ch.rxTuneFreq = 0))) := by
  obtain ⟨response, hhandled⟩ := handleConfig_of_update h
  cases hchannels : u.nodeConfig.channels with
  | nil =>
      obtain ⟨target, node', ch, hknown, hstill, hretuned⟩ :=
        retuned_of_nil hC.serviceable hchannels hhandled
      refine ⟨target, node', ch, hretuned, Or.inl ⟨hknown, ?_⟩⟩
      have hkeeps : C.KeepsRoles u := by
        intro ch' hch'
        rw [hchannels] at hch'
        cases hch'
      exact ⟨fun _ => rolesApart_of_still hstill, fun _ => hkeeps⟩
  | cons ch rest =>
      obtain ⟨target, node', htarget, hretuned⟩ := retuned_handleConfig
        hC.serviceable.wired.keys hC.sandbox hchannels hhandled
      refine ⟨target, node', ch, hretuned, ?_⟩
      rcases htarget with hknown | ⟨hnone, rfl⟩
      · have hlookup : C.nodeMap.lookup u.nodeConfig.id = some target := hknown
        refine Or.inl ⟨hlookup, ?_⟩
        simp [KeepsRoles, hchannels, hlookup]
      · -- a new node is stored with the requested frequencies
        have hlookup : C.nodeMap.lookup u.nodeConfig.id = none := hnone
        have hprev : ∀ dir, prevFreq dir (Node.create
            { u.nodeConfig with ipAddress := u.remoteIp } u.now) =
            dir.freqOf ch := by
          intro dir
          simp [prevFreq, Node.freq?, Node.create, hchannels]
        have hstill : ∀ dir, moves dir (Node.create
            { u.nodeConfig with ipAddress := u.remoteIp } u.now) ch =
            false := by
          intro dir
          rw [moves, hprev]
          exact freqChanged_self _
        refine Or.inr ⟨hlookup, ?_, ?_, ?_, ?_⟩
        · rw [hretuned.prevFreq_eq, hstill]
          exact hprev .uplink
        · rw [hretuned.prevFreq_eq, hstill]
          exact hprev .downlink
        · rw [hretuned.own, hstill, hstill]
          exact hC.known _ (AList.lookup_eq_none.mp hlookup)
        · simp [KeepsRoles, hchannels, hlookup]

theorem sandboxSound_update {C C' : Controller} {u : Update}
    (hC : C.SandboxSound) (h : C.update u = some C') : C'.SandboxSound := by
  obtain ⟨target, node', ch, hretuned, -⟩ := retuned_update hC h
  refine ⟨?_, serviceable_step hC.serviceable h, ?_⟩
  · have hsandbox := sandbox_step h
    exact hsandbox.trans hC.sandbox
  · intro id hid
    have hne : id ≠ u.nodeConfig.id := by
      rintro rfl
      apply hid
      exact FiniteMap.mem_iff_lookup.mpr
        ⟨node', by rw [hretuned.nodes, if_pos rfl]⟩
    rw [hretuned.others id hne]
    apply hC.known
    rw [← AList.lookup_eq_none] at hid ⊢
    rw [hretuned.nodes, if_neg hne] at hid
    exact hid

theorem sandboxFollows_update_iff {C C' : Controller} {u : Update}
    (hC : C.SandboxSound) (hfollows : C.SandboxFollows)
    (h : C.update u = some C') : C'.SandboxFollows ↔ C.KeepsRoles u := by
  have hC' := sandboxSound_update hC h
  rw [sandboxFollows_iff hC.serviceable] at hfollows
  rw [sandboxFollows_iff hC'.serviceable]
  obtain ⟨target, node', ch, hretuned, hcase⟩ := retuned_update hC h
  -- the other nodes are where they were
  have hothers : ∀ id ≠ u.nodeConfig.id, ∀ node,
      C'.nodeMap.lookup id = some node → C'.boxes id =
        needed (prevFreq .uplink node) (prevFreq .downlink node) := by
    intro id hid node hnode
    rw [hretuned.nodes, if_neg hid] at hnode
    rw [hretuned.others id hid]
    exact hfollows id node hnode
  have hown : (∀ id node, C'.nodeMap.lookup id = some node → C'.boxes id =
      needed (prevFreq .uplink node) (prevFreq .downlink node)) ↔
      C'.boxes u.nodeConfig.id =
        needed (prevFreq .uplink node') (prevFreq .downlink node') := by
    constructor
    · intro hall
      exact hall _ node' (by rw [hretuned.nodes, if_pos rfl])
    · intro hnode id node hlookup
      by_cases hid : id = u.nodeConfig.id
      · subst hid
        rw [hretuned.nodes, if_pos rfl, Option.some.injEq] at hlookup
        subst hlookup
        exact hnode
      · exact hothers id hid node hlookup
  rw [hown]
  rcases hcase with ⟨hknown, hkeeps⟩ | ⟨-, htx, hrx, hnowhere, hkeeps⟩
  · rw [hkeeps]
    exact hretuned.boxes_eq_needed_iff (hfollows _ target hknown)
  · rw [hkeeps, hnowhere, htx, hrx, eq_comm, needed, Set.sdiff_eq_empty]
    simp

/-- In sandbox mode every state of a history has the nodes where they belong
exactly when every request of it keeps the roles of its node apart. -/
theorem sandboxFollows_iff_keepsRoles (defaults : Option PropagationDefaults)
    (updates : List Update) :
    EveryState update SandboxFollows (create true defaults) updates ↔
      EveryStep update KeepsRoles (create true defaults) updates := by
  refine everyState_iff_everyStep (fun _ _ _ => sandboxSound_update)
    (fun _ _ _ => sandboxFollows_update_iff) ?_ ?_ ?_ updates
  · -- only a new node without a channel is not handled
    intro C u hC hnone ch hch
    have hchannels : u.nodeConfig.channels ≠ [] := by
      intro hempty
      rw [hempty] at hch
      cases hch
    have hsome := (isSome_handleConfig_iff hC.serviceable u.nodeConfig
      u.remoteIp u.now).mpr (Or.inr hchannels)
    rw [update, step, Option.map_eq_none_iff, requestHandler] at hnone
    rw [hnone] at hsome
    cases hsome
  · refine ⟨rfl, serviceable_create true defaults, ?_⟩
    intro id _
    ext freq
    simp [boxes, Sandboxed, create]
  · intro id node hlookup
    simp [create] at hlookup

/-- The first registration of a node makes it a sandbox node nowhere. -/
theorem first_registration_not_sandboxed :
    ¬EveryState update SandboxFollows (create true none)
      [⟨plainConfig "n" 2400000000 2500000000, "10.0.0.1", 0⟩] := by
  intro h
  have hcheck : (run update (create true none)
      [⟨plainConfig "n" 2400000000 2500000000, "10.0.0.1", 0⟩]).any
      (fun C => (C.nodeMap.lookup "n").any (fun node =>
          decide (node.freq? .uplink = some 2400000000)) &&
        (C.intermediateMap.lookup 2400000000).all fun I =>
          decide ("n" ∉ I.sandboxNodes)) = true := by
    decide +kernel
  obtain ⟨C, hrun, hC⟩ := (Option.any_eq_true _ _).mp hcheck
  obtain ⟨hnode, habsent⟩ := Bool.and_eq_true_iff.mp hC
  obtain ⟨node, hlookup, hfreq⟩ := (Option.any_eq_true _ _).mp hnode
  have hfollows : C.SandboxFollows := h.of_run hrun
  obtain ⟨I, hI, hmem⟩ := (hfollows "n" node hlookup 2400000000).mpr
    ⟨by decide, Or.inl (of_decide_eq_true hfreq)⟩
  rw [hI, Option.all_some, decide_eq_true_eq] at habsent
  exact habsent hmem

end Controller

end Chem
