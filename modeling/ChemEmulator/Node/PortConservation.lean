import ChemEmulator.Node.Assignment
import ChemEmulator.Node.Registration

/-!
# Ports

A node gets a transmit port with its receiver and a receive port with its
transmitter, each from a pool of 400; an exhausted pool gives out port 0.
Nothing puts a port back: `RestoreTXPort` only counts down in a map that is
never filled, and the timeout does not even call it.

The ports of one direction are conserved when the free ports together with the
ports that nodes hold are the initial pool.
-/

namespace Chem

/-- The port that a node holds for a direction, once it has the endpoint. -/
def Node.heldPort (node : Node) : Direction → Option UInt16
  | .uplink => node.receiver.map fun _ => node.config.portTxNum.toUInt16
  | .downlink => node.transmitter.map fun _ => node.config.portRxNum.toUInt16

/-- The same, without the 0 of an exhausted pool. -/
def Node.portsOf (node : Node) (dir : Direction) : List UInt16 :=
  (node.heldPort dir).toList.filter (· ≠ 0)

namespace Controller

open PartialRuns

def portPool (C : Controller) : Direction → List UInt16
  | .uplink => C.txPortPool
  | .downlink => C.rxPortPool

/-- The pool that the constructor fills. -/
def initialPool : Direction → List UInt16
  | .uplink => generatePortPool 11400
  | .downlink => generatePortPool 10400

def heldPorts (C : Controller) (dir : Direction) : List UInt16 :=
  (FiniteMap.values C.nodeMap).flatMap fun node => node.portsOf dir

/-- No port is lost, shared or held back: the ports of a node that is gone are
among the free ones. -/
structure PortsConserved (C : Controller) : Prop where
  conserved : ∀ dir, (C.portPool dir ++ C.heldPorts dir).Perm (initialPool dir)
  distinct : ∀ dir id id' node node' port, C.nodeMap.lookup id = some node →
    C.nodeMap.lookup id' = some node' → port ≠ 0 →
    node.heldPort dir = some port → node'.heldPort dir = some port → id = id'
  exhausted : ∀ dir id node, C.nodeMap.lookup id = some node →
    node.heldPort dir = some 0 → 400 ≤ C.nodeMap.keys.length

/-- A node that is removed holds no port of the pools. -/
def RemovesPortless (C : Controller) (event : Event) : Prop :=
  ∀ id node, C.removed event = some (id, node) → ∀ dir, node.portsOf dir = []

/-! ## Ports that change hands -/

/-- From the free ports and those of one node to the same after a change of
the node. -/
structure PortsMoved (C C' : Controller) (node node' : Node)
    (dir : Direction) : Prop where
  total : (C'.portPool dir ++ node'.portsOf dir).Perm
    (C.portPool dir ++ node.portsOf dir)
  empty : C.portPool dir = [] → C'.portPool dir = []
  zero : node'.heldPort dir = some 0 →
    node.heldPort dir = some 0 ∨ C'.portPool dir = []

theorem PortsMoved.trans {C C' C'' : Controller} {node node' node'' : Node}
    {dir : Direction} (h : PortsMoved C C' node node' dir)
    (h' : PortsMoved C' C'' node' node'' dir) :
    PortsMoved C C'' node node'' dir where
  total := h'.total.trans h.total
  empty := fun hempty => h'.empty (h.empty hempty)
  zero := by
    intro hzero
    rcases h'.zero hzero with hold | hempty
    · exact (h.zero hold).imp_right h'.empty
    · exact Or.inr hempty

theorem portsMoved_of_eq {C C' : Controller} {node node' : Node}
    {dir : Direction} (hpool : C'.portPool dir = C.portPool dir)
    (hport : node'.heldPort dir = node.heldPort dir) :
    PortsMoved C C' node node' dir where
  total := by rw [hpool, Node.portsOf, Node.portsOf, hport]
  empty := fun hempty => hpool.trans hempty
  zero := fun hzero => Or.inl (hport.symm.trans hzero)

/-- Changing an endpoint that is there changes no port. -/
theorem heldPort_setEndpoint {node : Node} {dir : Direction}
    (h : (node.endpoint dir).isSome) (st : EndpointState) (dir' : Direction) :
    (node.setEndpoint dir st).heldPort dir' = node.heldPort dir' := by
  obtain ⟨st₀, hst₀⟩ := Option.isSome_iff_exists.mp h
  cases dir <;> cases dir' <;>
    simp_all [Node.setEndpoint, Node.heldPort, Node.endpoint]

/-- A pool without its last port, and that port. -/
theorem perm_dropLast {pool : List UInt16} (hzero : 0 ∉ pool) :
    (pool.dropLast ++ [pool.getLast?.getD 0].filter (· ≠ 0)).Perm pool := by
  rcases List.eq_nil_or_concat pool with rfl | ⟨front, last, rfl⟩
  · exact List.Perm.refl []
  · have hlast : last ≠ 0 := by
      rintro rfl
      exact hzero (by simp)
    simp [hlast]

/-- The node takes the last port of the pool, or 0. -/
theorem portsMoved_of_taken {C C' : Controller} {node node' : Node}
    {dir : Direction} (hzero : 0 ∉ C.portPool dir)
    (hpool : C'.portPool dir = (C.portPool dir).dropLast)
    (hnone : node.heldPort dir = none)
    (hport : node'.heldPort dir =
      some ((C.portPool dir).getLast?.getD 0)) :
    PortsMoved C C' node node' dir where
  total := by
    rw [hpool, Node.portsOf, Node.portsOf, hport, hnone, Option.toList_some,
      Option.toList_none, List.filter_nil, List.append_nil]
    exact perm_dropLast hzero
  empty := by
    intro hempty
    rw [hpool, hempty]
    rfl
  zero := by
    intro hheld
    rw [hport, Option.some.injEq] at hheld
    rw [hpool]
    rcases List.eq_nil_or_concat (C.portPool dir) with hnil | ⟨_, last, hcons⟩
    · rw [hnil]
      exact Or.inr rfl
    · rw [hcons] at hheld hzero
      simp at hheld
      simp [hheld] at hzero

theorem portsMoved_ensureEndpoint {dir : Direction} {C C' : Controller}
    {node node' : Node} {st : EndpointState}
    (h : ensureEndpoint dir C node = some (st, C', node'))
    (hzero : 0 ∉ C.portPool dir) (dir' : Direction) :
    PortsMoved C C' node node' dir' := by
  unfold ensureEndpoint at h
  obtain ⟨⟨st₁, C₁, node₁⟩, hfound, hresult⟩ := Option.map_eq_some_iff.mp h
  cases hresult
  cases hstored : node.endpoint dir with
  | some st₀ =>
      simp only [hstored] at hfound
      cases hfound
      refine portsMoved_of_eq rfl (heldPort_setEndpoint ?_ _ dir')
      rw [hstored]
      rfl
  | none =>
      simp only [hstored, createEndpoint] at hfound
      obtain ⟨st₂, -, hresult⟩ := Option.map_eq_some_iff.mp hfound
      cases hresult
      by_cases hdir : dir' = dir
      · subst hdir
        refine portsMoved_of_taken hzero ?_ ?_ ?_
        · cases dir' <;> rfl
        · cases dir' <;> simp_all [Node.heldPort, Node.endpoint]
        · cases dir' <;>
            simp [Node.heldPort, Node.setEndpoint, assignPort, portPool]
      · refine portsMoved_of_eq ?_ ?_
        · cases dir <;> cases dir' <;> first | exact absurd rfl hdir | rfl
        · cases dir <;> cases dir' <;> first | exact absurd rfl hdir | rfl

/-- Past the endpoint, an assignment changes no port. -/
theorem heldPort_of_ends {dir : Direction} {C C₁ C' : Controller}
    {node node₁ node' : Node} {e : Option EndpointState}
    {newConfig : NodeConfig} {ch : Usrp.Channel} {created : Bool}
    (h : Ends dir C C₁ node node₁ e newConfig ch created C' node')
    (hstored : ∀ st, e = some st → (node₁.endpoint dir).isSome)
    (dir' : Direction) : node'.heldPort dir' = node₁.heldPort dir' := by
  cases h with
  | repeated => rfl
  | kept =>
      cases e with
      | none => cases dir' <;> rfl
      | some st =>
          refine (heldPort_setEndpoint ?_ _ dir').trans ?_
          · exact hstored st rfl
          · cases dir' <;> rfl
  | moved _ _ hjoin =>
      cases joined_of_joinChannel hjoin with
      | sandbox => cases dir' <;> rfl
      | endpoint =>
          refine (heldPort_setEndpoint ?_ _ dir').trans ?_
          · exact hstored _ rfl
          · cases dir' <;> rfl

theorem portsMoved_assignChannel {dir : Direction} {C C' : Controller}
    {node node' : Node} {newConfig : NodeConfig} {created : Bool}
    (h : assignChannel dir C node newConfig = some (created, C', node'))
    (hzero : 0 ∉ C.portPool dir) (dir' : Direction) :
    PortsMoved C C' node node' dir' := by
  cases hchannels : newConfig.channels with
  | nil =>
      rw [assignChannel, hchannels] at h
      cases h
      exact portsMoved_of_eq rfl rfl
  | cons ch rest =>
      obtain ⟨e, C₁, node₁, hequip, hends⟩ := assignChannel_ends hchannels h
      have hpools := hends.onlyChannels.portPools
      have hpool : C'.portPool dir' = C₁.portPool dir' := by
        cases dir'
        · exact hpools.1
        · exact hpools.2
      have hrest : (∀ st, e = some st → (node₁.endpoint dir).isSome) →
          PortsMoved C₁ C' node₁ node' dir' := fun hstored =>
        portsMoved_of_eq hpool (heldPort_of_ends hends hstored dir')
      unfold equip at hequip
      split_ifs at hequip with hsandbox
      · cases hequip
        refine hrest fun st hst => ?_
        cases hst
      · obtain ⟨⟨st, C₂, node₂⟩, hensure, hresult⟩ :=
          Option.map_eq_some_iff.mp hequip
        cases hresult
        refine (portsMoved_ensureEndpoint hensure hzero dir').trans
          (hrest fun _ _ => ?_)
        rw [(ensureEndpoint_ensured hensure).stored]
        rfl

theorem heldPort_refreshFromConfig (node : Node) (n : NodeConfig)
    (handlers : VehicleHandlers) (dir : Direction) :
    (node.refreshFromConfig n handlers).node.heldPort dir =
      node.heldPort dir := by
  rw [(Node.refreshFromConfig_spec rfl).1]
  unfold Node.refreshed
  rcases n.placement with _ | ⟨loc, number⟩ <;>
    cases n.storedAddress handlers <;> cases dir <;> rfl

/-! ## What an event does to the ports -/

/-- The ports of all nodes but one. -/
def othersPorts (C : Controller) (id : NodeId) (dir : Direction) :
    List UInt16 :=
  (FiniteMap.values (C.nodeMap.erase id)).flatMap fun node => node.portsOf dir

theorem heldPorts_perm_of_lookup {C : Controller} {id : NodeId} {node : Node}
    (h : C.nodeMap.lookup id = some node) (dir : Direction) :
    (C.heldPorts dir).Perm (node.portsOf dir ++ C.othersPorts id dir) :=
  (FiniteMap.values_perm_of_lookup h).flatMap_right _

theorem heldPorts_of_not_mem {C : Controller} {id : NodeId}
    (h : C.nodeMap.lookup id = none) (dir : Direction) :
    C.heldPorts dir = C.othersPorts id dir := by
  rw [othersPorts,
    FiniteMap.erase_of_not_mem (AList.lookup_eq_none.mp h), heldPorts]

theorem heldPorts_of_insert {C C' : Controller} {id : NodeId} {node : Node}
    (h : C'.nodeMap = C.nodeMap.insert id node) (dir : Direction) :
    C'.heldPorts dir = node.portsOf dir ++ C.othersPorts id dir := by
  rw [heldPorts, h, FiniteMap.values_insert, List.flatMap_cons, othersPorts]

theorem zero_not_mem_portsOf (node : Node) (dir : Direction) :
    0 ∉ node.portsOf dir := by
  simp [Node.portsOf]

theorem PortsMoved.zero_not_mem {C C' : Controller} {node node' : Node}
    {dir : Direction} (h : PortsMoved C C' node node' dir)
    (hzero : 0 ∉ C.portPool dir) : 0 ∉ C'.portPool dir := by
  intro hmem
  have hall : 0 ∈ C.portPool dir ++ node.portsOf dir :=
    h.total.subset (List.mem_append_left _ hmem)
  rcases List.mem_append.mp hall with hpool | hports
  · exact hzero hpool
  · exact zero_not_mem_portsOf node dir hports

/-- What a configuration request does to the node and to the ports. -/
structure Configured (C C' : Controller) (id : NodeId) (target node' : Node) :
    Prop where
  stored : C.nodeMap.lookup id = some target ∨
    C.nodeMap.lookup id = none ∧ ∀ dir, target.heldPort dir = none
  moved : ∀ dir, PortsMoved C C' target node' dir
  nodeMap : C'.nodeMap = C.nodeMap.insert id node'

theorem configured_handleConfig {C C' : Controller} {n : NodeConfig}
    {remoteIp : String} {now : ℤ} {response : Response}
    (h : C.handleConfig n remoteIp now = some (response, C'))
    (hzero : ∀ dir, 0 ∉ C.portPool dir) :
    ∃ target node', Configured C C' n.id target node' := by
  obtain ⟨target, newlyInserted, C₁, C₂, C₃, node₂, node₃, createdUL, createdDL,
    hget, r, hr, hUL, hDL, rfl, -⟩ := handleConfig_some h
  have hrefresh : ∀ dir, PortsMoved C₁ { C₁ with vehicleHandlers := r.handlers }
      target r.node dir := by
    intro dir
    refine portsMoved_of_eq (by cases dir <;> rfl) ?_
    rw [hr]
    exact heldPort_refreshFromConfig target _ _ dir
  have hpools : ∀ dir, C₁.portPool dir = C.portPool dir := by
    intro dir
    rcases getOrCreateNode_some hget with ⟨-, rfl, -⟩ | ⟨-, -, -, rfl, -⟩
    · rfl
    · cases dir <;> rfl
  have hzero₁ : ∀ dir, 0 ∉ C₁.portPool dir := by
    intro dir
    rw [hpools dir]
    exact hzero dir
  have hUL' : ∀ dir, PortsMoved C₁ C₂ target node₂ dir := fun dir =>
    (hrefresh dir).trans (portsMoved_assignChannel hUL
      ((hrefresh .uplink).zero_not_mem (hzero₁ .uplink)) dir)
  have hDL' : ∀ dir, PortsMoved C₁ C₃ target node₃ dir := fun dir =>
    (hUL' dir).trans (portsMoved_assignChannel hDL
      ((hUL' .downlink).zero_not_mem (hzero₁ .downlink)) dir)
  refine ⟨target, node₃, ?_, ?_, ?_⟩
  · rcases getOrCreateNode_some hget with ⟨hknown, -, -⟩ | ⟨hnew, -, rfl, -, -⟩
    · exact Or.inl hknown
    · refine Or.inr ⟨hnew, fun dir => ?_⟩
      cases dir <;> rfl
  · intro dir
    refine PortsMoved.trans (portsMoved_of_eq (hpools dir) rfl) ?_
    refine (hDL' dir).trans (portsMoved_of_eq ?_ rfl)
    cases dir <;> rfl
  · rw [put, nodeMap_assignChannel hDL, nodeMap_assignChannel hUL]
    rcases getOrCreateNode_some hget with ⟨-, rfl, -⟩ | ⟨-, -, -, rfl, -⟩
    · rfl
    · exact AList.insert_insert C.nodeMap

/-! ## Conservation -/

theorem toNat_port {portEnd : UInt16} (h : 400 ≤ portEnd.toNat) {i : ℕ}
    (hi : i < 400) :
    (portEnd - UInt16.ofNat i).toNat = portEnd.toNat - i := by
  have hport : (UInt16.ofNat i).toNat = i := UInt16.toNat_ofNat_of_lt' (by
    change i < 65536
    omega)
  have hle : UInt16.ofNat i ≤ portEnd := by
    rw [UInt16.le_iff_toNat_le, hport]
    omega
  rw [UInt16.toNat_sub_of_le _ _ hle, hport]

theorem nodup_generatePortPool {portEnd : UInt16} (h : 400 ≤ portEnd.toNat) :
    (generatePortPool portEnd).Nodup := by
  refine List.Nodup.map_on ?_ List.nodup_range
  intro i hi j hj heq
  rw [List.mem_range] at hi hj
  have hnat := congrArg UInt16.toNat heq
  rw [toNat_port h hi, toNat_port h hj] at hnat
  omega

theorem zero_not_mem_generatePortPool {portEnd : UInt16}
    (h : 400 ≤ portEnd.toNat) : 0 ∉ generatePortPool portEnd := by
  intro hmem
  obtain ⟨i, hi, heq⟩ := List.mem_map.mp hmem
  rw [List.mem_range] at hi
  have hnat := congrArg UInt16.toNat heq
  rw [toNat_port h hi] at hnat
  change portEnd.toNat - i = 0 at hnat
  omega

theorem nodup_initialPool (dir : Direction) : (initialPool dir).Nodup := by
  cases dir
  · exact nodup_generatePortPool (by decide)
  · exact nodup_generatePortPool (by decide)

theorem length_initialPool (dir : Direction) :
    (initialPool dir).length = 400 := by
  cases dir <;> simp [initialPool, generatePortPool]

theorem zero_not_mem_initialPool (dir : Direction) : 0 ∉ initialPool dir := by
  cases dir
  · exact zero_not_mem_generatePortPool (by decide)
  · exact zero_not_mem_generatePortPool (by decide)

theorem length_flatMap_portsOf_le (nodes : List Node) (dir : Direction) :
    (nodes.flatMap fun node => node.portsOf dir).length ≤ nodes.length := by
  induction nodes with
  | nil => exact Nat.le_refl 0
  | cons node nodes ih =>
      have hone : (node.portsOf dir).length ≤ 1 := by
        refine (List.length_filter_le _ _).trans ?_
        cases node.heldPort dir <;> simp
      rw [List.flatMap_cons, List.length_append, List.length_cons]
      omega

/-- Only an exhausted pool gives out port 0, and it stays exhausted. -/
def ZeroWhenEmpty (C : Controller) : Prop :=
  ∀ dir id node, C.nodeMap.lookup id = some node →
    node.heldPort dir = some 0 → C.portPool dir = []

theorem portsConserved_of_perm {C : Controller}
    (h : ∀ dir, (C.portPool dir ++ C.heldPorts dir).Perm (initialPool dir))
    (hzero : C.ZeroWhenEmpty) : C.PortsConserved where
  conserved := h
  distinct := by
    intro dir id id' node node' port hnode hnode' hport hheld hheld'
    by_contra hne
    have hothers : (C.nodeMap.erase id).lookup id' = some node' := by
      rw [AList.lookup_erase_ne (Ne.symm hne), hnode']
    have hnodup : (C.portPool dir ++ C.heldPorts dir).Nodup :=
      (h dir).nodup_iff.mpr (nodup_initialPool dir)
    have hports : (C.heldPorts dir).Nodup :=
      (List.nodup_append.mp hnodup).2.1
    have hsplit := (heldPorts_perm_of_lookup hnode dir).nodup_iff.mp hports
    have hmem : port ∈ C.othersPorts id dir := by
      refine List.mem_flatMap.mpr
        ⟨node', FiniteMap.mem_values_iff.mpr ⟨id', hothers⟩, ?_⟩
      simp [Node.portsOf, hheld', hport]
    have hown : port ∈ node.portsOf dir := by
      simp [Node.portsOf, hheld, hport]
    exact (List.nodup_append.mp hsplit).2.2 port hown port hmem rfl
  exhausted := by
    intro dir id node hnode hheld
    have hlength := (h dir).length_eq
    rw [hzero dir id node hnode hheld, List.nil_append,
      length_initialPool] at hlength
    rw [← hlength, ← FiniteMap.length_values]
    exact length_flatMap_portsOf_le _ dir

theorem PortsConserved.zero_not_mem {C : Controller} (h : C.PortsConserved)
    (dir : Direction) : 0 ∉ C.portPool dir := by
  intro hmem
  exact zero_not_mem_initialPool dir
    ((h.conserved dir).subset (List.mem_append_left _ hmem))

/-- Port 0 is in no pool, and only an exhausted one gives it out. -/
structure PoolsSound (C : Controller) : Prop where
  zeroWhenEmpty : C.ZeroWhenEmpty
  zero_not_mem : ∀ dir, 0 ∉ C.portPool dir

/-- The node is stored with its ports as they were. -/
theorem perm_of_configured {C C' : Controller} {id : NodeId}
    {target node' : Node} (h : Configured C C' id target node')
    (dir : Direction) :
    (C'.portPool dir ++ C'.heldPorts dir).Perm
      (C.portPool dir ++ C.heldPorts dir) := by
  have hheld : (C.heldPorts dir).Perm
      (target.portsOf dir ++ C.othersPorts id dir) := by
    rcases h.stored with hknown | ⟨hnew, hnone⟩
    · exact heldPorts_perm_of_lookup hknown dir
    · rw [heldPorts_of_not_mem hnew, Node.portsOf, hnone dir]
      exact List.Perm.refl _
  rw [heldPorts_of_insert h.nodeMap, ← List.append_assoc]
  calc
    (C'.portPool dir ++ node'.portsOf dir ++ C.othersPorts id dir).Perm
        (C.portPool dir ++ target.portsOf dir ++ C.othersPorts id dir) :=
      (h.moved dir).total.append_right _
    (C.portPool dir ++ target.portsOf dir ++ C.othersPorts id dir).Perm
        (C.portPool dir ++ C.heldPorts dir) := by
      rw [List.append_assoc]
      exact hheld.symm.append_left _

theorem zeroWhenEmpty_of_configured {C C' : Controller} {id : NodeId}
    {target node' : Node} (h : Configured C C' id target node')
    (hC : C.ZeroWhenEmpty) : C'.ZeroWhenEmpty := by
  intro dir id' node hnode hzero
  rw [h.nodeMap] at hnode
  by_cases hid : id' = id
  · subst hid
    rw [AList.lookup_insert, Option.some.injEq] at hnode
    subst hnode
    rcases (h.moved dir).zero hzero with hold | hempty
    · rcases h.stored with hknown | ⟨-, hnone⟩
      · exact (h.moved dir).empty (hC dir id' target hknown hold)
      · rw [hnone dir] at hold
        cases hold
    · exact hempty
  · rw [AList.lookup_insert_ne hid] at hnode
    exact (h.moved dir).empty (hC dir id' node hnode hzero)

/-- A heartbeat is a change of the node without one of its ports. -/
theorem configured_heartbeat {C : Controller} {id : NodeId} {node : Node}
    (hnode : C.nodeMap.lookup id = some node) (now : ℤ) :
    Configured C (C.put id (node.updateHeartbeat now)) id node
      (node.updateHeartbeat now) where
  stored := Or.inl hnode
  moved := by
    intro dir
    refine portsMoved_of_eq ?_ ?_
    · cases dir <;> rfl
    · cases dir <;> rfl
  nodeMap := rfl

theorem portPool_removeNode (C : Controller) (id : NodeId) (node : Node)
    (dir : Direction) : (C.removeNode id node).portPool dir = C.portPool dir := by
  have hdetach : ∀ (C : Controller) dir' e,
      (detachAll dir' C e).portPool dir = C.portPool dir := by
    intro C dir' e
    cases e <;> cases dir <;> rfl
  unfold removeNode
  cases dir
  · exact (hdetach _ _ _).trans (hdetach _ _ _)
  · exact (hdetach _ _ _).trans (hdetach _ _ _)

theorem zeroWhenEmpty_removeNode {C : Controller} {id : NodeId} {node : Node}
    (hC : C.ZeroWhenEmpty) : (C.removeNode id node).ZeroWhenEmpty := by
  intro dir id' node' hnode' hheld
  rw [portPool_removeNode]
  exact hC dir id' node' (lookup_removeNode hnode') hheld

/-- A removed node takes its ports along. -/
theorem portsConserved_removeNode_iff {C : Controller} {id : NodeId}
    {node : Node} (hC : C.PortsConserved) (hzero : C.ZeroWhenEmpty)
    (hnode : C.nodeMap.lookup id = some node) :
    (C.removeNode id node).PortsConserved ↔
      ∀ dir, node.portsOf dir = [] := by
  have hheld : ∀ dir, (C.removeNode id node).heldPorts dir =
      C.othersPorts id dir := by
    intro dir
    rw [heldPorts, nodeMap_removeNode, othersPorts]
  have hbefore : ∀ dir, (C.portPool dir ++
      (node.portsOf dir ++ C.othersPorts id dir)).Perm (initialPool dir) :=
    fun dir => ((heldPorts_perm_of_lookup hnode dir).symm.append_left _).trans
      (hC.conserved dir)
  constructor
  · intro hafter dir
    have hlength := (hafter.conserved dir).trans (hbefore dir).symm
    rw [portPool_removeNode, hheld] at hlength
    have hcount := hlength.length_eq
    simp only [List.length_append] at hcount
    exact List.length_eq_zero_iff.mp (by omega)
  · intro hnone
    refine portsConserved_of_perm (fun dir => ?_)
      (zeroWhenEmpty_removeNode hzero)
    have hperm := hbefore dir
    rw [hnone dir, List.nil_append] at hperm
    rw [portPool_removeNode, hheld]
    exact hperm

theorem portsConserved_of_configured {C C' : Controller} {id : NodeId}
    {target node' : Node} (h : Configured C C' id target node')
    (hC : C.PortsConserved) (hzero : C.ZeroWhenEmpty) : C'.PortsConserved :=
  portsConserved_of_perm
    (fun dir => (perm_of_configured h dir).trans (hC.conserved dir))
    (zeroWhenEmpty_of_configured h hzero)

theorem poolsSound_of_configured {C C' : Controller} {id : NodeId}
    {target node' : Node} (h : Configured C C' id target node')
    (hC : C.PoolsSound) : C'.PoolsSound where
  zeroWhenEmpty := zeroWhenEmpty_of_configured h hC.zeroWhenEmpty
  zero_not_mem := fun dir => (h.moved dir).zero_not_mem (hC.zero_not_mem dir)

theorem poolsSound_step {C C' : Controller} {event : Event}
    (hC : C.PoolsSound) (h : C.step event = some C') : C'.PoolsSound := by
  cases handled_of_step h with
  | nothing => exact hC
  | heartbeat remoteIp now hnode =>
      exact poolsSound_of_configured (configured_heartbeat hnode now) hC
  | removal ipAddrMap hremoved hnode =>
      refine ⟨zeroWhenEmpty_removeNode hC.zeroWhenEmpty, fun dir => ?_⟩
      rw [portPool_removeNode]
      exact hC.zero_not_mem dir
  | configuration hconfig =>
      obtain ⟨target, node', hconfigured⟩ :=
        configured_handleConfig hconfig hC.zero_not_mem
      exact poolsSound_of_configured hconfigured hC

theorem portsConserved_step_iff {C C' : Controller} {event : Event}
    (hsound : C.PoolsSound) (hC : C.PortsConserved)
    (h : C.step event = some C') :
    C'.PortsConserved ↔ C.RemovesPortless event := by
  have hzero := hsound.zeroWhenEmpty
  have hportless : C.removed event = none → C.RemovesPortless event := by
    intro hnone id node hremoved
    rw [hnone] at hremoved
    cases hremoved
  cases handled_of_step h with
  | nothing hnone => exact ⟨fun _ => hportless hnone, fun _ => hC⟩
  | heartbeat remoteIp now hnode =>
      refine ⟨fun _ => hportless rfl, fun _ => ?_⟩
      exact portsConserved_of_configured (configured_heartbeat hnode now) hC
        hzero
  | removal ipAddrMap hremoved hnode =>
      have hiff := portsConserved_removeNode_iff
        (C := { C with ipAddrMap := ipAddrMap }) ⟨hC.1, hC.2, hC.3⟩ hzero hnode
      rw [hiff]
      constructor
      · intro hnone id' node' hremoved'
        rw [hremoved, Option.some.injEq, Prod.mk.injEq] at hremoved'
        obtain ⟨rfl, rfl⟩ := hremoved'
        exact hnone
      · intro hcond
        exact hcond _ _ hremoved
  | configuration hconfig =>
      obtain ⟨target, node', hconfigured⟩ :=
        configured_handleConfig hconfig hsound.zero_not_mem
      exact ⟨fun _ => hportless rfl, fun _ =>
        portsConserved_of_configured hconfigured hC hzero⟩

/-- A removal is always carried out. -/
theorem removed_of_step_none {C : Controller} {event : Event}
    (h : C.step event = none) : C.removed event = none := by
  cases event with
  | checkTimeout => cases h
  | request request remoteIp now =>
      cases request with
      | malformed | illTyped | heartbeat | config => rfl
      | disconnect id =>
          simp only [step, requestHandler, Option.map_eq_none_iff] at h
          split at h <;> cases h

/-- With the sandbox mode off, every state of a history conserves the ports if
and only if every node that is removed holds none. -/
theorem portsConserved_iff_removesPortless
    (defaults : Option PropagationDefaults) (events : List Event) :
    EveryState step PortsConserved (create false defaults) events ↔
      EveryStep step RemovesPortless (create false defaults) events := by
  have hempty : ∀ dir, (create false defaults).heldPorts dir = [] :=
    fun _ => rfl
  have hinit : (create false defaults).PoolsSound := by
    refine ⟨?_, ?_⟩
    · intro dir id node hnode
      simp [create] at hnode
    · intro dir
      have hpool : (create false defaults).portPool dir = initialPool dir := by
        cases dir <;> rfl
      rw [hpool]
      exact zero_not_mem_initialPool dir
  refine everyState_iff_everyStep (fun _ _ _ => poolsSound_step) ?_ ?_ hinit
    ?_ events
  · intro C event C' hsound hC hstep
    exact portsConserved_step_iff hsound hC hstep
  · intro C event _ hnone id node hremoved
    rw [removed_of_step_none hnone] at hremoved
    cases hremoved
  · refine portsConserved_of_perm (fun dir => ?_) hinit.zeroWhenEmpty
    rw [hempty, List.append_nil]
    cases dir <;> exact List.Perm.refl _

/-- A node that registers and disconnects: two ports are gone. -/
theorem ports_lost_on_disconnect :
    ¬ ∀ (defaults : Option PropagationDefaults) (events : List Event),
      EveryState step PortsConserved (create false defaults) events := by
  intro hall
  have hcheck :
      (run step (create false none)
        [.request (.config (plainConfig "n" 2400000000 2500000000))
          "10.0.0.1" 0,
         .request (.disconnect "n") "10.0.0.1" 1]).any
        (fun C => decide ((C.portPool .uplink ++
          C.heldPorts .uplink).length = 399)) = true := by
    decide +kernel
  obtain ⟨C, hrun, hC⟩ := (Option.any_eq_true _ _).mp hcheck
  have hperm := ((hall none _).of_run hrun).conserved .uplink
  have hlength := hperm.length_eq
  rw [of_decide_eq_true hC, length_initialPool] at hlength
  cases hlength

end Controller

end Chem
