import ChemEmulator.Node.Assignment
import ChemEmulator.Node.Registration

/-!
# Nodes that are heard of

`src/chem/node/controller.cpp`, `CheckTimeouts`: a node that has been silent for
ten seconds is removed.  What counts is the time in the node, and only two of
the requests of a node set it: the registration that inserts it, and a
heartbeat.  A configuration request of a known node leaves it alone, also one
that is answered with success.

A run is watched from outside: when the last request of a node was answered
with success, and when it last sent a heartbeat or was inserted.
-/

namespace Chem

open PartialRuns

/-- The time of the last heartbeat is kept when an endpoint is stored. -/
@[simp] theorem Node.lastHeartbeat_setEndpoint (node : Node) (dir : Direction)
    (st : EndpointState) :
    (node.setEndpoint dir st).lastHeartbeat = node.lastHeartbeat := by
  cases dir <;> rfl

namespace Controller

/-! ## Configuration requests -/

theorem lastHeartbeat_equip {dir : Direction} {C C₁ : Controller}
    {node node₁ : Node} {e : Option EndpointState}
    (h : equip dir C node = some (e, C₁, node₁)) :
    node₁.lastHeartbeat = node.lastHeartbeat := by
  rcases equip_cases h with ⟨-, -, -, rfl⟩ | ⟨-, st, -, hensured⟩
  · rfl
  · rw [hensured.record, Node.lastHeartbeat_setEndpoint]

theorem lastHeartbeat_keepChannel (dir : Direction) (e : Option EndpointState)
    (node : Node) (newConfig : NodeConfig) :
    (keepChannel dir e node newConfig).lastHeartbeat = node.lastHeartbeat := by
  unfold keepChannel
  cases e with
  | none => rfl
  | some st => rw [Node.lastHeartbeat_setEndpoint]

theorem lastHeartbeat_joinChannel {dir : Direction} {C C' : Controller}
    {freq : ℚ} {e : Option EndpointState} {node node' : Node}
    {newConfig : NodeConfig}
    (h : joinChannel dir C freq e node newConfig = some (C', node')) :
    node'.lastHeartbeat = node.lastHeartbeat := by
  cases joined_of_joinChannel h with
  | sandbox => rfl
  | endpoint => rw [Node.lastHeartbeat_setEndpoint]

theorem lastHeartbeat_assignChannel {dir : Direction} {C C' : Controller}
    {node node' : Node} {newConfig : NodeConfig} {created : Bool}
    (h : assignChannel dir C node newConfig = some (created, C', node')) :
    node'.lastHeartbeat = node.lastHeartbeat := by
  cases hchannels : newConfig.channels with
  | nil =>
      rw [assignChannel, hchannels] at h
      cases h
      rfl
  | cons ch rest =>
      obtain ⟨e, C₁, node₁, hequip, hends⟩ := assignChannel_ends hchannels h
      rw [← lastHeartbeat_equip hequip]
      cases hends with
      | repeated => rfl
      | moved _ _ hjoin => exact lastHeartbeat_joinChannel hjoin
      | kept => exact lastHeartbeat_keepChannel dir e node₁ newConfig

/-- A configuration request stores one node, with the time that it had, or the
current one if it was not known. -/
theorem stored_handleConfig {C C' : Controller} {n : NodeConfig}
    {remoteIp : String} {now : ℤ} {response : Response}
    (h : C.handleConfig n remoteIp now = some (response, C')) :
    ∃ node, (∀ id, C'.nodeMap.lookup id =
        if id = n.id then some node else C.nodeMap.lookup id) ∧
      node.lastHeartbeat =
        ((C.nodeMap.lookup n.id).map Node.lastHeartbeat).getD now := by
  obtain ⟨target, newlyInserted, C₁, C₂, C₃, node₂, node₃, createdUL, createdDL,
    hget, r, hr, hUL, hDL, rfl, -⟩ := handleConfig_some h
  have hkept : node₃.lastHeartbeat = target.lastHeartbeat := by
    rw [lastHeartbeat_assignChannel hDL, lastHeartbeat_assignChannel hUL,
      (Node.refreshFromConfig_spec hr).1]
    exact (target.refreshed_kept _ _).2.2.2.2.1
  have hnodes : C₃.nodeMap = C₁.nodeMap := by
    rw [nodeMap_assignChannel hDL, nodeMap_assignChannel hUL]
  refine ⟨node₃, ?_, ?_⟩
  · intro id
    rw [lookup_put, hnodes]
    split_ifs with hid
    · rfl
    · exact lookup_getOrCreateNode_ne hget hid
  · rw [hkept]
    rcases getOrCreateNode_some hget with
      ⟨hstored, -, -⟩ | ⟨hnone, -, rfl, -, -⟩
    · dsimp only at hstored
      rw [hstored]
      rfl
    · dsimp only at hnone
      rw [hnone]
      rfl

/-! ## Watched runs -/

/-- A controller and what is known about its nodes from outside. -/
structure Watch where
  controller : Controller
  /-- When a request of a node was last answered with success. -/
  heard : FiniteMap NodeId ℤ
  /-- When a node last sent a heartbeat, or was inserted. -/
  beats : FiniteMap NodeId ℤ

/-- The node that a registration, an update or a heartbeat comes from. -/
def sender : Request → Option NodeId
  | .heartbeat id => some id
  | .config nodeConfig => some nodeConfig.id
  | _ => none

/-- The node that shows by a request that it lives: a known one by a heartbeat,
another one by a registration. -/
def beating (C : Controller) : Request → Option NodeId
  | .heartbeat id => if id ∈ C.nodeMap then some id else none
  | .config nodeConfig =>
      if nodeConfig.id ∈ C.nodeMap then none else some nodeConfig.id
  | _ => none

/-- A map with the current time for a node. -/
def stamp (times : FiniteMap NodeId ℤ) (id : Option NodeId) (now : ℤ) :
    FiniteMap NodeId ℤ :=
  match id with
  | none => times
  | some id => times.insert id now

namespace Watch

def start (sandbox : Bool) (defaults : Option PropagationDefaults) : Watch :=
  ⟨create sandbox defaults, ∅, ∅⟩

def step (W : Watch) : Event → Option Watch
  | .request request remoteIp now =>
      (W.controller.requestHandler request remoteIp now).map fun result =>
        { controller := result.2
          heard := if result.1.status = .success then
            stamp W.heard (sender request) now else W.heard
          beats := stamp W.beats (W.controller.beating request) now }
  | .checkTimeout id now =>
      some { W with controller := W.controller.checkTimeout id now }

/-- The times do not change what the controller does. -/
theorem controller_step (W : Watch) (event : Event) :
    (W.step event).map Watch.controller = W.controller.step event := by
  cases event with
  | request request remoteIp now => exact Option.map_map _ _ _
  | checkTimeout id now => rfl

/-- Less than ten seconds have passed since the time for the node. -/
def Recent (times : FiniteMap NodeId ℤ) (id : NodeId) (now : ℤ) : Prop :=
  ∃ t, times.lookup id = some t ∧ now - t < 10 * 1000000000

/-- A check does not remove a node of which a request was answered with success
less than ten seconds before. -/
def Spares (W : Watch) : Event → Prop
  | .request _ _ _ => True
  | .checkTimeout id now => id ∈ W.controller.nodeMap →
      Recent W.heard id now → id ∈ (W.controller.checkTimeout id now).nodeMap

/-- A node with such a request has also sent a heartbeat, or been inserted, less
than ten seconds before. -/
def Beats (W : Watch) : Event → Prop
  | .request _ _ _ => True
  | .checkTimeout id now => id ∈ W.controller.nodeMap →
      Recent W.heard id now → Recent W.beats id now

/-- The time in a node is the one of its last heartbeat or of its insertion. -/
def Timed (W : Watch) : Prop :=
  ∀ id node, W.controller.nodeMap.lookup id = some node →
    W.beats.lookup id = some node.lastHeartbeat

theorem timed_start (sandbox : Bool) (defaults : Option PropagationDefaults) :
    (start sandbox defaults).Timed :=
  FiniteMap.all_empty

/-- One node is stored, with the time that is noted for it. -/
theorem Timed.put {W W' : Watch} (h : W.Timed) {id : NodeId} {node : Node}
    (hnodes : ∀ id', W'.controller.nodeMap.lookup id' =
      if id' = id then some node else W.controller.nodeMap.lookup id')
    (hbeats : ∀ id' ≠ id, W'.beats.lookup id' = W.beats.lookup id')
    (hbeat : W'.beats.lookup id = some node.lastHeartbeat) : W'.Timed := by
  intro id' node' hnode
  rw [hnodes] at hnode
  split_ifs at hnode with hid
  · obtain rfl := Option.some.inj hnode
    rw [hid, hbeat]
  · rw [hbeats id' hid]
    exact h id' node' hnode

/-- Nodes may go. -/
theorem Timed.of_lookup {W W' : Watch} (h : W.Timed)
    (hnodes : ∀ id node, W'.controller.nodeMap.lookup id = some node →
      W.controller.nodeMap.lookup id = some node)
    (hbeats : W'.beats = W.beats) : W'.Timed := by
  intro id node hnode
  rw [hbeats]
  exact h id node (hnodes id node hnode)

theorem timed_heartbeat {W W' : Watch} {id : NodeId} {remoteIp : String}
    {now : ℤ} (hW : W.Timed)
    (h : W.step (.request (.heartbeat id) remoteIp now) = some W') :
    W'.Timed := by
  simp only [step, requestHandler, beating] at h
  cases hnode : W.controller.nodeMap.lookup id with
  | none =>
      rw [hnode, if_neg (AList.lookup_eq_none.mp hnode)] at h
      obtain rfl := Option.some.inj h
      exact hW
  | some node =>
      rw [hnode, if_pos (FiniteMap.mem_iff_lookup.mpr ⟨node, hnode⟩)] at h
      obtain rfl := Option.some.inj h
      refine hW.put (fun id' => lookup_put W.controller id id' _) ?_ ?_
      · exact fun id' hid => AList.lookup_insert_ne hid
      · exact AList.lookup_insert W.beats

theorem timed_disconnect {W W' : Watch} {id : NodeId} {remoteIp : String}
    {now : ℤ} (hW : W.Timed)
    (h : W.step (.request (.disconnect id) remoteIp now) = some W') :
    W'.Timed := by
  simp only [step, requestHandler, beating] at h
  cases hnode : W.controller.nodeMap.lookup id with
  | none =>
      rw [hnode] at h
      obtain rfl := Option.some.inj h
      exact hW
  | some node =>
      rw [hnode] at h
      obtain rfl := Option.some.inj h
      refine hW.of_lookup (fun id' node' hnode' => ?_) rfl
      have hrest := lookup_removeNode hnode'
      rw [restoreTXPort_eq] at hrest
      exact hrest

theorem timed_config {W W' : Watch} {n : NodeConfig} {remoteIp : String}
    {now : ℤ} (hW : W.Timed)
    (h : W.step (.request (.config n) remoteIp now) = some W') :
    W'.Timed := by
  obtain ⟨⟨response, C'⟩, hhandled, rfl⟩ := Option.map_eq_some_iff.mp h
  obtain ⟨node, hnodes, htime⟩ := stored_handleConfig hhandled
  rw [beating]
  cases hnode : W.controller.nodeMap.lookup n.id with
  | none =>
      rw [if_neg (AList.lookup_eq_none.mp hnode)]
      rw [hnode] at htime
      refine hW.put hnodes ?_ ?_
      · exact fun id' hid => AList.lookup_insert_ne hid
      · rw [htime]
        exact AList.lookup_insert W.beats
  | some stored =>
      rw [if_pos (FiniteMap.mem_iff_lookup.mpr ⟨stored, hnode⟩)]
      rw [hnode] at htime
      refine hW.put hnodes (fun _ _ => rfl) ?_
      rw [htime]
      exact hW n.id stored hnode

theorem timed_step {W W' : Watch} {event : Event} (hW : W.Timed)
    (h : W.step event = some W') : W'.Timed := by
  cases event with
  | request request remoteIp now =>
      cases request with
      | malformed =>
          obtain rfl := Option.some.inj h
          exact hW
      | illTyped => cases h
      | heartbeat id => exact timed_heartbeat hW h
      | disconnect id => exact timed_disconnect hW h
      | config n => exact timed_config hW h
  | checkTimeout id now =>
      obtain rfl := Option.some.inj h
      refine hW.of_lookup ?_ rfl
      intro id' node' hnode
      dsimp only [checkTimeout] at hnode
      split at hnode
      · exact hnode
      · split_ifs at hnode
        · exact hnode
        · exact lookup_removeNode hnode

end Watch

/-! ## What a check removes -/

theorem isAlive_iff (node : Node) (now : ℤ) :
    node.isAlive 10 now = true ↔
      now - node.lastHeartbeat < 10 * 1000000000 := by
  rw [Node.isAlive, decide_eq_true_eq]
  rcases le_total 0 (now - node.lastHeartbeat) with hpast | hfuture
  · rw [Int.tdiv_eq_ediv_of_nonneg hpast]
    omega
  · have hsmall : (now - node.lastHeartbeat).tdiv 1000000000 ≤ 0 := by
      rw [← neg_sub, Int.neg_tdiv, neg_nonpos]
      exact Int.tdiv_nonneg (by omega) (by decide)
    omega

/-- A known node survives a check exactly if it is alive. -/
theorem mem_checkTimeout_iff {C : Controller} {id : NodeId} {node : Node}
    (hnode : C.nodeMap.lookup id = some node) (now : ℤ) :
    id ∈ (C.checkTimeout id now).nodeMap ↔
      now - node.lastHeartbeat < 10 * 1000000000 := by
  rw [checkTimeout, hnode, ← isAlive_iff]
  dsimp only
  split_ifs with halive
  · refine iff_of_true ?_ halive
    exact FiniteMap.mem_iff_lookup.mpr ⟨node, hnode⟩
  · rw [nodeMap_removeNode]
    refine iff_of_false ?_ halive
    simp

namespace Watch

theorem spares_iff_beats {W : Watch} (hW : W.Timed) (event : Event) :
    W.Spares event ↔ W.Beats event := by
  cases event with
  | request request remoteIp now => exact Iff.rfl
  | checkTimeout id now =>
      refine forall_congr' fun hmem => forall_congr' fun _ => ?_
      obtain ⟨node, hnode⟩ := FiniteMap.mem_iff_lookup.mp hmem
      rw [mem_checkTimeout_iff hnode, Recent, hW id node hnode]
      simp only [Option.some.injEq, exists_eq_left']

/-- No check of a run removes a node of which a request was answered with
success less than ten seconds before, exactly if at every check such a node has
sent a heartbeat, or been inserted, less than ten seconds before. -/
theorem everyCheck_spares_iff (sandbox : Bool)
    (defaults : Option PropagationDefaults) (events : List Event) :
    EveryStep step Spares (start sandbox defaults) events ↔
      EveryStep step Beats (start sandbox defaults) events :=
  everyStep_congr (fun _ _ _ hW _ => timed_step hW) (fun _ event hW =>
    spares_iff_beats hW event) (timed_start sandbox defaults) events

/-- A node registers and is moved to another frequency nine seconds later. -/
def movedNode : List Event :=
  [.request (.config (plainConfig "n" 2400000000 0)) "10.0.0.1" 0,
    .request (.config (plainConfig "n" 2450000000 0)) "10.0.0.1" 9000000000]

/-- Two seconds after the move has been answered with success the node is
removed. -/
theorem not_spared_moved :
    ¬EveryStep step Spares (start false none)
      (movedNode ++ [.checkTimeout "n" 11000000000]) := by
  intro h
  have hcheck : (run step (start false none) movedNode).map
      (fun W => (W.heard.lookup "n", decide ("n" ∈ W.controller.nodeMap),
        decide
          ("n" ∈ (W.controller.checkTimeout "n" 11000000000).nodeMap))) =
      some (some 9000000000, true, false) := by decide +kernel
  obtain ⟨W, hrun, hW⟩ := Option.map_eq_some_iff.mp hcheck
  simp only [Prod.mk.injEq, decide_eq_true_eq, decide_eq_false_iff_not] at hW
  obtain ⟨hheard, hknown, hgone⟩ := hW
  exact hgone (h.of_run hrun hknown ⟨9000000000, hheard, by decide⟩)

end Watch

end Controller

end Chem
