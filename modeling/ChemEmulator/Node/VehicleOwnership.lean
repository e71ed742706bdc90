import ChemEmulator.Node.RequestOrigin
import ChemEmulator.Node.Reregistration
import ChemEmulator.Support.OwnedRecords

/-!
# Who owns a vehicle handler

A vehicle handler holds a pointer to the node it was made for.  It is filed
under the name that the node has at that moment, or under its identifier, and
the removal of a node looks under the name that the node has then.  Names are
not unique and can be changed by every request, so the handlers stay with their
nodes only in runs that keep the names apart.
-/

namespace Chem

open PartialRuns

/-- The request asks for a vehicle: it has an address, or it is a portable node
that says which. -/
def NodeConfig.namesVehicle (n : NodeConfig) : Bool :=
  n.hasVehicleAddress || n.portableAddress.isSome

namespace Controller

/-- Handlers belong to known nodes, a node has one at most, and removing a node
removes its handlers and no others. -/
structure HandlersOwned (C : Controller) : Prop where
  known : ∀ k h, C.vehicleHandlers.lookup k = some h → h.node ∈ C.nodeMap
  single : ∀ k k' h h', C.vehicleHandlers.lookup k = some h →
    C.vehicleHandlers.lookup k' = some h' → h.node = h'.node → k = k'
  removed : ∀ id node, C.nodeMap.lookup id = some node → ∀ k h,
    (C.removeNode id node).vehicleHandlers.lookup k = some h ↔
      C.vehicleHandlers.lookup k = some h ∧ h.node ≠ id

/-- The request leaves the handlers with their nodes: a node that has one keeps
the name, and nobody takes the name of a handler. -/
structure KeepsNames (C : Controller) (n : NodeConfig) : Prop where
  same : ∀ k h, C.vehicleHandlers.lookup k = some h → h.node = n.id →
    k = n.handlerKey
  free : ∀ h, C.vehicleHandlers.lookup n.handlerKey = some h → h.node = n.id
  alone : n.namesVehicle = true → n.canConnect C.vehicleHandlers = true →
    ∀ id node, C.nodeMap.lookup id = some node →
      node.config.handlerKey = n.handlerKey → id = n.id

/-- Only a configuration request that is carried out can separate a handler
from its node. -/
def KeepsHandlers (C : Controller) : Event → Prop
  | .request (.config n) remoteIp now =>
      (C.handleConfig n remoteIp now).isSome = true → KeepsNames C n
  | _ => True

/-! ## Handlers are filed under the names of their nodes -/

/-- The name under which the handler of a node is looked for. -/
def handlerKeyOf (C : Controller) (id : NodeId) : Option String :=
  (C.nodeMap.lookup id).map fun node => node.config.handlerKey

def HandlersFiled (C : Controller) : Prop :=
  FiniteMap.Filed C.handlerKeyOf VehicleHandler.node C.vehicleHandlers

theorem vehicleHandlers_removeNode (C : Controller) (id : NodeId)
    (node : Node) :
    (C.removeNode id node).vehicleHandlers =
      C.vehicleHandlers.erase node.config.handlerKey := by
  unfold removeNode detachAll removeVehicleHandler removeEmptyChannels
  cases node.transmitter <;> cases node.receiver <;> rfl

theorem handlerKeyOf_eq_some {C : Controller} {id : NodeId} {k : String} :
    C.handlerKeyOf id = some k ↔
      ∃ node, C.nodeMap.lookup id = some node ∧ node.config.handlerKey = k :=
  Option.map_eq_some_iff

/-- What the handlers should be like is that they are filed under the present
names. -/
theorem handlersOwned_iff (C : Controller) :
    C.HandlersOwned ↔ C.HandlersFiled := by
  unfold HandlersFiled
  constructor
  · intro h
    refine FiniteMap.filed_iff.mpr ⟨?_, ?_⟩
    · intro k r hr
      obtain ⟨node, hnode⟩ := FiniteMap.mem_iff_lookup.mp (h.known k r hr)
      exact ⟨_, handlerKeyOf_eq_some.mpr ⟨node, hnode, rfl⟩⟩
    · intro id k hk l r
      obtain ⟨node, hnode, rfl⟩ := handlerKeyOf_eq_some.mp hk
      rw [← vehicleHandlers_removeNode]
      exact h.removed id node hnode l r
  · intro h
    refine ⟨?_, ?_, ?_⟩
    · intro k r hr
      obtain ⟨node, hnode, -⟩ := handlerKeyOf_eq_some.mp (h.own k r hr)
      exact FiniteMap.mem_iff_lookup.mpr ⟨node, hnode⟩
    · intro k k' r r' hr hr' hsame
      exact h.single hr hr' hsame
    · intro id node hnode k r
      rw [vehicleHandlers_removeNode]
      exact h.lookup_erase (handlerKeyOf_eq_some.mpr ⟨node, hnode, rfl⟩)

/-! ## What an event does to names and handlers -/

theorem handlerKeyOf_put (C : Controller) (id : NodeId) (node : Node) :
    (C.put id node).handlerKeyOf =
      Function.update C.handlerKeyOf id (some node.config.handlerKey) := by
  funext id'
  unfold handlerKeyOf
  rw [lookup_put]
  by_cases hid : id' = id
  · subst hid
    rw [if_pos rfl, Function.update_self]
    rfl
  · rw [if_neg hid, Function.update_of_ne hid]

theorem handlerKeyOf_removeNode (C : Controller) (id : NodeId) (node : Node) :
    (C.removeNode id node).handlerKeyOf =
      Function.update C.handlerKeyOf id none := by
  funext id'
  unfold handlerKeyOf
  rw [nodeMap_removeNode]
  by_cases hid : id' = id
  · subst hid
    rw [AList.lookup_erase, Function.update_self]
    rfl
  · rw [AList.lookup_erase_ne hid, Function.update_of_ne hid]

theorem storedAddress_ne_none_iff {n : NodeConfig} {handlers : VehicleHandlers} :
    n.storedAddress handlers ≠ none ↔ n.namesVehicle = true := by
  unfold NodeConfig.storedAddress NodeConfig.fallbackAddress
    NodeConfig.namesVehicle NodeConfig.connects
  cases n.hasVehicleAddress <;> cases n.portableAddress <;>
    cases n.canConnect handlers <;> simp

/-- A configuration request gives the node the name of the request, and adds a
handler when there is room. -/
theorem handlers_handleConfig {C C' : Controller} {n : NodeConfig}
    {remoteIp : String} {now : ℤ} {response : Response}
    (h : C.handleConfig n remoteIp now = some (response, C')) :
    C'.handlerKeyOf = Function.update C.handlerKeyOf n.id
        (some n.handlerKey) ∧
      C'.vehicleHandlers = NodeConfig.storedHandlers
        { n with ipAddress := remoteIp } C.vehicleHandlers := by
  obtain ⟨target, C₃, node₃, rfl, -, hsettles⟩ := handleConfig_settles h
  refine ⟨?_, hsettles.handlers⟩
  have hkey : node₃.config.handlerKey = n.handlerKey := by
    unfold NodeConfig.handlerKey
    rw [hsettles.carries.id, hsettles.carries.name]
  funext id
  by_cases hid : id = n.id
  · subst hid
    rw [handlerKeyOf_put, Function.update_self, Function.update_self, hkey]
  · rw [Function.update_of_ne hid]
    unfold handlerKeyOf
    rw [(lookup_handleConfig h).2 id hid]

/-- A handler is added for a request that asks for one, under a free name. -/
theorem storedHandlers_cases (n : NodeConfig) (handlers : VehicleHandlers) :
    (n.namesVehicle = true ∧ n.canConnect handlers = true ∧
      n.handlerKey ∉ handlers ∧ ∃ h : VehicleHandler, h.node = n.id ∧
        n.storedHandlers handlers = handlers.insert n.handlerKey h) ∨
    (¬(n.namesVehicle = true ∧ n.canConnect handlers = true) ∧
      n.storedHandlers handlers = handlers) := by
  unfold NodeConfig.storedHandlers
  by_cases hroom : n.canConnect handlers = true
  · rw [if_pos hroom]
    cases haddress : n.storedAddress handlers with
    | none =>
        refine Or.inr ⟨fun hadded => ?_, rfl⟩
        exact storedAddress_ne_none_iff.mpr hadded.1 haddress
    | some address =>
        have hnames : n.namesVehicle = true :=
          storedAddress_ne_none_iff.mp (by rw [haddress]; simp)
        have hfree : n.handlerKey ∉ handlers := by
          simpa [NodeConfig.canConnect] using (Bool.and_eq_true_iff.mp hroom).2
        exact Or.inl ⟨hnames, hroom, hfree, _, rfl, rfl⟩
  · rw [if_neg hroom]
    exact Or.inr ⟨fun hadded => hroom hadded.2, rfl⟩

/-- After a configuration request the handlers are filed exactly when it keeps
the names. -/
theorem handlersFiled_handleConfig_iff {C C' : Controller} {n : NodeConfig}
    {remoteIp : String} {now : ℤ} {response : Response}
    (hC : C.HandlersFiled)
    (h : C.handleConfig n remoteIp now = some (response, C')) :
    C'.HandlersFiled ↔ KeepsNames C n := by
  obtain ⟨hkeys, hhandlers⟩ := handlers_handleConfig h
  have hmnames : { n with ipAddress := remoteIp }.namesVehicle =
      n.namesVehicle := by
    unfold NodeConfig.namesVehicle
    rw [portableAddress_ipAddress]
    rfl
  have hcases := storedHandlers_cases { n with ipAddress := remoteIp }
    C.vehicleHandlers
  rw [← hhandlers, hmnames] at hcases
  unfold HandlersFiled
  rw [hkeys]
  rcases hcases with ⟨hnames, hroom, hfree, h', hnode, hadded⟩ | ⟨hnone, hsame⟩
  · rw [hadded]
    have hkey : Function.update C.handlerKeyOf n.id (some n.handlerKey)
        h'.node = some n.handlerKey := by
      rw [hnode]
      exact Function.update_self ..
    refine (FiniteMap.filed_insert_iff hfree hkey).trans ?_
    rw [FiniteMap.Filed.rekey_iff hC, hnode]
    constructor
    · rintro ⟨⟨hsame, honly⟩, halone⟩
      refine ⟨hsame, honly, fun _ _ id node hlookup hkey => ?_⟩
      by_cases hid : id = n.id
      · exact hid
      · refine halone id ?_
        rw [Function.update_of_ne hid]
        exact handlerKeyOf_eq_some.mpr ⟨node, hlookup, hkey⟩
    · intro hkeeps
      refine ⟨⟨hkeeps.same, hkeeps.free⟩, fun id hid => ?_⟩
      by_cases heq : id = n.id
      · exact heq
      · rw [Function.update_of_ne heq] at hid
        obtain ⟨node, hlookup, hkey⟩ := handlerKeyOf_eq_some.mp hid
        exact hkeeps.alone hnames hroom id node hlookup hkey
  · rw [hsame, FiniteMap.Filed.rekey_iff hC]
    constructor
    · rintro ⟨hown, honly⟩
      exact ⟨hown, honly, fun hnames hroom => absurd ⟨hnames, hroom⟩ hnone⟩
    · intro hkeeps
      exact ⟨hkeeps.same, hkeeps.free⟩

/-- Every other event leaves the handlers with their nodes. -/
theorem handlersFiled_of_not_config {C C' : Controller} {event : Event}
    (hC : C.HandlersFiled) (h : C.step event = some C')
    (hevent : ∀ n remoteIp now,
      event ≠ .request (.config n) remoteIp now) : C'.HandlersFiled := by
  cases transition_of_step h with
  | nothing => exact hC
  | @heartbeat id node remoteIp now hnode =>
      have hkeys : (C.put id (node.updateHeartbeat now)).handlerKeyOf =
          C.handlerKeyOf := by
        rw [handlerKeyOf_put]
        refine Function.update_eq_iff.mpr ⟨?_, fun _ _ => rfl⟩
        exact (handlerKeyOf_eq_some.mpr ⟨node, hnode, rfl⟩).symm
      unfold HandlersFiled
      rw [hkeys]
      exact hC
  | @removal id node _ ipAddrMap hnode =>
      unfold HandlersFiled
      rw [handlerKeyOf_removeNode, vehicleHandlers_removeNode]
      exact hC.leave (handlerKeyOf_eq_some.mpr ⟨node, hnode, rfl⟩)
  | configuration _ => exact absurd rfl (hevent _ _ _)

/-- After an event the handlers are with their nodes exactly when the event
keeps them there. -/
theorem handlersFiled_step_iff {C C' : Controller} {event : Event}
    (hC : C.HandlersFiled) (h : C.step event = some C') :
    C'.HandlersFiled ↔ C.KeepsHandlers event := by
  rcases event with ⟨_ | _ | _ | _ | n, remoteIp, now⟩ | ⟨id, now⟩
  case request.config =>
    obtain ⟨⟨response, C''⟩, hconfig, rfl⟩ := Option.map_eq_some_iff.mp h
    refine (handlersFiled_handleConfig_iff hC hconfig).trans ?_
    refine ⟨fun hkeeps _ => hkeeps, fun hkeeps => hkeeps ?_⟩
    exact Option.isSome_of_eq_some hconfig
  all_goals
    exact iff_of_true (handlersFiled_of_not_config hC h (by simp)) trivial

theorem keepsHandlers_of_fail {C : Controller} {event : Event}
    (h : C.step event = none) : C.KeepsHandlers event := by
  rcases event with ⟨_ | _ | _ | _ | n, remoteIp, now⟩ | ⟨id, now⟩
  case request.config =>
    intro hsome
    have hnone : C.handleConfig n remoteIp now = none :=
      Option.map_eq_none_iff.mp h
    rw [hnone] at hsome
    cases hsome
  all_goals exact trivial

/-! ## Runs -/

/-- In both modes, the handlers are owned by their nodes in every state of a
run exactly when every event of it keeps them with their nodes. -/
theorem handlersOwned_iff_keepsHandlers (sandbox : Bool)
    (defaults : Option PropagationDefaults) (events : List Event) :
    EveryState step HandlersOwned (create sandbox defaults) events ↔
      EveryStep step KeepsHandlers (create sandbox defaults) events := by
  have hstart : (create sandbox defaults).HandlersOwned :=
    (handlersOwned_iff _).mpr FiniteMap.Filed.empty
  refine everyState_iff_everyStep (fun _ _ _ (_ : True) _ => trivial) ?_
    (fun _ _ _ h => keepsHandlers_of_fail h) trivial hstart events
  intro C event C' _ hC hstep
  rw [handlersOwned_iff]
  exact handlersFiled_step_iff ((handlersOwned_iff C).mp hC) hstep

/-- A request with a vehicle. -/
def vehicleConfig (id : NodeId) (name : String) : NodeConfig :=
  { plainConfig id 2400000000 2500000000 with
    name := name
    vehicleAddress := "tcp://10.0.0.7:5760" }

/-- A node with a vehicle is renamed and disconnects.  Its first handler stays
and points to a node that is gone. -/
theorem handler_outlives_renamed_node :
    ∃ C, run step (create false none)
        [.request (.config (vehicleConfig "x" "uav")) "10.0.0.1" 0,
          .request (.config (vehicleConfig "x" "drone")) "10.0.0.1" 1,
          .request (.disconnect "x") "10.0.0.1" 2] = some C ∧
      "x" ∉ C.nodeMap ∧
      (C.vehicleHandlers.lookup "uav").map VehicleHandler.node = some "x" ∧
      ¬C.HandlersOwned := by
  have hcheck : (run step (create false none)
      [.request (.config (vehicleConfig "x" "uav")) "10.0.0.1" 0,
        .request (.config (vehicleConfig "x" "drone")) "10.0.0.1" 1,
        .request (.disconnect "x") "10.0.0.1" 2]).any (fun C =>
      decide ("x" ∉ C.nodeMap) &&
        decide ((C.vehicleHandlers.lookup "uav").map VehicleHandler.node =
          some "x")) = true := by
    decide +kernel
  obtain ⟨C, hrun, hC⟩ := (Option.any_eq_true _ _).mp hcheck
  obtain ⟨hgone, hstays⟩ := Bool.and_eq_true_iff.mp hC
  have hgone := of_decide_eq_true hgone
  have hstays := of_decide_eq_true hstays
  refine ⟨C, hrun, hgone, hstays, fun howned => ?_⟩
  obtain ⟨h, hlookup, hnode⟩ := Option.map_eq_some_iff.mp hstays
  exact hgone (hnode ▸ howned.known "uav" h hlookup)

end Controller

end Chem
