import ChemEmulator.Channel.CommandReading
import ChemEmulator.Node.Intermediates

/-!
# Requests that are answered

Nothing above the two request handlers catches an exception, so a request that
makes one throw ends the server, and a request that waits for ever stops it.
This module says which requests those are, in every state that requests,
commands and timeouts lead to.

The controller throws on a registration without a channel from a node it does
not know, the coordinator on fields of the wrong type.  A command to an
extension ends only if the extension does; the threads that a request to the
controller joins, of vehicles and of workers, are taken to end.  Both handlers
also handle requests that they should refuse: a registration without an
identifier is one of the node with the empty identifier.

After sandbox mode has been switched off, sandbox nodes may remain.  A node
that then moves to their intermediate brings the process down.
-/

namespace Chem

open Json PartialRuns

/-! ## What a command leaves as it is -/

namespace Intermediate

/-- Members, workers and links are the same; the settings of a link may have
changed. -/
structure Retuned (I J : Intermediate) : Prop where
  freq : J.freq = I.freq
  sourceMap : J.sourceMap = I.sourceMap
  destinationMap : J.destinationMap = I.destinationMap
  workers : J.workers = I.workers
  sandboxNodes : J.sandboxNodes = I.sandboxNodes
  links : ∀ k, (J.channelMap.lookup k).map Channel.wiring =
    (I.channelMap.lookup k).map Channel.wiring

theorem Retuned.refl (I : Intermediate) : Retuned I I :=
  ⟨rfl, rfl, rfl, rfl, rfl, fun _ => rfl⟩

theorem Retuned.trans {I J K : Intermediate} (h : Retuned I J)
    (h' : Retuned J K) : Retuned I K where
  freq := h'.freq.trans h.freq
  sourceMap := h'.sourceMap.trans h.sourceMap
  destinationMap := h'.destinationMap.trans h.destinationMap
  workers := h'.workers.trans h.workers
  sandboxNodes := h'.sandboxNodes.trans h.sandboxNodes
  links k := (h'.links k).trans (h.links k)

theorem Retuned.tended {I J : Intermediate} (h : Retuned I J)
    (hI : I.Tended) : J.Tended := by
  have hroles : J.roles = I.roles := by
    simp [roles, h.sourceMap, h.destinationMap, h.sandboxNodes]
  refine ⟨⟨?_, ?_, ?_⟩, ?_, ?_⟩
  · rw [h.sourceMap]
    exact hI.consistent.sources
  · rw [h.destinationMap]
    exact hI.consistent.destinations
  · intro k ch hch
    have hwiring := h.links k
    rw [hch, Option.map_some, eq_comm, Option.map_eq_some_iff] at hwiring
    obtain ⟨ch₀, hch₀, heq⟩ := hwiring
    have hends : ch₀.ends = ch.ends := congrArg Prod.fst heq
    exact hends.symm.trans (hI.consistent.channels k ch₀ hch₀)
  · intro s d hmem
    rw [hroles]
    refine hI.linked s d ?_
    rw [← AList.lookup_isSome] at hmem ⊢
    rw [← Option.isSome_map (f := Channel.wiring), ← h.links,
      Option.isSome_map]
    exact hmem
  · intro id
    rw [h.workers, h.sourceMap]
    exact hI.workers id

theorem retuned_mapValues {I J : Intermediate} {f : Channel → Channel}
    (hf : ∀ ch, (f ch).wiring = ch.wiring)
    (hJ : J = { I with
      propagationModel := J.propagationModel
      grReflection := J.grReflection
      scenario3gpp := J.scenario3gpp
      hataEnvironment := J.hataEnvironment
      itm := J.itm
      channelMap := FiniteMap.mapValues f I.channelMap }) : Retuned I J := by
  rw [hJ]
  refine ⟨rfl, rfl, rfl, rfl, rfl, fun k => ?_⟩
  rw [FiniteMap.lookup_mapValues, Option.map_map]
  congr 1
  exact funext hf

theorem retuned_updatePathLoss (I : Intermediate) (plMode : PropagationModel)
    (grCoeff : FloatValue) : Retuned I (I.updatePathLoss plMode grCoeff) :=
  retuned_mapValues (fun ch => Channel.wiring_updatePlType (plTypeOf plMode) ch)
    rfl

theorem retuned_set3gppScenario (I : Intermediate) (scenario : String) :
    Retuned I (I.set3gppScenario scenario) := by
  unfold set3gppScenario
  split_ifs
  · exact .refl I
  · exact retuned_mapValues
      (fun ch => Channel.wiring_update3gppScenario scenario ch) rfl

theorem retuned_setHataEnvironment (I : Intermediate)
    (environment : String) : Retuned I (I.setHataEnvironment environment) := by
  unfold setHataEnvironment
  split_ifs
  · exact .refl I
  · exact retuned_mapValues
      (fun ch => Channel.wiring_updateHataEnvironment environment ch) rfl

theorem retuned_setITMParams (I : Intermediate) (itm : ITMParams) :
    Retuned I (I.setITMParams itm) :=
  retuned_mapValues (fun ch => Channel.wiring_updateITMParams _ ch) rfl

theorem retuned_setShadowingSTD (I : Intermediate) (std : FloatValue) :
    Retuned I (I.setShadowingSTD std) :=
  retuned_mapValues (fun ch => Channel.wiring_setShadowingSTD std ch) rfl

/-- A setting of one link. -/
theorem retuned_updateChannel (I : Intermediate) (ends : NodeId × NodeId)
    {f : Channel → Channel} (hf : ∀ ch, (f ch).wiring = ch.wiring) :
    Retuned I (I.updateChannel ends f) := by
  refine ⟨rfl, rfl, rfl, rfl, rfl, fun k => ?_⟩
  rw [updateChannel, FiniteMap.lookup_mapEntries, Option.map_map]
  refine Option.map_congr fun ch _ => ?_
  rw [Function.comp_apply]
  split_ifs
  · exact hf ch
  · rfl

/-- One more setting, under a condition. -/
theorem Retuned.ite {I J K : Intermediate} {c : Prop} [Decidable c]
    (h : Retuned I J) (h' : Retuned J K) : Retuned I (if c then K else J) := by
  split_ifs
  · exact h.trans h'
  · exact h

theorem retuned_applyModel (plMode : String)
    (settings : Coordinator.PlSettings) (I : Intermediate) :
    Retuned I (Coordinator.applyModel plMode settings I) := by
  have hmodel := I.retuned_updatePathLoss (propagationModelFromString plMode)
    settings.groundCoeff
  exact ((hmodel.ite (retuned_set3gppScenario _ _)).ite
    (retuned_setHataEnvironment _ _)).ite (retuned_setITMParams _ _)

end Intermediate

namespace Controller

/-- What a command may do to the controller; it may also switch the mode. -/
structure Managed (C C' : Controller) : Prop where
  nodes : ∀ id node', C'.nodeMap.lookup id = some node' →
    ∃ node, C.nodeMap.lookup id = some node ∧
      node'.config.channels = node.config.channels
  intermediates : ∀ freq J, C'.intermediateMap.lookup freq = some J →
    ∃ I, C.intermediateMap.lookup freq = some I ∧ I.Retuned J

theorem Managed.refl (C : Controller) : Managed C C :=
  ⟨fun _ node h => ⟨node, h, rfl⟩, fun _ I h => ⟨I, h, .refl I⟩⟩

theorem Managed.sturdy {C C' : Controller} (h : Managed C C')
    (hC : C.Sturdy) : C'.Sturdy := by
  refine ⟨?_, ?_, ?_⟩
  · intro freq J hJ
    obtain ⟨I, hI, hretuned⟩ := h.intermediates freq J hJ
    exact hretuned.freq.trans (hC.keys freq I hI)
  · intro freq J hJ
    obtain ⟨I, hI, hretuned⟩ := h.intermediates freq J hJ
    exact hretuned.tended (hC.tended freq I hI)
  · intro id node' hnode'
    obtain ⟨node, hnode, hchannels⟩ := h.nodes id node' hnode'
    rw [hchannels]
    exact hC.tuned id node hnode

theorem managed_updateIntermediate (C : Controller) (freq : ℚ)
    {f : Intermediate → Intermediate}
    (hf : ∀ I : Intermediate, I.Retuned (f I)) :
    Managed C (C.updateIntermediate freq f) := by
  refine ⟨?_, ?_⟩
  · rw [(onlyChannels_updateIntermediate C freq f).nodeMap]
    exact fun _ node h => ⟨node, h, rfl⟩
  · intro k J hJ
    rw [lookup_updateIntermediate, Option.map_eq_some_iff] at hJ
    obtain ⟨I, hI, rfl⟩ := hJ
    refine ⟨I, hI, ?_⟩
    split_ifs
    · exact hf I
    · exact .refl I

theorem managed_mapValues {C C' : Controller} {f : Intermediate → Intermediate}
    (hf : ∀ I : Intermediate, I.Retuned (f I))
    (hnodes : C'.nodeMap = C.nodeMap)
    (hmap : C'.intermediateMap = FiniteMap.mapValues f C.intermediateMap) :
    Managed C C' := by
  refine ⟨fun id node h => ⟨node, hnodes ▸ h, rfl⟩, ?_⟩
  intro k J hJ
  rw [hmap, FiniteMap.lookup_mapValues, Option.map_eq_some_iff] at hJ
  obtain ⟨I, hI, rfl⟩ := hJ
  exact ⟨I, hI, hf I⟩

end Controller

namespace Coordinator

theorem channels_apply (p : Patterns) (config : NodeConfig) :
    (p.apply config).channels = config.channels := by
  unfold Patterns.apply
  split_ifs <;> rfl

theorem managed_changeAntenna (C : Controller) (dbOk : Bool) (node : String)
    (p : Patterns) : C.Managed (changeAntenna C dbOk node p).2 := by
  unfold changeAntenna
  split_ifs
  · exact .refl C
  · refine ⟨?_, fun _ I h => ⟨I, h, .refl I⟩⟩
    intro id node' hnode'
    rw [FiniteMap.lookup_mapEntries, Option.map_eq_some_iff] at hnode'
    obtain ⟨n, hn, rfl⟩ := hnode'
    refine ⟨n, hn, ?_⟩
    simp only [changeNode]
    split_ifs
    · exact channels_apply p n.config
    · rfl

theorem managed_changeSourcePower (C : Controller) (node : String)
    (power : Option ℚ) : C.Managed (changeSourcePower C node power).2 := by
  unfold changeSourcePower
  split_ifs
  · exact .refl C
  dsimp only
  split
  · exact .refl C
  next n hn =>
    split
    · exact .refl C
    next chars hchars =>
      refine ⟨?_, fun _ I h => ⟨I, h, .refl I⟩⟩
      intro id node' hnode'
      by_cases hid : id = resolveNodeId C node
      · subst hid
        rw [AList.lookup_insert, Option.some.injEq] at hnode'
        subst hnode'
        exact ⟨n, hn, rfl⟩
      · rw [AList.lookup_insert_ne hid] at hnode'
        exact ⟨node', hnode', rfl⟩

theorem managed_setDefaultModel (C : Controller) (plMode : String)
    (settings : PlSettings) :
    C.Managed (setDefaultModel C plMode settings).2 := by
  unfold setDefaultModel
  dsimp only
  split_ifs
  · exact .refl C
  · exact Controller.managed_mapValues
      (Intermediate.retuned_applyModel plMode settings) rfl rfl

theorem managed_updateShadowing (E : Emulator) (std : FloatValue)
    (freq : Option ℚ) :
    E.controller.Managed (updateShadowing E std freq).controller := by
  cases freq with
  | none =>
      exact Controller.managed_mapValues
        (fun I => I.retuned_setShadowingSTD std) rfl rfl
  | some freq =>
      exact E.controller.managed_updateIntermediate freq
        fun I => I.retuned_setShadowingSTD std

end Coordinator

namespace Emulator

open Coordinator

/-- The commands that change intermediates. -/
def retunes : Operation → Bool
  | .chgPl _ _ _ => true
  | .setDefaultPl _ _ => true
  | .updShadowStd _ _ => true
  | _ => false

/-- What a command does to the controller. -/
inductive Executed (o : Outside) (E : Emulator) :
    Operation → Controller → Prop
  | nothing {operation : Operation} (hother : retunes operation = false) :
      Executed o E operation E.controller
  | antenna (node : String) (patterns : Patterns) :
      Executed o E (.chgAntenna node patterns)
        (changeAntenna E.controller o.dbOk node patterns).2
  | power (node : String) (power : Option ℚ) :
      Executed o E (.chgSourcePower node power)
        (changeSourcePower E.controller node power).2
  | pathLoss (freq : ℚ) (plMode : String) (settings : PlSettings) :
      Executed o E (.chgPl freq plMode settings)
        (E.controller.updateIntermediate freq (applyModel plMode settings))
  | defaultModel (plMode : String) (settings : PlSettings) :
      Executed o E (.setDefaultPl plMode settings)
        (setDefaultModel E.controller plMode settings).2
  | shadowing (std : ℚ) (freq : Option ℚ) :
      Executed o E (.updShadowStd std freq)
        (updateShadowing E (.finite std) freq).controller
  | link {operation : Operation} (hother : retunes operation = false)
      (link : LinkName) (f : Channel → Channel)
      (hf : ∀ ch, (f ch).wiring = ch.wiring) :
      Executed o E operation (E.controller.updateIntermediate link.freq
        fun I => I.updateChannel (linkEnds E.controller link) f)
  | mode (extName action : String) (params : Json) (sandbox : Bool) :
      Executed o E (.ext extName action params)
        { E.controller with sandbox := sandbox }

theorem reportOf_some {texts : List (Option ByteArray)} {E E' : Emulator}
    {reply : Reply} (h : reportOf texts E = some (reply, E')) : E' = E := by
  unfold reportOf at h
  split_ifs at h
  cases h
  rfl

/-- An extension switches the mode, if anything. -/
theorem controller_routeCommand {o : Outside} {E E' : Emulator}
    {extName action : String} {params : Json} {reply : Reply}
    (h : routeCommand o E extName action params = some (reply, E')) :
    ∃ sandbox, E'.controller = { E.controller with sandbox := sandbox } := by
  unfold routeCommand sandboxCommand sionnaCommand sandboxStart sandboxStop
    sionnaStart sionnaStop at h
  split_ifs at h <;> cases h <;> exact ⟨_, rfl⟩

theorem executed_of_execute {o : Outside} {E E' : Emulator}
    {operation : Operation} {reply : Reply}
    (h : execute o E operation = some (reply, E')) :
    Executed o E operation E'.controller := by
  cases operation with
  | getNodes =>
      rw [reportOf_some h]
      exact .nothing rfl
  | getChannels =>
      rw [reportOf_some h]
      exact .nothing rfl
  | getAntennaPatterns =>
      rw [reportOf_some h]
      exact .nothing rfl
  | getConfigFile =>
      simp only [execute] at h
      split_ifs at h
      · rw [reportOf_some h]
        exact .nothing rfl
      · cases h
        exact .nothing rfl
  | saveConfigFile config path =>
      simp only [execute, saveConfigFile] at h
      split_ifs at h <;> cases h <;> exact .nothing rfl
  | getLogs lines =>
      simp only [execute] at h
      split at h
      · cases h
        exact .nothing rfl
      · rw [reportOf_some h]
        exact .nothing rfl
  | chgAntenna node patterns =>
      cases h
      exact .antenna node patterns
  | chgSourcePower node power =>
      cases h
      exact .power node power
  | chgPl freq plMode settings =>
      cases h
      exact .pathLoss freq plMode settings
  | setDefaultPl plMode settings =>
      cases h
      exact .defaultModel plMode settings
  | updShadowStd std freq =>
      cases h
      exact .shadowing std freq
  | chgCoeff link ch coeff =>
      cases h
      exact .link rfl link _ (Channel.wiring_updateChCoeff _ _)
  | chgNoiseMdl link noiseMdl snr =>
      cases h
      refine .link rfl link _ fun ch => ?_
      split_ifs <;> rfl
  | chgFreqOffset link offsetHz =>
      cases h
      exact .link rfl link _ (Channel.wiring_updateLink _)
  | chgDoppler link enabled =>
      cases h
      exact .link rfl link _ (Channel.wiring_updateLink _)
  | chgCir link ch taps =>
      cases h
      refine .link rfl link _ fun channel => ?_
      split_ifs <;> rfl
  | ext extName action params =>
      obtain ⟨sandbox, hcontroller⟩ := controller_routeCommand h
      rw [hcontroller]
      exact .mode extName action params sandbox
  | _ =>
      cases h
      exact .nothing rfl

theorem Executed.managed {o : Outside} {E : Emulator}
    {operation : Operation} {C' : Controller}
    (h : Executed o E operation C') : E.controller.Managed C' := by
  cases h with
  | nothing => exact .refl _
  | antenna node patterns =>
      exact managed_changeAntenna E.controller o.dbOk node patterns
  | power node power => exact managed_changeSourcePower E.controller node power
  | pathLoss freq plMode settings =>
      exact E.controller.managed_updateIntermediate freq
        (Intermediate.retuned_applyModel plMode settings)
  | defaultModel plMode settings =>
      exact managed_setDefaultModel E.controller plMode settings
  | shadowing std freq => exact managed_updateShadowing E (.finite std) freq
  | link _ link f hf =>
      exact E.controller.managed_updateIntermediate link.freq
        fun I => I.retuned_updateChannel _ hf
  | mode =>
      exact ⟨fun _ node h => ⟨node, h, rfl⟩, fun _ I h => ⟨I, h, .refl I⟩⟩

theorem managed_coordinator {o : Outside} {E E' : Emulator}
    {parsed : Option Json} {reply : Reply}
    (h : coordinatorRequestHandler o E parsed = some (reply, E')) :
    E.controller.Managed E'.controller := by
  rcases parsed with _ | j
  · cases h
    exact .refl _
  cases j with
  | object fields =>
      rw [coordinatorRequestHandler_object] at h
      obtain ⟨operation, -, hexecute⟩ := Option.bind_eq_some_iff.mp h
      exact (executed_of_execute hexecute).managed
  | null =>
      cases h
      exact .refl _
  | _ => cases h

theorem sturdy_emulator_step {d : Decoder} {E E' : Emulator}
    {event : Event} (hE : E.controller.Sturdy)
    (h : step d E event = some E') : E'.controller.Sturdy := by
  cases event with
  | checkTimeout id now =>
      cases h
      have hstep : E.controller.step (.checkTimeout id now) =
          some (E.controller.checkTimeout id now) := rfl
      exact Controller.sturdy_step hE hstep
  | query q =>
      simp only [step, answer] at h
      cases q with
      | controller request remoteIp now =>
          simp only [controllerRequestHandler, Option.map_map,
            Option.map_eq_some_iff] at h
          obtain ⟨⟨response, C'⟩, hhandler, rfl⟩ := h
          have hstep : E.controller.step (.request (Controller.decodeRequest
              d.text ((Query.controller request remoteIp now).parsed d))
              remoteIp now) = some C' := by
            rw [Controller.step, hhandler]
            rfl
          exact Controller.sturdy_step hE hstep
      | coordinator request outside =>
          simp only [Option.map_map, Option.map_eq_some_iff] at h
          obtain ⟨⟨reply, E₁⟩, hhandler, rfl⟩ := h
          exact (managed_coordinator hhandler).sturdy hE

end Emulator

/-! ## Requests to the controller -/

namespace Controller

/-- Neither a heartbeat nor a disconnect, and the type can be read. -/
def registers (j : Json) : Bool :=
  match j.find? "type" with
  | none => true
  | some (.string reqType) =>
      decide (reqType ≠ "heartbeat" ∧ reqType ≠ "disconnect")
  | some _ => false

def typeField : Field := ⟨"type", .text⟩

def idField : Field := ⟨"id", .text⟩

/-- The request does not make the handler throw. -/
def HandledJson (C : Controller) : Option Json → Prop
  | none => True
  | some j =>
      if registers j then
        NodeConfig.idOf j ∈ C.nodeMap ∨ NodeConfig.listsChannel j = true
      else (j.has typeField && j.has idField) = true

/-- Outside sandbox mode the request does not move a node to an intermediate
that has sandbox nodes. -/
def UnmixedJson (C : Controller) (text : NumberText) (parsed : Option Json) :
    Prop :=
  ∀ n, decodeRequest text parsed = .config n →
    ∀ node, C.nodeMap.lookup n.id = some node → ∀ dir, Separate dir C node n

/-- Not JSON, JSON that is not an object, an identifier or a type that is
missing or no string, or no channel. -/
def faultyJson : Option Json → Bool
  | none => true
  | some j =>
      if registers j then !j.has idField || !NodeConfig.listsChannel j
      else !(j.has typeField && j.has idField)

/-- A registration without an identifier; the request may not even be an
object. -/
def anonymousJson : Option Json → Bool
  | none => false
  | some j => registers j && !j.has idField

theorem faulty_of_anonymous {parsed : Option Json}
    (h : anonymousJson parsed = true) : faultyJson parsed = true := by
  rcases parsed with _ | j
  · rfl
  · simp_all [anonymousJson, faultyJson]

theorem decodeRequest_of_registers {text : NumberText} {j : Json}
    (h : registers j = true) :
    decodeRequest text (some j) = .config (NodeConfig.fromJson text j) := by
  unfold registers at h
  unfold decodeRequest
  dsimp only
  split at h
  · next hnone => simp [hnone]
  · next reqType htype =>
    rw [decide_eq_true_eq] at h
    simp [htype, getString, h.1, h.2]
  · cases h

theorem decodeRequest_of_not_registers (text : NumberText) {j : Json}
    (h : registers j = false) :
    ((j.has typeField && j.has idField) = true ∧
        ∃ id, decodeRequest text (some j) = .heartbeat id ∨
          decodeRequest text (some j) = .disconnect id) ∨
      ((j.has typeField && j.has idField) = false ∧
        decodeRequest text (some j) = .illTyped) := by
  cases j with
  | object fields =>
      have hid := isSome_read takes_getString fields "id"
      unfold registers at h
      unfold decodeRequest
      dsimp only
      split at h
      · cases h
      · next reqType htype =>
        have hhas : (Json.object fields).has typeField = true := by
          simp [has, typeField, htype, Kind.admits, isString]
        rw [hhas, Bool.true_and, idField, ← hid]
        simp only [htype, getString]
        cases hread : (Json.object fields).read getString "id" with
        | none =>
            refine Or.inr ⟨rfl, ?_⟩
            simp only [Option.map_none, Option.getD_none]
            split_ifs with hheartbeat hdisconnect
            · rfl
            · rfl
            · simp [hheartbeat, hdisconnect] at h
        | some id =>
            refine Or.inl ⟨rfl, id, ?_⟩
            simp only [Option.map_some, Option.getD_some]
            split_ifs with hheartbeat hdisconnect
            · exact Or.inl rfl
            · exact Or.inr rfl
            · simp [hheartbeat, hdisconnect] at h
      · next v hother htype =>
        have hhas : (Json.object fields).has typeField = false := by
          cases v <;> simp_all [has, typeField, Kind.admits, isString]
        have hget : getString v = none := by
          cases v <;> simp_all [getString]
        exact Or.inr ⟨by rw [hhas, Bool.false_and], by simp [htype, hget]⟩
  | _ => cases h

/-- A registration without a channel is refused when the node is known. -/
theorem status_of_no_channels {C C' : Controller} {n : NodeConfig}
    {remoteIp : String} {now : ℤ} {response : Response} (hC : C.Sturdy)
    (hnil : n.channels = [])
    (h : C.handleConfig n remoteIp now = some (response, C')) :
    response.status = .fail := by
  simp only [handleConfig, Option.bind_eq_bind, Option.bind_eq_some_iff,
    assignULChannel, assignDLChannel] at h
  obtain ⟨⟨target, newlyInserted, C₁⟩, hget, ⟨createdUL, C₂, node₂⟩, hUL,
    ⟨createdDL, C₃, node₃⟩, hDL, hresult⟩ := h
  obtain ⟨r, hr⟩ : ∃ r, r = target.refreshFromConfig
      { n with ipAddress := remoteIp } C₁.vehicleHandlers := ⟨_, rfl⟩
  dsimp only at hUL hDL hresult
  rw [← hr] at hUL hDL hresult
  have hrequest : r.request.channels = [] := (refresh_same hr).2.1.trans hnil
  rw [assignChannel, hrequest] at hUL hDL
  cases hUL
  cases hDL
  -- the node was known, and has a channel
  have hknown : newlyInserted = false := by
    rcases getOrCreateNode_some hget with ⟨-, -, hfalse⟩ | ⟨-, hne, -⟩
    · exact hfalse
    · exact absurd hnil hne
  have hcompare : r.node.compare r.request = false := by
    rw [← Bool.not_eq_true]
    intro hsame
    have hfreq := Node.freq?_of_compare hsame .uplink
    rw [hrequest, List.head?_nil, Option.map_none, freq?_eq_none_iff] at hfreq
    exact refresh_channels_ne_nil hr (hC.target_tuned hget) hfreq
  rw [hknown, hcompare] at hresult
  cases hresult
  rfl

/-- A new node is registered with success. -/
theorem status_of_unknown {C C' : Controller} {n : NodeConfig}
    {remoteIp : String} {now : ℤ} {response : Response}
    (hnew : n.id ∉ C.nodeMap)
    (h : C.handleConfig n remoteIp now = some (response, C')) :
    response.status ≠ .fail := by
  obtain ⟨target, newlyInserted, C₁, C₂, C₃, node₂, node₃, createdUL,
    createdDL, hget, r, hr, hUL, hDL, -, hfail⟩ := handleConfig_some h
  intro hstatus
  obtain ⟨-, -, hknown, -⟩ := hfail hstatus
  rcases getOrCreateNode_some hget with ⟨hstored, -, -⟩ | ⟨-, -, -, -, htrue⟩
  · exact hnew (FiniteMap.mem_iff_lookup.mpr ⟨target, hstored⟩)
  · rw [htrue] at hknown
    cases hknown

theorem handledJson_of_isSome {C : Controller} {text : NumberText}
    {parsed : Option Json} {remoteIp : String} {now : ℤ}
    (h : (C.requestHandler (decodeRequest text parsed) remoteIp now).isSome =
      true) : C.HandledJson parsed := by
  rcases parsed with _ | j
  · trivial
  unfold HandledJson
  dsimp only
  split_ifs with hregisters
  · rw [decodeRequest_of_registers hregisters, requestHandler] at h
    have hhandled := known_or_tuned_of_handleConfig h
    rw [NodeConfig.id_fromJson, NodeConfig.channels_fromJson_ne_nil] at hhandled
    exact hhandled
  · rcases decodeRequest_of_not_registers text
      (Bool.not_eq_true _ ▸ hregisters) with ⟨hread, -⟩ | ⟨-, hdecode⟩
    · exact hread
    · rw [hdecode] at h
      cases h

theorem isSome_requestHandler {C : Controller} {text : NumberText}
    {parsed : Option Json} (hC : C.Sturdy)
    (hunmixed : C.UnmixedJson text parsed)
    (h : C.HandledJson parsed) (remoteIp : String) (now : ℤ) :
    (C.requestHandler (decodeRequest text parsed) remoteIp now).isSome =
      true := by
  rcases parsed with _ | j
  · rfl
  unfold HandledJson at h
  dsimp only at h
  split_ifs at h with hregisters
  · have hdecode : decodeRequest text (some j) =
        .config (NodeConfig.fromJson text j) :=
      decodeRequest_of_registers hregisters
    rw [hdecode, requestHandler]
    refine isSome_handleConfig hC (hunmixed _ hdecode) ?_ remoteIp now
    rw [NodeConfig.id_fromJson, NodeConfig.channels_fromJson_ne_nil]
    exact h
  · rcases decodeRequest_of_not_registers text
      (Bool.not_eq_true _ ▸ hregisters) with
      ⟨-, id, hdecode | hdecode⟩ | ⟨hread, -⟩
    · rw [hdecode, requestHandler]
      split <;> rfl
    · rw [hdecode, requestHandler]
      split <;> rfl
    · rw [hread] at h
      cases h

/-- A faulty request that is answered is answered with a failure, unless it
registers a node without saying which. -/
theorem status_of_faulty {C C' : Controller} {text : NumberText}
    {parsed : Option Json} {remoteIp : String} {now : ℤ} {response : Response}
    (hC : C.Sturdy)
    (h : C.requestHandler (decodeRequest text parsed) remoteIp now =
      some (response, C'))
    (hfaulty : faultyJson parsed = true)
    (hnamed : anonymousJson parsed = false) : response.status = .fail := by
  rcases parsed with _ | j
  · cases h
    rfl
  cases hregisters : registers j with
  | true =>
      rw [decodeRequest_of_registers hregisters] at h
      refine status_of_no_channels hC ?_ h
      rw [← not_not (a := (NodeConfig.fromJson text j).channels = [])]
      intro hchannels
      have hlists := (NodeConfig.channels_fromJson_ne_nil text j).mp hchannels
      simp_all [faultyJson, anonymousJson]
  | false =>
      rcases decodeRequest_of_not_registers text hregisters with
        ⟨hread, -⟩ | ⟨-, hdecode⟩
      · simp_all [faultyJson]
      · rw [hdecode] at h
        cases h

/-- A node that is unknown and has no identifier is registered. -/
theorem status_of_anonymous {C C' : Controller} {text : NumberText}
    {parsed : Option Json} {remoteIp : String} {now : ℤ} {response : Response}
    (hunknown : "" ∉ C.nodeMap)
    (h : C.requestHandler (decodeRequest text parsed) remoteIp now =
      some (response, C'))
    (hanonymous : anonymousJson parsed = true) : response.status ≠ .fail := by
  rcases parsed with _ | j
  · cases hanonymous
  simp only [anonymousJson, Bool.and_eq_true, Bool.not_eq_true'] at hanonymous
  obtain ⟨hregisters, hid⟩ := hanonymous
  rw [decodeRequest_of_registers hregisters] at h
  refine status_of_unknown ?_ h
  have hempty : NodeConfig.idOf j = "" := by
    simp only [has, idField, NodeConfig.idOf, stringAt] at hid ⊢
    cases hfind : j.find? "id" with
    | none => rfl
    | some v => cases v <;> simp_all [Kind.admits, isString, getString]
  rw [NodeConfig.id_fromJson, hempty]
  exact hunknown

end Controller

/-! ## Both servers -/

namespace Emulator

open Coordinator

def Handled (d : Decoder) (E : Emulator) (q : Query) : Prop :=
  match q with
  | .controller .. => E.controller.HandledJson (q.parsed d)
  | .coordinator _ outside => handled outside E (q.parsed d) = true

def Unmixed (d : Decoder) (E : Emulator) (q : Query) : Prop :=
  match q with
  | .controller .. => E.controller.UnmixedJson d.text (q.parsed d)
  | .coordinator .. => True

def Faulty (d : Decoder) (q : Query) : Prop :=
  match q with
  | .controller .. => Controller.faultyJson (q.parsed d) = true
  | .coordinator .. => faulty (q.parsed d) = true

/-- A registration without an identifier. -/
def Anonymous (d : Decoder) (q : Query) : Prop :=
  match q with
  | .controller .. => Controller.anonymousJson (q.parsed d) = true
  | .coordinator .. => False

/-- The handler returns, and answers a faulty request with a failure. -/
def Answered (d : Decoder) (E : Emulator) (q : Query) : Prop :=
  ∃ failed E', answer d E q = some (failed, E') ∧
    (Faulty d q → failed = true)

theorem handled_of_isSome {d : Decoder} {E : Emulator} {q : Query}
    (h : (answer d E q).isSome = true) : Handled d E q := by
  cases q with
  | controller request remoteIp now =>
      simp only [answer, controllerRequestHandler, Option.isSome_map] at h
      exact Controller.handledJson_of_isSome h
  | coordinator request outside =>
      simp only [answer, Option.isSome_map,
        isSome_coordinatorRequestHandler] at h
      exact h

theorem isSome_answer {d : Decoder} {E : Emulator} {q : Query}
    (hE : E.controller.Sturdy) (h : Handled d E q) (hunmixed : Unmixed d E q) :
    (answer d E q).isSome = true := by
  cases q with
  | controller request remoteIp now =>
      simp only [answer, controllerRequestHandler, Option.isSome_map]
      exact Controller.isSome_requestHandler hE hunmixed h remoteIp now
  | coordinator request outside =>
      simp only [answer, Option.isSome_map, isSome_coordinatorRequestHandler]
      exact h

/-- What the controller's server reports of the handler's answer. -/
theorem answer_controller_some {d : Decoder} {E E' : Emulator} {failed : Bool}
    {request : List UInt8} {remoteIp : String} {now : ℤ}
    (h : answer d E (.controller request remoteIp now) = some (failed, E')) :
    ∃ response C', E.controller.requestHandler (Controller.decodeRequest d.text
        ((Query.controller request remoteIp now).parsed d)) remoteIp now =
          some (response, C') ∧
      failed = decide (response.status = .fail) := by
  simp only [answer, controllerRequestHandler, Option.map_map,
    Option.map_eq_some_iff] at h
  obtain ⟨⟨response, C'⟩, hhandler, hresult⟩ := h
  cases hresult
  exact ⟨response, C', hhandler, rfl⟩

/-- A request that is handled is answered, and with a failure if it is
faulty. -/
theorem answered_of_sturdy {d : Decoder} {E : Emulator} {q : Query}
    (hE : E.controller.Sturdy) (h : Handled d E q) (hunmixed : Unmixed d E q)
    (hnamed : ¬Anonymous d q) : Answered d E q := by
  obtain ⟨⟨failed, E'⟩, hanswer⟩ := Option.isSome_iff_exists.mp
    (isSome_answer hE h hunmixed)
  refine ⟨failed, E', hanswer, fun hfaulty => ?_⟩
  cases q with
  | controller request remoteIp now =>
      obtain ⟨response, C', hhandler, rfl⟩ := answer_controller_some hanswer
      exact decide_eq_true (Controller.status_of_faulty hE hhandler hfaulty
        (Bool.not_eq_true _ ▸ hnamed))
  | coordinator request outside =>
      obtain ⟨⟨reply, E₁⟩, hhandler, hresult⟩ :=
        Option.map_eq_some_iff.mp hanswer
      cases hresult
      exact isFail_of_faulty hhandler hfaulty

/-- While no node has the empty identifier, a registration without one is
taken for the registration of that node. -/
theorem named_of_answered {d : Decoder} {E : Emulator} {q : Query}
    (hunknown : "" ∉ E.controller.nodeMap) (h : Answered d E q) :
    ¬Anonymous d q := by
  obtain ⟨failed, E', hanswer, hfail⟩ := h
  intro hanonymous
  cases q with
  | controller request remoteIp now =>
      obtain ⟨response, C', hhandler, rfl⟩ := answer_controller_some hanswer
      exact Controller.status_of_anonymous hunknown hhandler hanonymous
        (of_decide_eq_true (hfail (Controller.faulty_of_anonymous hanonymous)))
  | coordinator request outside => exact hanonymous

/-- The bytes of an ASCII text. -/
def ascii (text : String) : List UInt8 :=
  text.toList.map fun c => UInt8.ofNat c.toNat

/-- A decoder for a few texts. -/
def Decoder.ofTexts (texts : List (String × Json)) : Decoder where
  parse bytes := (texts.find? fun t => decide (ascii t.1 = bytes)).map (·.2)
  text := ⟨fun _ => none, fun _ => none⟩

/-- A command to stop the sandbox extension. -/
def stopText : String :=
  "\x7b\"CMD\":\"EXT\",\"extension\":\"sandbox\",\"action\":\"stop\"\x7d"

/-- The requests of the two following runs. -/
def sampleTexts : List (String × Json) :=
  [("\x7b\"id\":\"n\"\x7d", .object [("id", .string "n")]),
    ("\x7b\"id\":\"n\",\"channels\":[]\x7d",
      .object [("id", .string "n"), ("channels", .array [])]),
    ("\x7b\"CMD\":\"CHG_PL\"\x7d", .object [("CMD", .string "CHG_PL")]),
    (stopText,
      .object [("CMD", .string "EXT"), ("action", .string "stop"),
        ("extension", .string "sandbox")])]

end Emulator

end Chem
