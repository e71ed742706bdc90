import ChemEmulator.Net.TcpServer
import ChemEmulator.Node.Assignment
import ChemEmulator.Node.Registration

/-!
# Where a registration request comes from

The controller behind its TCP server.  `requestHandler` stores what
`getRemoteIp` returns as the address of the node; that is the address of the
connection that was armed last, which need not be the one whose request is
handled.

How a line becomes a request is a parameter.
-/

namespace Chem

namespace Controller

/-! ## The address that a request stores -/

theorem ipAddress_assignChannel {dir : Direction} {C C' : Controller}
    {node node' : Node} {newConfig : NodeConfig} {created : Bool}
    (h : assignChannel dir C node newConfig = some (created, C', node')) :
    node'.config.ipAddress = node.config.ipAddress := by
  cases hchannels : newConfig.channels with
  | nil =>
      rw [assignChannel, hchannels] at h
      cases h
      rfl
  | cons ch rest =>
      rw [(assignChannel_outcome hchannels h).record.config]

theorem ipAddress_refreshFromConfig (node : Node) (n : NodeConfig)
    (handlers : VehicleHandlers) :
    (node.refreshFromConfig n handlers).node.config.ipAddress =
      n.ipAddress := by
  rw [(Node.refreshFromConfig_spec rfl).1]
  exact (Node.carries_refreshed node n handlers).ipAddress

/-- A handled configuration request stores the address it is given, and
nothing for other nodes. -/
theorem lookup_handleConfig {C C' : Controller} {n : NodeConfig}
    {remoteIp : String} {now : ℤ} {response : Response}
    (h : C.handleConfig n remoteIp now = some (response, C')) :
    (∃ node, C'.nodeMap.lookup n.id = some node ∧
      node.config.ipAddress = remoteIp) ∧
    ∀ id ≠ n.id, C'.nodeMap.lookup id = C.nodeMap.lookup id := by
  obtain ⟨target, newlyInserted, C₁, C₂, C₃, node₂, node₃, createdUL, createdDL,
    hget, r, hr, hUL, hDL, rfl, -⟩ := handleConfig_some h
  constructor
  · refine ⟨node₃, by rw [lookup_put, if_pos rfl], ?_⟩
    rw [ipAddress_assignChannel hDL, ipAddress_assignChannel hUL, hr,
      ipAddress_refreshFromConfig]
  · intro id hid
    rw [lookup_put, if_neg hid, nodeMap_assignChannel hDL,
      nodeMap_assignChannel hUL]
    exact lookup_getOrCreateNode_ne hget hid

/-- Any other request leaves the addresses as they are. -/
theorem lookup_requestHandler {C C' : Controller} {request : Request}
    {remoteIp : String} {now : ℤ} {response : Response}
    (h : C.requestHandler request remoteIp now = some (response, C'))
    (hrequest : ∀ n, request ≠ .config n) {id : NodeId} {node' : Node}
    (hlookup : C'.nodeMap.lookup id = some node') :
    ∃ node, C.nodeMap.lookup id = some node ∧
      node'.config.ipAddress = node.config.ipAddress := by
  cases transition_of_request h with
  | nothing => exact ⟨node', hlookup, rfl⟩
  | heartbeat _ _ hnode =>
      rw [lookup_put] at hlookup
      split at hlookup
      · next heq =>
        subst heq
        cases hlookup
        exact ⟨_, hnode, rfl⟩
      · exact ⟨node', hlookup, rfl⟩
  | removal _ _ _ =>
      have hold := lookup_removeNode hlookup
      exact ⟨node', hold, rfl⟩
  | configuration hconfig => exact absurd rfl (hrequest _)

end Controller

namespace RequestOrigin

open Controller Delimited PartialRuns TCPServer

variable (decode : Bytes → Request)

/-- `requestHandler` as the handler of the server. -/
def handler (C : Controller) (remoteIp : String) (request : Bytes) (now : ℤ) :
    Option Controller :=
  (C.requestHandler (decode request) remoteIp now).map Prod.snd

/-- The call is a registration request of the node. -/
def registers (id : NodeId) (call : ℕ × Bytes) : Bool :=
  match decode call.2 with
  | .config n => n.id = id
  | _ => false

/-- The remote address of the connection on which the latest registration
request of a node arrived. -/
def registeredFrom (s : TCPServer.State Controller) (id : NodeId) :
    Option String :=
  (s.calls.filter (registers decode id)).getLast?.bind fun call =>
    s.remoteOf call.1

/-- Every stored address is that of the connection on which the node's latest
registration request arrived. -/
def FromOrigin (s : TCPServer.State Controller) : Prop :=
  ∀ id node, s.app.nodeMap.lookup id = some node →
    registeredFrom decode s id = some node.config.ipAddress

/-- A registration request that is handled comes from the address of the
connection that was armed last. -/
def FromLastArmed (s : TCPServer.State Controller) : TCPServer.Event → Prop
  | .read c bytes now =>
      match s.connections.lookup c with
      | none => True
      | some conn =>
          match decode (firstFrame newline (conn.buffer ++ bytes)) with
          | .config _ =>
              newline ∈ conn.buffer ++ bytes →
              (TCPServer.step (handler decode) s (.read c bytes now)).isSome →
              s.armed.bind s.remoteOf = some conn.remote
          | _ => True
  | _ => True

variable {decode} {s t : TCPServer.State Controller}

/-- Calls that register other nodes, or none, do not matter. -/
theorem registeredFrom_congr (hs : Tracked s) {e : TCPServer.Event}
    (h : TCPServer.Transition (handler decode) s e t) {id : NodeId}
    (hcalls : t.calls.filter (registers decode id) =
      s.calls.filter (registers decode id)) :
    registeredFrom decode t id = registeredFrom decode s id := by
  rw [registeredFrom, hcalls, registeredFrom]
  refine Option.bind_congr fun call hcall => ?_
  have hmem : call ∈ s.calls :=
    List.mem_of_mem_filter (List.mem_of_getLast? hcall)
  exact remoteOf_transition h (hs.calls call hmem)

/-- A step that handles no registration request. -/
theorem fromOrigin_of_lookup (hs : Tracked s) {e : TCPServer.Event}
    (h : TCPServer.Transition (handler decode) s e t)
    (horigin : FromOrigin decode s)
    (hcalls : ∀ id, t.calls.filter (registers decode id) =
      s.calls.filter (registers decode id))
    (hlookup : ∀ id node', t.app.nodeMap.lookup id = some node' →
      ∃ node, s.app.nodeMap.lookup id = some node ∧
        node'.config.ipAddress = node.config.ipAddress) :
    FromOrigin decode t := by
  intro id node' hnode'
  obtain ⟨node, hnode, hip⟩ := hlookup id node' hnode'
  rw [registeredFrom_congr hs h (hcalls id), hip]
  exact horigin id node hnode

theorem remoteIp_of_lookup (hs : Tracked s) {c : ℕ} {conn : Connection}
    (hconn : s.connections.lookup c = some conn) :
    s.armed.bind s.remoteOf = some s.remoteIp := by
  refine hs.remoteIp fun hempty => ?_
  rw [hempty] at hconn
  cases hconn

theorem fromLastArmed_iff (hs : Tracked s) {c : ℕ} {bytes : Bytes} {now : ℤ}
    {conn : Connection} {n : NodeConfig}
    (hconn : s.connections.lookup c = some conn)
    (hline : newline ∈ conn.buffer ++ bytes)
    (hdecode : decode (firstFrame newline (conn.buffer ++ bytes)) = .config n)
    (hstep : TCPServer.step (handler decode) s (.read c bytes now) = some t) :
    FromLastArmed decode s (.read c bytes now) ↔
      s.remoteIp = conn.remote := by
  simp only [FromLastArmed, hconn, hdecode, hstep, Option.isSome_some,
    remoteIp_of_lookup hs hconn, Option.some.injEq]
  exact ⟨fun h => h hline trivial, fun h _ _ => h⟩

/-- A request that is no registration, or a line that is not complete, has no
condition. -/
theorem fromLastArmed_of_not_config {c : ℕ} {bytes : Bytes} {now : ℤ}
    {conn : Connection} (hconn : s.connections.lookup c = some conn)
    (h : newline ∈ conn.buffer ++ bytes →
      ∀ n, decode (firstFrame newline (conn.buffer ++ bytes)) ≠ .config n) :
    FromLastArmed decode s (.read c bytes now) := by
  simp only [FromLastArmed, hconn]
  split
  · next n hdecode =>
    intro hline
    exact absurd hdecode (h hline n)
  · trivial

/-- After a registration request the node has the address that the server
gave out, and its latest request is this one. -/
theorem fromOrigin_config_iff (hs : Tracked s)
    (horigin : FromOrigin decode s) {c : ℕ} {bytes : Bytes} {now : ℤ}
    {conn : Connection} {app : Controller} {n : NodeConfig}
    (hconn : s.connections.lookup c = some conn)
    (hdecode : decode (firstFrame newline (conn.buffer ++ bytes)) = .config n)
    (happ : handler decode s.app s.remoteIp
      (firstFrame newline (conn.buffer ++ bytes)) now = some app)
    (ht : t = State.handleConnection
      { s with
        app := app
        calls := s.calls ++
          [(c, firstFrame newline (conn.buffer ++ bytes))] } c conn.remote)
    (h : TCPServer.Transition (handler decode) s (.read c bytes now) t) :
    FromOrigin decode t ↔ s.remoteIp = conn.remote := by
  obtain ⟨⟨response, C'⟩, hrequest, happ⟩ := Option.map_eq_some_iff.mp happ
  rw [hdecode] at hrequest
  obtain ⟨⟨node, hnode, hip⟩, hothers⟩ := lookup_handleConfig hrequest
  have happ : t.app = C' := by rw [ht, ← happ]; rfl
  have hcalls : t.calls = s.calls ++
      [(c, firstFrame newline (conn.buffer ++ bytes))] := by rw [ht]; rfl
  have hfrom : registeredFrom decode t n.id = some conn.remote := by
    have hregisters : registers decode n.id
        (c, firstFrame newline (conn.buffer ++ bytes)) = true := by
      simp [registers, hdecode]
    rw [registeredFrom, hcalls, List.filter_append,
      List.filter_cons_of_pos hregisters, List.filter_nil,
      List.getLast?_concat, Option.bind_some,
      remoteOf_transition h (FiniteMap.mem_iff_lookup.mpr ⟨conn, hconn⟩)]
    exact remoteOf_of_lookup hconn
  constructor
  · intro hfinal
    have hstored := hfinal n.id node (by rw [happ]; exact hnode)
    rw [hfrom, hip, Option.some.injEq] at hstored
    exact hstored.symm
  · intro hsame id node' hnode'
    rw [happ] at hnode'
    by_cases hid : id = n.id
    · subst hid
      rw [hnode, Option.some.injEq] at hnode'
      rw [hfrom, ← hnode', hip, hsame]
    · rw [hothers id hid] at hnode'
      rw [registeredFrom_congr hs h, horigin id node' hnode']
      have hregisters : ¬ registers decode id
          (c, firstFrame newline (conn.buffer ++ bytes)) = true := by
        simp [registers, hdecode, Ne.symm hid]
      rw [hcalls, List.filter_append, List.filter_cons_of_neg hregisters,
        List.filter_nil, List.append_nil]

theorem fromOrigin_step_iff (hs : Tracked s) (horigin : FromOrigin decode s)
    {e : TCPServer.Event}
    (hstep : TCPServer.step (handler decode) s e = some t) :
    FromOrigin decode t ↔ FromLastArmed decode s e := by
  have h := TCPServer.transition_of_step hstep
  cases h with
  | accepted hnew =>
      refine ⟨fun _ => trivial, fun _ => ?_⟩
      exact fromOrigin_of_lookup hs (.accepted hnew) horigin (fun _ => rfl)
        fun id node' hnode' => ⟨node', hnode', rfl⟩
  | closed hconn =>
      refine ⟨fun _ => trivial, fun _ => ?_⟩
      exact fromOrigin_of_lookup hs (.closed hconn) horigin (fun _ => rfl)
        fun id node' hnode' => ⟨node', hnode', rfl⟩
  | received hconn hline =>
      refine ⟨fun _ => fromLastArmed_of_not_config hconn
        fun hin => absurd hin hline, fun _ => ?_⟩
      exact fromOrigin_of_lookup (e := .read _ _ 0) hs (.received hconn hline)
        horigin (fun _ => rfl) fun id node' hnode' => ⟨node', hnode', rfl⟩
  | served hconn hline happ =>
      next c bytes now conn app =>
      by_cases hdecode : ∃ n,
          decode (firstFrame newline (conn.buffer ++ bytes)) = .config n
      · obtain ⟨n, hdecode⟩ := hdecode
        rw [fromLastArmed_iff hs hconn hline hdecode hstep]
        exact fromOrigin_config_iff hs horigin hconn hdecode happ rfl
          (.served hconn hline happ)
      · have hother : ∀ n,
            decode (firstFrame newline (conn.buffer ++ bytes)) ≠ .config n :=
          fun n hn => hdecode ⟨n, hn⟩
        refine ⟨fun _ => fromLastArmed_of_not_config hconn fun _ => hother,
          fun _ => ?_⟩
        refine fromOrigin_of_lookup hs (.served hconn hline happ) horigin ?_ ?_
        · intro id
          have hregisters : ¬ registers decode id
              (c, firstFrame newline (conn.buffer ++ bytes)) = true := by
            rw [registers]
            split
            · next n hn => exact absurd hn (hother n)
            · simp
          change List.filter _ (s.calls ++ [_]) = _
          rw [List.filter_append, List.filter_cons_of_neg hregisters,
            List.filter_nil, List.append_nil]
        · intro id node' hnode'
          obtain ⟨⟨response, C'⟩, hrequest, rfl⟩ :=
            Option.map_eq_some_iff.mp happ
          exact lookup_requestHandler hrequest hother hnode'

/-- In every history of connections, requests and closes: each stored address
is the one its registration request came from, in every state, if and only if
every registration request that is handled comes from the address of the
connection that was armed last. -/
theorem fromOrigin_iff_fromLastArmed (decode : Bytes → Request)
    (sandbox : Bool) (defaults : Option PropagationDefaults)
    (es : List TCPServer.Event) :
    EveryState (TCPServer.step (handler decode)) (FromOrigin decode)
        (.start (Controller.create sandbox defaults)) es ↔
      EveryStep (TCPServer.step (handler decode)) (FromLastArmed decode)
        (.start (Controller.create sandbox defaults)) es := by
  refine everyState_iff_everyStep ?_ ?_ ?_ (tracked_start _) ?_ es
  · intro s e t hs hstep
    exact tracked_transition hs (TCPServer.transition_of_step hstep)
  · intro s e t hs horigin hstep
    exact fromOrigin_step_iff hs horigin hstep
  · intro s e _ hfail
    cases e with
    | accept | close => trivial
    | read c bytes now =>
        simp only [FromLastArmed]
        split
        · trivial
        · split
          · intro _ hsome
            rw [hfail] at hsome
            cases hsome
          · trivial
  · intro id node hlookup
    simp [State.start, create] at hlookup

/-- What the request that reports an id and nothing else decodes to. -/
def bareConfig (id : NodeId) : NodeConfig where
  ipAddress := ""
  id := id
  name := ""
  portTxNum := 0
  portRxNum := 0
  numChannels := 1
  sampleRate := ⟨0, 0⟩
  channels := [⟨0, 0, 0, 0, "", ""⟩]
  logicalNode := -1
  location := ⟨.finite 0, .finite 0, .finite 0⟩
  hasLocation := false
  vehicleAddress := ""
  aerpawKey := ""
  nodeType := .unknown
  characteristics := none
  deviceTxGain := 0
  deviceRxGain := 0
  hasDeviceTxGain := false
  hasDeviceRxGain := false
  inputFormat := ""
  outputFormat := ""

/-- The line of that request. -/
def bareLine : Bytes :=
  ("\x7b\"id\":\"n\"\x7d\n".toList).map fun ch => UInt8.ofNat ch.toNat

/-- A second client connects before the first one sends its request. -/
theorem other_address_stored :
    ¬ ∀ (decode : Bytes → Request) (sandbox : Bool)
        (defaults : Option PropagationDefaults) (es : List TCPServer.Event),
      EveryState (TCPServer.step (handler decode)) (FromOrigin decode)
        (.start (Controller.create sandbox defaults)) es := by
  intro hall
  have hcheck :
      (run (TCPServer.step (handler fun _ => .config (bareConfig "n")))
        (.start (Controller.create false none))
        [.accept 0 "10.0.0.1", .accept 1 "10.0.0.2", .read 0 bareLine 0]).any
        (fun s => (s.app.nodeMap.lookup "n").any fun node =>
          decide (registeredFrom (fun _ => .config (bareConfig "n")) s "n" ≠
            some node.config.ipAddress)) = true := by
    decide +kernel
  obtain ⟨s, hrun, hs⟩ := (Option.any_eq_true _ _).mp hcheck
  obtain ⟨node, hnode, hdiffers⟩ := (Option.any_eq_true _ _).mp hs
  exact of_decide_eq_true hdiffers
    ((hall _ false none _).of_run hrun "n" node hnode)

end RequestOrigin

end Chem
