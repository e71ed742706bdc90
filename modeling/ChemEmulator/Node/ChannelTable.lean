import ChemEmulator.Channel.PathLossCommands
import ChemEmulator.Node.IntermediateLifetime
import ChemEmulator.Node.RequestTotality
import ChemEmulator.Support.TableMirror

/-!
# The table of channels

The controller writes a row of the table `channels` when it creates an
intermediate, with the propagation model that the intermediate starts with, and
deletes the row when it drops the intermediate (`AddChannel` and `DeleteChannel`
in `src/chem/db/dbHandler.cpp`).  This module follows these two statements; what
the texts for the other table can do to this one is left to the module about
the reports.

The key of a row is a decimal text of the frequency in MHz, so that two
frequencies can have the same one; the second `INSERT` then fails, and nothing
looks at its result.

SQLite is taken by what its statements say: an `INSERT` under a primary key
that is taken changes nothing, a `DELETE` removes the rows that match.
-/

namespace Chem

open PartialRuns

/-- `PropagationModelToString`. -/
def propagationModelToString : PropagationModel → String
  | .freeSpace => "FREE_SPACE"
  | .twoRay => "2_RAY"
  | .threeGPP_38_901 => "3GPP_38_901"
  | .okumuraHata => "OKUMURA_HATA"
  | .longleyRice => "LONGLEY_RICE"
  | .none => "NONE"
  | .unknown => "UNKNOWN"

theorem propagationModelToString_inj {a b : PropagationModel} :
    propagationModelToString a = propagationModelToString b ↔ a = b := by
  cases a <;> cases b <;> decide

/-! ## The table -/

/-- A row of the table `channels`, without its key. -/
structure ChannelRow where
  pathLoss : String
  sRate : UInt32
deriving DecidableEq

/-- The key of a row: `std::to_string(freq / 1000000)` has six decimals, and the
column is a `DOUBLE`. -/
def rowKey (freq : ℚ) : ℚ :=
  FloatValue.roundBinary 53
    (FloatValue.roundHalfEven
      (FloatValue.roundBinary 53 (freq / 1000000) * 1000000) / 1000000)

/-- The statements of `AddChannel` and `DeleteChannel`. -/
inductive ChannelStatement where
  | addChannel (freq : ℚ) (chMode : String) (srate : UInt32)
  | deleteChannel (freq : ℚ)
deriving DecidableEq

def ChannelStatement.exec (table : FiniteMap ℚ ChannelRow) :
    ChannelStatement → FiniteMap ℚ ChannelRow
  | .addChannel freq chMode srate =>
      FiniteMap.insertIfMissing (rowKey freq) ⟨chMode, srate⟩ table
  | .deleteChannel freq => table.erase (rowKey freq)

/-- A sequence of statements. -/
def execAll (statements : List ChannelStatement)
    (table : FiniteMap ℚ ChannelRow) : FiniteMap ℚ ChannelRow :=
  statements.foldl ChannelStatement.exec table

/-- The `pathLoss` that `GET_IND_CHANNELS` reports for the links of an
intermediate. -/
def Intermediate.pathLossStr (I : Intermediate) : String :=
  propagationModelToString I.propagationModel

namespace Controller

/-! ## The statements of a request -/

/-- The model that `CreateChannel` starts from. -/
def defaultModel (C : Controller) : PropagationModel :=
  (C.propagationDefaults.map PropagationDefaults.model).getD .freeSpace

/-- What `CreateChannel` writes. -/
def createStatements (C : Controller) (freq srate : ℚ) :
    List ChannelStatement :=
  if freq ∈ C.intermediateMap then []
  else [.addChannel freq (propagationModelToString C.defaultModel)
    (toUInt32 srate)]

/-- What `isChannelEmpty` writes for the intermediate that it erases. -/
def eraseStatements (erased : Option Intermediate) : List ChannelStatement :=
  erased.toList.map fun I => .deleteChannel I.freq

/-- What `AssignULChannel` and `AssignDLChannel` write. -/
def assignStatements (dir : Direction) (C : Controller) (node : Node)
    (newConfig : NodeConfig) : List ChannelStatement :=
  match newConfig.channels with
  | [] => []
  | ch :: _ =>
      C.createStatements (dir.freqOf ch) (dir.rateOf newConfig.sampleRate) ++
        eraseStatements (assignErases dir C node newConfig)

def configStatements (C : Controller) (nodeConfig : NodeConfig)
    (remoteIp : String) (now : ℤ) : List ChannelStatement :=
  let nodeConfig := { nodeConfig with ipAddress := remoteIp }
  match C.getOrCreateNode (Node.create nodeConfig now) with
  | none => []
  | some (target, _, C) =>
      let r := target.refreshFromConfig nodeConfig C.vehicleHandlers
      let C := { C with vehicleHandlers := r.handlers }
      assignStatements .uplink C r.node r.request ++
        match C.assignULChannel r.node r.request with
        | none => []
        | some (_, C, node) => assignStatements .downlink C node r.request

/-- The loop over the empty intermediates when a node is removed. -/
def removalStatements (C : Controller) (node : Node) :
    List ChannelStatement :=
  let C := detachAll .downlink C node.transmitter
  let C := detachAll .uplink C node.receiver
  (FiniteMap.filter (fun _ I => I.isEmpty)
    C.intermediateMap).keys.map .deleteChannel

/-- What `AddChannel` and `DeleteChannel` write for an event. -/
def channelStatements (C : Controller) (event : Event) :
    List ChannelStatement :=
  match event with
  | .request (.config nodeConfig) remoteIp now =>
      C.configStatements nodeConfig remoteIp now
  | event => ((C.removed event).map fun (_, node) =>
      C.removalStatements node).getD []

/-! ## Frequencies and rows -/

/-- No other intermediate has the row of the frequency. -/
def OwnRow (C : Controller) (freq : ℚ) : Prop :=
  FiniteMap.All (fun k _ => rowKey k = rowKey freq → k = freq)
    C.intermediateMap

/-- The frequencies of a channel have rows of their own. -/
def OwnRows (C : Controller) (ch : Usrp.Channel) : Prop :=
  C.OwnRow ch.txTuneFreq ∧ C.OwnRow ch.rxTuneFreq ∧
    (rowKey ch.txTuneFreq = rowKey ch.rxTuneFreq →
      ch.txTuneFreq = ch.rxTuneFreq)

end Controller

/-! ## Requests and commands -/

/-- The emulator and the table that it writes to. -/
structure Recorded where
  emulator : Emulator
  channels : FiniteMap ℚ ChannelRow

namespace Recorded

open Coordinator

/-- A request to the controller, a round of its timeout check, or a command. -/
inductive Event where
  | controller (event : Controller.Event)
  | coordinator (outside : Outside) (operation : Operation)

/-- How `main` starts: with an empty table and the initial defaults. -/
def start (sandbox hasConfig : Bool) : Recorded where
  emulator := Emulator.start sandbox hasConfig
    (some ⟨.freeSpace, .finite (-1), "UMa"⟩)
  channels := ∅

end Recorded

/-! ## What a request does to the map and to the table -/

@[simp] theorem execAll_nil (table : FiniteMap ℚ ChannelRow) :
    execAll [] table = table :=
  rfl

theorem execAll_append (first second : List ChannelStatement)
    (table : FiniteMap ℚ ChannelRow) :
    execAll (first ++ second) table = execAll second (execAll first table) :=
  List.foldl_append

/-- Deleting the rows of some frequencies. -/
theorem execAll_deleteChannel (freqs : List ℚ)
    (table : FiniteMap ℚ ChannelRow) :
    execAll (freqs.map .deleteChannel) table =
      FiniteMap.eraseRows rowKey freqs table := by
  rw [execAll, List.foldl_map]
  rfl

namespace Controller

/-- A relation between intermediates and rows that creation establishes and
membership calls keep. -/
structure Fits (r : Intermediate → ChannelRow → Prop) : Prop where
  created : ∀ (C : Controller) (freq : ℚ) (srate : UInt32),
    C.defaultModel ≠ .unknown →
    r (C.newIntermediate freq)
      ⟨propagationModelToString C.defaultModel, srate⟩
  performed : ∀ (I I' : Intermediate) (op : Intermediate.MembershipOp)
    (row : ChannelRow), I.perform op = some I' → r I row → r I' row

/-- The table has the rows of the intermediates. -/
def Tabled (r : Intermediate → ChannelRow → Prop) (C : Controller)
    (table : FiniteMap ℚ ChannelRow) : Prop :=
  FiniteMap.Mirrors rowKey r C.intermediateMap table

theorem equip_defaultModel {dir : Direction} {C C₁ : Controller}
    {node node₁ : Node} {e : Option EndpointState}
    (h : equip dir C node = some (e, C₁, node₁)) :
    C₁.defaultModel = C.defaultModel := by
  unfold equip ensureEndpoint createEndpoint at h
  split_ifs at h
  · cases h
    rfl
  · cases hend : node.endpoint dir with
    | some st =>
        simp only [hend, Option.map_some, Option.some.injEq,
          Prod.mk.injEq] at h
        rw [← h.2.1]
    | none =>
        simp only [hend, Option.map_map, Option.map_eq_some_iff] at h
        obtain ⟨st, -, hresult⟩ := h
        cases dir <;> cases hresult <;> rfl

theorem OnlyChannels.defaultModel {C C' : Controller}
    (h : OnlyChannels C C') : C'.defaultModel = C.defaultModel := by
  unfold OnlyChannels at h
  rw [h]
  rfl

theorem defaultModel_assignChannel {dir : Direction} {C C' : Controller}
    {node node' : Node} {newConfig : NodeConfig} {created : Bool}
    (h : assignChannel dir C node newConfig = some (created, C', node')) :
    C'.defaultModel = C.defaultModel := by
  cases hchannels : newConfig.channels with
  | nil =>
      rw [assignChannel_of_nil hchannels] at h
      cases h
      rfl
  | cons ch rest =>
      obtain ⟨e, C₁, node₁, hequip, hends⟩ := assignChannel_ends hchannels h
      exact hends.onlyChannels.defaultModel.trans (equip_defaultModel hequip)

namespace Tabled

variable {r : Intermediate → ChannelRow → Prop} {C C' : Controller}
  {table : FiniteMap ℚ ChannelRow}

theorem congr (h : Tabled r C table)
    (hmap : C'.intermediateMap = C.intermediateMap) : Tabled r C' table := by
  unfold Tabled
  rw [hmap]
  exact h

/-- A new intermediate and its row. -/
theorem createChannel (hr : Fits r) (h : Tabled r C table)
    (hknown : C.defaultModel ≠ .unknown) {freq : ℚ} (hown : OwnRow C freq)
    (srate : ℚ) :
    Tabled r (C.createChannel freq)
      (execAll (C.createStatements freq srate) table) := by
  unfold Controller.createChannel createStatements
  split_ifs with hmem
  · exact h
  · refine FiniteMap.Mirrors.insertNew h ?_ (hr.created C freq _ hknown)
    intro k hk hkey
    obtain ⟨I, hI⟩ := FiniteMap.mem_iff_lookup.mp hk
    exact hmem (hown k I hI hkey ▸ hk)

theorem updateIntermediate (h : Tabled r C table) {freq : ℚ}
    {f : Intermediate → Intermediate}
    (hf : ∀ I row, r I row → r (f I) row) :
    Tabled r (C.updateIntermediate freq f) table := by
  unfold Controller.updateIntermediate
  split
  · exact h
  next I hI => exact FiniteMap.Mirrors.replace h hI (hf I)

/-- An intermediate that is erased takes its row along. -/
theorem isChannelEmpty (h : Tabled r C table) (hkeys : C.KeysMatch)
    (freq : ℚ) :
    Tabled r (C.isChannelEmpty freq)
      (execAll (eraseStatements (C.erasedAt freq)) table) := by
  unfold Controller.isChannelEmpty erasedAt
  cases hI : C.intermediateMap.lookup freq with
  | none => exact h
  | some I =>
      have hfreq : I.freq = freq := hkeys freq I hI
      by_cases hempty : I.isEmpty = true
      · simp only [hempty, if_true, Option.filter, eraseStatements,
          Option.toList_some, List.map_cons, List.map_nil, hfreq]
        exact FiniteMap.Mirrors.erase h
          (FiniteMap.mem_iff_lookup.mpr ⟨I, hI⟩)
      · simpa [hempty, Option.filter, eraseStatements, execAll] using h

theorem leaving (hr : Fits r) (dir : Direction) (e : Option EndpointState)
    (node : Node) (I : Intermediate) (row : ChannelRow) (h : r I row) :
    r (Controller.leaving dir e node I) row := by
  cases e with
  | none => exact hr.performed I _ (.removeSandboxNode _) row rfl h
  | some st =>
      obtain ⟨op, -, hop⟩ := I.exists_perform_detach dir st.endpoint false
      exact hr.performed I _ op row hop h

theorem joinChannel (hr : Fits r) (h : Tabled r C table) {dir : Direction}
    {freq : ℚ} {e : Option EndpointState} {node node' : Node}
    {newConfig : NodeConfig}
    (hjoin : joinChannel dir C freq e node newConfig = some (C', node')) :
    Tabled r C' table := by
  cases joined_of_joinChannel hjoin with
  | @sandbox _ _ I _ hI =>
      exact FiniteMap.Mirrors.replace h hI fun row hrow =>
        hr.performed I _ (.addSandboxNode _ _) row rfl hrow
  | @endpoint _ _ st I I' _ hI hattach =>
      obtain ⟨op, -, hop⟩ := I.exists_perform_attach dir st.endpoint
      exact FiniteMap.Mirrors.replace h hI fun row hrow =>
        hr.performed I I' op row (hop.trans hattach) hrow

theorem leaveChannel (hr : Fits r) (h : Tabled r C table)
    (hkeys : C.KeysMatch) (dir : Direction) (freq : ℚ)
    (e : Option EndpointState) (node : Node) :
    Tabled r (leaveChannel dir C freq e node)
      (execAll (eraseStatements ((C.updateIntermediate freq
        (Controller.leaving dir e node)).erasedAt freq)) table) := by
  rw [leaveChannel_eq]
  refine (h.updateIntermediate (leaving hr dir e node)).isChannelEmpty ?_ freq
  exact KeysMatch.updateIntermediate hkeys freq (freq_leaving dir e node)

end Tabled

/-- What the erasure of an assignment depends on, once its endpoint is there. -/
theorem assignErases_eq {dir : Direction} {C C₁ : Controller}
    {node node₁ : Node} {newConfig : NodeConfig} {ch : Usrp.Channel}
    {rest : List Usrp.Channel} {e : Option EndpointState}
    (hchannels : newConfig.channels = ch :: rest)
    (hequip : equip dir C node = some (e, C₁, node₁)) :
    assignErases dir C node newConfig =
      if moves dir node ch = true ∧ prevFreq dir node ∈ C.intermediateMap then
        ((C₁.createChannel (dir.freqOf ch)).updateIntermediate
          (prevFreq dir node) (leaving dir e node₁)).erasedAt
            (prevFreq dir node)
      else none := by
  rw [assignErases, hchannels]
  dsimp only
  rw [hequip, Option.bind_some]

/-- The assignment of a frequency that has a row of its own. -/
theorem Tabled.assignChannel {r : Intermediate → ChannelRow → Prop}
    {C C' : Controller} {table : FiniteMap ℚ ChannelRow} (hr : Fits r)
    (h : Tabled r C table) (hkeys : C.KeysMatch)
    (hknown : C.defaultModel ≠ .unknown) {dir : Direction} {node node' : Node}
    {newConfig : NodeConfig} {created : Bool}
    (hown : ∀ ch, newConfig.channels.head? = some ch →
      OwnRow C (dir.freqOf ch))
    (hassign : assignChannel dir C node newConfig =
      some (created, C', node')) :
    Tabled r C' (execAll (assignStatements dir C node newConfig) table) := by
  cases hchannels : newConfig.channels with
  | nil =>
      rw [assignChannel_of_nil hchannels] at hassign
      cases hassign
      rw [assignStatements, hchannels]
      exact h
  | cons ch rest =>
      obtain ⟨e, C₁, node₁, hequip, hends⟩ :=
        assignChannel_ends hchannels hassign
      obtain ⟨hmap, -, -, -⟩ := equip_some hequip
      have hkeys₁ : C₁.KeysMatch := hkeys.congr hmap
      have hdefault := equip_defaultModel hequip
      have hsame : C.createStatements (dir.freqOf ch)
          (dir.rateOf newConfig.sampleRate) =
          C₁.createStatements (dir.freqOf ch)
            (dir.rateOf newConfig.sampleRate) := by
        rw [createStatements, createStatements, hmap, hdefault]
      have hfirst : OwnRow C₁ (dir.freqOf ch) := by
        unfold OwnRow
        rw [hmap]
        exact hown ch (by rw [hchannels]; rfl)
      have hcreated : Tabled r (C₁.createChannel (dir.freqOf ch))
          (execAll (C.createStatements (dir.freqOf ch)
            (dir.rateOf newConfig.sampleRate)) table) := by
        rw [hsame]
        exact (h.congr hmap).createChannel hr (hdefault ▸ hknown) hfirst _
      rw [assignStatements, hchannels]
      dsimp only
      rw [execAll_append, assignErases_eq hchannels hequip]
      cases hends with
      | repeated _ hstill => simpa [hstill, eraseStatements] using hcreated
      | kept _ hstill => simpa [hstill, eraseStatements] using hcreated
      | moved _ hmoves hjoin =>
          refine Tabled.joinChannel hr ?_ hjoin
          by_cases hfound : prevFreq dir node ∈ C.intermediateMap
          · rw [if_pos hfound, if_pos ⟨hmoves, hfound⟩]
            exact hcreated.leaveChannel hr (hkeys₁.createChannel _) dir _ e
              node₁
          · rw [if_neg hfound, if_neg fun hboth => hfound hboth.2]
            exact hcreated

/-- An assignment adds no frequency but its own. -/
theorem ownRow_assignChannel {dir : Direction} {C C' : Controller}
    {node node' : Node} {newConfig : NodeConfig} {ch : Usrp.Channel}
    {rest : List Usrp.Channel} {created : Bool} {freq : ℚ}
    (hkeys : C.KeysMatch) (hown : OwnRow C freq)
    (hother : rowKey (dir.freqOf ch) = rowKey freq → dir.freqOf ch = freq)
    (hchannels : newConfig.channels = ch :: rest)
    (h : assignChannel dir C node newConfig = some (created, C', node')) :
    OwnRow C' freq := by
  obtain ⟨e, C₁, node₁, hequip, hends⟩ := assignChannel_ends hchannels h
  obtain ⟨hmap, -, -, -⟩ := equip_some hequip
  have hcreated : OwnRow (C₁.createChannel (dir.freqOf ch)) freq := by
    intro k I hI
    rcases lookup_createChannel_some hI with hold | ⟨rfl, -⟩
    · rw [hmap] at hold
      exact hown k I hold
    · exact hother
  cases hends with
  | repeated => exact hcreated
  | kept => exact hcreated
  | moved _ _ hjoin =>
      intro k I hI
      by_cases hk : k = dir.freqOf ch
      · subst hk
        exact hother
      rw [lookup_joinChannel_ne hjoin hk] at hI
      split_ifs at hI with hfound
      · by_cases hprev : k = prevFreq dir node
        · obtain ⟨J, hJ⟩ := FiniteMap.mem_iff_lookup.mp hfound
          exact hown k J (hprev ▸ hJ)
        · have hkeys₁ : C₁.KeysMatch := hkeys.congr hmap
          rw [lookup_leaveChannel_ne (hkeys₁.createChannel _) dir e node₁
            hprev] at hI
          exact hcreated k I hI
      · exact hcreated k I hI

namespace Tabled

variable {r : Intermediate → ChannelRow → Prop} {C C' : Controller}
  {table : FiniteMap ℚ ChannelRow}

theorem handleConfig (hr : Fits r) (h : Tabled r C table)
    (hkeys : C.KeysMatch) (hknown : C.defaultModel ≠ .unknown)
    {n : NodeConfig} {remoteIp : String} {now : ℤ} {response : Response}
    (hown : ∀ ch, n.channels.head? = some ch → C.OwnRows ch)
    (hconfig : C.handleConfig n remoteIp now = some (response, C')) :
    Tabled r C' (execAll (C.configStatements n remoteIp now) table) := by
  obtain ⟨target, newlyInserted, C₁, C₂, C₃, node₂, node₃, createdUL,
    createdDL, hget, q, hq, hUL, hDL, rfl, -⟩ := handleConfig_some hconfig
  obtain ⟨D, hD⟩ : ∃ D : Controller,
      D = { C₁ with vehicleHandlers := q.handlers } := ⟨_, rfl⟩
  have hmap : D.intermediateMap = C.intermediateMap := by
    rw [hD]
    exact (getOrCreateNode_intermediates hget).1
  have hdefault : D.defaultModel = C.defaultModel := by
    rw [hD]
    rcases getOrCreateNode_some hget with
      ⟨-, rfl, -⟩ | ⟨-, -, -, rfl, -⟩ <;> rfl
  have hchannels : q.request.channels = n.channels := (refresh_same hq).2.1
  have hownD : ∀ freq, OwnRow C freq → OwnRow D freq := by
    unfold OwnRow
    rw [hmap]
    exact fun _ hfreq => hfreq
  have hkeysD : D.KeysMatch := hkeys.congr hmap
  have hknownD : D.defaultModel ≠ .unknown := by
    rw [hdefault]
    exact hknown
  rw [← hchannels] at hown
  rw [← hD] at hUL
  have hstatements : C.configStatements n remoteIp now =
      assignStatements .uplink D q.node q.request ++
        assignStatements .downlink C₂ node₂ q.request := by
    subst hD hq
    simp only [configStatements, hget, assignULChannel, hUL]
  rw [hstatements, execAll_append]
  have htx : ∀ ch, q.request.channels.head? = some ch →
      OwnRow D (Direction.uplink.freqOf ch) :=
    fun ch hch => hownD _ (hown ch hch).1
  have huplink := (h.congr hmap).assignChannel hr hkeysD hknownD htx hUL
  have hdownlink : Tabled r C₃ (execAll
      (assignStatements .downlink C₂ node₂ q.request)
      (execAll (assignStatements .uplink D q.node q.request) table)) := by
    refine huplink.assignChannel hr ((kept_freq _).assignChannel hkeysD hUL)
      ?_ ?_ hDL
    · rw [defaultModel_assignChannel hUL]
      exact hknownD
    · intro ch hch
      obtain ⟨-, hrx, hbetween⟩ := hown ch hch
      obtain ⟨rest, hcons⟩ := List.head?_eq_some_iff.mp hch
      have hother : rowKey (Direction.uplink.freqOf ch) =
          rowKey (Direction.downlink.freqOf ch) →
          Direction.uplink.freqOf ch = Direction.downlink.freqOf ch :=
        hbetween
      exact ownRow_assignChannel hkeysD (hownD _ hrx) hother hcons hUL
  exact hdownlink.congr rfl

theorem detachAll (hr : Fits r) (h : Tabled r C table) (dir : Direction)
    (e : Option EndpointState) : Tabled r (detachAll dir C e) table := by
  cases e with
  | none => exact h
  | some st =>
      refine FiniteMap.Mirrors.update h (fun _ => FiniteMap.mem_mapValues) ?_
      intro k I' hI'
      rw [Controller.detachAll, FiniteMap.lookup_mapValues,
        Option.map_eq_some_iff] at hI'
      obtain ⟨I, hI, rfl⟩ := hI'
      obtain ⟨op, -, hop⟩ := I.exists_perform_detach dir st.endpoint false
      exact ⟨I, hI, fun row hrow => hr.performed I _ op row hop hrow⟩

/-- The loop that drops the empty intermediates. -/
theorem removeEmptyChannels (h : Tabled r C table) :
    Tabled r C.removeEmptyChannels (execAll ((FiniteMap.filter
      (fun _ I => I.isEmpty) C.intermediateMap).keys.map .deleteChannel)
      table) := by
  rw [execAll_deleteChannel]
  refine FiniteMap.Mirrors.drop h ?_ ?_
  · intro k hk
    obtain ⟨I, hI, -⟩ := FiniteMap.mem_filter.mp (AList.mem_keys.mpr hk)
    exact FiniteMap.mem_iff_lookup.mpr ⟨I, hI⟩
  · intro k I
    rw [← AList.mem_keys, FiniteMap.mem_filter]
    simp only [Controller.removeEmptyChannels, FiniteMap.lookup_filter]
    refine and_congr_right fun hI => ?_
    simp [hI]

theorem removeNode (hr : Fits r) (h : Tabled r C table) (id : NodeId)
    (node : Node) :
    Tabled r (C.removeNode id node)
      (execAll (C.removalStatements node) table) := by
  have hdetached := (h.detachAll hr .downlink node.transmitter).detachAll hr
    .uplink node.receiver
  exact hdetached.removeEmptyChannels

/-- What every event of the controller does. -/
theorem step (hr : Fits r) (h : Tabled r C table) (hkeys : C.KeysMatch)
    (hknown : C.defaultModel ≠ .unknown) {event : Event}
    (hown : ∀ n remoteIp now, event = .request (.config n) remoteIp now →
      ∀ ch, n.channels.head? = some ch → C.OwnRows ch)
    (hstep : C.step event = some C') :
    Tabled r C' (execAll (C.channelStatements event) table) := by
  by_cases hconfig : ∃ n remoteIp now,
      event = .request (.config n) remoteIp now
  · obtain ⟨n, remoteIp, now, rfl⟩ := hconfig
    obtain ⟨⟨response, C''⟩, hhandled, rfl⟩ := Option.map_eq_some_iff.mp hstep
    exact h.handleConfig hr hkeys hknown (hown _ _ _ rfl) hhandled
  · have hstatements : C.channelStatements event = ((C.removed event).map
        fun (_, node) => C.removalStatements node).getD [] := by
      unfold channelStatements
      split
      · exact absurd ⟨_, _, _, rfl⟩ hconfig
      · rfl
    rw [hstatements]
    cases handled_of_step hstep with
    | nothing hnone =>
        rw [hnone]
        exact h
    | heartbeat => exact h.congr rfl
    | @removal _ id node ipAddrMap hremoved hnode =>
        have hmap : ({ C with ipAddrMap := ipAddrMap }.removeNode id
            node).intermediateMap =
            (C.removeNode id node).intermediateMap := by
          unfold Controller.removeNode Controller.detachAll
          cases node.transmitter <;> cases node.receiver <;> rfl
        rw [hremoved]
        exact (h.removeNode hr id node).congr hmap
    | configuration => exact absurd ⟨_, _, _, rfl⟩ hconfig

end Tabled

theorem defaultModel_step {C C' : Controller} {event : Event}
    (h : C.step event = some C') : C'.defaultModel = C.defaultModel := by
  cases transition_of_step h with
  | nothing => rfl
  | heartbeat => rfl
  | @removal id node _ ipAddrMap =>
      unfold removeNode detachAll removeVehicleHandler removeEmptyChannels
      cases node.transmitter <;> cases node.receiver <;> rfl
  | configuration hconfig =>
      obtain ⟨target, newlyInserted, C₁, C₂, C₃, node₂, node₃, createdUL,
        createdDL, hget, q, hq, hUL, hDL, rfl, -⟩ := handleConfig_some hconfig
      have hfirst : C₁.defaultModel = C.defaultModel := by
        rcases getOrCreateNode_some hget with
          ⟨-, rfl, -⟩ | ⟨-, -, -, rfl, -⟩ <;> rfl
      have hlast := (defaultModel_assignChannel hDL).trans
        (defaultModel_assignChannel hUL)
      exact hlast.trans hfirst

/-- A new intermediate has the default model, if that is a known one. -/
theorem propagationModel_newIntermediate {C : Controller}
    (hknown : C.defaultModel ≠ .unknown) (freq : ℚ) :
    (C.newIntermediate freq).propagationModel = C.defaultModel := by
  unfold newIntermediate
  cases hdefaults : C.propagationDefaults with
  | none => simp [defaultModel, hdefaults, Intermediate.create]
  | some d =>
      have hdefault : C.defaultModel = d.model := by
        simp [defaultModel, hdefaults]
      rw [hdefault] at hknown ⊢
      dsimp only
      split_ifs with hplain hscenario
      · exact (hplain.resolve_right hknown).symm
      · rw [Intermediate.set3gppScenario]
        split_ifs <;> rfl
      · rfl

theorem fits_pathLoss : Fits fun I row => row.pathLoss = I.pathLossStr where
  created C freq srate hknown := by
    rw [Intermediate.pathLossStr, propagationModel_newIntermediate hknown]
  performed I I' op row h hrow := by
    have hsettings := (Intermediate.relinked_perform h).settings
    have hmodel : I'.propagationModel = I.propagationModel :=
      congrArg Intermediate.Settings.propagationModel hsettings
    rw [Intermediate.pathLossStr, hmodel]
    exact hrow

theorem fits_true : Fits fun _ _ => True :=
  ⟨fun _ _ _ _ => trivial, fun _ _ _ _ _ _ => trivial⟩

end Controller

end Chem
