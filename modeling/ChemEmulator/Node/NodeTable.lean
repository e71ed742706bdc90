import ChemEmulator.Db.Statements
import ChemEmulator.Node.Reregistration

/-!
# The table of nodes

The controller writes a row of the table `nodes` when a node registers and
after every request that moves a node to another frequency, and deletes it when
it drops the node (`AddNode` and `DeleteNode` in `src/chem/db/dbHandler.cpp`).
`CHG_ANTENNA` writes the column of the antenna patterns.

A request that is answered as redundant refreshes the node as well, but it
writes no row.  What SQLite makes of a text that is not the statement that is
meant is a parameter; the statements themselves are taken by what they say.
-/

namespace Chem

open PartialRuns

/-- A row of the table `nodes`, without its key. -/
structure NodeRow where
  name : String
  txFreq : ℚ
  rxFreq : ℚ
  numChannels : ℕ
  txSampleRate : ℚ
  rxSampleRate : ℚ
  chCoeff : ℚ
  vehicleAddress : String
  antennaPattern : String
deriving DecidableEq

/-- A number that is written with six decimals to a column of type `DOUBLE`. -/
def columnValue (q : ℚ) : ℚ :=
  FloatValue.roundBinary 53
    (FloatValue.roundHalfEven (q * 1000000) / 1000000)

/-- The statements of `AddNode`, `DeleteNode` and `ChangeAntenna`. -/
inductive NodeStatement where
  | addNode (cfg : NodeConfig) (channel : Usrp.Channel)
  | deleteNode (cfg : NodeConfig)
  | changeAntenna (nodeName pattern : String)

/-- The row that `AddNode` inserts. -/
def NodeRow.fresh (cfg : NodeConfig) (channel : Usrp.Channel) : NodeRow where
  name := cfg.name
  txFreq := rowKey channel.txTuneFreq
  rxFreq := rowKey channel.rxTuneFreq
  numChannels := cfg.numChannels.toNat
  txSampleRate := columnValue cfg.sampleRate.txRate
  rxSampleRate := columnValue cfg.sampleRate.rxRate
  chCoeff := 1
  vehicleAddress := cfg.vehicleAddress
  antennaPattern := DBHandler.defaultAntenna

/-- `ON CONFLICT(id) DO UPDATE`: two columns are not in the list. -/
def NodeRow.excluded (new old : NodeRow) : NodeRow :=
  { new with chCoeff := old.chCoeff, antennaPattern := old.antennaPattern }

namespace NodeStatement

/-- What the statement does to the table. -/
def exec (table : FiniteMap NodeId NodeRow) :
    NodeStatement → FiniteMap NodeId NodeRow
  | addNode cfg channel =>
      FiniteMap.upsert cfg.id (.fresh cfg channel)
        (NodeRow.excluded (.fresh cfg channel)) table
  | deleteNode cfg => table.erase cfg.id
  | changeAntenna nodeName pattern =>
      FiniteMap.mapValues (fun row => if row.name = nodeName then
        { row with antennaPattern := pattern } else row) table

/-- The strings that are quoted in the text. -/
def strings : NodeStatement → List String
  | addNode cfg _ => [cfg.id, cfg.name, cfg.vehicleAddress]
  | deleteNode cfg => [cfg.id]
  | changeAntenna nodeName pattern => [pattern, nodeName]

/-- SQLite reads the text as the statement. -/
def IsRead (s : NodeStatement) : Prop :=
  ∀ t ∈ s.strings, DBHandler.Harmless t

instance (s : NodeStatement) : Decidable s.IsRead :=
  decidable_of_iff (s.strings.all (fun t => DBHandler.Harmless t) = true) (by
    simp only [List.all_eq_true, decide_eq_true_eq]
    rfl)

/-- The text that is handed to SQLite. -/
def query : NodeStatement → Option String
  | addNode cfg _ => DBHandler.addNodeQuery cfg
  | deleteNode cfg => some (DBHandler.deleteNodeQuery cfg)
  | changeAntenna nodeName pattern =>
      some (DBHandler.changeAntennaQuery nodeName pattern)

/-- What is meant by it. -/
def meant : NodeStatement → List (QuotedText.Token Char)
  | addNode cfg channel => DBHandler.addNodeStatement cfg channel
  | deleteNode cfg => DBHandler.deleteNodeStatement cfg
  | changeAntenna nodeName pattern =>
      DBHandler.changeAntennaStatement nodeName pattern

/-- `AddNode` writes the frequencies of the first channel. -/
def OfFirstChannel : NodeStatement → Prop
  | addNode cfg channel => cfg.channels.head? = some channel
  | _ => True

/-- The test is the one of `Denotes`. -/
theorem isRead_iff {s : NodeStatement} (hs : s.OfFirstChannel) :
    s.IsRead ↔ ∃ text, s.query = some text ∧
      DBHandler.Denotes text s.meant := by
  cases s with
  | addNode cfg channel =>
      refine Iff.trans ?_ (DBHandler.denotes_addNode_iff hs).symm
      simp [IsRead, strings]
  | deleteNode cfg =>
      simp [IsRead, strings, query, meant, DBHandler.denotes_deleteNode_iff]
  | changeAntenna nodeName pattern =>
      simp [IsRead, strings, query, meant,
        DBHandler.denotes_changeAntenna_iff]

/-- `sqlite3_exec`: `garbled` is for the texts that SQLite does not read as
they are meant. -/
def submit (garbled : NodeStatement → FiniteMap NodeId NodeRow →
    FiniteMap NodeId NodeRow) (table : FiniteMap NodeId NodeRow)
    (s : NodeStatement) : FiniteMap NodeId NodeRow :=
  if s.IsRead then s.exec table else garbled s table

end NodeStatement

namespace Controller

/-! ## The statements of an event -/

/-- What `AddNode` writes for a node; without a channel it throws. -/
def persist (node : Node) : List NodeStatement :=
  node.config.channels.head?.toList.map (.addNode node.config)

def configNodeStatements (C : Controller) (nodeConfig : NodeConfig)
    (remoteIp : String) (now : ℤ) : List NodeStatement :=
  let nodeConfig := { nodeConfig with ipAddress := remoteIp }
  match C.getOrCreateNode (Node.create nodeConfig now) with
  | none => []
  | some (target, newlyInserted, C) =>
      let r := target.refreshFromConfig nodeConfig C.vehicleHandlers
      let C := { C with vehicleHandlers := r.handlers }
      (if newlyInserted then persist target else []) ++
        match C.assignULChannel r.node r.request with
        | none => []
        | some (createdUL, C, node) =>
            match C.assignDLChannel node r.request with
            | none => []
            | some (createdDL, _, node) =>
                if !(createdUL || createdDL) && !newlyInserted then []
                else persist node

/-- The statements for the table `nodes` that an event executes. -/
def nodeStatements (C : Controller) : Event → List NodeStatement
  | .request (.config nodeConfig) remoteIp now =>
      C.configNodeStatements nodeConfig remoteIp now
  | event => ((C.removed event).map fun (_, node) =>
      [.deleteNode node.config]).getD []

end Controller

namespace Coordinator

/-- What `CHG_ANTENNA` writes to the database. -/
def antennaStatements : Operation → List NodeStatement
  | .chgAntenna node p =>
      if node.isEmpty || p.isMissing then []
      else
        let dbPattern := if !p.both.isEmpty then p.both
          else if p.tx.isEmpty then p.rx else p.tx
        [.changeAntenna node dbPattern]
  | _ => []

end Coordinator

/-! ## Requests and commands -/

/-- The emulator and the table of its nodes. -/
structure Registry where
  emulator : Emulator
  nodes : FiniteMap NodeId NodeRow

namespace Registry

open Coordinator
open Recorded (Event)

variable (garbled : NodeStatement → FiniteMap NodeId NodeRow →
  FiniteMap NodeId NodeRow)

/-- The statements of a request or a command.  That of `CHG_ANTENNA` only
counts if the database takes it; a text that is read as something else may have
done something before it fails. -/
def statements (R : Registry) : Event → List NodeStatement
  | .controller event => R.emulator.controller.nodeStatements event
  | .coordinator outside operation =>
      (antennaStatements operation).filter fun s =>
        outside.dbOk || !decide s.IsRead

def step (R : Registry) (event : Event) : Option Registry :=
  let nodes := (R.statements event).foldl (NodeStatement.submit garbled) R.nodes
  match event with
  | .controller event =>
      (R.emulator.controller.step event).map fun C =>
        ⟨{ R.emulator with controller := C }, nodes⟩
  | .coordinator outside operation =>
      (execute outside R.emulator operation).map fun (_, E) => ⟨E, nodes⟩

/-- How `main` starts: `CreateTables` drops what was there. -/
def start (sandbox hasConfig : Bool) : Registry where
  emulator := (Recorded.start sandbox hasConfig).emulator
  nodes := ∅

/-- SQLite reads every statement of an event as it is meant. -/
def Readable (R : Registry) (event : Event) : Prop :=
  ∀ s ∈ R.statements event, s.IsRead

instance (R : Registry) (event : Event) : Decidable (R.Readable event) :=
  decidable_of_iff ((R.statements event).all (fun s => s.IsRead) = true) (by
    simp only [List.all_eq_true, decide_eq_true_eq]
    rfl)

/-! ## Rows and nodes -/

/-- The row that a node should have, with the default antenna. -/
def rowOf (node : Node) : Option NodeRow :=
  node.config.channels.head?.map (NodeRow.fresh node.config)

/-- The frequencies of the row are those of the node. -/
def Tuned (node : Node) (row : NodeRow) : Prop :=
  row.chCoeff = 1 ∧ ∃ ch, node.config.channels.head? = some ch ∧
    row.txFreq = rowKey ch.txTuneFreq ∧ row.rxFreq = rowKey ch.rxTuneFreq

/-- The row is that of the node, up to the antenna pattern. -/
def Current (node : Node) (row : NodeRow) : Prop :=
  rowOf node =
    some { row with antennaPattern := DBHandler.defaultAntenna }

/-- The nodes and their rows. -/
def Filed (r : Node → NodeRow → Prop) (R : Registry) : Prop :=
  FiniteMap.Mirrors id r R.emulator.controller.nodeMap R.nodes

/-- A node has a row exactly if it is registered, and the row has the
frequencies of the node. -/
def RowsTuned (R : Registry) : Prop :=
  (∀ id, id ∈ R.nodes ↔ id ∈ R.emulator.controller.nodeMap) ∧
    FiniteMap.All (fun id node => ∃ row,
      R.nodes.lookup id = some row ∧ Tuned node row)
      R.emulator.controller.nodeMap

/-- Every node has the row that `AddNode` would write for it. -/
def RowsCurrent (R : Registry) : Prop :=
  FiniteMap.All (fun id node => ∃ row,
    R.nodes.lookup id = some row ∧ Current node row)
    R.emulator.controller.nodeMap

end Registry

/-! ## What a request does to its node -/

namespace Controller

/-- The node after a configuration request, and whether `AddNode` writes it. -/
structure ConfigOutcome (target node : Node) (n : NodeConfig)
    (handlers : VehicleHandlers) (written : Bool) : Prop where
  written_eq : written = n.channels.head?.any fun ch =>
    moves .uplink target ch || moves .downlink target ch
  id : node.config.id = n.id
  name : node.config.name = n.name
  numChannels : node.config.numChannels = n.numChannels
  vehicleAddress : node.config.vehicleAddress =
    (n.storedAddress handlers).getD target.config.vehicleAddress
  channels : written = false → node.config.channels = target.config.channels
  sampleRate : written = false → node.config.sampleRate =
    if n.channels = [] then target.config.sampleRate else n.sampleRate
  tuned : target.config.channels ≠ [] → node.config.channels ≠ []

theorem configured_of_assign {target r node₂ node₃ : Node}
    {n q : NodeConfig} {handlers : VehicleHandlers}
    {C C₂ C₃ : Controller} {createdUL createdDL : Bool}
    (hr : r = target.refreshed n handlers)
    (hq : q.channels = n.channels ∧ q.sampleRate = n.sampleRate)
    (hUL : assignChannel .uplink C r q = some (createdUL, C₂, node₂))
    (hDL : assignChannel .downlink C₂ node₂ q =
      some (createdDL, C₃, node₃)) :
    ConfigOutcome target node₃ n handlers (createdUL || createdDL) := by
  have hcarries := Node.carries_refreshed target n handlers
  obtain ⟨hrate, hchannels, -, -, -, haddress⟩ :=
    Node.refreshed_kept target n handlers
  rw [← hr] at hcarries hrate hchannels haddress
  cases hn : n.channels with
  | nil =>
      rw [assignChannel_of_nil (hq.1.trans hn)] at hUL
      cases hUL
      rw [assignChannel_of_nil (hq.1.trans hn)] at hDL
      cases hDL
      refine ⟨?_, hcarries.id, hcarries.name, hcarries.numChannels, haddress,
        fun _ => hchannels, fun _ => ?_, fun h => hchannels ▸ h⟩
      · rw [hn]
        rfl
      · rw [if_pos hn]
        exact hrate
  | cons ch rest =>
      have hUL := assignChannel_outcome (hq.1.trans hn) hUL
      have hDL := assignChannel_outcome (hq.1.trans hn) hDL
      have hrecord := (hUL.record.trans hDL.record).config
      have hmovesUL : moves .uplink r ch = moves .uplink target ch :=
        moves_congr ch (by rw [Node.freq?, hchannels]; rfl)
      have hmovesDL : moves .downlink node₂ ch = moves .downlink target ch :=
        moves_congr ch (by
          rw [hUL.freq?_of_ne (by decide), Node.freq?, hchannels]; rfl)
      have hwritten : (createdUL || createdDL) =
          (moves .uplink target ch || moves .downlink target ch) := by
        rw [hUL.created, hDL.created, hmovesUL, hmovesDL]
      refine ⟨?_, ?_, ?_, ?_, ?_, ?_, ?_, ?_⟩
      · rw [hwritten, hn]
        rfl
      · rw [hrecord]
        exact hcarries.id
      · rw [hrecord]
        exact hcarries.name
      · rw [hrecord]
        exact hcarries.numChannels
      · rw [hrecord]
        exact haddress
      · intro hstill
        obtain ⟨hstillUL, hstillDL⟩ := Bool.or_eq_false_iff.mp hstill
        rw [hDL.channels, ← hDL.created, hstillDL, hUL.channels,
          ← hUL.created, hstillUL]
        exact hchannels
      · intro hstill
        obtain ⟨-, hstillDL⟩ := Bool.or_eq_false_iff.mp hstill
        rw [hDL.sampleRate, ← hDL.created, hstillDL, if_neg (by simp), hq.2,
          if_neg (by simp [hn])]
      · intro htuned
        rw [← hchannels] at htuned
        rw [hDL.channels, hUL.channels]
        split_ifs <;> simpa using htuned

/-- A configuration request: the node that it stores, and what it writes. -/
theorem configured_of_handleConfig {C C' : Controller} {n : NodeConfig}
    {remoteIp : String} {now : ℤ} {response : Response}
    (h : C.handleConfig n remoteIp now = some (response, C')) :
    ∃ target newlyInserted C₁ node created,
      C.getOrCreateNode (Node.create { n with ipAddress := remoteIp } now) =
        some (target, newlyInserted, C₁) ∧
      C'.nodeMap = C₁.nodeMap.insert n.id node ∧
      ConfigOutcome target node { n with ipAddress := remoteIp }
        C₁.vehicleHandlers created ∧
      C.configNodeStatements n remoteIp now =
        (if newlyInserted then persist target else []) ++
          if created || newlyInserted then persist node else [] := by
  obtain ⟨target, newlyInserted, C₁, C₂, C₃, node₂, node₃, createdUL,
    createdDL, hget, r, hr, hUL, hDL, rfl, -⟩ := handleConfig_some h
  obtain ⟨hnode, -, -, hrequest⟩ := Node.refreshFromConfig_spec hr
  have hq := request_of_unaddressed hrequest
  refine ⟨target, newlyInserted, C₁, node₃, createdUL || createdDL, hget, ?_,
    configured_of_assign hnode hq hUL hDL, ?_⟩
  · have hnodes := (nodeMap_assignChannel hDL).trans (nodeMap_assignChannel hUL)
    exact congrArg (fun m => AList.insert n.id node₃ m) hnodes
  · subst hr
    unfold configNodeStatements
    dsimp only
    rw [hget]
    dsimp only
    rw [assignULChannel, hUL]
    dsimp only
    rw [assignDLChannel, hDL]
    dsimp only
    cases createdUL <;> cases createdDL <;> cases newlyInserted <;> rfl

/-! ## Requests that move nothing -/

theorem isSome_assignChannel_of_still {dir : Direction} {C : Controller}
    {node : Node} {newConfig : NodeConfig}
    (htuned : node.config.channels ≠ [])
    (hstill : ∀ ch, newConfig.channels.head? = some ch →
      moves dir node ch = false) :
    (assignChannel dir C node newConfig).isSome = true := by
  cases hchannels : newConfig.channels with
  | nil =>
      rw [assignChannel_of_nil hchannels]
      rfl
  | cons ch rest =>
      rw [assignChannel_eq hchannels]
      obtain ⟨⟨e, C₁, node₁⟩, hequip⟩ :=
        Option.isSome_iff_exists.mp (isSome_equip (C := C) htuned)
      rw [hequip]
      dsimp only [Option.bind]
      rw [hstill ch (by rw [hchannels]; rfl), if_neg Bool.false_ne_true]
      split_ifs <;> rfl

/-- A request that moves nothing does not throw. -/
theorem isSome_handleConfig_of_still {C : Controller} {n : NodeConfig}
    {target : Node} (hknown : C.nodeMap.lookup n.id = some target)
    (htuned : target.config.channels ≠ [])
    (hstill : ∀ ch, n.channels.head? = some ch → ∀ dir,
      moves dir target ch = false) (remoteIp : String) (now : ℤ) :
    (C.handleConfig n remoteIp now).isSome = true := by
  have hget : C.getOrCreateNode
      (Node.create { n with ipAddress := remoteIp } now) =
        some (target, false, C) := by
    unfold getOrCreateNode
    have hlookup : C.nodeMap.lookup
        (Node.create { n with ipAddress := remoteIp } now).config.id =
          some target := hknown
    rw [hlookup]
  generalize hr : target.refreshFromConfig
    { n with ipAddress := remoteIp } C.vehicleHandlers = r
  obtain ⟨-, hrequest, hsame⟩ := refresh_same hr.symm
  have hfreq : ∀ ch dir, moves dir r.node ch = moves dir target ch :=
    fun ch dir => moves_congr ch (hsame dir).2
  have hcore := (Node.refreshFromConfig_spec hr.symm).1
  obtain ⟨-, hchannels, -⟩ := Node.refreshed_kept target
    { n with ipAddress := remoteIp } C.vehicleHandlers
  rw [← hcore] at hchannels
  rw [← hchannels] at htuned
  have hstillUL : ∀ ch, r.request.channels.head? = some ch →
      moves .uplink r.node ch = false := by
    intro ch hch
    rw [hfreq]
    exact hstill ch (hrequest ▸ hch) .uplink
  obtain ⟨⟨createdUL, C₂, node₂⟩, hUL⟩ := Option.isSome_iff_exists.mp
    (isSome_assignChannel_of_still
      (C := { C with vehicleHandlers := r.handlers }) htuned hstillUL)
  have hstillDL : ∀ ch, r.request.channels.head? = some ch →
      moves .downlink node₂ ch = false := by
    intro ch hch
    obtain ⟨rest, hlist⟩ := List.head?_eq_some_iff.mp hch
    rw [moves_congr ch
      ((assignChannel_outcome hlist hUL).freq?_of_ne (by decide)), hfreq]
    exact hstill ch (hrequest ▸ hch) .downlink
  have htuned₂ := channels_ne_nil_assignChannel hUL htuned
  obtain ⟨⟨createdDL, C₃, node₃⟩, hDL⟩ := Option.isSome_iff_exists.mp
    (isSome_assignChannel_of_still (C := C₂) htuned₂ hstillDL)
  have htuned₃ := channels_ne_nil_assignChannel hDL htuned₂
  have hadd : addNode node₃ = some () := by
    unfold addNode
    rw [if_neg]
    simpa using htuned₃
  simp only [handleConfig, hget, hr, assignULChannel, hUL, assignDLChannel, hDL,
    hadd, Option.bind_eq_bind, Option.bind_some]
  split_ifs <;> rfl

end Controller

/-! ## Rows follow their nodes -/

namespace Registry

open Coordinator
open Recorded (Event)

/-- A relation that survives what the statements do to a row. -/
structure Fits (r : Node → NodeRow → Prop) : Prop where
  same : ∀ {node node' : Node} {row : NodeRow}, rowOf node' = rowOf node →
    r node row → r node' row
  pattern : ∀ {node : Node} {row : NodeRow} (p : String), r node row →
    r node { row with antennaPattern := p }
  fresh : ∀ {node : Node} {ch : Usrp.Channel},
    node.config.channels.head? = some ch → r node (.fresh node.config ch)
  excluded : ∀ {node : Node} {ch : Usrp.Channel} {old : NodeRow},
    node.config.channels.head? = some ch → old.chCoeff = 1 →
      r node ((NodeRow.fresh node.config ch).excluded old)
  tuned : ∀ {node : Node} {row : NodeRow}, r node row →
    node.config.channels ≠ []
  chCoeff : ∀ {node : Node} {row : NodeRow}, r node row → row.chCoeff = 1

theorem fits_tuned : Fits Tuned where
  same := by
    rintro node node' row hsame ⟨hcoeff, ch, hch, htx, hrx⟩
    unfold rowOf at hsame
    rw [hch, Option.map_some, Option.map_eq_some_iff] at hsame
    obtain ⟨ch', hch', hrow⟩ := hsame
    exact ⟨hcoeff, ch', hch', htx.trans (congrArg NodeRow.txFreq hrow).symm,
      hrx.trans (congrArg NodeRow.rxFreq hrow).symm⟩
  pattern _ h := h
  fresh hch := ⟨rfl, _, hch, rfl, rfl⟩
  excluded hch hcoeff := ⟨hcoeff, _, hch, rfl, rfl⟩
  tuned := by
    rintro node row ⟨-, ch, hch, -⟩ hnil
    rw [hnil] at hch
    cases hch
  chCoeff h := h.1

theorem fits_current : Fits Current where
  same hsame h := hsame.trans h
  pattern _ h := h
  fresh hch := congrArg (Option.map _) hch
  excluded := by
    intro node ch old hch hcoeff
    have hrow := congrArg (Option.map (NodeRow.fresh node.config)) hch
    refine hrow.trans ?_
    simp only [Option.map_some, NodeRow.excluded, hcoeff]
    rfl
  tuned := by
    intro node row h hnil
    rw [Current, rowOf, hnil] at h
    cases h
  chCoeff := by
    rintro node row h
    obtain ⟨ch, -, hrow⟩ := Option.map_eq_some_iff.mp h
    exact (congrArg NodeRow.chCoeff hrow).symm

/-- The key of a node, its name and its row. -/
def filing (node : Node) : NodeId × String × Option NodeRow :=
  (node.config.id, node.config.name, rowOf node)

/-- No node has come or gone, and none has another row. -/
def SameFilings (C C' : Controller) : Prop :=
  ∀ id, (C'.nodeMap.lookup id).map filing = (C.nodeMap.lookup id).map filing

theorem filing_apply (p : Patterns) (node node' : Node)
    (h : node'.config = p.apply node.config) : filing node' = filing node := by
  unfold filing rowOf
  rw [h]
  unfold Patterns.apply
  split_ifs <;> rfl

theorem sameFilings_executed {o : Outside} {E : Emulator}
    {operation : Operation} {C' : Controller}
    (h : Emulator.Executed o E operation C') :
    SameFilings E.controller C' := by
  cases h with
  | nothing => exact fun _ => rfl
  | pathLoss freq plMode settings =>
      intro id
      unfold Controller.updateIntermediate
      split <;> rfl
  | defaultModel plMode settings =>
      intro id
      unfold setDefaultModel
      dsimp only
      split_ifs <;> rfl
  | shadowing std freq =>
      intro id
      cases freq with
      | none => rfl
      | some freq =>
          simp only [updateShadowing, Controller.updateIntermediate]
          split <;> rfl
  | link _ link f _ =>
      intro id
      unfold Controller.updateIntermediate
      split <;> rfl
  | mode => exact fun _ => rfl
  | antenna nodeName patterns =>
      intro id
      unfold changeAntenna
      split_ifs
      · rfl
      · rw [FiniteMap.lookup_mapEntries, Option.map_map]
        refine Option.map_congr fun node _ => ?_
        rw [Function.comp_apply, changeNode]
        split_ifs
        · exact filing_apply patterns node _ rfl
        · rfl
  | power nodeName power =>
      intro id
      unfold changeSourcePower
      split_ifs
      · rfl
      dsimp only
      split
      · rfl
      next node hnode =>
        split
        · rfl
        next chars hchars =>
          by_cases hid : id = resolveNodeId E.controller nodeName
          · subst hid
            rw [AList.lookup_insert, hnode]
            rfl
          · rw [AList.lookup_insert_ne hid]

theorem sameFilings_put {C : Controller} {id : NodeId} {node node' : Node}
    (hnode : C.nodeMap.lookup id = some node)
    (hsame : filing node' = filing node) :
    SameFilings C (C.put id node') := by
  intro id'
  rw [Controller.lookup_put]
  split_ifs with hid
  · rw [hid, hnode, Option.map_some, Option.map_some, hsame]
  · rfl

/-- A node is stored under its own id. -/
def Ids (R : Registry) : Prop :=
  FiniteMap.All (fun id node => node.config.id = id)
    R.emulator.controller.nodeMap

variable {garbled : NodeStatement → FiniteMap NodeId NodeRow →
  FiniteMap NodeId NodeRow} {r : Node → NodeRow → Prop}

theorem SameFilings.ids {C C' : Controller} (h : SameFilings C C')
    (hC : FiniteMap.All (fun id node => node.config.id = id) C.nodeMap) :
    FiniteMap.All (fun id node => node.config.id = id) C'.nodeMap := by
  intro id node' hnode'
  have hsame := h id
  rw [hnode', Option.map_some, eq_comm, Option.map_eq_some_iff] at hsame
  obtain ⟨node, hnode, hfiling⟩ := hsame
  exact (congrArg Prod.fst hfiling).symm.trans (hC id node hnode)

theorem SameFilings.mirrors {C C' : Controller} (h : SameFilings C C')
    (hr : Fits r) {t : FiniteMap NodeId NodeRow}
    (hC : FiniteMap.Mirrors id r C.nodeMap t) :
    FiniteMap.Mirrors id r C'.nodeMap t := by
  refine hC.update ?_ ?_
  · intro id
    have hsame := congrArg Option.isSome (h id)
    rw [Option.isSome_map, Option.isSome_map] at hsame
    rw [← AList.lookup_isSome, ← AList.lookup_isSome, hsame]
  · intro id node' hnode'
    have hsame := h id
    rw [hnode', Option.map_some, eq_comm, Option.map_eq_some_iff] at hsame
    obtain ⟨node, hnode, hfiling⟩ := hsame
    exact ⟨node, hnode, fun _ hrow =>
      hr.same (congrArg (fun f => f.2.2) hfiling).symm hrow⟩

/-! ## Statements on the table -/

theorem foldl_submit {statements : List NodeStatement}
    (h : ∀ s ∈ statements, s.IsRead) (t : FiniteMap NodeId NodeRow) :
    statements.foldl (NodeStatement.submit garbled) t =
      statements.foldl NodeStatement.exec t := by
  induction statements generalizing t with
  | nil => rfl
  | cons s rest ih =>
      rw [List.foldl_cons, List.foldl_cons, NodeStatement.submit,
        if_pos (h s List.mem_cons_self)]
      exact ih (fun s' hs' => h s' (List.mem_cons_of_mem _ hs')) _

/-- `AddNode` for a node that is stored under its own id. -/
theorem mirrors_persist {m : FiniteMap NodeId Node}
    {t : FiniteMap NodeId NodeRow} (hr : Fits r) (node : Node)
    (htuned : node.config.channels ≠ [])
    (hm : FiniteMap.Mirrors id r m t) :
    FiniteMap.Mirrors id r (m.insert node.config.id node)
      ((Controller.persist node).foldl NodeStatement.exec t) := by
  obtain ⟨ch, rest, hlist⟩ := List.exists_cons_of_ne_nil htuned
  have hch : node.config.channels.head? = some ch := by rw [hlist]; rfl
  unfold Controller.persist
  rw [hch]
  exact hm.upsert (fun _ _ hkey => hkey) (hr.fresh hch)
    fun _ _ _ hrow => hr.excluded hch (hr.chCoeff hrow)

/-- What a request leaves of a node whose row is not written. -/
def Silent (r : Node → NodeRow → Prop) (C : Controller) (n : NodeConfig)
    (remoteIp : String) : Prop :=
  ∀ target node, C.nodeMap.lookup n.id = some target →
    Controller.ConfigOutcome target node { n with ipAddress := remoteIp }
      C.vehicleHandlers false →
    ∀ row, r target row → r node row

theorem mirrors_handleConfig {C C' : Controller} {n : NodeConfig}
    {remoteIp : String} {now : ℤ} {response : Response}
    {t : FiniteMap NodeId NodeRow} (hr : Fits r)
    (hm : FiniteMap.Mirrors id r C.nodeMap t)
    (hsilent : Silent r C n remoteIp)
    (h : C.handleConfig n remoteIp now = some (response, C')) :
    FiniteMap.Mirrors id r C'.nodeMap
      ((C.configNodeStatements n remoteIp now).foldl NodeStatement.exec
        t) := by
  obtain ⟨target, newlyInserted, C₁, node, written, hget, hnodes, hconfigured,
    hstatements⟩ := Controller.configured_of_handleConfig h
  rw [hnodes, hstatements, List.foldl_append]
  rcases Controller.getOrCreateNode_some hget with
    ⟨hknown, rfl, rfl⟩ | ⟨-, hchannels, rfl, rfl, rfl⟩
  · have hlookup : C₁.nodeMap.lookup n.id = some target := hknown
    cases written with
    | true =>
        obtain ⟨row, -, hrow⟩ := hm.rows _ target hlookup
        have hwritten := mirrors_persist hr node
          (hconfigured.tuned (hr.tuned hrow)) hm
        rw [hconfigured.id] at hwritten
        exact hwritten
    | false =>
        exact hm.replace hlookup (hsilent target node hlookup hconfigured)
  · -- a new node is written before it is assigned, and once more after
    have hcreated := mirrors_persist hr
      (Node.create { n with ipAddress := remoteIp } now) hchannels hm
    have hwritten := mirrors_persist hr node (hconfigured.tuned hchannels)
      hcreated
    rw [hconfigured.id] at hwritten
    rw [Bool.or_true]
    exact hwritten

theorem ids_handleConfig {C C' : Controller} {n : NodeConfig}
    {remoteIp : String} {now : ℤ} {response : Response}
    (hids : FiniteMap.All (fun id node => node.config.id = id) C.nodeMap)
    (h : C.handleConfig n remoteIp now = some (response, C')) :
    FiniteMap.All (fun id node => node.config.id = id) C'.nodeMap := by
  obtain ⟨target, newlyInserted, C₁, node, written, hget, hnodes, hconfigured,
    -⟩ := Controller.configured_of_handleConfig h
  rw [hnodes]
  refine FiniteMap.All.insert ?_ hconfigured.id
  rcases Controller.getOrCreateNode_some hget with
    ⟨-, rfl, -⟩ | ⟨-, -, -, rfl, -⟩
  · exact hids
  · exact hids.insert rfl

/-- What an event other than a configuration request does to the nodes. -/
inductive Unconfigured (C : Controller) (event : Controller.Event) :
    Controller → Prop
  | same {C' : Controller} (hsame : SameFilings C C')
      (hstatements : C.nodeStatements event = []) : Unconfigured C event C'
  | removal {id : NodeId} {node : Node} {C' : Controller}
      (hnode : C.nodeMap.lookup id = some node)
      (hnodes : C'.nodeMap = C.nodeMap.erase id)
      (hstatements : C.nodeStatements event = [.deleteNode node.config]) :
      Unconfigured C event C'

/-- The test of the first branch of `nodeStatements`. -/
def IsConfig (event : Controller.Event) : Prop :=
  ∃ n remoteIp now, event = .request (.config n) remoteIp now

theorem unconfigured_of_handled {C C' : Controller} {event : Controller.Event}
    (hother : ¬IsConfig event) (h : Controller.Handled C event C') :
    Unconfigured C event C' := by
  have hevent : C.nodeStatements event = ((C.removed event).map
      fun (_, node) => [NodeStatement.deleteNode node.config]).getD [] := by
    unfold Controller.nodeStatements
    split
    · exact absurd ⟨_, _, _, rfl⟩ hother
    · rfl
  cases h with
  | nothing hnone => exact .same (fun _ => rfl) (by rw [hevent, hnone]; rfl)
  | heartbeat remoteIp now hnode =>
      exact .same (sameFilings_put hnode rfl) hevent
  | removal ipAddrMap hremoved hnode =>
      refine .removal hnode ?_ (by rw [hevent, hremoved]; rfl)
      exact Controller.nodeMap_removeNode _ _ _
  | configuration hconfig => exact absurd ⟨_, _, _, rfl⟩ hother

/-- A configuration request is handled, or the nodes change no row. -/
theorem configured_or_unconfigured {C C' : Controller}
    {event : Controller.Event} (h : C.step event = some C') :
    (∃ n remoteIp now response, event = .request (.config n) remoteIp now ∧
      C.handleConfig n remoteIp now = some (response, C')) ∨
    Unconfigured C event C' := by
  by_cases hevent : IsConfig event
  · obtain ⟨n, remoteIp, now, rfl⟩ := hevent
    obtain ⟨⟨response, C''⟩, hconfig, rfl⟩ := Option.map_eq_some_iff.mp h
    exact Or.inl ⟨n, remoteIp, now, response, rfl, hconfig⟩
  · exact Or.inr
      (unconfigured_of_handled hevent (Controller.handled_of_step h))

/-- What a request leaves of a node whose row is not written. -/
def SilentStep (r : Node → NodeRow → Prop) (R : Registry) : Event → Prop
  | .controller (.request (.config n) remoteIp _) =>
      Silent r R.emulator.controller n remoteIp
  | _ => True

theorem Unconfigured.mirrors {C C' : Controller} {event : Controller.Event}
    {t : FiniteMap NodeId NodeRow} (hr : Fits r)
    (hids : FiniteMap.All (fun id node => node.config.id = id) C.nodeMap)
    (hm : FiniteMap.Mirrors id r C.nodeMap t) (h : Unconfigured C event C') :
    FiniteMap.Mirrors id r C'.nodeMap
      ((C.nodeStatements event).foldl NodeStatement.exec t) := by
  cases h with
  | same hsame hstatements =>
      rw [hstatements]
      exact hsame.mirrors hr hm
  | removal hnode hnodes hstatements =>
      rw [hstatements, hnodes]
      have herased := hm.erase (FiniteMap.mem_iff_lookup.mpr ⟨_, hnode⟩)
      rw [← hids _ _ hnode]
      rw [← hids _ _ hnode] at herased
      exact herased

theorem mirrors_antennaStatements {m : FiniteMap NodeId Node}
    {t : FiniteMap NodeId NodeRow} (hr : Fits r) (operation : Operation)
    (hm : FiniteMap.Mirrors id r m t) :
    FiniteMap.Mirrors id r m
      ((antennaStatements operation).foldl NodeStatement.exec t) := by
  unfold antennaStatements
  split
  · split
    · exact hm
    · simp only [List.foldl_cons, List.foldl_nil, NodeStatement.exec]
      refine hm.mapRows ?_
      intro node row hrow
      split
      · exact hr.pattern _ hrow
      · exact hrow
  · exact hm

theorem Filed.step {R R' : Registry} {event : Event} (hr : Fits r)
    (hids : R.Ids) (hR : R.Filed r) (hread : R.Readable event)
    (hsilent : R.SilentStep r event)
    (h : R.step garbled event = some R') : R'.Ids ∧ R'.Filed r := by
  cases event with
  | controller event =>
      obtain ⟨C', hstep, rfl⟩ := Option.map_eq_some_iff.mp h
      rw [Ids, Filed]
      dsimp only
      rw [foldl_submit hread]
      rcases configured_or_unconfigured hstep with
        ⟨n, remoteIp, now, response, rfl, hconfig⟩ | hunconfigured
      · exact ⟨ids_handleConfig hids hconfig,
          mirrors_handleConfig hr hR hsilent hconfig⟩
      · refine ⟨?_, hunconfigured.mirrors hr hids hR⟩
        cases hunconfigured with
        | same hsame _ => exact hsame.ids hids
        | removal hnode hnodes _ =>
            rw [hnodes]
            exact hids.erase _
  | coordinator outside operation =>
      obtain ⟨⟨reply, E'⟩, hexecute, rfl⟩ := Option.map_eq_some_iff.mp h
      have hsame := sameFilings_executed (Emulator.executed_of_execute hexecute)
      refine ⟨hsame.ids hids, ?_⟩
      rw [Filed]
      dsimp only
      rw [foldl_submit hread]
      refine hsame.mirrors hr ?_
      cases hok : outside.dbOk with
      | true =>
          have hall : R.statements (.coordinator outside operation) =
              antennaStatements operation :=
            List.filter_eq_self.mpr fun s _ => by rw [hok, Bool.true_or]
          rw [hall]
          exact mirrors_antennaStatements hr operation hR
      | false =>
          -- a statement that is left could not be read as it is meant
          have hnone : R.statements (.coordinator outside operation) = [] := by
            rw [List.eq_nil_iff_forall_not_mem]
            intro s hs
            have hunread := (List.mem_filter.mp hs).2
            rw [hok, Bool.false_or, Bool.not_eq_true',
              decide_eq_false_iff_not] at hunread
            exact hunread (hread s hs)
          rw [hnone]
          exact hR

theorem mirrors_start (r : Node → NodeRow → Prop) (sandbox hasConfig : Bool) :
    (start sandbox hasConfig).Ids ∧ (start sandbox hasConfig).Filed r :=
  ⟨FiniteMap.all_empty, FiniteMap.Mirrors.empty⟩

/-! ## The frequencies -/

theorem silent_tuned (C : Controller) (n : NodeConfig) (remoteIp : String) :
    Silent Tuned C n remoteIp := by
  rintro target node - hconfigured row ⟨hcoeff, ch, hch, htx, hrx⟩
  refine ⟨hcoeff, ch, ?_, htx, hrx⟩
  rw [hconfigured.channels rfl, hch]

theorem silentStep_tuned (R : Registry) (event : Event) :
    R.SilentStep Tuned event := by
  unfold SilentStep
  split
  · exact silent_tuned _ _ _
  · trivial

theorem step_tuned {R R' : Registry} {event : Event}
    (hR : R.Ids ∧ R.Filed Tuned) (hread : R.Readable event)
    (h : R.step garbled event = some R') : R'.Ids ∧ R'.Filed Tuned :=
  Filed.step fits_tuned hR.1 hR.2 hread (silentStep_tuned R event) h

/-- A row is there exactly as long as its node is, and has its frequencies. -/
theorem Filed.rowsTuned {R : Registry} (h : R.Filed Tuned) : R.RowsTuned := by
  refine ⟨fun id => ⟨?_, ?_⟩, h.rows⟩
  · intro hrow
    obtain ⟨_, hnode, rfl⟩ := h.owned id hrow
    exact hnode
  · intro hnode
    obtain ⟨node, hlookup⟩ := FiniteMap.mem_iff_lookup.mp hnode
    obtain ⟨row, hrow, -⟩ := h.rows id node hlookup
    exact FiniteMap.mem_iff_lookup.mpr ⟨row, hrow⟩

/-- As long as SQLite reads every statement as it is meant, the rows are those
of the nodes, with their frequencies. -/
theorem rowsTuned_run (garbled : NodeStatement → FiniteMap NodeId NodeRow →
      FiniteMap NodeId NodeRow) (sandbox hasConfig : Bool)
    {events : List Event}
    (hread : EveryStep (step garbled) Readable (start sandbox hasConfig)
      events) :
    EveryState (step garbled) RowsTuned (start sandbox hasConfig) events :=
  (everyState_of_everyStep (fun _ _ _ hR hQ h => step_tuned hR hQ h)
    (mirrors_start Tuned sandbox hasConfig) hread).imp
    fun _ hR => hR.2.rowsTuned

/-! ## The other columns -/

/-- A request for a known node is written, or has nothing to write. -/
def KeepsRecord (R : Registry) : Event → Prop
  | .controller (.request (.config n) remoteIp _) =>
      let C := R.emulator.controller
      ∀ target, C.nodeMap.lookup n.id = some target →
        (n.channels.head?.any fun ch =>
          Controller.moves .uplink target ch ||
            Controller.moves .downlink target ch) = false →
        n.name = target.config.name ∧
        n.numChannels = target.config.numChannels ∧
        (n.channels ≠ [] →
          columnValue n.sampleRate.txRate =
            columnValue target.config.sampleRate.txRate ∧
          columnValue n.sampleRate.rxRate =
            columnValue target.config.sampleRate.rxRate) ∧
        ∀ address, { n with ipAddress := remoteIp }.storedAddress
          C.vehicleHandlers = some address →
          address = target.config.vehicleAddress
  | _ => True

instance decidableKeepsRecord (R : Registry) :
    ∀ event, Decidable (R.KeepsRecord event)
  | .controller (.request (.config n) remoteIp _) => by
      unfold KeepsRecord
      infer_instance
  | .controller (.request .malformed _ _) => isTrue trivial
  | .controller (.request .illTyped _ _) => isTrue trivial
  | .controller (.request (.heartbeat _) _ _) => isTrue trivial
  | .controller (.request (.disconnect _) _ _) => isTrue trivial
  | .controller (.checkTimeout _ _) => isTrue trivial
  | .coordinator _ _ => isTrue trivial

/-- The columns of the two nodes are the same. -/
theorem rowOf_eq_iff {target node : Node} {n : NodeConfig}
    {handlers : VehicleHandlers}
    (htuned : target.config.channels ≠ [])
    (h : Controller.ConfigOutcome target node n handlers false) :
    rowOf node = rowOf target ↔
      n.name = target.config.name ∧
      n.numChannels = target.config.numChannels ∧
      (n.channels ≠ [] →
        columnValue n.sampleRate.txRate =
          columnValue target.config.sampleRate.txRate ∧
        columnValue n.sampleRate.rxRate =
          columnValue target.config.sampleRate.rxRate) ∧
      ∀ address, n.storedAddress handlers = some address →
        address = target.config.vehicleAddress := by
  obtain ⟨ch, rest, hlist⟩ := List.exists_cons_of_ne_nil htuned
  have hcount : n.numChannels.toNat = target.config.numChannels.toNat ↔
      n.numChannels = target.config.numChannels := UInt8.toNat_inj
  have haddress : (n.storedAddress handlers).getD
        target.config.vehicleAddress = target.config.vehicleAddress ↔
      ∀ address, n.storedAddress handlers = some address →
        address = target.config.vehicleAddress := by
    cases n.storedAddress handlers <;> simp
  have hrates : columnValue node.config.sampleRate.txRate =
        columnValue target.config.sampleRate.txRate ∧
      columnValue node.config.sampleRate.rxRate =
        columnValue target.config.sampleRate.rxRate ↔
      (n.channels ≠ [] →
        columnValue n.sampleRate.txRate =
          columnValue target.config.sampleRate.txRate ∧
        columnValue n.sampleRate.rxRate =
          columnValue target.config.sampleRate.rxRate) := by
    rw [h.sampleRate rfl]
    split_ifs with hnil <;> simp [hnil]
  unfold rowOf
  rw [h.channels rfl, hlist, List.head?_cons, Option.map_some,
    Option.map_some, Option.some.injEq]
  simp only [NodeRow.fresh, NodeRow.mk.injEq, true_and, and_true, h.name,
    h.numChannels, h.vehicleAddress, hcount, haddress, ← hrates]
  tauto

theorem still_of_any {n : NodeConfig} {target : Node}
    (h : (n.channels.head?.any fun ch =>
      Controller.moves .uplink target ch ||
        Controller.moves .downlink target ch) = false) :
    ∀ ch, n.channels.head? = some ch → ∀ dir,
      Controller.moves dir target ch = false := by
  intro ch hch dir
  rw [hch, Option.any_some, Bool.or_eq_false_iff] at h
  cases dir
  · exact h.1
  · exact h.2

theorem Filed.tuned {R : Registry} (hR : R.Filed Tuned) {id : NodeId}
    {node : Node} (hnode : R.emulator.controller.nodeMap.lookup id =
      some node) : node.config.channels ≠ [] := by
  obtain ⟨row, -, hrow⟩ := hR.rows id node hnode
  exact fits_tuned.tuned hrow

/-- A request that fails moves something. -/
theorem keepsRecord_of_fail {R : Registry} {event : Event}
    (hR : R.Filed Tuned) (h : R.step garbled event = none) :
    R.KeepsRecord event := by
  unfold KeepsRecord
  split
  · next n remoteIp now =>
      intro C target hknown hstill
      have hsome := Controller.isSome_handleConfig_of_still hknown
        (hR.tuned hknown) (still_of_any hstill) remoteIp now
      have hnone : R.emulator.controller.handleConfig n remoteIp now =
          none := by
        simp only [step, Option.map_eq_none_iff] at h
        exact Option.map_eq_none_iff.mp h
      rw [hnone] at hsome
      cases hsome
  · trivial

theorem silentStep_current {R : Registry} {event : Event}
    (hR : R.Filed Tuned) (h : R.KeepsRecord event) :
    R.SilentStep Current event := by
  unfold SilentStep
  split
  · next n remoteIp now =>
      intro target node hknown hconfigured row hrow
      refine fits_current.same ?_ hrow
      exact (rowOf_eq_iff (hR.tuned hknown) hconfigured).mpr
        (h target hknown hconfigured.written_eq.symm)
  · trivial

/-- If the rows are still current, a request had nothing to write to a row that
it has not written. -/
theorem keepsRecord_of_current {R R' : Registry} {event : Event}
    (hR : R.Filed Tuned) (hcurrent : R.RowsCurrent)
    (hafter : R'.RowsCurrent) (h : R.step garbled event = some R') :
    R.KeepsRecord event := by
  unfold KeepsRecord
  split
  · next n remoteIp now =>
      intro C target hknown hstill
      obtain ⟨C', hstep, rfl⟩ := Option.map_eq_some_iff.mp h
      obtain ⟨⟨response, C''⟩, hconfig, rfl⟩ := Option.map_eq_some_iff.mp hstep
      obtain ⟨target', newlyInserted, C₁, node, written, hget, hnodes,
        hconfigured, hstatements⟩ :=
        Controller.configured_of_handleConfig hconfig
      rcases Controller.getOrCreateNode_some hget with
        ⟨hlookup, rfl, rfl⟩ | ⟨hunknown, -⟩
      · cases hknown.symm.trans hlookup
        have hwritten : written = false :=
          hconfigured.written_eq.trans hstill
        subst hwritten
        refine (rowOf_eq_iff (hR.tuned hknown) hconfigured).mp ?_
        have hnone : R.statements
            (.controller (.request (.config n) remoteIp now)) = [] :=
          hstatements
        obtain ⟨row, hrow, hold⟩ := hcurrent _ _ hknown
        obtain ⟨row', hrow', hnew⟩ := hafter n.id node (by
          dsimp only
          rw [hnodes, AList.lookup_insert])
        dsimp only at hrow'
        rw [hnone] at hrow'
        cases hrow.symm.trans hrow'
        exact hnew.trans hold.symm
      · cases hknown.symm.trans hunknown
  · trivial

theorem rowsCurrent_step_iff {R R' : Registry} {event : Event}
    (hR : R.Ids ∧ R.Filed Tuned) (hread : R.Readable event)
    (hcurrent : R.RowsCurrent) (h : R.step garbled event = some R') :
    R'.RowsCurrent ↔ R.KeepsRecord event := by
  refine ⟨fun hafter => keepsRecord_of_current hR.2 hcurrent hafter h, ?_⟩
  intro hkeeps
  have hfiled : R.Filed Current := ⟨hR.2.distinct, hR.2.owned, hcurrent⟩
  exact (Filed.step fits_current hR.1 hfiled hread
    (silentStep_current hR.2 hkeeps) h).2.rows

/-- As long as SQLite reads every statement as it is meant, every row is the
one that `AddNode` would write for its node exactly when no request that is
answered as redundant has had something to write. -/
theorem rowsCurrent_iff_keepsRecord
    (garbled : NodeStatement → FiniteMap NodeId NodeRow →
      FiniteMap NodeId NodeRow) (sandbox hasConfig : Bool)
    {events : List Event}
    (hread : EveryStep (step garbled) Readable (start sandbox hasConfig)
      events) :
    EveryState (step garbled) RowsCurrent (start sandbox hasConfig) events ↔
      EveryStep (step garbled) KeepsRecord (start sandbox hasConfig) events :=
  everyState_iff_everyStep_of (fun _ _ _ hR hQ h => step_tuned hR hQ h)
    (fun _ _ _ hR hS hP h => rowsCurrent_step_iff hR hS hP h)
    (fun _ _ hR h => keepsRecord_of_fail hR.2 h)
    (mirrors_start Tuned sandbox hasConfig) FiniteMap.all_empty hread

/-- A node registers, gets another antenna and moves, and leaves. -/
def shortVisit : List Event :=
  [.controller (.request (.config
      (Controller.plainConfig "n" 2400000000 2500000000)) "10.0.0.1" 0),
    .coordinator { Outside.nothing with dbOk := true }
      (.chgAntenna "n" ⟨"", "", "RM_WB1"⟩),
    .controller (.request (.config
      (Controller.plainConfig "n" 2450000000 2500000000)) "10.0.0.1" 1),
    .controller (.request (.disconnect "n") "10.0.0.1" 2)]

theorem rowsTuned_shortVisit :
    EveryState (step fun _ t => t) RowsTuned (start false false) shortVisit :=
  rowsTuned_run (fun _ t => t) false false (by decide +kernel)

/-- The second request says only that the node has another name. -/
def renamed : List Event :=
  [.controller (.request (.config
      (Controller.plainConfig "n" 2400000000 2500000000)) "10.0.0.1" 0),
    .controller (.request (.config
      { Controller.plainConfig "n" 2400000000 2500000000 with
        name := "m" }) "10.0.0.1" 1)]

theorem rowsCurrent_shortVisit_not_renamed :
    EveryState (step fun _ t => t) RowsCurrent (start false false)
      shortVisit ∧
    ¬EveryState (step fun _ t => t) RowsCurrent (start false false) renamed :=
  ⟨(rowsCurrent_iff_keepsRecord (fun _ t => t) false false
      (by decide +kernel)).mpr (by decide +kernel),
    fun h => absurd ((rowsCurrent_iff_keepsRecord (fun _ t => t) false false
      (by decide +kernel)).mp h) (by decide +kernel)⟩

end Registry

end Chem
