import ChemEmulator.Node.NodeTable

/-!
# The two views of the channels

`GET_CHANNELS` reports the rows of the table `channels`, and `GET_IND_CHANNELS`
the links of the intermediates.  The commands that change the model of an
intermediate do not write to the table.

`sqlite3_exec` runs every statement in a text.  The texts for the table of nodes
quote strings of the client, so that one which is not read as it is meant may
hold statements for the table of channels as well.  What it does there is a
parameter.
-/

namespace Chem

open PartialRuns

/-! ## Texts -/

/-- A text that is handed to `sqlite3_exec`. -/
inductive SqlText where
  | channel (s : ChannelStatement)
  | node (s : NodeStatement)

namespace SqlText

/-- SQLite reads the text as it is meant.  The only literal of a text for the
table of channels is the name of a model. -/
def IsRead : SqlText → Prop
  | channel _ => True
  | node s => s.IsRead

instance : ∀ text : SqlText, Decidable text.IsRead
  | channel _ => isTrue trivial
  | node s => inferInstanceAs (Decidable s.IsRead)

/-- What a text does to the table of channels. -/
def submit (garbled : NodeStatement → FiniteMap ℚ ChannelRow →
    FiniteMap ℚ ChannelRow) (table : FiniteMap ℚ ChannelRow) :
    SqlText → FiniteMap ℚ ChannelRow
  | channel s => s.exec table
  | node s => if s.IsRead then table else garbled s table

/-- The statement of a text, if it is one for the table of channels. -/
def channelPart : SqlText → Option ChannelStatement
  | channel s => some s
  | node _ => none

/-- Texts that are read as they are meant do what their statements for the
table say. -/
theorem foldl_submit {garbled : NodeStatement → FiniteMap ℚ ChannelRow →
    FiniteMap ℚ ChannelRow} {texts : List SqlText}
    (h : ∀ text ∈ texts, text.IsRead) (table : FiniteMap ℚ ChannelRow) :
    texts.foldl (submit garbled) table =
      execAll (texts.filterMap channelPart) table := by
  induction texts generalizing table with
  | nil => rfl
  | cons text rest ih =>
      obtain ⟨hread, hrest⟩ := List.forall_mem_cons.mp h
      rw [List.foldl_cons, ih hrest]
      cases text with
      | channel s => rfl
      | node s =>
          have hmeant : s.IsRead := hread
          rw [submit, if_pos hmeant]
          rfl

theorem filterMap_channel (statements : List ChannelStatement) :
    (statements.map channel).filterMap channelPart = statements := by
  rw [List.filterMap_map]
  exact List.filterMap_some

theorem filterMap_node (statements : List NodeStatement) :
    (statements.map node).filterMap channelPart = [] := by
  rw [List.filterMap_map]
  exact List.filterMap_eq_nil_iff.mpr fun _ _ => rfl

end SqlText

namespace Controller

/-- The texts of a configuration request, in the order of the source. -/
def configTexts (C : Controller) (nodeConfig : NodeConfig)
    (remoteIp : String) (now : ℤ) : List SqlText :=
  let nodeConfig := { nodeConfig with ipAddress := remoteIp }
  match C.getOrCreateNode (Node.create nodeConfig now) with
  | none => []
  | some (target, newlyInserted, C) =>
      let r := target.refreshFromConfig nodeConfig C.vehicleHandlers
      let C := { C with vehicleHandlers := r.handlers }
      (if newlyInserted then persist target else []).map .node ++
        ((assignStatements .uplink C r.node r.request).map .channel ++
          match C.assignULChannel r.node r.request with
          | none => []
          | some (createdUL, C, node) =>
              (assignStatements .downlink C node r.request).map .channel ++
                match C.assignDLChannel node r.request with
                | none => []
                | some (createdDL, _, node) =>
                    (if !(createdUL || createdDL) && !newlyInserted then []
                      else persist node).map .node)

/-- The texts that an event hands over. -/
def texts (C : Controller) : Event → List SqlText
  | .request (.config nodeConfig) remoteIp now =>
      C.configTexts nodeConfig remoteIp now
  | event => ((C.removed event).map fun (_, node) =>
      (C.removalStatements node).map .channel ++
        [.node (.deleteNode node.config)]).getD []

theorem filterMap_configTexts (C : Controller) (n : NodeConfig)
    (remoteIp : String) (now : ℤ) :
    (C.configTexts n remoteIp now).filterMap SqlText.channelPart =
      C.configStatements n remoteIp now := by
  unfold configTexts configStatements
  dsimp only
  generalize C.getOrCreateNode
    (Node.create { n with ipAddress := remoteIp } now) = result
  rcases result with _ | ⟨target, newlyInserted, C₁⟩
  · rfl
  dsimp only
  generalize target.refreshFromConfig { n with ipAddress := remoteIp }
    C₁.vehicleHandlers = r
  rw [List.filterMap_append, SqlText.filterMap_node, List.nil_append,
    List.filterMap_append, SqlText.filterMap_channel]
  generalize assignULChannel _ r.node r.request = uplink
  rcases uplink with _ | ⟨createdUL, C₂, node⟩
  · rfl
  dsimp only
  rw [List.filterMap_append, SqlText.filterMap_channel]
  generalize assignDLChannel C₂ node r.request = downlink
  rcases downlink with _ | ⟨createdDL, C₃, node⟩
  · rw [List.filterMap_nil, List.append_nil]
  · rw [SqlText.filterMap_node, List.append_nil]

/-- `AddChannel` and `DeleteChannel` are the rest of what is written. -/
theorem filterMap_texts (C : Controller) (event : Event) :
    (C.texts event).filterMap SqlText.channelPart =
      C.channelStatements event := by
  have hremoved : ∀ event : Event,
      (((C.removed event).map fun (_, node) =>
        (C.removalStatements node).map SqlText.channel ++
          [.node (.deleteNode node.config)]).getD []).filterMap
        SqlText.channelPart =
      ((C.removed event).map fun (_, node) =>
        C.removalStatements node).getD [] := by
    intro event
    rcases C.removed event with _ | ⟨id, node⟩
    · rfl
    · simp only [Option.map_some, Option.getD_some, List.filterMap_append,
        SqlText.filterMap_channel]
      exact List.append_nil _
  cases event with
  | checkTimeout id now => exact hremoved (.checkTimeout id now)
  | request request remoteIp now =>
      cases request with
      | config n => exact C.filterMap_configTexts n remoteIp now
      | malformed => exact hremoved (.request .malformed remoteIp now)
      | illTyped => exact hremoved (.request .illTyped remoteIp now)
      | heartbeat id => exact hremoved (.request (.heartbeat id) remoteIp now)
      | disconnect id =>
          exact hremoved (.request (.disconnect id) remoteIp now)

/-! ## Reports -/

/-- The name under which `GET_IND_CHANNELS` reports an end of a link.  The
search for a node of that name returns what it was given. -/
def resolveName (C : Controller) (id : NodeId) : String :=
  match C.nodeMap.lookup id with
  | none => id
  | some node => if node.config.name.isEmpty then id else node.config.name

/-- The link has a pair of ports, and its ends have different names. -/
def Reports (C : Controller) (ch : Channel) : Prop :=
  C.resolveName ch.source ≠ C.resolveName ch.dest ∧
    0 < ch.txNumCh.toNat * ch.rxNumCh.toNat

/-- The `pathLoss` of the entries for an intermediate: one for each pair of
ports of its links. -/
def reportedPathLosses (C : Controller) (I : Intermediate) : List String :=
  (FiniteMap.values I.channelMap).flatMap fun ch =>
    if C.resolveName ch.source = C.resolveName ch.dest then []
    else List.replicate (ch.txNumCh.toNat * ch.rxNumCh.toNat) I.pathLossStr

theorem mem_reportedPathLosses {C : Controller} {I : Intermediate}
    {pathLoss : String} :
    pathLoss ∈ C.reportedPathLosses I ↔ pathLoss = I.pathLossStr ∧
      ∃ k ch, I.channelMap.lookup k = some ch ∧ C.Reports ch := by
  rw [reportedPathLosses, List.mem_flatMap]
  constructor
  · rintro ⟨ch, hch, hmem⟩
    obtain ⟨k, hk⟩ := FiniteMap.mem_values_iff.mp hch
    split_ifs at hmem with hself
    · cases hmem
    · obtain ⟨hports, rfl⟩ := List.mem_replicate.mp hmem
      exact ⟨rfl, k, ch, hk, hself, Nat.pos_of_ne_zero hports⟩
  · rintro ⟨rfl, k, ch, hk, hself, hports⟩
    refine ⟨ch, FiniteMap.mem_values_iff.mpr ⟨k, hk⟩, ?_⟩
    rw [if_neg hself]
    exact List.mem_replicate.mpr ⟨hports.ne', rfl⟩

end Controller

/-! ## Requests and commands -/

namespace Recorded

open Coordinator

variable (garbled : NodeStatement → FiniteMap ℚ ChannelRow →
  FiniteMap ℚ ChannelRow)

/-- The texts of a request or a command. -/
def texts (R : Recorded) : Event → List SqlText
  | .controller event => R.emulator.controller.texts event
  | .coordinator _ operation => (antennaStatements operation).map .node

def step (R : Recorded) (event : Event) : Option Recorded :=
  let channels := (R.texts event).foldl (SqlText.submit garbled) R.channels
  match event with
  | .controller event =>
      (R.emulator.controller.step event).map fun C =>
        ⟨{ R.emulator with controller := C }, channels⟩
  | .coordinator outside operation =>
      (execute outside R.emulator operation).map fun (_, E) => ⟨E, channels⟩

/-- Every intermediate has a row, with the model that is reported for its
links. -/
def RowsAgree (R : Recorded) : Prop :=
  FiniteMap.All (fun freq I => ∃ row,
    R.channels.lookup (rowKey freq) = some row ∧
      ∀ pathLoss ∈ R.emulator.controller.reportedPathLosses I,
        row.pathLoss = pathLoss)
    R.emulator.controller.intermediateMap

/-- Every intermediate has a row with its model, whether it has links or
not. -/
def RowsFit (R : Recorded) : Prop :=
  FiniteMap.All (fun freq I => ∃ row,
    R.channels.lookup (rowKey freq) = some row ∧ row.pathLoss = I.pathLossStr)
    R.emulator.controller.intermediateMap

theorem RowsFit.rowsAgree {R : Recorded} (h : R.RowsFit) : R.RowsAgree := by
  intro freq I hI
  obtain ⟨row, hrow, hfits⟩ := h freq I hI
  refine ⟨row, hrow, fun pathLoss hreported => ?_⟩
  rw [hfits, (Controller.mem_reportedPathLosses.mp hreported).1]

/-- The frequencies that a request brings have rows of their own. -/
def SeparateRows (R : Recorded) : Event → Prop
  | .controller (.request (.config n) _ _) =>
      ∀ ch, n.channels.head? = some ch → R.emulator.controller.OwnRows ch
  | _ => True

/-- The rows are separate, and SQLite reads every text as it is meant. -/
def Tidy (R : Recorded) (event : Event) : Prop :=
  R.SeparateRows event ∧ ∀ text ∈ R.texts event, text.IsRead

/-- The model that a command gives to the intermediate of a frequency. -/
def newModel : Operation → ℚ → Option PropagationModel
  | .chgPl freq plMode _, k =>
      if k = freq then some (propagationModelFromString plMode) else none
  | .setDefaultPl plMode _, _ =>
      if propagationModelFromString plMode = .unknown then none
      else some (propagationModelFromString plMode)
  | _, _ => none

/-- A command gives no intermediate another model than it has. -/
def KeepsModels (R : Recorded) : Event → Prop
  | .coordinator _ operation =>
      FiniteMap.All (fun freq I => ∀ model,
        newModel operation freq = some model → model = I.propagationModel)
        R.emulator.controller.intermediateMap
  | .controller _ => True

/-- The same for the intermediates whose links are reported. -/
def KeepsReported (R : Recorded) : Event → Prop
  | .coordinator _ operation =>
      FiniteMap.All (fun freq I =>
        R.emulator.controller.reportedPathLosses I ≠ [] → ∀ model,
          newModel operation freq = some model → model = I.propagationModel)
        R.emulator.controller.intermediateMap
  | .controller _ => True

/-! ## What a command does to the models -/

theorem propagationModel_applyModel (plMode : String) (settings : PlSettings)
    (I : Intermediate) :
    (applyModel plMode settings I).propagationModel =
      propagationModelFromString plMode := by
  simp only [applyModel, Intermediate.set3gppScenario,
    Intermediate.setHataEnvironment]
  split_ifs <;> rfl

theorem newModel_of_not_retunes {operation : Operation}
    (h : Emulator.retunes operation = false) (freq : ℚ) :
    newModel operation freq = none := by
  cases operation with
  | chgPl => cases h
  | setDefaultPl => cases h
  | _ => rfl

/-- The commands for nodes leave the intermediates and the defaults. -/
theorem changeAntenna_intermediates (C : Controller) (dbOk : Bool)
    (node : String) (p : Patterns) :
    (changeAntenna C dbOk node p).2.intermediateMap = C.intermediateMap ∧
      (changeAntenna C dbOk node p).2.defaultModel = C.defaultModel := by
  unfold changeAntenna
  split_ifs <;> exact ⟨rfl, rfl⟩

theorem changeSourcePower_intermediates (C : Controller) (node : String)
    (power : Option ℚ) :
    (changeSourcePower C node power).2.intermediateMap = C.intermediateMap ∧
      (changeSourcePower C node power).2.defaultModel = C.defaultModel := by
  unfold changeSourcePower
  split_ifs
  · exact ⟨rfl, rfl⟩
  · dsimp only
    split
    · exact ⟨rfl, rfl⟩
    · split <;> exact ⟨rfl, rfl⟩

/-- An intermediate has the model that the command gives it, or its own. -/
theorem models_executed {o : Outside} {E : Emulator} {operation : Operation}
    {C' : Controller} (h : Emulator.Executed o E operation C') (freq : ℚ) :
    (C'.intermediateMap.lookup freq).map Intermediate.propagationModel =
      (E.controller.intermediateMap.lookup freq).map fun I =>
        (newModel operation freq).getD I.propagationModel := by
  cases h with
  | nothing hother => rw [newModel_of_not_retunes hother]; rfl
  | antenna node patterns =>
      rw [(changeAntenna_intermediates _ _ _ _).1]
      rfl
  | power node power =>
      rw [(changeSourcePower_intermediates _ _ _).1]
      rfl
  | pathLoss freq' plMode settings =>
      rw [Controller.lookup_updateIntermediate, Option.map_map, newModel]
      by_cases hfreq : freq = freq'
      · simp [hfreq, Function.comp_def, propagationModel_applyModel]
      · simp [hfreq]
  | defaultModel plMode settings =>
      simp only [setDefaultModel, newModel]
      split_ifs
      · simp
      · simp [FiniteMap.lookup_mapValues, Function.comp_def,
          propagationModel_applyModel]
  | shadowing std freq' =>
      cases freq' with
      | none =>
          simp only [updateShadowing, newModel, FiniteMap.lookup_mapValues,
            Option.map_map]
          rfl
      | some freq' =>
          simp only [updateShadowing, newModel,
            Controller.lookup_updateIntermediate, Option.map_map]
          split_ifs <;> rfl
  | link hother link f _ =>
      rw [newModel_of_not_retunes hother,
        Controller.lookup_updateIntermediate, Option.map_map]
      split_ifs <;> rfl
  | mode => rfl

/-- The default model stays a known one. -/
theorem known_executed {o : Outside} {E : Emulator} {operation : Operation}
    {C' : Controller} (h : Emulator.Executed o E operation C')
    (hknown : E.controller.defaultModel ≠ .unknown) :
    C'.defaultModel ≠ .unknown := by
  cases h with
  | nothing => exact hknown
  | antenna node patterns =>
      rw [(changeAntenna_intermediates _ _ _ _).2]
      exact hknown
  | power node power =>
      rw [(changeSourcePower_intermediates _ _ _).2]
      exact hknown
  | pathLoss freq plMode settings =>
      rw [(Controller.onlyChannels_updateIntermediate _ _ _).defaultModel]
      exact hknown
  | defaultModel plMode settings =>
      simp only [setDefaultModel]
      split_ifs with hunknown
      · exact hknown
      · unfold Controller.defaultModel
        cases E.controller.propagationDefaults with
        | none => simp
        | some d => exact hunknown
  | shadowing std freq =>
      cases freq with
      | none => exact hknown
      | some freq =>
          simp only [updateShadowing]
          rw [(Controller.onlyChannels_updateIntermediate _ _ _).defaultModel]
          exact hknown
  | link _ link f _ =>
      rw [(Controller.onlyChannels_updateIntermediate _ _ _).defaultModel]
      exact hknown
  | mode => exact hknown

/-! ## What a command does to the reports -/

theorem resolveName_of_sameFilings {C C' : Controller}
    (h : Registry.SameFilings C C') (id : NodeId) :
    C'.resolveName id = C.resolveName id := by
  have hsame := h id
  rw [Controller.resolveName, Controller.resolveName]
  cases hC' : C'.nodeMap.lookup id with
  | none =>
      rw [hC', Option.map_none, eq_comm, Option.map_eq_none_iff] at hsame
      rw [hsame]
  | some node' =>
      rw [hC', Option.map_some, eq_comm, Option.map_eq_some_iff] at hsame
      obtain ⟨node, hnode, hfiling⟩ := hsame
      have hname : node.config.name = node'.config.name :=
        congrArg (fun f => f.2.1) hfiling
      rw [hnode]
      dsimp only
      rw [hname]

/-- A command does not decide which links are reported. -/
theorem reported_of_executed {o : Outside} {E : Emulator}
    {operation : Operation} {C' : Controller}
    (h : Emulator.Executed o E operation C') {I J : Intermediate}
    (hretuned : I.Retuned J)
    (hreported : E.controller.reportedPathLosses I ≠ []) :
    J.pathLossStr ∈ C'.reportedPathLosses J := by
  obtain ⟨pathLoss, hmem⟩ := List.exists_mem_of_ne_nil _ hreported
  obtain ⟨-, k, ch, hch, hself, hports⟩ :=
    Controller.mem_reportedPathLosses.mp hmem
  have hwiring := hretuned.links k
  rw [hch, Option.map_some, Option.map_eq_some_iff] at hwiring
  obtain ⟨ch', hch', hsame⟩ := hwiring
  have hsource : ch'.source = ch.source := congrArg (fun w => w.1.1) hsame
  have hdest : ch'.dest = ch.dest := congrArg (fun w => w.1.2) hsame
  have htx : ch'.txNumCh = ch.txNumCh := congrArg (fun w => w.2.1) hsame
  have hrx : ch'.rxNumCh = ch.rxNumCh := congrArg (fun w => w.2.2) hsame
  refine Controller.mem_reportedPathLosses.mpr ⟨rfl, k, ch', hch', ?_, ?_⟩
  · have hfilings := Registry.sameFilings_executed h
    rw [resolveName_of_sameFilings hfilings,
      resolveName_of_sameFilings hfilings, hsource, hdest]
    exact hself
  · rw [htx, hrx]
    exact hports

/-! ## Runs -/

/-- Every intermediate has a row of its own, whatever it says. -/
structure Filed (R : Recorded) : Prop where
  keys : R.emulator.controller.KeysMatch
  known : R.emulator.controller.defaultModel ≠ .unknown
  tabled : R.emulator.controller.Tabled (fun _ _ => True) R.channels

theorem filed_start (sandbox hasConfig : Bool) :
    (start sandbox hasConfig).Filed where
  keys := FiniteMap.all_empty
  known := nofun
  tabled := FiniteMap.Mirrors.empty

/-- With a row for every intermediate, the rows fit if each of them does. -/
theorem Filed.tabled_of_rowsFit {R : Recorded} (hR : R.Filed)
    (hfit : R.RowsFit) :
    R.emulator.controller.Tabled (fun I row => row.pathLoss = I.pathLossStr)
      R.channels :=
  ⟨hR.tabled.distinct, hR.tabled.owned, hfit⟩

theorem ownRows_of_separateRows {R : Recorded} {event : Controller.Event}
    (h : R.SeparateRows (.controller event)) (n : NodeConfig)
    (remoteIp : String) (now : ℤ)
    (hevent : event = .request (.config n) remoteIp now) (ch : Usrp.Channel)
    (hch : n.channels.head? = some ch) :
    R.emulator.controller.OwnRows ch := by
  subst hevent
  exact h ch hch

variable {garbled : NodeStatement → FiniteMap ℚ ChannelRow →
  FiniteMap ℚ ChannelRow}

/-- A request whose texts are read as they are meant. -/
theorem controller_step {R R' : Recorded} {event : Controller.Event}
    (htidy : R.Tidy (.controller event))
    (h : R.step garbled (.controller event) = some R') :
    ∃ C', R.emulator.controller.step event = some C' ∧
      R' = ⟨{ R.emulator with controller := C' }, execAll
        (R.emulator.controller.channelStatements event) R.channels⟩ := by
  obtain ⟨C', hstep, rfl⟩ := Option.map_eq_some_iff.mp h
  refine ⟨C', hstep, ?_⟩
  rw [SqlText.foldl_submit htidy.2, texts, Controller.filterMap_texts]

/-- A command whose text is read as it is meant leaves the table. -/
theorem coordinator_step {R R' : Recorded} {o : Outside}
    {operation : Operation} (htidy : R.Tidy (.coordinator o operation))
    (h : R.step garbled (.coordinator o operation) = some R') :
    Emulator.Executed o R.emulator operation R'.emulator.controller ∧
      R'.channels = R.channels := by
  obtain ⟨⟨reply, E'⟩, hexecute, rfl⟩ := Option.map_eq_some_iff.mp h
  refine ⟨Emulator.executed_of_execute hexecute, ?_⟩
  rw [SqlText.foldl_submit htidy.2, texts, SqlText.filterMap_node]
  rfl

theorem Filed.step {R R' : Recorded} {event : Event} (hR : R.Filed)
    (htidy : R.Tidy event) (h : R.step garbled event = some R') :
    R'.Filed := by
  cases event with
  | controller event =>
      obtain ⟨C', hstep, rfl⟩ := controller_step htidy h
      refine ⟨(Controller.kept_freq _).step hR.keys hstep, ?_, ?_⟩
      · rw [Controller.defaultModel_step hstep]
        exact hR.known
      · exact hR.tabled.step Controller.fits_true hR.keys hR.known
          (ownRows_of_separateRows htidy.1) hstep
  | coordinator outside operation =>
      obtain ⟨hexecuted, hchannels⟩ := coordinator_step htidy h
      refine ⟨?_, known_executed hexecuted hR.known, ?_⟩
      · intro freq J hJ
        obtain ⟨I, hI, hretuned⟩ :=
          hexecuted.managed.intermediates freq J hJ
        exact hretuned.freq.trans (hR.keys freq I hI)
      · rw [hchannels]
        refine FiniteMap.Mirrors.update hR.tabled ?_ ?_
        · intro freq
          have hsame := congrArg Option.isSome (models_executed hexecuted freq)
          rw [Option.isSome_map, Option.isSome_map] at hsame
          rw [← AList.lookup_isSome, ← AList.lookup_isSome, hsame]
        · intro freq J hJ
          obtain ⟨I, hI, -⟩ := hexecuted.managed.intermediates freq J hJ
          exact ⟨I, hI, fun _ _ => trivial⟩

/-- A step that keeps the models keeps the rows fitting. -/
theorem RowsFit.step {R R' : Recorded} {event : Event} (hR : R.Filed)
    (hfit : R.RowsFit) (htidy : R.Tidy event) (hkeeps : R.KeepsModels event)
    (h : R.step garbled event = some R') : R'.RowsFit := by
  cases event with
  | controller event =>
      obtain ⟨C', hstep, rfl⟩ := controller_step htidy h
      have hafter := (hR.tabled_of_rowsFit hfit).step
        Controller.fits_pathLoss hR.keys hR.known
        (ownRows_of_separateRows htidy.1) hstep
      exact hafter.rows
  | coordinator o operation =>
      obtain ⟨hexecuted, hchannels⟩ := coordinator_step htidy h
      intro freq J hJ
      have hold := models_executed hexecuted freq
      rw [hJ, Option.map_some, eq_comm, Option.map_eq_some_iff] at hold
      obtain ⟨I, hI, hmodel⟩ := hold
      obtain ⟨row, hrow, hpathLoss⟩ := hfit freq I hI
      have hsame : J.propagationModel = I.propagationModel := by
        rw [← hmodel]
        cases hnew : newModel operation freq with
        | none => rfl
        | some model => exact hkeeps freq I hI model hnew
      refine ⟨row, hchannels ▸ hrow, ?_⟩
      rw [hpathLoss, Intermediate.pathLossStr, Intermediate.pathLossStr,
        hsame]

/-- If the reports agree before and after a command, it has given no reported
intermediate another model: its row is the same. -/
theorem keepsReported_of_rowsAgree {R R' : Recorded} {event : Event}
    (htidy : R.Tidy event) (hbefore : R.RowsAgree)
    (h : R.step garbled event = some R') (hafter : R'.RowsAgree) :
    R.KeepsReported event := by
  cases event with
  | controller event => trivial
  | coordinator o operation =>
      obtain ⟨hexecuted, hchannels⟩ := coordinator_step htidy h
      intro freq I hI hreported model hmodel
      have hnew := models_executed hexecuted freq
      rw [hI, Option.map_some, hmodel, Option.getD_some,
        Option.map_eq_some_iff] at hnew
      obtain ⟨J, hJ, rfl⟩ := hnew
      obtain ⟨I', hI', hretuned⟩ := hexecuted.managed.intermediates freq J hJ
      cases hI.symm.trans hI'
      obtain ⟨row, hrow, hold⟩ := hbefore freq I hI
      obtain ⟨row', hrow', hnew⟩ := hafter freq J hJ
      rw [hchannels] at hrow'
      cases hrow.symm.trans hrow'
      -- both models are in the same row
      obtain ⟨pathLoss, hmem⟩ := List.exists_mem_of_ne_nil _ hreported
      have hI := (hold pathLoss hmem).trans
        (Controller.mem_reportedPathLosses.mp hmem).1
      have hJ := hnew _ (reported_of_executed hexecuted hretuned hreported)
      exact propagationModelToString_inj.mp (hJ.symm.trans hI)

/-- A command that fails gives no model. -/
theorem newModel_of_fail {R : Recorded} {o : Outside} {operation : Operation}
    (h : R.step garbled (.coordinator o operation) = none) (freq : ℚ) :
    newModel operation freq = none := by
  have hfails : execute o R.emulator operation = none :=
    Option.map_eq_none_iff.mp h
  cases operation with
  | chgPl => cases hfails
  | setDefaultPl => cases hfails
  | _ => rfl

theorem keepsModels_of_fail {R : Recorded} {event : Event}
    (h : R.step garbled event = none) : R.KeepsModels event := by
  cases event with
  | controller event => trivial
  | coordinator o operation =>
      intro freq I _ model hmodel
      rw [newModel_of_fail h] at hmodel
      cases hmodel

theorem KeepsModels.keepsReported {R : Recorded} {event : Event}
    (h : R.KeepsModels event) : R.KeepsReported event := by
  cases event with
  | controller event => trivial
  | coordinator o operation => exact fun freq I hI _ => h freq I hI

/-- As long as every request brings frequencies with rows of their own and
SQLite reads every text as it is meant, the two reports agree in every state if
no command gives an intermediate another model than it has; and if they agree,
no command has given another one to an intermediate with reported links. -/
theorem rowsAgree_of_keepsModels (garbled : NodeStatement →
      FiniteMap ℚ ChannelRow → FiniteMap ℚ ChannelRow)
    (sandbox hasConfig : Bool) {events : List Event}
    (htidy : EveryStep (step garbled) Tidy (start sandbox hasConfig) events) :
    (EveryStep (step garbled) KeepsModels (start sandbox hasConfig) events →
      EveryState (step garbled) RowsAgree (start sandbox hasConfig) events) ∧
    (EveryState (step garbled) RowsAgree (start sandbox hasConfig) events →
      EveryStep (step garbled) KeepsReported (start sandbox hasConfig)
        events) := by
  have hstart := filed_start sandbox hasConfig
  constructor
  · intro hkeeps
    have hfit : EveryState (step garbled) (fun R => R.Filed ∧ R.RowsFit)
        (start sandbox hasConfig) events := by
      refine everyState_of_everyStep ?_ ⟨hstart, FiniteMap.all_empty⟩
        (htidy.and hkeeps)
      rintro R event R' ⟨hR, hfit⟩ ⟨htidy, hkeeps⟩ h
      exact ⟨hR.step htidy h, hfit.step hR htidy hkeeps h⟩
    exact hfit.imp fun R h => h.2.rowsAgree
  · have hfiled : ∀ (R : Recorded) (event : Event) (R' : Recorded),
        R.Filed → R.Tidy event → R.step garbled event = some R' → R'.Filed :=
      fun _ _ _ hR htidy h => hR.step htidy h
    exact everyStep_of_everyState hfiled
      (fun _ _ _ _ htidy hP h hP' => keepsReported_of_rowsAgree htidy hP h hP')
      (fun _ _ _ h => (keepsModels_of_fail h).keepsReported) hstart htidy

instance decidableSeparateRows (R : Recorded) :
    ∀ event, Decidable (R.SeparateRows event)
  | .controller (.request (.config n) _ _) =>
      have : ∀ ch, Decidable (R.emulator.controller.OwnRows ch) := fun _ =>
        inferInstanceAs (Decidable (FiniteMap.All _ _ ∧ FiniteMap.All _ _ ∧ _))
      inferInstanceAs (Decidable (∀ ch, n.channels.head? = some ch → _))
  | .controller (.request .malformed _ _) => isTrue trivial
  | .controller (.request .illTyped _ _) => isTrue trivial
  | .controller (.request (.heartbeat _) _ _) => isTrue trivial
  | .controller (.request (.disconnect _) _ _) => isTrue trivial
  | .controller (.checkTimeout _ _) => isTrue trivial
  | .coordinator _ _ => isTrue trivial

instance decidableTidy (R : Recorded) (event : Event) :
    Decidable (R.Tidy event) :=
  have : Decidable (∀ text ∈ R.texts event, text.IsRead) :=
    decidable_of_iff ((R.texts event).all (fun text => text.IsRead) = true) (by
      simp only [List.all_eq_true, decide_eq_true_eq])
  inferInstanceAs (Decidable (_ ∧ _))

instance decidableKeepsModels (R : Recorded) :
    ∀ event, Decidable (R.KeepsModels event)
  | .controller _ => isTrue trivial
  | .coordinator _ _ => inferInstanceAs (Decidable (FiniteMap.All _ _))

/-- A default model that is set before there are intermediates, and a command
for the model that an intermediate has. -/
theorem rowsAgree_with_default_model :
    EveryState (step fun _ t => t) RowsAgree (start false false)
      [.coordinator .nothing (.setDefaultPl "HATA" plainSettings),
        .controller (.request (.config
          (Controller.plainConfig "n" 2400000000 2500000000)) "10.0.0.1" 0),
        .coordinator .nothing
          (.chgPl 2400000000 "OKUMURA_HATA" plainSettings),
        .controller (.request (.disconnect "n") "10.0.0.1" 1)] :=
  (rowsAgree_of_keepsModels (fun _ t => t) false false
    (by decide +kernel)).1 (by decide +kernel)

/-- Two nodes register and move to 2450 MHz, where they are linked. -/
def linkedNodes : List Event :=
  [.controller (.request (.config
      (Controller.plainConfig "x" 2400000000 2400000000)) "10.0.0.1" 0),
    .controller (.request (.config
      (Controller.plainConfig "y" 2400000000 2400000000)) "10.0.0.2" 1),
    .controller (.request (.config
      (Controller.plainConfig "x" 2450000000 2450000000)) "10.0.0.1" 2),
    .controller (.request (.config
      (Controller.plainConfig "y" 2450000000 2450000000)) "10.0.0.2" 3)]

/-- `CHG_PL` changes the model of the linked nodes but not the row. -/
theorem row_keeps_old_model :
    ¬EveryState (step fun _ t => t) RowsAgree (start false false)
      (linkedNodes ++ [.coordinator .nothing
        (.chgPl 2450000000 "TWO_RAY" plainSettings)]) := by
  intro h
  have hfinal : (run (step fun _ t => t) (start false false)
      (linkedNodes ++ [.coordinator .nothing
        (.chgPl 2450000000 "TWO_RAY" plainSettings)])).any (fun R =>
      decide ((R.channels.lookup (rowKey 2450000000)).map
          ChannelRow.pathLoss = some "FREE_SPACE" ∧
        ∃ I, R.emulator.controller.intermediateMap.lookup 2450000000 =
            some I ∧
          "2_RAY" ∈ R.emulator.controller.reportedPathLosses I)) = true := by
    decide +kernel
  obtain ⟨R, hrun, hR⟩ := (Option.any_eq_true _ _).mp hfinal
  obtain ⟨hpathLoss, I, hI, hreported⟩ := of_decide_eq_true hR
  obtain ⟨row, hrow, hagree⟩ := h.of_run hrun 2450000000 I hI
  rw [hrow, Option.map_some, Option.some.injEq, hagree _ hreported] at hpathLoss
  exact absurd hpathLoss (by decide)

end Recorded

end Chem
