import ChemEmulator.Channel.Coordinator
import ChemEmulator.Models.ConfigDecoding
import ChemEmulator.Support.MergePatch

/-!
# The commands of the coordinator

`Coordinator::requestHandler` in `src/chem/channel/coordinator.cpp`, on the
JSON value that the parser makes of a request.  A command is decoded to an
`Operation` and then carried out; the source does the same in one piece, and it
changes nothing before the last field that can throw has been read.  The last
section puts the handler beside that of the controller; the parser is a
parameter, and a request is handled as one step.

The contents of the reports are left out.  What the handler reads from outside
the program is an input: rows of the database, names of directories, log lines.
A text of that kind may be any sequence of bytes, and `dump` throws on one that
is not UTF-8.  All other texts have passed the parser.

Of the extensions (`extensions/sandbox/src/middleman_client.cpp` and
`extensions/sionna/src/sionna_client.cpp`) there are the settings that a command
changes.  Three things decide whether a command to an extension comes to an end,
and they are inputs as well: the matcher of `parseUrl`, which recurses over the
text; the thread that a stop joins, which may be sleeping or waiting for a
server; and the request that moves the origin of a scene.  A thread can always
be started.
-/

namespace Chem

open Json

/-- `PropagationModelFromString`. -/
def propagationModelFromString (model : String) : PropagationModel :=
  let upper := model.toUpper
  if upper = "FREE_SPACE" then .freeSpace
  else if upper = "2_RAY" ∨ upper = "TWO_RAY" then .twoRay
  else if upper = "3GPP_38_901" ∨ upper = "3GPP" then .threeGPP_38_901
  else if upper = "OKUMURA_HATA" ∨ upper = "HATA" then .okumuraHata
  else if upper = "LONGLEY_RICE" ∨ upper = "ITM" then .longleyRice
  else if upper = "NONE" then .none
  else .unknown

/-- What a command changes in a `SandboxExtension`, and its rate, which
`RuntimeConfig` keeps. -/
structure SandboxSettings where
  running : Bool
  serverUrl : String
  updateRateMs : ℤ

/-- What a command changes in a `SionnaExtension`. -/
structure SionnaSettings where
  running : Bool
  serverUrl : String
  sceneConfig : String
  refLat : ℚ
  refLon : ℚ
  refAlt : ℚ
  offsetX : ℚ
  offsetY : ℚ
  offsetZ : ℚ
  scale : ℚ
  updateRateMs : ℤ
  maxDepth : ℤ
  numSamples : ℤ

/-- The initial values of the members. -/
def SionnaSettings.default : SionnaSettings where
  running := false
  serverUrl := ""
  sceneConfig := "aerpaw"
  refLat := FloatValue.roundBinary 53 (3572750947 / 100000000)
  refLon := FloatValue.roundBinary 53 (-7869595819 / 100000000)
  refAlt := 112
  offsetX := FloatValue.roundBinary 53 (1181 / 10)
  offsetY := FloatValue.roundBinary 53 (-1234 / 10)
  offsetZ := 0
  scale := 1
  updateRateMs := 500
  maxDepth := 3
  numSamples := 100000

/-- The controller and what the coordinator keeps besides. -/
structure Emulator where
  controller : Controller
  sandboxExtension : SandboxSettings
  sionnaExtension : SionnaSettings
  vehiclePollRateMs : ℤ
  channelUpdateRateMs : ℤ
  cirMaxTaps : ℤ
  shadowStd : FloatValue
  shadowStdByFreq : FiniteMap ℚ FloatValue
  /-- `m_config` is not a null pointer. -/
  hasConfig : Bool
  /-- The document behind it. -/
  configuration : Json

/-- What a command reads from outside the program. -/
structure Outside where
  /-- `ChangeAntenna` could change the row. -/
  dbOk : Bool
  /-- The text columns of the node table; a NULL is no string. -/
  nodeRows : List (Option ByteArray)
  channelRows : List (Option ByteArray)
  /-- The directories below `data/antenna`. -/
  antennaNames : List ByteArray
  configPath : ByteArray
  /-- The configuration file could be written. -/
  saved : Bool
  /-- The ring buffer of the logger, if there is one. -/
  logLines : Option (List ByteArray)
  /-- `std::regex_search` comes to an end on a URL. -/
  searchEnds : String → Bool
  /-- The thread of an extension leaves its loop once it is told to. -/
  threadEnds : Bool
  /-- `m_sceneId` is not empty. -/
  hasScene : Bool
  /-- `httpPut` comes to an end. -/
  putEnds : Bool

/-- Nothing is found in the database, the directories and the files, and
whatever is waited for comes to an end. -/
def Outside.nothing : Outside where
  dbOk := false
  nodeRows := []
  channelRows := []
  antennaNames := []
  configPath := .empty
  saved := false
  logLines := none
  searchEnds := fun _ => true
  threadEnds := true
  hasScene := false
  putEnds := true

namespace Coordinator

/-! ## Decoding -/

inductive Cmd where
  | getNodes
  | getChannels
  | getIndChannels
  | getAntennaTypes
  | getConfig
  | setConfig
  | getConfigFile
  | saveConfigFile
  | getStatus
  | getLogs
  | getAntennaPatterns
  | chgAntenna
  | chgSourcePower
  | chgPl
  | setDefaultPl
  | chgCoeff
  | chgNoiseMdl
  | chgFreqOffset
  | chgDoppler
  | chgCir
  | updShadowStd
  | getShadowStd
  | ext
  | extList
  | getVersion
  | invalid
deriving DecidableEq

def Cmd.names : List (String × Cmd) :=
  [("GET_NODES", .getNodes), ("GET_CHANNELS", .getChannels),
    ("GET_IND_CHANNELS", .getIndChannels),
    ("GET_ANTENNA_TYPES", .getAntennaTypes), ("GET_CONFIG", .getConfig),
    ("SET_CONFIG", .setConfig), ("GET_CONFIG_FILE", .getConfigFile),
    ("SAVE_CONFIG_FILE", .saveConfigFile), ("GET_STATUS", .getStatus),
    ("GET_LOGS", .getLogs), ("GET_ANTENNA_PATTERNS", .getAntennaPatterns),
    ("CHG_ANTENNA", .chgAntenna), ("CHG_SOURCE_POWER", .chgSourcePower),
    ("CHG_PL", .chgPl), ("SET_DEFAULT_PL", .setDefaultPl),
    ("CHG_COEFF", .chgCoeff), ("CHG_NOISE_MDL", .chgNoiseMdl),
    ("CHG_FREQ_OFFSET", .chgFreqOffset), ("CHG_DOPPLER", .chgDoppler),
    ("CHG_CIR", .chgCir), ("UPD_SHADOW_STD", .updShadowStd),
    ("GET_SHADOW_STD", .getShadowStd), ("EXT", .ext),
    ("EXT_LIST", .extList), ("GET_VERSION", .getVersion)]

/-- The comparisons of `coord_info["CMD"]`; a value that is no string is equal
to none of the names. -/
def Cmd.ofJson : Json → Cmd
  | .string s => (Cmd.names.lookup s).getD .invalid
  | _ => .invalid

/-- The parameters that `CHG_PL` and `SET_DEFAULT_PL` read if they have the
right type. -/
structure PlSettings where
  groundCoeff : FloatValue
  scenario : String
  environment : String
  itm : ITMParams

/-- `chId`. -/
structure ChId where
  src : ℕ
  dest : ℕ

/-- A link of an intermediate, as a command names it. -/
structure LinkName where
  freq : ℚ
  src : String
  dest : String

inductive Operation where
  | getNodes
  | getChannels
  | getIndChannels
  | getAntennaTypes
  | getConfig
  | setConfig (vehiclePollRateMs channelUpdateRateMs cirMaxTaps : Option ℤ)
  | getConfigFile
  | saveConfigFile (config : Option Json) (path : String)
  | getStatus
  | getLogs (lines : ℕ)
  | getAntennaPatterns
  | chgAntenna (node : String) (patterns : Patterns)
  | chgSourcePower (node : String) (sourcePowerDbfs : Option ℚ)
  | chgPl (freq : ℚ) (plMode : String) (settings : PlSettings)
  | setDefaultPl (plMode : String) (settings : PlSettings)
  | chgCoeff (link : LinkName) (ch : ChId) (coeff : ℚ)
  | chgNoiseMdl (link : LinkName) (noiseMdl : String) (snr : ℚ)
  | chgFreqOffset (link : LinkName) (offsetHz : ℚ)
  | chgDoppler (link : LinkName) (enabled : Bool)
  | chgCir (link : LinkName) (ch : ChId) (taps : List (ℚ × ℚ))
  | updShadowStd (std : ℚ) (freq : Option ℚ)
  | getShadowStd (freq : Option ℚ)
  | ext (extName action : String) (params : Json)
  | extList
  | getVersion
  | invalid

/-- `freq * 1000000`, in double arithmetic. -/
def toHz (freq : ℚ) : ℚ := FloatValue.roundBinary 53 (freq * 1000000)

/-- A number that is read as `int` if it is one. -/
def intAt (j : Json) (key : String) : Option ℤ :=
  ((j.numberAt key).bind getInt).map Int32.toInt

/-- An object under a key, if there is one. -/
def objectAt (j : Json) (key : String) : Option Json :=
  match j.find? key with
  | some (.object fields) => some (.object fields)
  | _ => none

def plSettings (j : Json) : PlSettings :=
  let float (key : String) (default : FloatValue) : FloatValue :=
    (((j.numberAt key).bind (getFloat 24)).map FloatValue.finite).getD default
  { groundCoeff := float "groundCoeff" (.finite (-1))
    scenario := (j.stringAt "scenario").getD "UMa"
    environment := (j.stringAt "environment").getD "URBAN"
    itm :=
      { refractivity := float "refractivity" ITMParams.default.refractivity
        groundConductivity :=
          float "groundConductivity" ITMParams.default.groundConductivity
        groundPermittivity :=
          float "groundPermittivity" ITMParams.default.groundPermittivity
        climateZone :=
          (intAt j "climateZone").getD ITMParams.default.climateZone } }

/-- One element of `taps`; elements of other types are skipped. -/
def tapOf (t : Json) : Option (ℚ × ℚ) :=
  let part (v : Option Json) : ℚ := ((v.bind getDouble).map
    (FloatValue.roundBinary 24)).getD 0
  match t with
  | .array elements => some (part elements[0]?, part elements[1]?)
  | .object _ => some (part (t.find? "re"), part (t.find? "im"))
  | _ => if t.isNumber then some (part (some t), 0) else none

/-- The loop over `taps`: it stops when there are enough. -/
def readTaps (maxTaps : ℤ) (j : Json) : List (ℚ × ℚ) :=
  match j.find? "taps" with
  | some (.array elements) =>
      let taps := elements.filterMap tapOf
      if 0 < maxTaps then taps.take maxTaps.toNat else taps
  | _ => []

/-- The keys of `EXT` that are not merged into the parameters. -/
def extKeys : List String := ["CMD", "extension", "action", "params"]

/-- The merge of the top-level keys: `params[k] = v`. -/
def mergeParams (params : Json) (fields : List (String × Json)) :
    Option Json :=
  (fields.filter fun f => decide (f.1 ∉ extKeys)).foldlM
    (fun params f => params.assign f.1 f.2) params

def readLink (j : Json) : Option LinkName := do
  let freq ← j.read getDouble "freq"
  let src ← j.read getString "src"
  let dest ← j.read getString "dest"
  return ⟨toHz freq, src, dest⟩

/-- `freq` is read if it is there. -/
def readFreq (j : Json) : Option (Option ℚ) :=
  if j.contains "freq" then (j.read getDouble "freq").map (some ∘ toHz)
  else some none

/-- The number of log lines that are asked for. -/
def logLimit (j : Json) : ℕ :=
  match j.find? "lines" with
  | some (.integer n) => (min n 2048).toNat
  | _ => 500

/-- `int` to `size_t`. -/
def toPort (port : Int32) : ℕ := (port.toInt % 2 ^ 64).toNat

/-- What each branch of `requestHandler` reads, in the order in which it reads
it.  There is no result when a conversion throws. -/
def decode (maxTaps : ℤ) (j : Json) : Cmd → Option Operation
  | .getNodes => some .getNodes
  | .getChannels => some .getChannels
  | .getIndChannels => some .getIndChannels
  | .getAntennaTypes => some .getAntennaTypes
  | .getConfig => some .getConfig
  | .setConfig => some (.setConfig (intAt j "vehiclePollRateMs")
      (intAt j "channelUpdateRateMs") (intAt j "cirMaxTaps"))
  | .getConfigFile => some .getConfigFile
  | .saveConfigFile =>
      some (.saveConfigFile (objectAt j "config") ((j.stringAt "path").getD ""))
  | .getStatus => some .getStatus
  | .getLogs => some (.getLogs (logLimit j))
  | .getAntennaPatterns => some .getAntennaPatterns
  | .chgAntenna => do
      let node ← j.value getString "node" ""
      let pattern ← j.value getString "pattern" ""
      let txPattern ← j.value getString "tx_pattern" ""
      let rxPattern ← j.value getString "rx_pattern" ""
      return .chgAntenna node ⟨pattern, txPattern, rxPattern⟩
  | .chgSourcePower => do
      let node ← j.value getString "node" ""
      return .chgSourcePower node
        ((j.numberAt "sourcePowerDbfs").bind getDouble)
  | .chgPl => do
      let freq ← j.read getDouble "freq"
      let plMode ← j.read getString "plMode"
      return .chgPl (toHz freq) plMode (plSettings j)
  | .setDefaultPl => do
      let plMode ← j.value getString "plMode" "FREE_SPACE"
      return .setDefaultPl plMode (plSettings j)
  | .chgCoeff => do
      let link ← readLink j
      let coeff ← j.read getDouble "coeff"
      let src ← j.read getUnsigned "p_src"
      let dest ← j.read getUnsigned "p_dest"
      return .chgCoeff link ⟨src, dest⟩ coeff
  | .chgNoiseMdl => do
      let freq ← j.read getDouble "freq"
      let noiseMdl ← j.read getString "noiseModel"
      let snr ← j.read getDouble "pwr"
      let src ← j.read getString "src"
      let dest ← j.read getString "dest"
      return .chgNoiseMdl ⟨toHz freq, src, dest⟩ noiseMdl snr
  | .chgFreqOffset => do
      let link ← readLink j
      let offsetHz ← j.read getDouble "offsetHz"
      return .chgFreqOffset link offsetHz
  | .chgDoppler => do
      let link ← readLink j
      let enabled ← j.value getBoolean "enabled" false
      return .chgDoppler link enabled
  | .chgCir => do
      let link ← readLink j
      let src ← j.value getInt "p_src" 0
      let dest ← j.value getInt "p_dest" 0
      return .chgCir link ⟨toPort src, toPort dest⟩ (readTaps maxTaps j)
  | .updShadowStd => do
      let std ← j.read getDouble "std"
      let freq ← readFreq j
      return .updShadowStd std freq
  | .getShadowStd => do
      let freq ← readFreq j
      return .getShadowStd freq
  | .ext => do
      let extName ← j.value getString "extension" ""
      let action ← j.value getString "action" ""
      let fields := match j with
        | .object fields => fields
        | _ => []
      let params ← mergeParams ((j.find? "params").getD (.object [])) fields
      return .ext extName action params
  | .extList => some .extList
  | .getVersion => some .getVersion
  | .invalid => some .invalid

/-- What a request is decoded to. -/
def readOperation (maxTaps : ℤ) (j : Json) : Option Operation := do
  let cmd ← j.index "CMD"
  decode maxTaps j (Cmd.ofJson cmd)

/-! ## Carrying a command out -/

inductive Reply where
  | response (r : Response)
  /-- The field `result` of a command for one intermediate. -/
  | result (ok : Bool)
  | shadowStd (std : FloatValue)
  /-- A report with the status `success`, or without a status. -/
  | report
deriving DecidableEq

/-- The response says that the request failed. -/
def Reply.isFail : Reply → Bool
  | .response r => decide (r.status = .fail)
  | .result ok => !ok
  | .shadowStd _ => false
  | .report => false

def Reply.failed (message : String) : Reply := .response (.failed message)

def Reply.success : Reply := .response ⟨.success, none, none, none⟩

/-- A text that `dump` can write. -/
def isText (bytes : Option ByteArray) : Bool :=
  bytes.any ByteArray.validateUTF8

/-- `last_formatted`: no limit if it is 0. -/
def lastFormatted (lines : List ByteArray) (limit : ℕ) : List ByteArray :=
  if 0 < limit then lines.drop (lines.length - limit) else lines

/-- Applies a propagation model to one intermediate. -/
def applyModel (plMode : String) (settings : PlSettings) (I : Intermediate) :
    Intermediate :=
  let model := propagationModelFromString plMode
  let I := I.updatePathLoss model settings.groundCoeff
  let I := if model = .threeGPP_38_901 then I.set3gppScenario settings.scenario
    else I
  let I := if model = .okumuraHata then
    I.setHataEnvironment settings.environment else I
  if model = .longleyRice then I.setITMParams settings.itm else I

/-- `CHG_PL`. -/
def setPathLossMode (C : Controller) (freq : ℚ) (plMode : String)
    (settings : PlSettings) : Reply × Controller :=
  (.result (decide (freq ∈ C.intermediateMap)),
    C.updateIntermediate freq (applyModel plMode settings))

/-- `SET_DEFAULT_PL`.  Of the defaults only those are kept that `CreateChannel`
reads. -/
def setDefaultModel (C : Controller) (plMode : String)
    (settings : PlSettings) : Reply × Controller :=
  let model := propagationModelFromString plMode
  if model = .unknown then (.failed "Unknown propagation model", C)
  else
    (.success, { C with
      propagationDefaults := C.propagationDefaults.map fun _ =>
        ⟨model, settings.groundCoeff, settings.scenario⟩
      intermediateMap :=
        FiniteMap.mapValues (applyModel plMode settings) C.intermediateMap })

/-- The key of a link in the channel map. -/
def linkEnds (C : Controller) (link : LinkName) : NodeId × NodeId :=
  (resolveNodeId C link.src, resolveNodeId C link.dest)

def linkExists (C : Controller) (link : LinkName) : Bool :=
  (C.intermediateMap.lookup link.freq).any fun I =>
    decide (linkEnds C link ∈ I.channelMap)

/-- The commands for one link: they report whether it exists. -/
def onLink (C : Controller) (link : LinkName)
    (f : NodeId × NodeId → Intermediate → Intermediate) : Reply × Controller :=
  (.result (linkExists C link),
    C.updateIntermediate link.freq (f (linkEnds C link)))

/-- `double` to `float`, where a coefficient and a ratio are handed over. -/
def toFloat (x : ℚ) : ℚ := FloatValue.roundBinary 24 x

/-- `CHG_COEFF`. -/
def setChCoeff (C : Controller) (link : LinkName) (ch : ChId) (coeff : ℚ) :
    Reply × Controller :=
  onLink C link fun ends I =>
    I.updateChannelCoeff ends (ch.src, ch.dest) (toFloat coeff)

/-- `CHG_NOISE_MDL`: every other name switches the noise off. -/
def setNoiseModel (C : Controller) (link : LinkName) (noiseMdl : String)
    (snr : ℚ) : Reply × Controller :=
  onLink C link fun ends I =>
    I.updateAWGN ends (decide (noiseMdl = "AWGN")) (toFloat snr)

/-- `CHG_FREQ_OFFSET`. -/
def setFrequencyOffset (C : Controller) (link : LinkName) (offsetHz : ℚ) :
    Reply × Controller :=
  onLink C link fun ends I => I.updateFrequencyOffset ends offsetHz

/-- `CHG_DOPPLER`. -/
def setDopplerEnabled (C : Controller) (link : LinkName) (enabled : Bool) :
    Reply × Controller :=
  onLink C link fun ends I => I.updateDopplerEnabled ends enabled

/-- `CHG_CIR`. -/
def setCIR (C : Controller) (link : LinkName) (ch : ChId)
    (taps : List (ℚ × ℚ)) : Reply × Controller :=
  onLink C link fun ends I => I.updateCIR ends (ch.src, ch.dest) taps

def updateShadowing (E : Emulator) (std : FloatValue) :
    Option ℚ → Emulator
  | some freq =>
      { E with
        shadowStdByFreq := E.shadowStdByFreq.insert freq std
        controller := E.controller.updateIntermediate freq
          fun I => I.setShadowingSTD std }
  | none =>
      { E with
        shadowStd := std
        controller :=
          { E.controller with
            intermediateMap :=
              FiniteMap.mapValues (fun I => I.setShadowingSTD std)
                E.controller.intermediateMap } }

def getShadowing (E : Emulator) : Option ℚ → FloatValue
  | some freq => (E.shadowStdByFreq.lookup freq).getD E.shadowStd
  | none => E.shadowStd

/-! ## Extensions -/

/-- The address that an extension is started with. -/
def startUrl (config : Json) (key current default : String) : String :=
  let serverUrl := (config.stringAt key).getD current
  if serverUrl.isEmpty then default else serverUrl

def middlemanUrl (E : Emulator) (config : Json) : String :=
  startUrl config "middlemanUrl" E.sandboxExtension.serverUrl
    "http://localhost:8080"

def sionnaUrl (E : Emulator) (config : Json) : String :=
  startUrl config "serverUrl" E.sionnaExtension.serverUrl
    "http://localhost:8000"

/-- `SandboxExtension::onStart`. -/
def sandboxStart (o : Outside) (E : Emulator) (config : Json) :
    Option Emulator :=
  if E.sandboxExtension.running then some E
  else if o.searchEnds (middlemanUrl E config) then
    some { E with
      sandboxExtension :=
        { running := true
          serverUrl := middlemanUrl E config
          updateRateMs := ((intAt config "updateRateMs").map (max 50)).getD
            E.sandboxExtension.updateRateMs }
      controller := { E.controller with sandbox := true } }
  else none

/-- `SandboxExtension::onStop`. -/
def sandboxStop (o : Outside) (E : Emulator) : Option Emulator :=
  if !E.sandboxExtension.running then some E
  else if o.threadEnds then
    some { E with
      sandboxExtension := { E.sandboxExtension with running := false }
      controller := { E.controller with sandbox := false } }
  else none

/-- `SandboxExtension::handleCommand`. -/
def sandboxCommand (o : Outside) (E : Emulator) (action : String)
    (params : Json) : Option (Reply × Emulator) :=
  if action = "start" then
    (sandboxStart o E params).map fun E =>
      (.response ⟨.success, some "Sandbox mode started", none, none⟩, E)
  else if action = "stop" then
    (sandboxStop o E).map fun E =>
      (.response ⟨.success, some "Sandbox mode stopped", none, none⟩, E)
  else if action = "status" then some (.report, E)
  else some (.failed ("Unknown action: " ++ action), E)

/-- A number under a key, or the value so far. -/
def doubleOr (j : Json) (key : String) (current : ℚ) : ℚ :=
  ((j.numberAt key).bind getDouble).getD current

/-- The settings that a start and `config` take over. -/
def sionnaConfigured (s : SionnaSettings) (config : Json) :
    SionnaSettings :=
  let ref := (objectAt config "referenceOrigin").getD .null
  let off := (objectAt config "sceneOffset").getD .null
  { s with
    updateRateMs :=
      ((intAt config "updateRateMs").map (max 50)).getD s.updateRateMs
    maxDepth := ((intAt config "maxDepth").map (max 1)).getD s.maxDepth
    numSamples :=
      ((intAt config "numSamples").map (max 1000)).getD s.numSamples
    sceneConfig := (config.stringAt "sceneConfig").getD s.sceneConfig
    refLat := doubleOr ref "lat" s.refLat
    refLon := doubleOr ref "lon" s.refLon
    refAlt := doubleOr ref "alt" s.refAlt
    offsetX := doubleOr off "x" s.offsetX
    offsetY := doubleOr off "y" s.offsetY
    offsetZ := doubleOr off "z" s.offsetZ
    scale := doubleOr config "scale" s.scale }

/-- `SionnaExtension::onStart`. -/
def sionnaStart (o : Outside) (E : Emulator) (config : Json) :
    Option Emulator :=
  if E.sionnaExtension.running then some E
  else if o.searchEnds (sionnaUrl E config) then
    some { E with sionnaExtension :=
      { sionnaConfigured E.sionnaExtension config with
        running := true, serverUrl := sionnaUrl E config } }
  else none

/-- `SionnaExtension::onStop`. -/
def sionnaStop (o : Outside) (E : Emulator) : Option Emulator :=
  if !E.sionnaExtension.running then some E
  else if o.threadEnds then
    some { E with
      sionnaExtension := { E.sionnaExtension with running := false } }
  else none

/-- An origin is sent to the server if there is a scene. -/
def movesOrigin (o : Outside) (params : Json) : Bool :=
  (objectAt params "referenceOrigin").isSome && o.hasScene

/-- `SionnaExtension::handleCommand`. -/
def sionnaCommand (o : Outside) (E : Emulator) (action : String)
    (params : Json) : Option (Reply × Emulator) :=
  if action = "start" then
    (sionnaStart o E params).map fun E =>
      (.response ⟨.success, some "Sionna extension started", none, none⟩, E)
  else if action = "stop" then
    (sionnaStop o E).map fun E =>
      (.response ⟨.success, some "Sionna extension stopped", none, none⟩, E)
  else if action = "status" then some (.report, E)
  else if action = "config" then
    if movesOrigin o params && !o.putEnds then none
    else some (.report, { E with
      sionnaExtension := sionnaConfigured E.sionnaExtension params })
  else some (.failed ("Unknown action: " ++ action), E)

/-- `ExtensionRegistry::routeCommand`. -/
def routeCommand (o : Outside) (E : Emulator) (extName action : String)
    (params : Json) : Option (Reply × Emulator) :=
  if extName = "sandbox" then sandboxCommand o E action params
  else if extName = "sionna" then sionnaCommand o E action params
  else some (.failed ("Extension '" ++ extName ++ "' not found"), E)

/-! ## All commands -/

/-- `SET_CONFIG`. -/
def setConfig (E : Emulator)
    (vehiclePollRateMs channelUpdateRateMs cirMaxTaps : Option ℤ) : Emulator :=
  let clamp (v lo hi : ℤ) : ℤ := max lo (min hi v)
  { E with
    vehiclePollRateMs := (vehiclePollRateMs.map fun v =>
      clamp v 20 60000).getD E.vehiclePollRateMs
    channelUpdateRateMs := (channelUpdateRateMs.map fun v =>
      clamp v 1 60000).getD E.channelUpdateRateMs
    cirMaxTaps := (cirMaxTaps.map fun v =>
      clamp v 0 8192).getD E.cirMaxTaps }

/-- A report that quotes texts from outside. -/
def reportOf (texts : List (Option ByteArray)) (E : Emulator) :
    Option (Reply × Emulator) :=
  if texts.all isText then some (.report, E) else none

/-- A command that works on the controller. -/
def onController (E : Emulator) (result : Reply × Controller) :
    Reply × Emulator :=
  (result.1, { E with controller := result.2 })

/-- A command of the existing part of the handler. -/
def onResponse (E : Emulator) (result : Response × Controller) :
    Reply × Emulator :=
  (.response result.1, { E with controller := result.2 })

/-- The patch stays merged when the file cannot be written.  The response
quotes the path, the given one or that of the file. -/
def saveConfigFile (o : Outside) (E : Emulator) (config : Option Json)
    (path : String) : Option (Reply × Emulator) :=
  if !E.hasConfig then some (.failed "Config file not available", E)
  else
    let E := { E with configuration :=
      (config.map E.configuration.mergePatch).getD E.configuration }
    if path.isEmpty && !isText (some o.configPath) then none
    else if o.saved then some (.report, E)
    else some (.failed "Failed to write config file", E)

def execute (o : Outside) (E : Emulator) :
    Operation → Option (Reply × Emulator)
  | .getNodes => reportOf o.nodeRows E
  | .getChannels => reportOf o.channelRows E
  | .getIndChannels => some (.report, E)
  | .getAntennaTypes => some (.report, E)
  | .getConfig => some (.report, E)
  | .setConfig poll update taps => some (.report, setConfig E poll update taps)
  | .getConfigFile =>
      if E.hasConfig then reportOf [some o.configPath] E
      else some (.failed "Config file not available", E)
  | .saveConfigFile config path => saveConfigFile o E config path
  | .getStatus => some (.report, E)
  | .getLogs lines =>
      match o.logLines with
      | none => some (.failed "Log ring buffer not initialized", E)
      | some log => reportOf ((lastFormatted log lines).map some) E
  | .getAntennaPatterns => reportOf (o.antennaNames.map some) E
  | .chgAntenna node patterns =>
      some (onResponse E (changeAntenna E.controller o.dbOk node patterns))
  | .chgSourcePower node power =>
      some (onResponse E (changeSourcePower E.controller node power))
  | .chgPl freq plMode settings =>
      some (onController E (setPathLossMode E.controller freq plMode settings))
  | .setDefaultPl plMode settings =>
      some (onController E (setDefaultModel E.controller plMode settings))
  | .chgCoeff link ch coeff =>
      some (onController E (setChCoeff E.controller link ch coeff))
  | .chgNoiseMdl link noiseMdl snr =>
      some (onController E (setNoiseModel E.controller link noiseMdl snr))
  | .chgFreqOffset link offsetHz =>
      some (onController E (setFrequencyOffset E.controller link offsetHz))
  | .chgDoppler link enabled =>
      some (onController E (setDopplerEnabled E.controller link enabled))
  | .chgCir link ch taps =>
      some (onController E (setCIR E.controller link ch taps))
  | .updShadowStd std freq =>
      some (.success, updateShadowing E (.finite std) freq)
  | .getShadowStd freq => some (.shadowStd (getShadowing E freq), E)
  | .ext extName action params => routeCommand o E extName action params
  | .extList => some (.report, E)
  | .getVersion => some (.report, E)
  | .invalid => some (.failed "Invalid command!", E)

end Coordinator

/-! ## Both handlers -/

/-- What `Controller::requestHandler` takes a request for. -/
def Controller.decodeRequest (text : NumberText) : Option Json → Request
  | none => .malformed
  | some j =>
      match j.find? "type" with
      | none => .config (NodeConfig.fromJson text j)
      | some v =>
          match getString v with
          | none => .illTyped
          | some reqType =>
              if reqType = "heartbeat" then
                ((j.read getString "id").map Request.heartbeat).getD .illTyped
              else if reqType = "disconnect" then
                ((j.read getString "id").map Request.disconnect).getD .illTyped
              else .config (NodeConfig.fromJson text j)

namespace Emulator

open Coordinator

/-- The state in which `main` starts the servers, for a configuration that says
nothing about the extensions.  Sandbox mode is switched on by starting the
extension. -/
def start (sandbox hasConfig : Bool) (defaults : Option PropagationDefaults) :
    Emulator where
  controller := Controller.create sandbox defaults
  sandboxExtension := ⟨sandbox, if sandbox then "http://localhost:8080" else "",
    500⟩
  sionnaExtension := .default
  vehiclePollRateMs := 100
  channelUpdateRateMs := 100
  cirMaxTaps := 64
  shadowStd := .finite 0
  shadowStdByFreq := ∅
  hasConfig := hasConfig
  configuration := .object []

/-- The parser of the JSON library, and the conversions of texts. -/
structure Decoder where
  parse : List UInt8 → Option Json
  text : NumberText

/-- `Coordinator::requestHandler`, on what the parser makes of the request. -/
def coordinatorRequestHandler (o : Outside) (E : Emulator) :
    Option Json → Option (Reply × Emulator)
  | none => some (.response ⟨.fail, none, none, none⟩, E)
  | some j => (readOperation E.cirMaxTaps j).bind (execute o E)

def controllerRequestHandler (text : NumberText) (remoteIp : String) (now : ℤ)
    (E : Emulator) (parsed : Option Json) :
    Option (Chem.Response × Emulator) :=
  (E.controller.requestHandler (Controller.decodeRequest text parsed) remoteIp
    now).map fun (response, C) => (response, { E with controller := C })

/-- A request to one of the two servers. -/
inductive Query where
  | controller (request : List UInt8) (remoteIp : String) (now : ℤ)
  | coordinator (request : List UInt8) (outside : Outside)

/-- The coordinator passes a C string to the parser. -/
def Query.parsed (d : Decoder) : Query → Option Json
  | .controller request _ _ => d.parse request
  | .coordinator request _ => d.parse (request.takeWhile (· ≠ 0))

/-- The handler of a request: whether the response says that it failed, and the
state afterwards. -/
def answer (d : Decoder) (E : Emulator) (q : Query) :
    Option (Bool × Emulator) :=
  match q with
  | .controller _ remoteIp now =>
      (controllerRequestHandler d.text remoteIp now E (q.parsed d)).map
        fun (response, E) => (decide (response.status = .fail), E)
  | .coordinator _ outside =>
      (coordinatorRequestHandler outside E (q.parsed d)).map
        fun (reply, E) => (reply.isFail, E)

inductive Event where
  | query (q : Query)
  | checkTimeout (id : NodeId) (now : ℤ)

def step (d : Decoder) (E : Emulator) : Event → Option Emulator
  | .query q => (answer d E q).map fun result => result.2
  | .checkTimeout id now =>
      some { E with controller := E.controller.checkTimeout id now }

end Emulator

end Chem
