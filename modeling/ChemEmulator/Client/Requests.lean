import ChemEmulator.Channel.Commands
import ChemEmulator.Support.PythonJson
import Mathlib.Data.List.TakeWhile

/-!
# The requests of the client

`ChemClient` in `utils/pychem.py` has one method for each command of the
coordinator.  A method builds a dictionary, and `_send` writes it as one line
of JSON.  Arguments that are `None` are left out, and so are those that belong
to another propagation model than the one that is named; the coordinator has
defaults of its own for them.

`Call` is a method with its arguments, behind the conversions by `float`,
`int`, `str` and `bool` that the methods make.  `Call.meant` is the command
that such a call is for.
-/

namespace Chem
namespace ChemClient

open Coordinator

/-- The keyword arguments of the methods that set a propagation model. -/
structure ModelArguments where
  groundCoeff : FloatValue
  scenario : Option String
  environment : Option String
  refractivity : Option FloatValue
  groundConductivity : Option FloatValue
  groundPermittivity : Option FloatValue
  climateZone : Option ℤ

/-- The arguments that are sent. -/
structure SentArguments where
  groundCoeff : Option FloatValue
  scenario : Option String
  environment : Option String
  refractivity : Option FloatValue
  groundConductivity : Option FloatValue
  groundPermittivity : Option FloatValue
  climateZone : Option ℤ

/-- The four tests of `model`. -/
def ModelArguments.sent (a : ModelArguments) (model : String) :
    SentArguments where
  groundCoeff := if model = "2_RAY" then some a.groundCoeff else none
  scenario := if model = "3GPP_38_901" then a.scenario else none
  environment := if model = "OKUMURA_HATA" then a.environment else none
  refractivity := if model = "LONGLEY_RICE" then a.refractivity else none
  groundConductivity :=
    if model = "LONGLEY_RICE" then a.groundConductivity else none
  groundPermittivity :=
    if model = "LONGLEY_RICE" then a.groundPermittivity else none
  climateZone := if model = "LONGLEY_RICE" then a.climateZone else none

abbrev Dict := List (String × PythonValue)

inductive Call where
  | getVersion
  | getNodes
  | getAntennaPatterns
  | getAntennaTypes
  | setNodeAntenna (node : String)
      (pattern txPattern rxPattern : Option String)
  | getStatus
  | getLogs (lines : ℤ)
  | getConfig
  | setConfig (vehiclePollRateMs channelUpdateRateMs cirMaxTaps : Option ℤ)
  | getConfigFile
  | saveConfigFile (config : Option Dict) (path : Option String)
  | getChannels
  | getIndividualChannels
  | setPathloss (freqMhz : FloatValue) (model : String)
      (arguments : ModelArguments)
  | setCoeff (freqMhz : FloatValue) (src dest : String) (pSrc pDest : ℤ)
      (coeff : FloatValue)
  | setNoiseModel (freqMhz : FloatValue) (src dest noiseModel : String)
      (snr : FloatValue)
  | setFrequencyOffset (freqMhz : FloatValue) (src dest : String)
      (offsetHz : FloatValue)
  | setDoppler (freqMhz : FloatValue) (src dest : String) (enabled : Bool)
  | setCir (freqMhz : FloatValue) (src dest : String) (pSrc pDest : ℤ)
      (taps : List (List FloatValue))
  | getShadowStd
  | getShadowStdForFreq (freqMhz : FloatValue)
  | setShadowStd (std : FloatValue) (freqMhz : Option FloatValue)
  | setSourcePower (node : String) (sourcePowerDbfs : Option FloatValue)
  | setDefaultPathloss (model : String) (arguments : ModelArguments)
  | extension (name action : String) (params : Option Dict)
  | extensionList

/-! ## Dictionaries -/

abbrev Members := List (String × Option PythonValue)

/-- `body["CMD"]`. -/
def command (name : String) : String × Option PythonValue :=
  ("CMD", some (.str name))

def linkMembers (freqMhz : FloatValue) (src dest : String) : Members :=
  [("freq", some (.float freqMhz)), ("src", some (.str src)),
    ("dest", some (.str dest))]

def modelMembers (a : SentArguments) : Members :=
  [("groundCoeff", a.groundCoeff.map .float),
    ("scenario", a.scenario.map .str), ("environment", a.environment.map .str),
    ("refractivity", a.refractivity.map .float),
    ("groundConductivity", a.groundConductivity.map .float),
    ("groundPermittivity", a.groundPermittivity.map .float),
    ("climateZone", a.climateZone.map .int)]

namespace Call

/-- What each method assigns to `body`; a member that it may leave out has no
value then. -/
def members : Call → Members
  | getVersion => [command "GET_VERSION"]
  | getNodes => [command "GET_NODES"]
  | getAntennaPatterns => [command "GET_ANTENNA_PATTERNS"]
  | getAntennaTypes => [command "GET_ANTENNA_TYPES"]
  | setNodeAntenna node pattern txPattern rxPattern =>
      [command "CHG_ANTENNA", ("node", some (.str node)),
        ("pattern", pattern.map .str), ("tx_pattern", txPattern.map .str),
        ("rx_pattern", rxPattern.map .str)]
  | getStatus => [command "GET_STATUS"]
  | getLogs lines => [command "GET_LOGS", ("lines", some (.int lines))]
  | getConfig => [command "GET_CONFIG"]
  | setConfig vehiclePollRateMs channelUpdateRateMs cirMaxTaps =>
      [command "SET_CONFIG", ("vehiclePollRateMs", vehiclePollRateMs.map .int),
        ("channelUpdateRateMs", channelUpdateRateMs.map .int),
        ("cirMaxTaps", cirMaxTaps.map .int)]
  | getConfigFile => [command "GET_CONFIG_FILE"]
  | saveConfigFile config path =>
      [command "SAVE_CONFIG_FILE", ("config", config.map .dict),
        ("path", (path.filter fun p => !p.isEmpty).map .str)]
  | getChannels => [command "GET_CHANNELS"]
  | getIndividualChannels => [command "GET_IND_CHANNELS"]
  | setPathloss freqMhz model arguments =>
      command "CHG_PL" :: ("freq", some (.float freqMhz)) ::
        ("plMode", some (.str model)) :: modelMembers (arguments.sent model)
  | setCoeff freqMhz src dest pSrc pDest coeff =>
      command "CHG_COEFF" :: linkMembers freqMhz src dest ++
        [("p_src", some (.int pSrc)), ("p_dest", some (.int pDest)),
          ("coeff", some (.float coeff))]
  | setNoiseModel freqMhz src dest noiseModel snr =>
      command "CHG_NOISE_MDL" :: linkMembers freqMhz src dest ++
        [("noiseModel", some (.str noiseModel)), ("pwr", some (.float snr))]
  | setFrequencyOffset freqMhz src dest offsetHz =>
      command "CHG_FREQ_OFFSET" :: linkMembers freqMhz src dest ++
        [("offsetHz", some (.float offsetHz))]
  | setDoppler freqMhz src dest enabled =>
      command "CHG_DOPPLER" :: linkMembers freqMhz src dest ++
        [("enabled", some (.bool enabled))]
  | setCir freqMhz src dest pSrc pDest taps =>
      command "CHG_CIR" :: linkMembers freqMhz src dest ++
        [("p_src", some (.int pSrc)), ("p_dest", some (.int pDest)),
          ("taps", some (.list (taps.map fun tap =>
            .list (tap.map .float))))]
  | getShadowStd => [command "GET_SHADOW_STD"]
  | getShadowStdForFreq freqMhz =>
      [command "GET_SHADOW_STD", ("freq", some (.float freqMhz))]
  | setShadowStd std freqMhz =>
      [command "UPD_SHADOW_STD", ("std", some (.float std)),
        ("freq", freqMhz.map .float)]
  | setSourcePower node sourcePowerDbfs =>
      [command "CHG_SOURCE_POWER", ("node", some (.str node)),
        ("sourcePowerDbfs", sourcePowerDbfs.map .float)]
  | setDefaultPathloss model arguments =>
      command "SET_DEFAULT_PL" :: ("plMode", some (.str model)) ::
        modelMembers (arguments.sent model)
  | extension name action params =>
      [command "EXT", ("extension", some (.str name)),
        ("action", some (.str action)),
        ("params", (params.filter fun p => !p.isEmpty).map .dict)]
  | extensionList => [command "EXT_LIST"]

/-- `body`. -/
def body (call : Call) : PythonValue := .dict call.members.present

/-! ## Commands -/

/-- A number of the client, as the coordinator reads it. -/
def number : FloatValue → ℚ
  | .finite x => x
  | .infinite _ => 0
  | .nan => 0

/-- A number that the coordinator keeps as `float`. -/
def short (x : FloatValue) : FloatValue :=
  .finite (FloatValue.roundBinary 24 (number x))

def port (n : ℤ) : ℕ := (n % 2 ^ 64).toNat

def link (freqMhz : FloatValue) (src dest : String) : LinkName :=
  ⟨toHz (number freqMhz), src, dest⟩

/-- The parameters of a model; for those that are not sent the coordinator has
defaults. -/
def settings (a : SentArguments) : PlSettings where
  groundCoeff := (a.groundCoeff.map short).getD (.finite (-1))
  scenario := a.scenario.getD "UMa"
  environment := a.environment.getD "URBAN"
  itm :=
    { refractivity := (a.refractivity.map short).getD
        ITMParams.default.refractivity
      groundConductivity := (a.groundConductivity.map short).getD
        ITMParams.default.groundConductivity
      groundPermittivity := (a.groundPermittivity.map short).getD
        ITMParams.default.groundPermittivity
      climateZone := a.climateZone.getD ITMParams.default.climateZone }

/-- A tap; what is missing is zero, and what is too much is left out. -/
def tap (parts : List FloatValue) : ℚ × ℚ :=
  let part (x : Option FloatValue) : ℚ :=
    (x.map fun x => FloatValue.roundBinary 24 (number x)).getD 0
  (part parts[0]?, part parts[1]?)

/-- The parameters of an extension. -/
def parameters (params : Option Dict) : Json :=
  (PythonValue.toJson (.dict (params.getD []))).getD (.object [])

/-- The command that a call is for. -/
def meant (maxTaps : ℤ) : Call → Operation
  | getVersion => .getVersion
  | getNodes => .getNodes
  | getAntennaPatterns => .getAntennaPatterns
  | getAntennaTypes => .getAntennaTypes
  | setNodeAntenna node pattern txPattern rxPattern =>
      .chgAntenna node ⟨pattern.getD "", txPattern.getD "", rxPattern.getD ""⟩
  | getStatus => .getStatus
  | getLogs lines => .getLogs (min lines 2048).toNat
  | getConfig => .getConfig
  | setConfig vehiclePollRateMs channelUpdateRateMs cirMaxTaps =>
      .setConfig vehiclePollRateMs channelUpdateRateMs cirMaxTaps
  | getConfigFile => .getConfigFile
  | saveConfigFile config path =>
      .saveConfigFile ((config.map .dict).bind PythonValue.toJson)
        (path.getD "")
  | getChannels => .getChannels
  | getIndividualChannels => .getIndChannels
  | setPathloss freqMhz model arguments =>
      .chgPl (toHz (number freqMhz)) model (settings (arguments.sent model))
  | setCoeff freqMhz src dest pSrc pDest coeff =>
      .chgCoeff (link freqMhz src dest) ⟨port pSrc, port pDest⟩ (number coeff)
  | setNoiseModel freqMhz src dest noiseModel snr =>
      .chgNoiseMdl (link freqMhz src dest) noiseModel (number snr)
  | setFrequencyOffset freqMhz src dest offsetHz =>
      .chgFreqOffset (link freqMhz src dest) (number offsetHz)
  | setDoppler freqMhz src dest enabled =>
      .chgDoppler (link freqMhz src dest) enabled
  | setCir freqMhz src dest pSrc pDest taps =>
      .chgCir (link freqMhz src dest) ⟨port pSrc, port pDest⟩
        (if 0 < maxTaps then (taps.map tap).take maxTaps.toNat
          else taps.map tap)
  | getShadowStd => .getShadowStd none
  | getShadowStdForFreq freqMhz => .getShadowStd (some (toHz (number freqMhz)))
  | setShadowStd std freqMhz =>
      .updShadowStd (number std) (freqMhz.map fun f => toHz (number f))
  | setSourcePower node sourcePowerDbfs =>
      .chgSourcePower node (sourcePowerDbfs.map number)
  | setDefaultPathloss model arguments =>
      .setDefaultPl model (settings (arguments.sent model))
  | extension name action params => .ext name action (parameters params)
  | extensionList => .extList

/-- What the coordinator makes of the text of a call. -/
def readBy (call : Call) (maxTaps : ℤ) : Option Operation :=
  call.body.toJson.bind (readOperation maxTaps)

end Call

/-! ## Members of the object -/

/-- The object has the members that have a value, as a parser reads them. -/
structure Carries (fields : List (String × Json)) (members : Members) :
    Prop where
  lookup : ∀ key, fields.lookup key =
    (members.lookup key).join.bind PythonValue.toJson
  readable : ∀ key v, (members.lookup key).join = some v →
    v.toJson.isSome = true

/-- An integer that an `int` holds. -/
def IsInt (n : ℤ) : Prop := -2 ^ 31 ≤ n ∧ n < 2 ^ 31

instance (n : ℤ) : Decidable (IsInt n) :=
  inferInstanceAs (Decidable (_ ∧ _))

theorem toJson_int {n : ℤ} (h : IsInt n) :
    PythonValue.toJson (.int n) = some (.integer n) := by
  obtain ⟨hlow, hhigh⟩ := h
  rw [PythonValue.toJson, PythonValue.intToJson, if_pos]
  constructor <;> omega

theorem toInt_ofInt {n : ℤ} (h : IsInt n) : (Int32.ofInt n).toInt = n :=
  Int32.toInt_ofInt_of_le h.1 h.2

namespace Carries

open Json

variable {fields : List (String × Json)} {members : Members}
  (h : Carries fields members) (key : String)

include h

theorem find? {v : PythonValue} (hkey : (members.lookup key).join = some v) :
    fields.lookup key = v.toJson := by
  rw [h.lookup key, hkey, Option.bind_some]

theorem find?_none (hkey : (members.lookup key).join = none) :
    fields.lookup key = none := by
  rw [h.lookup key, hkey, Option.bind_none]

theorem find?_float {x : FloatValue}
    (hkey : (members.lookup key).join = some (.float x)) :
    fields.lookup key = some (.float (Call.number x)) := by
  obtain ⟨q, rfl, hq⟩ := PythonValue.toJson_float (h.readable key _ hkey)
  rw [h.find? key hkey, hq]
  rfl

theorem find?_str {s : String}
    (hkey : (members.lookup key).join = some (.str s)) :
    fields.lookup key = some (.string s) := by
  rw [h.find? key hkey, PythonValue.toJson]

theorem find?_int {n : ℤ} (hkey : (members.lookup key).join = some (.int n))
    (hn : IsInt n) : fields.lookup key = some (.integer n) := by
  rw [h.find? key hkey, toJson_int hn]

theorem find?_bool {b : Bool}
    (hkey : (members.lookup key).join = some (.bool b)) :
    fields.lookup key = some (.boolean b) := by
  rw [h.find? key hkey, PythonValue.toJson]

theorem readDouble {x : FloatValue}
    (hkey : (members.lookup key).join = some (.float x)) :
    (object fields).read getDouble key = some (Call.number x) := by
  rw [Json.read, Json.index, h.find?_float key hkey]
  rfl

theorem readString {s : String}
    (hkey : (members.lookup key).join = some (.str s)) :
    (object fields).read getString key = some s := by
  rw [Json.read, Json.index, h.find?_str key hkey]
  rfl

theorem readUnsigned {n : ℤ}
    (hkey : (members.lookup key).join = some (.int n)) (hn : IsInt n) :
    (object fields).read getUnsigned key = some (Call.port n) := by
  rw [Json.read, Json.index, h.find?_int key hkey hn]
  rfl

theorem valueString {o : Option String}
    (hkey : (members.lookup key).join = o.map .str) (default : String) :
    (object fields).value getString key default = some (o.getD default) := by
  rw [Json.value]
  cases o with
  | none => rw [h.find?_none key hkey, Option.getD_none]
  | some s =>
      rw [h.find?_str key hkey]
      rfl

theorem valueBoolean {b : Bool}
    (hkey : (members.lookup key).join = some (.bool b)) (default : Bool) :
    (object fields).value getBoolean key default = some b := by
  rw [Json.value, h.find?_bool key hkey]
  rfl

theorem valueInt {n : ℤ} (hkey : (members.lookup key).join = some (.int n))
    (hn : IsInt n) (default : Int32) :
    (object fields).value getInt key default = some (Int32.ofInt n) := by
  rw [Json.value, h.find?_int key hkey hn]
  rfl

theorem numberAt {o : Option FloatValue}
    (hkey : (members.lookup key).join = o.map .float) :
    (object fields).numberAt key = o.map fun x => .float (Call.number x) := by
  rw [Json.numberAt, Json.find?]
  cases o with
  | none =>
      rw [h.find?_none key hkey]
      rfl
  | some x =>
      rw [h.find?_float key hkey]
      rfl

theorem stringAt {o : Option String}
    (hkey : (members.lookup key).join = o.map .str) :
    (object fields).stringAt key = o := by
  rw [Json.stringAt, Json.find?]
  cases o with
  | none =>
      rw [h.find?_none key hkey]
      rfl
  | some s =>
      rw [h.find?_str key hkey]
      rfl

theorem objectAt {o : Option Dict}
    (hkey : (members.lookup key).join = o.map .dict) :
    Coordinator.objectAt (object fields) key =
      (o.map .dict).bind PythonValue.toJson := by
  rw [Coordinator.objectAt, Json.find?]
  cases o with
  | none =>
      rw [h.find?_none key hkey]
      rfl
  | some config =>
      rw [h.find? key hkey, Option.map_some, Option.bind_some,
        PythonValue.toJson]
      cases PythonValue.membersToJson config <;> rfl

theorem intAt {o : Option ℤ} (hkey : (members.lookup key).join = o.map .int)
    (ho : ∀ n ∈ o, IsInt n) : Coordinator.intAt (object fields) key = o := by
  rw [Coordinator.intAt, Json.numberAt, Json.find?]
  cases o with
  | none =>
      rw [h.find?_none key hkey]
      rfl
  | some n =>
      rw [h.find?_int key hkey (ho n rfl)]
      exact congrArg some (toInt_ofInt (ho n rfl))

end Carries

namespace Call

/-! ## Every call is read as it is meant -/

/-- Every integer that is sent is an `int`. -/
def Fits (call : Call) : Prop :=
  ∀ key n, (call.members.lookup key).join = some (.int n) → IsInt n

theorem nodup_members (call : Call) :
    (call.members.map Prod.fst).Nodup := by
  cases call <;> simp [members, command, linkMembers, modelMembers]

theorem carries_body {call : Call} {j : Json}
    (h : call.body.toJson = some j) :
    ∃ fields, j = .object fields ∧
      (∀ f ∈ fields, f.1 ∈ call.members.map Prod.fst) ∧
      Carries fields call.members := by
  have hlookup := List.lookup_present call.nodup_members
  obtain ⟨fields, rfl, hkeys, hfields, hreadable⟩ := PythonValue.toJson_dict h
    (call.nodup_members.sublist (List.map_fst_present_sublist _))
  refine ⟨fields, rfl, fun f hf =>
    (List.map_fst_present_sublist _).subset (hkeys f hf), ?_, ?_⟩
  · intro key
    rw [hfields key, hlookup]
  · intro key v hv
    exact hreadable key v ((hlookup key).trans hv)

theorem plSettings_eq {fields : List (String × Json)} {members : Members}
    (h : Carries fields members) {a : SentArguments}
    (hmembers : ∀ key ∈ (modelMembers a).map Prod.fst,
      members.lookup key = (modelMembers a).lookup key)
    (hzone : ∀ n ∈ a.climateZone, IsInt n) :
    plSettings (.object fields) = settings a := by
  have hjoin : ∀ key ∈ (modelMembers a).map Prod.fst,
      (members.lookup key).join = ((modelMembers a).lookup key).join :=
    fun key hkey => congrArg Option.join (hmembers key hkey)
  have hfloat : ∀ (o : Option FloatValue) (default : FloatValue),
      (((o.map fun x => Json.float (number x)).bind (Json.getFloat 24)).map
        FloatValue.finite).getD default = (o.map short).getD default := by
    intro o default
    cases o <;> rfl
  dsimp only [plSettings, settings]
  rw [h.numberAt "groundCoeff" (hjoin _ (by simp [modelMembers])),
    h.stringAt "scenario" (hjoin _ (by simp [modelMembers])),
    h.stringAt "environment" (hjoin _ (by simp [modelMembers])),
    h.numberAt "refractivity" (hjoin _ (by simp [modelMembers])),
    h.numberAt "groundConductivity" (hjoin _ (by simp [modelMembers])),
    h.numberAt "groundPermittivity" (hjoin _ (by simp [modelMembers])),
    h.intAt "climateZone" (hjoin _ (by simp [modelMembers])) hzone]
  simp only [hfloat]

/-- A list of floats that can be read is read float by float. -/
theorem elementsToJson_floats {xs : List FloatValue} {js : List Json}
    (h : PythonValue.elementsToJson (xs.map .float) = some js) :
    js = xs.map fun x => .float (number x) := by
  induction xs generalizing js with
  | nil =>
      cases h
      rfl
  | cons x xs ih =>
      simp only [List.map_cons, PythonValue.elementsToJson,
        Option.bind_eq_bind, Option.bind_eq_some_iff] at h
      obtain ⟨j, hj, js', hjs', hresult⟩ := h
      cases hresult
      obtain ⟨q, rfl, hq⟩ :=
        PythonValue.toJson_float (Option.isSome_iff_exists.mpr ⟨j, hj⟩)
      cases hj.symm.trans hq
      rw [ih hjs']
      rfl

theorem elementsToJson_taps {taps : List (List FloatValue)} {js : List Json}
    (h : PythonValue.elementsToJson
      (taps.map fun tap => .list (tap.map .float)) = some js) :
    js = taps.map fun tap => .array (tap.map fun x => .float (number x)) := by
  induction taps generalizing js with
  | nil =>
      cases h
      rfl
  | cons t taps ih =>
      simp only [List.map_cons, PythonValue.elementsToJson,
        PythonValue.toJson, Option.bind_eq_bind, Option.bind_eq_some_iff,
        Option.map_eq_some_iff] at h
      obtain ⟨j, ⟨xs, hxs, rfl⟩, js', hjs', hresult⟩ := h
      cases hresult
      rw [elementsToJson_floats hxs, ih hjs']
      rfl

theorem tapOf_floats (parts : List FloatValue) :
    tapOf (.array (parts.map fun x => .float (number x))) =
      some (tap parts) := by
  rw [tapOf, tap, List.getElem?_map, List.getElem?_map]
  cases parts[0]? <;> cases parts[1]? <;> rfl

theorem readTaps_eq {fields : List (String × Json)} {members : Members}
    (h : Carries fields members) {taps : List (List FloatValue)}
    (hkey : (members.lookup "taps").join =
      some (.list (taps.map fun tap => .list (tap.map .float))))
    (maxTaps : ℤ) :
    readTaps maxTaps (.object fields) =
      if 0 < maxTaps then (taps.map tap).take maxTaps.toNat
      else taps.map tap := by
  obtain ⟨j, hj⟩ := Option.isSome_iff_exists.mp (h.readable _ _ hkey)
  have hfind := (h.find? _ hkey).trans hj
  rw [PythonValue.toJson, Option.map_eq_some_iff] at hj
  obtain ⟨js, hjs, rfl⟩ := hj
  have htaps : js.filterMap tapOf = taps.map tap := by
    rw [elementsToJson_taps hjs, List.filterMap_map]
    exact (List.filterMap_congr fun parts _ => tapOf_floats parts).trans
      (congrFun List.filterMap_eq_map taps)
  rw [readTaps, Json.find?, hfind]
  simp only [htaps]

theorem mergeParams_of_extKeys {fields : List (String × Json)}
    (h : ∀ f ∈ fields, f.1 ∈ extKeys) (params : Json) :
    mergeParams params fields = some params := by
  have hnil : (fields.filter fun f => decide (f.1 ∉ extKeys)) = [] := by
    rw [List.filter_eq_nil_iff]
    intro f hf
    simp [h f hf]
  rw [mergeParams, hnil]
  rfl

/-- The parameters are sent if there are any. -/
theorem params_eq {fields : List (String × Json)} {members : Members}
    (h : Carries fields members) {params : Option Dict}
    (hkey : (members.lookup "params").join =
      (params.filter fun p => !p.isEmpty).map .dict) :
    ((Json.object fields).find? "params").getD (.object []) =
      parameters params := by
  rw [Json.find?, h.lookup, hkey, parameters]
  rcases params with _ | _ | ⟨m, rest⟩
  · rfl
  · rfl
  · rfl

theorem isInt_of_mem {call : Call} (hfits : call.Fits) (key : String)
    {o : Option ℤ} (hkey : (call.members.lookup key).join = o.map .int) :
    ∀ n ∈ o, IsInt n := by
  rintro n rfl
  exact hfits key n hkey

theorem toPort_eq {n : ℤ} (h : IsInt n) : toPort (Int32.ofInt n) = port n := by
  rw [toPort, port, toInt_ofInt h]

theorem readFreq_eq {fields : List (String × Json)} {members : Members}
    (h : Carries fields members) {o : Option FloatValue}
    (hkey : (members.lookup "freq").join = o.map .float) :
    readFreq (.object fields) = some (o.map fun f => toHz (number f)) := by
  rw [readFreq, Json.contains, Json.find?]
  cases o with
  | none =>
      rw [h.find?_none "freq" hkey]
      rfl
  | some f =>
      rw [h.find?_float "freq" hkey, h.readDouble "freq" hkey]
      rfl

theorem getD_filter_isEmpty (path : Option String) :
    (path.filter fun p => !p.isEmpty).getD "" = path.getD "" := by
  rcases path with _ | p
  · rfl
  · by_cases hempty : p.isEmpty = true
    · rw [Option.filter_some_neg (by simp [hempty]),
        String.isEmpty_iff.mp hempty]
      rfl
    · rw [Option.filter_some_pos (by simp [hempty])]

/-- No other member has the key of a parameter. -/
theorem lookup_modelMembers (others : Members) {a : SentArguments}
    (hothers : ∀ m ∈ others, m.1 ∉ (modelMembers a).map Prod.fst) :
    ∀ key ∈ (modelMembers a).map Prod.fst,
      (others ++ modelMembers a).lookup key = (modelMembers a).lookup key := by
  intro key hkey
  induction others with
  | nil => rfl
  | cons m rest ih =>
      obtain ⟨hm, hrest⟩ := List.forall_mem_cons.mp hothers
      rw [List.cons_append, List.lookup_cons_eq, if_neg, ih hrest]
      rintro rfl
      exact hm hkey

/-- The text behind `"CMD"` selects the branch. -/
theorem readBy_of {call : Call} {fields : List (String × Json)}
    (hbody : call.body.toJson = some (.object fields))
    (h : Carries fields call.members) (maxTaps : ℤ) (cmd : Cmd)
    {name : String}
    (hname : (call.members.lookup "CMD").join = some (.str name))
    (hcmd : Cmd.ofJson (.string name) = cmd) :
    call.readBy maxTaps = decode maxTaps (.object fields) cmd := by
  rw [readBy, hbody, Option.bind_some, readOperation, Json.index,
    h.find?_str "CMD" hname, ← hcmd]
  rfl

theorem readLink_eq {fields : List (String × Json)} {members : Members}
    (h : Carries fields members) {freqMhz : FloatValue} {src dest : String}
    (hfreq : (members.lookup "freq").join = some (.float freqMhz))
    (hsrc : (members.lookup "src").join = some (.str src))
    (hdest : (members.lookup "dest").join = some (.str dest)) :
    readLink (.object fields) = some (link freqMhz src dest) := by
  rw [readLink, h.readDouble "freq" hfreq, h.readString "src" hsrc,
    h.readString "dest" hdest]
  rfl

/-- A text that is JSON is read as the command that is meant. -/
theorem readBy_eq_meant {call : Call} (hfits : call.Fits)
    (hfinite : call.body.isFinite = true) (maxTaps : ℤ) :
    call.readBy maxTaps = some (call.meant maxTaps) := by
  rw [← PythonValue.isSome_toJson] at hfinite
  obtain ⟨j, hj⟩ := Option.isSome_iff_exists.mp hfinite
  obtain ⟨fields, rfl, hkeys, h⟩ := carries_body hj
  cases call with
  | getVersion => exact readBy_of hj h maxTaps .getVersion rfl rfl
  | getNodes => exact readBy_of hj h maxTaps .getNodes rfl rfl
  | getAntennaPatterns =>
      exact readBy_of hj h maxTaps .getAntennaPatterns rfl rfl
  | getAntennaTypes => exact readBy_of hj h maxTaps .getAntennaTypes rfl rfl
  | getStatus => exact readBy_of hj h maxTaps .getStatus rfl rfl
  | getConfig => exact readBy_of hj h maxTaps .getConfig rfl rfl
  | getConfigFile => exact readBy_of hj h maxTaps .getConfigFile rfl rfl
  | getChannels => exact readBy_of hj h maxTaps .getChannels rfl rfl
  | getIndividualChannels =>
      exact readBy_of hj h maxTaps .getIndChannels rfl rfl
  | extensionList => exact readBy_of hj h maxTaps .extList rfl rfl
  | setNodeAntenna node pattern txPattern rxPattern =>
      rw [readBy_of hj h maxTaps .chgAntenna rfl rfl, decode,
        h.valueString "node" (o := some node) rfl, h.valueString "pattern" rfl,
        h.valueString "tx_pattern" rfl, h.valueString "rx_pattern" rfl]
      rfl
  | getLogs lines =>
      rw [readBy_of hj h maxTaps .getLogs rfl rfl, decode, logLimit, Json.find?,
        h.find?_int "lines" rfl (hfits "lines" _ rfl)]
      rfl
  | setConfig vehiclePollRateMs channelUpdateRateMs cirMaxTaps =>
      rw [readBy_of hj h maxTaps .setConfig rfl rfl, decode,
        h.intAt "vehiclePollRateMs" rfl
          (isInt_of_mem hfits "vehiclePollRateMs" rfl),
        h.intAt "channelUpdateRateMs" rfl
          (isInt_of_mem hfits "channelUpdateRateMs" rfl),
        h.intAt "cirMaxTaps" rfl (isInt_of_mem hfits "cirMaxTaps" rfl)]
      rfl
  | saveConfigFile config path =>
      rw [readBy_of hj h maxTaps .saveConfigFile rfl rfl, decode,
        h.objectAt "config" rfl, h.stringAt "path" rfl, getD_filter_isEmpty]
      rfl
  | setPathloss freqMhz model arguments =>
      rw [readBy_of hj h maxTaps .chgPl rfl rfl, decode,
        h.readDouble "freq" rfl, h.readString "plMode" rfl,
        plSettings_eq h
          (lookup_modelMembers [_, _, _] (by
            simp [command, modelMembers]))
          (isInt_of_mem hfits "climateZone" rfl)]
      rfl
  | setCoeff freqMhz src dest pSrc pDest coeff =>
      rw [readBy_of hj h maxTaps .chgCoeff rfl rfl, decode,
        readLink_eq h rfl rfl rfl, h.readDouble "coeff" rfl,
        h.readUnsigned "p_src" rfl (hfits "p_src" _ rfl),
        h.readUnsigned "p_dest" rfl (hfits "p_dest" _ rfl)]
      rfl
  | setNoiseModel freqMhz src dest noiseModel snr =>
      rw [readBy_of hj h maxTaps .chgNoiseMdl rfl rfl, decode,
        h.readDouble "freq" rfl, h.readString "noiseModel" rfl,
        h.readDouble "pwr" rfl, h.readString "src" rfl, h.readString "dest" rfl]
      rfl
  | setFrequencyOffset freqMhz src dest offsetHz =>
      rw [readBy_of hj h maxTaps .chgFreqOffset rfl rfl, decode,
        readLink_eq h rfl rfl rfl, h.readDouble "offsetHz" rfl]
      rfl
  | setDoppler freqMhz src dest enabled =>
      rw [readBy_of hj h maxTaps .chgDoppler rfl rfl, decode,
        readLink_eq h rfl rfl rfl, h.valueBoolean "enabled" rfl]
      rfl
  | setCir freqMhz src dest pSrc pDest taps =>
      have hsrc := hfits "p_src" pSrc rfl
      have hdest := hfits "p_dest" pDest rfl
      rw [readBy_of hj h maxTaps .chgCir rfl rfl, decode,
        readLink_eq h rfl rfl rfl, h.valueInt "p_src" rfl hsrc,
        h.valueInt "p_dest" rfl hdest, readTaps_eq h rfl maxTaps]
      simp only [Option.bind_eq_bind, Option.bind_some, toPort_eq hsrc,
        toPort_eq hdest]
      rfl
  | getShadowStd =>
      rw [readBy_of hj h maxTaps .getShadowStd rfl rfl, decode,
        readFreq_eq h (o := none) rfl]
      rfl
  | getShadowStdForFreq freqMhz =>
      rw [readBy_of hj h maxTaps .getShadowStd rfl rfl, decode,
        readFreq_eq h (o := some freqMhz) rfl]
      rfl
  | setShadowStd std freqMhz =>
      rw [readBy_of hj h maxTaps .updShadowStd rfl rfl, decode,
        h.readDouble "std" rfl, readFreq_eq h rfl]
      rfl
  | setSourcePower node sourcePowerDbfs =>
      rw [readBy_of hj h maxTaps .chgSourcePower rfl rfl, decode,
        h.valueString "node" (o := some node) rfl,
        h.numberAt "sourcePowerDbfs" rfl]
      cases sourcePowerDbfs <;> rfl
  | setDefaultPathloss model arguments =>
      rw [readBy_of hj h maxTaps .setDefaultPl rfl rfl, decode,
        h.valueString "plMode" (o := some model) rfl,
        plSettings_eq h
          (lookup_modelMembers [_, _] (by
            simp [command, modelMembers]))
          (isInt_of_mem hfits "climateZone" rfl)]
      rfl
  | extension name action params =>
      have hext : ∀ f ∈ fields, f.1 ∈ extKeys := hkeys
      rw [readBy_of hj h maxTaps .ext rfl rfl, decode,
        h.valueString "extension" (o := some name) rfl,
        h.valueString "action" (o := some action) rfl]
      simp only [Option.bind_eq_bind, Option.bind_some,
        mergeParams_of_extKeys hext, params_eq h rfl]
      rfl

/-! ## Texts -/

/-- `json.dumps(body).encode("utf-8")`. -/
def text (floatText : FloatValue → List Char) (call : Call) : List UInt8 :=
  (call.body.dumps floatText).map fun c => UInt8.ofNat c.toNat

/-- The text is one line, whatever strings the arguments are. -/
theorem mem_text {floatText : FloatValue → List Char}
    (hfloat : ∀ x, ∀ c ∈ floatText x, PythonValue.Printable c) (call : Call) :
    ∀ b ∈ call.text floatText, 32 ≤ b.toNat ∧ b.toNat ≤ 126 := by
  intro b hb
  obtain ⟨c, hc, rfl⟩ := List.mem_map.mp hb
  have hprintable := PythonValue.printable_dumps hfloat call.body c hc
  rw [UInt8.toNat_ofNat_of_lt' (lt_of_le_of_lt hprintable.2 (by decide))]
  exact hprintable

theorem newline_notMem_text {floatText : FloatValue → List Char}
    (hfloat : ∀ x, ∀ c ∈ floatText x, PythonValue.Printable c) (call : Call) :
    (10 : UInt8) ∉ call.text floatText := by
  intro h
  exact absurd (mem_text hfloat call 10 h).1 (by decide)

/-- The text has no byte at which a C string ends. -/
theorem parsed_text {d : Emulator.Decoder} {floatText : FloatValue → List Char}
    (hfloat : ∀ x, ∀ c ∈ floatText x, PythonValue.Printable c) (o : Outside)
    {call : Call}
    (hparse : d.parse (call.text floatText) = call.body.toJson) :
    (Emulator.Query.coordinator (call.text floatText) o).parsed d =
      call.body.toJson := by
  have hnul : (call.text floatText).takeWhile (· ≠ 0) =
      call.text floatText := by
    rw [List.takeWhile_eq_self_iff]
    intro b hb
    obtain ⟨hlow, -⟩ := mem_text hfloat call b hb
    rw [decide_eq_true_eq]
    rintro rfl
    exact absurd hlow (by decide)
  rw [Emulator.Query.parsed, hnul, hparse]

/-- What a call does, if it is handled as it is meant. -/
def perform (o : Outside) (E : Emulator) (call : Call) :
    Option (Coordinator.Reply × Emulator) :=
  if call.body.isFinite then execute o E (call.meant E.cirMaxTaps)
  else some (.response ⟨.fail, none, none, none⟩, E)

theorem coordinatorRequestHandler_body (o : Outside) (E : Emulator)
    {call : Call} (hfits : call.Fits) :
    Emulator.coordinatorRequestHandler o E call.body.toJson =
      call.perform o E := by
  rw [perform]
  split_ifs with hfinite
  · have hread := readBy_eq_meant hfits hfinite E.cirMaxTaps
    rw [readBy, Option.bind_eq_some_iff] at hread
    obtain ⟨j, hj, hread⟩ := hread
    rw [hj, Emulator.coordinatorRequestHandler, hread, Option.bind_some]
  · rw [← PythonValue.isSome_toJson, Option.not_isSome_iff_eq_none] at hfinite
    rw [hfinite]
    rfl

/-- What the coordinator reads is the command that the call is for, with all its
arguments; this is what it carries out and answers. -/
theorem coordinatorRequestHandler_text {d : Emulator.Decoder}
    {floatText : FloatValue → List Char}
    (hfloat : ∀ x, ∀ c ∈ floatText x, PythonValue.Printable c)
    (o : Outside) (E : Emulator) {call : Call} (hfits : call.Fits)
    (hparse : d.parse (call.text floatText) = call.body.toJson) :
    let parsed := (Emulator.Query.coordinator (call.text floatText) o).parsed d
    parsed.bind (readOperation E.cirMaxTaps) =
        (if call.body.isFinite then some (call.meant E.cirMaxTaps)
          else none) ∧
      Emulator.coordinatorRequestHandler o E parsed =
        if call.body.isFinite then execute o E (call.meant E.cirMaxTaps)
        else some (.response ⟨.fail, none, none, none⟩, E) := by
  intro parsed
  have hparsed : parsed = call.body.toJson := parsed_text hfloat o hparse
  rw [hparsed]
  refine ⟨?_, coordinatorRequestHandler_body o E hfits⟩
  split_ifs with hfinite
  · exact readBy_eq_meant hfits hfinite E.cirMaxTaps
  · rw [← PythonValue.isSome_toJson, Option.not_isSome_iff_eq_none] at hfinite
    rw [hfinite]
    rfl

theorem fits_of_members {call : Call}
    (h : ∀ m ∈ call.members, ∀ n, m.2 = some (.int n) → IsInt n) :
    call.Fits := by
  intro key n hkey
  obtain ⟨before, after, hmembers, -⟩ :=
    List.lookup_eq_some_iff.mp (Option.join_eq_some_iff.mp hkey)
  exact h (key, some (.int n)) (by simp [hmembers]) n rfl

/-- The two-ray model under the name for which the client sends the ground
coefficient. -/
def groundCall : Call :=
  .setPathloss (.finite 2400) "2_RAY"
    ⟨.finite (-1 / 2), some "UMi", none, none, none, none, none⟩

/-- The two floats of the call. -/
def groundText (x : FloatValue) : List Char :=
  if x = .finite 2400 then ['2', '4', '0', '0', '.', '0']
  else ['-', '0', '.', '5']

def groundDecoder : Emulator.Decoder where
  parse bytes :=
    if bytes = groundCall.text groundText then groundCall.body.toJson else none
  text := ⟨fun _ => none, fun _ => none⟩

/-- Before the call there is one intermediate, at 2400 MHz. -/
def beforeGroundCall : Emulator :=
  { Emulator.start false false none with
    controller := (Controller.create false none).createChannel 2400000000 }

/-- The coefficient arrives as a `float`; the scenario is not sent. -/
theorem answered_groundCall :
    let parsed := (Emulator.Query.coordinator (groundCall.text groundText)
      .nothing).parsed groundDecoder
    let operation : Operation := .chgPl 2400000000 "2_RAY"
      ⟨.finite (-1 / 2), "UMa", "URBAN", ITMParams.default⟩
    parsed.bind (readOperation 64) = some operation ∧
      Emulator.coordinatorRequestHandler .nothing beforeGroundCall parsed =
        execute .nothing beforeGroundCall operation := by
  intro parsed operation
  have hfloat : ∀ x, ∀ c ∈ groundText x, PythonValue.Printable c := by
    intro x
    unfold groundText
    split_ifs <;> exact PythonValue.printable_of_all (by decide)
  have hfits : groundCall.Fits := fits_of_members (by
    simp [groundCall, members, command, modelMembers, ModelArguments.sent])
  have hmeant : groundCall.meant beforeGroundCall.cirMaxTaps = operation := by
    have hfreq : toHz 2400 = 2400000000 := by decide +kernel
    have hcoeff : FloatValue.roundBinary 24 (-1 / 2) = -1 / 2 := by
      decide +kernel
    simp [operation, groundCall, meant, ModelArguments.sent, settings, short,
      number, hfreq, hcoeff]
  rw [← hmeant]
  exact coordinatorRequestHandler_text (d := groundDecoder) hfloat .nothing
    beforeGroundCall hfits (if_pos rfl)

end Call

end ChemClient
end Chem
