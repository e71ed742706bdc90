import ChemEmulator.Models.NodeConfig
import ChemEmulator.Support.Json

/-!
# Decoding a node configuration

`from_json` in `include/chem/models/node_config.hpp` and `usrp_channel.hpp`.
The fields are read in groups, each in a `try` block of its own: a field that
cannot be read ends its group, and what the group has stored before stays.
Decoding therefore has a result for every JSON value.

What `std::stod` and `std::stof` make of a text is a parameter.
-/

namespace Chem

open Json

/-- `std::stod` and `std::stof`; no result where they throw. -/
structure NumberText where
  stod : String → Option FloatValue
  stof : String → Option FloatValue

/-- The `try` block: assignments are made until one of them throws. -/
def tryEach {σ : Type*} : List (σ → Option σ) → σ → σ
  | [], s => s
  | f :: fs, s =>
      match f s with
      | none => s
      | some t => tryEach fs t

/-- `std::stoi`: white space, a sign and digits. -/
def stoiText (text : String) : Option ℤ :=
  let isSpace (c : Char) : Bool := decide (c.toNat = 32 ∨ 9 ≤ c.toNat ∧
    c.toNat ≤ 13)
  let rest := text.toList.dropWhile isSpace
  let (negative, digits) := match rest with
    | '-' :: digits => (true, digits)
    | '+' :: digits => (false, digits)
    | digits => (false, digits)
  let value : ℤ := (digits.takeWhile Char.isDigit).foldl
    (fun n c => 10 * n + (c.toNat - '0'.toNat)) 0
  let value := if negative then -value else value
  if (digits.head?.any Char.isDigit) && decide (-2 ^ 31 ≤ value) &&
      decide (value < 2 ^ 31) then some value else none

namespace Usrp

/-- `Channel()`. -/
def Channel.default : Channel where
  txTuneFreq := 0
  rxTuneFreq := 0
  txGain := 0
  rxGain := 0
  txAnt := ""
  rxAnt := ""

/-- The `tx` and the `rx` part of a channel are read alike. -/
def Channel.readPart (j : Json) (part : String)
    (setFreq setGain : ℚ → Channel → Channel)
    (setAntenna : String → Channel → Channel) (c : Channel) : Channel :=
  match j.find? part with
  | none => c
  | some p =>
      tryEach
        [fun c => ((p.find? "tune_freq").bind getDouble).map fun x =>
            setFreq x c,
          fun c => ((p.find? "gain").bind getDouble).map fun x => setGain x c,
          fun c => ((p.find? "antenna").bind getString).map fun s =>
            setAntenna s c] c

/-- `from_json` of a channel. -/
def Channel.fromJson (j : Json) : Channel :=
  let c := Channel.readPart j "tx" (fun x c => { c with txTuneFreq := x })
    (fun x c => { c with txGain := x }) (fun s c => { c with txAnt := s })
    Channel.default
  Channel.readPart j "rx" (fun x c => { c with rxTuneFreq := x })
    (fun x c => { c with rxGain := x }) (fun s c => { c with rxAnt := s }) c

/-- `from_json` of a sample rate: 1 Msps where there is no number. -/
def SampleRate.fromJson (j : Json) : SampleRate :=
  let rate (key : String) : ℚ :=
    ((j.numberAt key).bind getDouble).getD 1000000
  ⟨rate "tx", rate "rx"⟩

end Usrp

/-- `static_cast<NodeType>`. -/
def NodeType.ofCode (code : ℤ) : NodeType :=
  if code = 0 then .unknown
  else if code = 1 then .fixed
  else if code = 2 then .aerpawFixed
  else if code = 3 then .aerpawPortable
  else if code = 4 then .vehicleMavproxy
  else .other code

namespace NodeConfig

/-- `NodeConfig()`. -/
def default : NodeConfig where
  ipAddress := ""
  id := ""
  name := ""
  portTxNum := 0
  portRxNum := 0
  numChannels := 1
  sampleRate := ⟨0, 0⟩
  channels := []
  logicalNode := -1
  location := ⟨.finite 0, .finite 0, .finite 0⟩
  hasLocation := false
  vehicleAddress := ""
  aerpawKey := ""
  nodeType := .unknown
  characteristics := none
  deviceTxGain := 0
  deviceRxGain := 0
  hasDeviceTxGain := false
  hasDeviceRxGain := false
  inputFormat := ""
  outputFormat := ""

/-- A text field: the block ends when it is there and not a string. -/
def readText (j : Json) (key : String)
    (set : String → NodeConfig → NodeConfig) (n : NodeConfig) :
    Option NodeConfig :=
  match j.find? key with
  | none => some n
  | some v => (getString v).map fun s => set s n

def readNames (j : Json) : NodeConfig → NodeConfig :=
  tryEach
    [readText j "id" fun s n => { n with id := s },
      readText j "name" fun s n => { n with name := s }]

/-- A conversion to `uint8_t`; the language does not define what a float out of
range becomes. -/
def toUInt8 : Json → UInt8
  | .integer n => UInt8.ofInt n
  | .float x => UInt8.ofInt (FloatValue.truncate x)
  | _ => 0

def readNumChannels (j : Json) (n : NodeConfig) : NodeConfig :=
  match j.numberAt "numChannels" with
  | none => n
  | some v => { n with numChannels := toUInt8 v }

def readChannels (j : Json) (n : NodeConfig) : NodeConfig :=
  match j.find? "channels" with
  | some (.array elements) =>
      { n with channels := elements.map Usrp.Channel.fromJson }
  -- not an array: the conversion throws
  | some _ => n
  | none =>
      { n with channels :=
          List.replicate n.numChannels.toNat Usrp.Channel.default }

def readSampleRate (j : Json) (n : NodeConfig) : NodeConfig :=
  match j.find? "sample_rate" with
  | none => n
  | some v => { n with sampleRate := Usrp.SampleRate.fromJson v }

def readLogicalNode (j : Json) (n : NodeConfig) : NodeConfig :=
  match j.find? "logical_node" with
  | some (.string s) =>
      { n with logicalNode := (stoiText s).getD n.logicalNode }
  | some v =>
      if v.isNumber then
        { n with logicalNode :=
            ((getInt v).map Int32.toInt).getD n.logicalNode }
      else n
  | none => n

/-- A coordinate: a number, or a text that denotes one. -/
def readCoordinate (loc : Json) (key : String) (get : Json → Option ℚ)
    (scan : String → Option FloatValue) : Option FloatValue :=
  match loc.find? key with
  | none => some (.finite 0)
  | some v => if v.isNumber then (get v).map .finite
      else (getString v).bind scan

def readLocation (text : NumberText) (j : Json) (n : NodeConfig) :
    NodeConfig :=
  match j.find? "location" with
  | some (.object fields) =>
      let loc := Json.object fields
      let location : Option Location := do
        let lat ← readCoordinate loc "lat" getDouble text.stod
        let lon ← readCoordinate loc "lon" getDouble text.stod
        let alt ← readCoordinate loc "alt" (getFloat 24) text.stof
        return ⟨lat, lon, alt⟩
      (location.map n.setLocation).getD n
  | _ => n

def readVehicle (j : Json) (n : NodeConfig) : NodeConfig :=
  match (j.find? "vehicle").bind fun v => v.stringAt "address" with
  | none => n
  | some address => { n with vehicleAddress := address }

/-- The key itself, or the field `node` of an object; `aerpaw` counts only when
there is no `AERPAW`. -/
def readAerpawKey (j : Json) (n : NodeConfig) : NodeConfig :=
  let key := (j.find? "AERPAW").orElse fun _ => j.find? "aerpaw"
  match key.bind fun v => (getString v).orElse fun _ => v.stringAt "node" with
  | none => n
  | some aerpawKey => { n with aerpawKey := aerpawKey }

/-- `std::abs(gain) > 1e-12`. -/
def isGain (gain : ℚ) : Bool :=
  decide (FloatValue.roundBinary 53 (1 / 10 ^ 12) < |gain|)

def readDeviceGains (j : Json) (n : NodeConfig) : NodeConfig :=
  let gain (key : String) : Option ℚ :=
    (j.find? "gains").bind fun g => (g.numberAt key).bind getDouble
  let n := ((gain "tx").map fun x => n.setDeviceTxGain x).getD n
  ((gain "rx").map fun x => n.setDeviceRxGain x).getD n

/-- A gain that is not given is that of the first channel. -/
def completeGains (n : NodeConfig) : NodeConfig :=
  match n.channels with
  | [] => n
  | ch :: _ =>
      let n := if !n.hasDeviceTxGain && isGain ch.txGain then
        n.setDeviceTxGain ch.txGain else n
      if !n.hasDeviceRxGain && isGain ch.rxGain then
        n.setDeviceRxGain ch.rxGain else n

def readGains (j : Json) (n : NodeConfig) : NodeConfig :=
  completeGains (readDeviceGains j n)

def readNodeType (j : Json) (n : NodeConfig) : NodeConfig :=
  match j.find? "node_type" with
  | some (.integer code) =>
      { n with nodeType := .ofCode (Int32.ofInt code).toInt }
  | _ => n

def readFormats (j : Json) (n : NodeConfig) : NodeConfig :=
  { n with
    inputFormat := (j.stringAt "inputFormat").getD n.inputFormat
    outputFormat := (j.stringAt "outputFormat").getD n.outputFormat }

/-- `from_json`. -/
def fromJson (text : NumberText) (j : Json) : NodeConfig :=
  let n := readNumChannels j (readNames j default)
  let n := readSampleRate j (readChannels j n)
  let n := readLocation text j (readLogicalNode j n)
  let n := readGains j (readAerpawKey j (readVehicle j n))
  readFormats j (readNodeType j n)

/-! ## Identifier and channels -/

/-- The identifier of a registration. -/
def idOf (j : Json) : NodeId := (j.stringAt "id").getD ""

/-- The registration has a channel: one of a list, or a default one. -/
def listsChannel (j : Json) : Bool :=
  match j.find? "channels" with
  | some (.array elements) => !elements.isEmpty
  | some _ => false
  | none => (j.numberAt "numChannels").all fun v => decide (toUInt8 v ≠ 0)

/-- The later groups of fields touch neither the identifier nor the
channels. -/
def SameCore (n m : NodeConfig) : Prop :=
  m.id = n.id ∧ m.channels = n.channels

theorem SameCore.trans {n m k : NodeConfig} (h : SameCore n m)
    (h' : SameCore m k) : SameCore n k :=
  ⟨h'.1.trans h.1, h'.2.trans h.2⟩

theorem sameCore_readSampleRate (j : Json) (n : NodeConfig) :
    SameCore n (readSampleRate j n) := by
  unfold readSampleRate
  split <;> exact ⟨rfl, rfl⟩

theorem sameCore_readLogicalNode (j : Json) (n : NodeConfig) :
    SameCore n (readLogicalNode j n) := by
  unfold readLogicalNode
  split
  · exact ⟨rfl, rfl⟩
  · split_ifs <;> exact ⟨rfl, rfl⟩
  · exact ⟨rfl, rfl⟩

theorem sameCore_getD {α : Type*} (x : Option α) (f : α → NodeConfig)
    {n : NodeConfig} (hf : ∀ a, SameCore n (f a)) :
    SameCore n ((x.map f).getD n) := by
  cases x with
  | none => exact ⟨rfl, rfl⟩
  | some a => exact hf a

theorem sameCore_readLocation (text : NumberText) (j : Json)
    (n : NodeConfig) : SameCore n (readLocation text j n) := by
  unfold readLocation
  split
  · exact sameCore_getD _ _ fun _ => ⟨rfl, rfl⟩
  · exact ⟨rfl, rfl⟩

theorem sameCore_readVehicle (j : Json) (n : NodeConfig) :
    SameCore n (readVehicle j n) := by
  unfold readVehicle
  split <;> exact ⟨rfl, rfl⟩

theorem sameCore_readAerpawKey (j : Json) (n : NodeConfig) :
    SameCore n (readAerpawKey j n) := by
  unfold readAerpawKey
  dsimp only
  split <;> exact ⟨rfl, rfl⟩

theorem sameCore_readDeviceGains (j : Json) (n : NodeConfig) :
    SameCore n (readDeviceGains j n) := by
  unfold readDeviceGains
  dsimp only
  refine SameCore.trans ?_ (sameCore_getD _ _ fun _ => ⟨rfl, rfl⟩)
  exact sameCore_getD _ _ fun _ => ⟨rfl, rfl⟩

theorem sameCore_completeGains (n : NodeConfig) :
    SameCore n (completeGains n) := by
  unfold completeGains
  split
  · exact ⟨rfl, rfl⟩
  · dsimp only
    split_ifs <;> exact ⟨rfl, rfl⟩

theorem sameCore_readNodeType (j : Json) (n : NodeConfig) :
    SameCore n (readNodeType j n) := by
  unfold readNodeType
  split <;> exact ⟨rfl, rfl⟩

theorem sameCore_fromJson (text : NumberText) (j : Json) :
    SameCore (readChannels j (readNumChannels j (readNames j default)))
      (fromJson text j) := by
  have hrate := sameCore_readSampleRate j
    (readChannels j (readNumChannels j (readNames j default)))
  have hplace := hrate.trans ((sameCore_readLogicalNode j _).trans
    (sameCore_readLocation text j _))
  have hgains := hplace.trans ((sameCore_readVehicle j _).trans
    ((sameCore_readAerpawKey j _).trans ((sameCore_readDeviceGains j _).trans
      (sameCore_completeGains _))))
  exact hgains.trans ((sameCore_readNodeType j _).trans ⟨rfl, rfl⟩)

/-- Reading the two names stores the identifier and leaves the channels. -/
theorem readNames_default (j : Json) :
    (readNames j default).id = idOf j ∧ (readNames j default).channels = [] ∧
      (readNames j default).numChannels = 1 := by
  have hname : ∀ n : NodeConfig, ∀ m,
      m = tryEach [readText j "name" fun s n => { n with name := s }] n →
      m.id = n.id ∧ m.channels = n.channels ∧
        m.numChannels = n.numChannels := by
    rintro n m rfl
    simp only [tryEach, readText]
    cases j.find? "name" with
    | none => exact ⟨rfl, rfl, rfl⟩
    | some v => cases v <;> exact ⟨rfl, rfl, rfl⟩
  unfold readNames idOf stringAt
  rw [tryEach, readText]
  cases j.find? "id" with
  | none => exact hname default _ rfl
  | some v =>
      cases v with
      | string s => exact hname { default with id := s } _ rfl
      | _ => exact ⟨rfl, rfl, rfl⟩

theorem id_fromJson (text : NumberText) (j : Json) :
    (fromJson text j).id = idOf j := by
  rw [(sameCore_fromJson text j).1, ← (readNames_default j).1]
  have hchannels : ∀ n, (readChannels j n).id = n.id := by
    intro n
    unfold readChannels
    split <;> rfl
  rw [hchannels, readNumChannels]
  split <;> rfl

theorem channels_fromJson_ne_nil (text : NumberText) (j : Json) :
    (fromJson text j).channels ≠ [] ↔ listsChannel j = true := by
  obtain ⟨-, hnil, hone⟩ := readNames_default j
  rw [(sameCore_fromJson text j).2]
  have hcount : (readNumChannels j (readNames j default)).channels = [] ∧
      ((readNumChannels j (readNames j default)).numChannels ≠ 0 ↔
        (j.numberAt "numChannels").all (fun v => decide (toUInt8 v ≠ 0)) =
          true) := by
    unfold readNumChannels
    cases j.numberAt "numChannels" with
    | none => simp [hnil, hone]
    | some v => simp [hnil]
  unfold readChannels listsChannel
  split
  · simp
  · simp [hcount.1]
  · rw [← hcount.2, Ne, Ne, List.replicate_eq_nil_iff]
    exact not_congr (UInt8.toNat_inj (b := 0))

end NodeConfig

end Chem
