import ChemEmulator.Models.ConfigDecoding

/-!
# A decoded configuration field by field

`from_json` in `include/chem/models/node_config.hpp` reads one group of fields
after the other into the same object.  Taken together, what ends up in a field
is a function of a few members of the JSON object; two fields are read together
with another one: the name after the identifier, and the device gains, which
are completed by the first channel.
-/

namespace Chem

open Json

/-- No text denotes a number. -/
def NumberText.none : NumberText := ⟨fun _ => .none, fun _ => .none⟩

/-! ## Parts of a channel -/

namespace Usrp

/-- The sending or the receiving half of a channel. -/
structure Part where
  tuneFreq : ℚ
  gain : ℚ
  antenna : String
deriving DecidableEq

def Part.blank : Part := ⟨0, 0, ""⟩

def Channel.tx (c : Channel) : Part := ⟨c.txTuneFreq, c.txGain, c.txAnt⟩

def Channel.rx (c : Channel) : Part := ⟨c.rxTuneFreq, c.rxGain, c.rxAnt⟩

def Channel.ofParts (tx rx : Part) : Channel :=
  ⟨tx.tuneFreq, rx.tuneFreq, tx.gain, rx.gain, tx.antenna, rx.antenna⟩

/-- What is read before the first member that cannot be. -/
def Part.fromJson (p : Json) : Part :=
  match (p.find? "tune_freq").bind getDouble with
  | none => Part.blank
  | some freq =>
      match (p.find? "gain").bind getDouble with
      | none => ⟨freq, 0, ""⟩
      | some gain =>
          ⟨freq, gain, ((p.find? "antenna").bind getString).getD ""⟩

/-- A part that is missing is blank. -/
def Part.ofMember (p : Option Json) : Part :=
  (p.map Part.fromJson).getD Part.blank

/-- A part is stored as a whole where blank values are stored already. -/
theorem Channel.readPart_eq (j : Json) (part : String)
    {setFreq setGain : ℚ → Channel → Channel}
    {setAntenna : String → Channel → Channel} {c : Channel}
    (hfreq : setFreq 0 c = c)
    (hgain : ∀ x, setGain 0 (setFreq x c) = setFreq x c)
    (hantenna : ∀ x g, setAntenna "" (setGain g (setFreq x c)) =
      setGain g (setFreq x c)) :
    readPart j part setFreq setGain setAntenna c =
      let p := Part.ofMember (j.find? part)
      setAntenna p.antenna (setGain p.gain (setFreq p.tuneFreq c)) := by
  have hblank : setAntenna "" (setGain 0 (setFreq 0 c)) = c := by
    rw [hantenna, hgain, hfreq]
  rw [readPart]
  cases j.find? part with
  | none => exact hblank.symm
  | some p =>
      simp only [tryEach, Part.ofMember, Part.fromJson, Option.map_some,
        Option.getD_some]
      cases (p.find? "tune_freq").bind getDouble with
      | none => exact hblank.symm
      | some freq =>
          cases (p.find? "gain").bind getDouble with
          | none => exact ((hantenna freq 0).trans (hgain freq)).symm
          | some gain =>
              cases (p.find? "antenna").bind getString with
              | none => exact (hantenna freq gain).symm
              | some antenna => rfl

theorem Channel.fromJson_eq (j : Json) :
    Channel.fromJson j =
      ofParts (Part.ofMember (j.find? "tx"))
        (Part.ofMember (j.find? "rx")) := by
  rw [fromJson, readPart_eq j "tx" rfl (fun _ => rfl) (fun _ _ => rfl),
    readPart_eq j "rx" rfl (fun _ => rfl) (fun _ _ => rfl)]
  rfl

end Usrp

namespace NodeConfig

/-! ## Members -/

/-- The member is there and is not a string. -/
def badText (j : Json) (key : String) : Bool :=
  (j.find? key).any fun v => !v.isString

/-- The name of a configuration: it is not read after a bad identifier. -/
def nameOf (j : Json) : String :=
  if badText j "id" then "" else (j.stringAt "name").getD ""

def countOf (j : Json) : UInt8 :=
  ((j.numberAt "numChannels").map toUInt8).getD 1

def channelsOf (j : Json) : List Usrp.Channel :=
  match j.find? "channels" with
  | some (.array elements) => elements.map Usrp.Channel.fromJson
  | some _ => []
  | none => List.replicate (countOf j).toNat Usrp.Channel.default

def rateOf (j : Json) : Usrp.SampleRate :=
  ((j.find? "sample_rate").map Usrp.SampleRate.fromJson).getD ⟨0, 0⟩

def logicalNodeOf (j : Json) : Option ℤ :=
  match j.find? "logical_node" with
  | some (.string s) => stoiText s
  | some v => if v.isNumber then (getInt v).map Int32.toInt else none
  | none => none

/-- The location, if it is an object and its coordinates can be read. -/
def placeOf (text : NumberText) (j : Json) : Option Location :=
  match j.find? "location" with
  | some (.object fields) => do
      let loc := Json.object fields
      let lat ← readCoordinate loc "lat" getDouble text.stod
      let lon ← readCoordinate loc "lon" getDouble text.stod
      let alt ← readCoordinate loc "alt" (getFloat 24) text.stof
      return ⟨lat, lon, alt⟩
  | _ => none

def vehicleOf (j : Json) : Option String :=
  (j.find? "vehicle").bind fun v => v.stringAt "address"

/-- A key, or the member `node` of an object. -/
def keyIn (v : Json) : Option String :=
  (getString v).orElse fun _ => v.stringAt "node"

def aerpawKeyOf (j : Json) : Option String :=
  ((j.find? "AERPAW").orElse fun _ => j.find? "aerpaw").bind keyIn

/-- A device gain that is given. -/
def givenGain (j : Json) (key : String) : Option ℚ :=
  (j.find? "gains").bind fun g => (g.numberAt key).bind getDouble

/-- The gain of the first channel, unless it is as good as zero. -/
def firstGain (gain : Usrp.Channel → ℚ) (channels : List Usrp.Channel) :
    Option ℚ :=
  (channels.head?.map gain).filter isGain

/-- A device gain, given or of the first channel. -/
def gainOf (j : Json) (key : String) (gain : Usrp.Channel → ℚ) : Option ℚ :=
  (givenGain j key).orElse fun _ => firstGain gain (channelsOf j)

def nodeTypeOf (j : Json) : NodeType :=
  match j.find? "node_type" with
  | some (.integer code) => .ofCode (Int32.ofInt code).toInt
  | _ => .unknown

/-- The device gains, each with its flag. -/
def withGains (n : NodeConfig) (tx rx : Option ℚ) : NodeConfig :=
  { n with
    deviceTxGain := tx.getD 0
    deviceRxGain := rx.getD 0
    hasDeviceTxGain := tx.isSome
    hasDeviceRxGain := rx.isSome }

/-- The configuration with all its members, and a location. -/
def assemble (j : Json) (place : Option Location) : NodeConfig :=
  { default with
    id := idOf j
    name := nameOf j
    numChannels := countOf j
    channels := channelsOf j
    sampleRate := rateOf j
    logicalNode := (logicalNodeOf j).getD (-1)
    location := place.getD default.location
    hasLocation := place.isSome
    vehicleAddress := (vehicleOf j).getD ""
    aerpawKey := (aerpawKeyOf j).getD ""
    deviceTxGain := (gainOf j "tx" Usrp.Channel.txGain).getD 0
    deviceRxGain := (gainOf j "rx" Usrp.Channel.rxGain).getD 0
    hasDeviceTxGain := (gainOf j "tx" Usrp.Channel.txGain).isSome
    hasDeviceRxGain := (gainOf j "rx" Usrp.Channel.rxGain).isSome
    nodeType := nodeTypeOf j
    inputFormat := (j.stringAt "inputFormat").getD ""
    outputFormat := (j.stringAt "outputFormat").getD "" }

theorem isGain_zero : isGain 0 = false := by
  rw [isGain, abs_zero, decide_eq_false_iff_not, not_lt]
  exact FloatValue.roundBinary_nonneg 53 (by norm_num)

theorem filter_isGain_of_eq_zero {x : ℚ} (h : x = 0) :
    (some x).filter isGain = none := by
  rw [h, Option.filter, isGain_zero]
  rfl

/-- Default channels give no gain. -/
theorem firstGain_replicate {gain : Usrp.Channel → ℚ}
    (h : gain Usrp.Channel.default = 0) (k : ℕ) :
    firstGain gain (List.replicate k Usrp.Channel.default) = none := by
  cases k with
  | zero => rfl
  | succ k => exact filter_isGain_of_eq_zero h

/-! ## Which members a field is made of -/

theorem reads_idOf : Reads ["id"] idOf := by
  intro j j' h
  simp only [idOf, stringAt, h "id" (by decide)]

theorem reads_nameOf : Reads ["id", "name"] nameOf := by
  intro j j' h
  rw [nameOf, nameOf, badText, badText, stringAt, stringAt,
    h "id" (by decide), h "name" (by decide)]

theorem reads_countOf : Reads ["numChannels"] countOf := by
  intro j j' h
  simp only [countOf, numberAt, h "numChannels" (by decide)]

theorem reads_channelsOf : Reads ["numChannels", "channels"] channelsOf := by
  intro j j' h
  simp only [channelsOf, countOf, numberAt, h "numChannels" (by decide),
    h "channels" (by decide)]

theorem reads_rateOf : Reads ["sample_rate"] rateOf := by
  intro j j' h
  simp only [rateOf, h "sample_rate" (by decide)]

theorem reads_logicalNodeOf : Reads ["logical_node"] logicalNodeOf := by
  intro j j' h
  simp only [logicalNodeOf, h "logical_node" (by decide)]

theorem reads_placeOf (text : NumberText) :
    Reads ["location"] (placeOf text) := by
  intro j j' h
  simp only [placeOf, h "location" (by decide)]

theorem reads_vehicleOf : Reads ["vehicle"] vehicleOf := by
  intro j j' h
  simp only [vehicleOf, h "vehicle" (by decide)]

theorem reads_aerpawKeyOf : Reads ["AERPAW", "aerpaw"] aerpawKeyOf := by
  intro j j' h
  simp only [aerpawKeyOf, h "AERPAW" (by decide), h "aerpaw" (by decide)]

theorem reads_givenGain (key : String) :
    Reads ["gains"] (givenGain · key) := by
  intro j j' h
  simp only [givenGain, h "gains" (by decide)]

theorem reads_gainOf (key : String) (gain : Usrp.Channel → ℚ) :
    Reads ["gains", "numChannels", "channels"] (gainOf · key gain) := by
  intro j j' h
  simp only [gainOf, givenGain, channelsOf, countOf, numberAt,
    h "gains" (by decide), h "numChannels" (by decide),
    h "channels" (by decide)]

theorem reads_nodeTypeOf : Reads ["node_type"] nodeTypeOf := by
  intro j j' h
  simp only [nodeTypeOf, h "node_type" (by decide)]

/-- Nothing but the location is made of the member `location`. -/
theorem assemble_congr {j j' : Json} (h : SameBut "location" j j')
    (place : Option Location) : assemble j place = assemble j' place := by
  rw [assemble, assemble, reads_idOf.eq_of_sameBut h (by decide),
    reads_nameOf.eq_of_sameBut h (by decide),
    reads_countOf.eq_of_sameBut h (by decide),
    reads_channelsOf.eq_of_sameBut h (by decide),
    reads_rateOf.eq_of_sameBut h (by decide),
    reads_logicalNodeOf.eq_of_sameBut h (by decide),
    reads_vehicleOf.eq_of_sameBut h (by decide),
    reads_aerpawKeyOf.eq_of_sameBut h (by decide),
    (reads_gainOf _ _).eq_of_sameBut h (by decide),
    (reads_gainOf _ _).eq_of_sameBut h (by decide),
    reads_nodeTypeOf.eq_of_sameBut h (by decide),
    (reads_stringAt "inputFormat").eq_of_sameBut h (by decide),
    (reads_stringAt "outputFormat").eq_of_sameBut h (by decide)]

/-! ## Groups -/

section Groups

variable (j : Json) (n : NodeConfig)

theorem readNames_eq : readNames j default =
    { default with id := idOf j, name := nameOf j } := by
  rw [readNames, tryEach, readText, nameOf, idOf, badText, stringAt]
  cases j.find? "id" with
  | none =>
      dsimp only
      rw [tryEach, readText, stringAt]
      cases j.find? "name" with
      | none => rfl
      | some v => cases v <;> rfl
  | some v =>
      cases v with
      | string s =>
          simp only [getString, Option.map_some]
          rw [tryEach, readText, stringAt]
          cases j.find? "name" with
          | none => rfl
          | some v => cases v <;> rfl
      | _ => rfl

theorem readNumChannels_eq (h : n.numChannels = 1) :
    readNumChannels j n = { n with numChannels := countOf j } := by
  rw [readNumChannels, countOf]
  cases j.numberAt "numChannels" with
  | none => rw [Option.map_none, Option.getD_none, ← h]
  | some v => rfl

theorem readChannels_eq (h : n.numChannels = countOf j)
    (hnil : n.channels = []) :
    readChannels j n = { n with channels := channelsOf j } := by
  have hsame : n = { n with channels := [] } := by rw [← hnil]
  rw [readChannels, channelsOf, ← h]
  cases j.find? "channels" with
  | none => rfl
  | some v =>
      cases v with
      | array elements => rfl
      | _ => exact hsame

theorem readSampleRate_eq (h : n.sampleRate = ⟨0, 0⟩) :
    readSampleRate j n = { n with sampleRate := rateOf j } := by
  rw [readSampleRate, rateOf, ← h]
  cases j.find? "sample_rate" with
  | none => rfl
  | some v => rfl

theorem readLogicalNode_eq : readLogicalNode j n =
    { n with logicalNode := (logicalNodeOf j).getD n.logicalNode } := by
  rw [readLogicalNode, logicalNodeOf]
  cases j.find? "logical_node" with
  | none => rfl
  | some v => cases v <;> rfl

theorem getD_map_setLocation (place : Option Location)
    (h : n.hasLocation = false) :
    (place.map n.setLocation).getD n =
      { n with
        location := place.getD n.location
        hasLocation := place.isSome } := by
  cases place with
  | none =>
      rw [Option.isSome_none, ← h]
      rfl
  | some loc => rfl

theorem readLocation_eq (text : NumberText) (h : n.hasLocation = false) :
    readLocation text j n =
      { n with
        location := (placeOf text j).getD n.location
        hasLocation := (placeOf text j).isSome } := by
  have hsame : n = { n with hasLocation := false } := by rw [← h]
  rw [readLocation, placeOf]
  cases j.find? "location" with
  | none => exact hsame
  | some v =>
      cases v with
      | object fields =>
          exact getD_map_setLocation n _ h
      | _ => exact hsame

theorem readVehicle_eq : readVehicle j n =
    { n with vehicleAddress := (vehicleOf j).getD n.vehicleAddress } := by
  rw [readVehicle, vehicleOf]
  split
  next hnone => rw [hnone, Option.getD_none]
  next address haddress => rw [haddress, Option.getD_some]

theorem readAerpawKey_eq : readAerpawKey j n =
    { n with aerpawKey := (aerpawKeyOf j).getD n.aerpawKey } := by
  have hkey : (((j.find? "AERPAW").orElse fun _ => j.find? "aerpaw").bind
      fun v => (getString v).orElse fun _ => v.stringAt "node") =
      aerpawKeyOf j := rfl
  rw [readAerpawKey, hkey]
  cases aerpawKeyOf j with
  | none => rfl
  | some key => rfl

theorem readNodeType_eq (h : n.nodeType = .unknown) :
    readNodeType j n = { n with nodeType := nodeTypeOf j } := by
  have hsame : n = { n with nodeType := .unknown } := by rw [← h]
  rw [readNodeType, nodeTypeOf]
  cases j.find? "node_type" with
  | none => exact hsame
  | some v =>
      cases v with
      | integer code => rfl
      | _ => exact hsame

theorem readDeviceGains_eq (h : n.withGains none none = n) :
    readDeviceGains j n =
      n.withGains (givenGain j "tx") (givenGain j "rx") := by
  have hread : readDeviceGains j (n.withGains none none) =
      n.withGains (givenGain j "tx") (givenGain j "rx") := by
    rw [readDeviceGains]
    dsimp only
    rw [givenGain, givenGain]
    cases (j.find? "gains").bind fun g => (g.numberAt "tx").bind getDouble <;>
      cases (j.find? "gains").bind fun g => (g.numberAt "rx").bind getDouble <;>
      rfl
  rwa [h] at hread

/-- A gain is completed unless it is given. -/
theorem completeGains_eq (tx rx : Option ℚ) :
    completeGains (n.withGains tx rx) =
      n.withGains
        (tx.orElse fun _ => firstGain Usrp.Channel.txGain n.channels)
        (rx.orElse fun _ => firstGain Usrp.Channel.rxGain n.channels) := by
  have hchannels : (n.withGains tx rx).channels = n.channels := rfl
  rw [completeGains, hchannels]
  cases n.channels with
  | nil => cases tx <;> cases rx <;> rfl
  | cons ch rest =>
      simp only [firstGain, List.head?_cons, Option.map_some, Option.filter]
      cases tx <;> cases rx <;> cases isGain ch.txGain <;>
        cases isGain ch.rxGain <;> rfl

theorem readGains_eq (h : n.withGains none none = n)
    (hchannels : n.channels = channelsOf j) :
    readGains j n =
      n.withGains (gainOf j "tx" Usrp.Channel.txGain)
        (gainOf j "rx" Usrp.Channel.rxGain) := by
  rw [readGains, readDeviceGains_eq j n h, completeGains_eq, hchannels]
  rfl

end Groups

/-- What a configuration is made of. -/
theorem fromJson_eq (text : NumberText) (j : Json) :
    fromJson text j = assemble j (placeOf text j) := by
  rw [fromJson]
  rw [readNames_eq, readNumChannels_eq j _ rfl, readChannels_eq j _ rfl rfl,
    readSampleRate_eq j _ rfl, readLogicalNode_eq,
    readLocation_eq j _ text rfl, readVehicle_eq, readAerpawKey_eq,
    readGains_eq j _ rfl rfl, readNodeType_eq j _ rfl]
  rfl

end NodeConfig
end Chem
