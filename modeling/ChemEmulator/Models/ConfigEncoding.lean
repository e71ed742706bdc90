import ChemEmulator.Models.ConfigFields

/-!
# Encoding a node configuration

`to_json` in `include/chem/models/node_config.hpp` and `usrp_channel.hpp`, and
what `from_json` makes of its result.  Members are left out: a part of a channel
that is tuned to zero, an empty channel list, a negative logical node, an empty
text, a gain that is not set.

A coordinate that was given as text need not be finite, and stays what it is
in the JSON value in memory.  JSON values here have finite numbers only, so the
location is kept next to the other members; where it is finite this is the same
as putting it among them (`decode_encode_eq_fromJson`).
-/

namespace Chem

open Json

namespace Usrp

/-- The member `tx` or `rx` of a channel; it is left out at frequency zero. -/
def Channel.partToJson (freq gain : ℚ) (antenna : String) : Option Json :=
  if freq ≠ 0 then
    some (object [("tune_freq", float freq), ("gain", float gain),
      ("antenna", string antenna)])
  else none

/-- `to_json` of a channel: `null` if neither part is tuned. -/
def Channel.toJson (c : Channel) : Json :=
  assigned
    [("tx", Channel.partToJson c.txTuneFreq c.txGain c.txAnt),
      ("rx", Channel.partToJson c.rxTuneFreq c.rxGain c.rxAnt)]

/-- A part that is not tuned holds nothing. -/
def Part.inUse (p : Part) : Part := if p.tuneFreq ≠ 0 then p else Part.blank

def Channel.inUse (c : Channel) : Channel :=
  Channel.ofParts c.tx.inUse c.rx.inUse

theorem Part.gain_inUse (p : Part) :
    p.inUse.gain = p.gain ∨ p.inUse.gain = 0 := by
  rw [Part.inUse]
  split_ifs
  · exact Or.inl rfl
  · exact Or.inr rfl

theorem Part.ofMember_toJson (p : Part) :
    Part.ofMember (Channel.partToJson p.tuneFreq p.gain p.antenna) =
      p.inUse := by
  rw [Channel.partToJson, Part.inUse]
  split_ifs <;> rfl

theorem Channel.fromJson_toJson (c : Channel) :
    Channel.fromJson c.toJson = c.inUse := by
  have hfind : ∀ key, c.toJson.find? key =
      (List.lookup key
        [("tx", Channel.partToJson c.txTuneFreq c.txGain c.txAnt),
          ("rx", Channel.partToJson c.rxTuneFreq c.rxGain c.rxAnt)]).join :=
    find?_assigned (by simp only [List.map]; decide)
  rw [Channel.fromJson_eq, hfind, hfind]
  exact congrArg₂ Channel.ofParts (Part.ofMember_toJson c.tx)
    (Part.ofMember_toJson c.rx)

/-- `to_json` of a sample rate. -/
def SampleRate.toJson (s : SampleRate) : Json :=
  object [("tx", float s.txRate), ("rx", float s.rxRate)]

end Usrp

/-- `static_cast<int>`. -/
def NodeType.code : NodeType → ℤ
  | .unknown => 0
  | .fixed => 1
  | .aerpawFixed => 2
  | .aerpawPortable => 3
  | .vehicleMavproxy => 4
  | .other code => code

theorem NodeType.code_ofCode (code : ℤ) :
    (NodeType.ofCode code).code = code := by
  unfold NodeType.ofCode
  split_ifs <;> simp only [NodeType.code] <;> omega

/-- The results of `std::stof` are of type `float`. -/
def NumberText.StofIsFloat (text : NumberText) : Prop :=
  ∀ s x, text.stof s = some x → x.narrow 24 = x

/-- A coordinate as a JSON number, if it is finite. -/
def coordinateToJson : FloatValue → Option Json
  | .finite x => some (float x)
  | .infinite _ => none
  | .nan => none

def Location.toJson (loc : Location) : Option Json := do
  let lat ← coordinateToJson loc.lat
  let lon ← coordinateToJson loc.lon
  let alt ← coordinateToJson loc.alt
  return object [("lat", lat), ("lon", lon), ("alt", alt)]

namespace NodeConfig

def gainsToJson (n : NodeConfig) : Option Json :=
  if n.hasDeviceTxGain || n.hasDeviceRxGain then
    some (assigned
      [("tx", if n.hasDeviceTxGain then some (float n.deviceTxGain) else none),
        ("rx", if n.hasDeviceRxGain then some (float n.deviceRxGain)
          else none)])
  else none

/-- A text that is not empty. -/
def textToJson (text : String) : Option Json :=
  if text.isEmpty then none else some (string text)

/-- The members, `location` being given. -/
def members (n : NodeConfig) (location : Option Json) :
    List (String × Option Json) :=
  [("id", some (string n.id)),
    ("name", some (string n.name)),
    ("numChannels", some (integer n.numChannels.toNat)),
    ("sample_rate", some n.sampleRate.toJson),
    ("channels",
      if n.channels.isEmpty then none
      else some (array (n.channels.map Usrp.Channel.toJson))),
    ("logical_node",
      if n.hasLogicalNode then some (integer n.logicalNode) else none),
    ("location", location),
    ("vehicle",
      if n.hasVehicleAddress then
        some (object [("address", string n.vehicleAddress)])
      else none),
    ("AERPAW", textToJson n.aerpawKey),
    ("node_type",
      if n.nodeType ≠ .unknown then some (integer n.nodeType.code) else none),
    ("gains", n.gainsToJson),
    ("inputFormat", textToJson n.inputFormat),
    ("outputFormat", textToJson n.outputFormat)]

/-- `to_json`, where JSON has the numbers of the location. -/
def toJson (n : NodeConfig) : Option Json :=
  if n.hasLocation then
    n.location.toJson.map fun loc => assigned (n.members (some loc))
  else some (assigned (n.members none))

/-- The result of `to_json`, the location apart. -/
structure Encoded where
  fields : Json
  location : Option Location

/-- `to_json`. -/
def encode (n : NodeConfig) : Encoded where
  fields := assigned (n.members none)
  location := if n.hasLocation then some n.location else none

/-- `from_json`: the altitude is read as a `float`. -/
def decode (text : NumberText) (e : Encoded) : NodeConfig :=
  let n := fromJson text e.fields
  match e.location with
  | none => n
  | some loc => n.setLocation { loc with alt := loc.alt.narrow 24 }

/-! ## What is found in the members -/

theorem toUInt8_toNat (m : UInt8) : toUInt8 (integer m.toNat) = m := by
  have hlt := m.toNat_lt
  apply UInt8.toNat_inj.mp
  simp only [toUInt8, UInt8.ofInt]
  rw [UInt8.toNat_ofNat']
  omega

section Members

variable (n : NodeConfig) (location : Option Json)

theorem find?_members (key : String) :
    (assigned (n.members location)).find? key =
      ((n.members location).lookup key).join := by
  apply find?_assigned
  simp only [members, List.map]
  decide

theorem idOf_members : idOf (assigned (n.members location)) = n.id := by
  rw [idOf, stringAt, find?_members]
  rfl

theorem nameOf_members : nameOf (assigned (n.members location)) = n.name := by
  rw [nameOf, badText, stringAt, find?_members, find?_members]
  rfl

theorem countOf_members :
    countOf (assigned (n.members location)) = n.numChannels := by
  rw [countOf, numberAt, find?_members]
  exact toUInt8_toNat n.numChannels

theorem channelsOf_members :
    channelsOf (assigned (n.members location)) =
      if n.channels.isEmpty then
        List.replicate n.numChannels.toNat Usrp.Channel.default
      else n.channels.map Usrp.Channel.inUse := by
  have hfind : (assigned (n.members location)).find? "channels" =
      if n.channels.isEmpty then none
      else some (array (n.channels.map Usrp.Channel.toJson)) :=
    find?_members n location "channels"
  rw [channelsOf, hfind, countOf_members]
  split_ifs with hempty
  · rfl
  · change (n.channels.map Usrp.Channel.toJson).map Usrp.Channel.fromJson = _
    rw [List.map_map]
    exact List.map_congr_left fun c _ => Usrp.Channel.fromJson_toJson c

theorem rateOf_members :
    rateOf (assigned (n.members location)) = n.sampleRate := by
  rw [rateOf, find?_members]
  rfl

theorem logicalNodeOf_members (hlow : -2 ^ 31 ≤ n.logicalNode)
    (hhigh : n.logicalNode < 2 ^ 31) :
    (logicalNodeOf (assigned (n.members location))).getD (-1) =
      if n.hasLogicalNode then n.logicalNode else -1 := by
  have hfind : (assigned (n.members location)).find? "logical_node" =
      if n.hasLogicalNode then some (integer n.logicalNode) else none :=
    find?_members n location "logical_node"
  rw [logicalNodeOf, hfind]
  split_ifs with hnode
  · exact Int32.toInt_ofInt_of_le hlow hhigh
  · rfl

theorem vehicleOf_members :
    (vehicleOf (assigned (n.members location))).getD "" =
      n.vehicleAddress := by
  rw [vehicleOf, find?_members]
  change (Option.bind (some (if n.hasVehicleAddress then
    some (object [("address", string n.vehicleAddress)]) else none)).join
      fun v => v.stringAt "address").getD "" = _
  split_ifs with hvehicle
  · rfl
  · have hempty : n.vehicleAddress.isEmpty = true := by
      simpa [hasVehicleAddress] using hvehicle
    exact (String.isEmpty_iff.mp hempty).symm

theorem getD_textToJson (text : String) :
    ((textToJson text).bind getString).getD "" = text := by
  rw [textToJson]
  split_ifs with hempty
  · exact (String.isEmpty_iff.mp hempty).symm
  · rfl

theorem aerpawKeyOf_members :
    (aerpawKeyOf (assigned (n.members location))).getD "" = n.aerpawKey := by
  rw [aerpawKeyOf, find?_members, find?_members]
  change ((Option.orElse (textToJson n.aerpawKey) fun _ => none).bind
    keyIn).getD "" = _
  rw [textToJson]
  split_ifs with hempty
  · exact (String.isEmpty_iff.mp hempty).symm
  · rfl

theorem formats_members :
    ((assigned (n.members location)).stringAt "inputFormat").getD "" =
        n.inputFormat ∧
      ((assigned (n.members location)).stringAt "outputFormat").getD "" =
        n.outputFormat := by
  rw [stringAt, stringAt, find?_members, find?_members]
  exact ⟨getD_textToJson n.inputFormat, getD_textToJson n.outputFormat⟩

theorem givenGain_members :
    givenGain (assigned (n.members location)) "tx" =
        (if n.hasDeviceTxGain then some n.deviceTxGain else none) ∧
      givenGain (assigned (n.members location)) "rx" =
        (if n.hasDeviceRxGain then some n.deviceRxGain else none) := by
  rw [givenGain, givenGain, find?_members]
  change (n.gainsToJson.bind fun g => (g.numberAt "tx").bind getDouble) = _ ∧
    (n.gainsToJson.bind fun g => (g.numberAt "rx").bind getDouble) = _
  rw [gainsToJson]
  cases n.hasDeviceTxGain <;> cases n.hasDeviceRxGain <;> exact ⟨rfl, rfl⟩

theorem nodeTypeOf_members (code : Int32)
    (h : n.nodeType = .ofCode code.toInt) :
    nodeTypeOf (assigned (n.members location)) = n.nodeType := by
  have hcode : n.nodeType.code = code.toInt := by rw [h, NodeType.code_ofCode]
  have hfind : (assigned (n.members location)).find? "node_type" =
      if n.nodeType ≠ .unknown then some (integer n.nodeType.code)
      else none :=
    find?_members n location "node_type"
  rw [nodeTypeOf, hfind]
  split_ifs with hknown
  · change NodeType.ofCode (Int32.ofInt n.nodeType.code).toInt = _
    rw [hcode, Int32.ofInt_toInt, h]
  · exact (not_not.mp hknown).symm

end Members

/-! ## Configurations that have been read -/

/-- What holds of every configuration that has been read. -/
structure Decoded (n : NodeConfig) : Prop where
  logicalNode_ge : -2 ^ 31 ≤ n.logicalNode
  logicalNode_lt : n.logicalNode < 2 ^ 31
  nodeType : ∃ code : Int32, n.nodeType = .ofCode code.toInt
  location : n.hasLocation = false → n.location = default.location
  altitude : n.location.alt.narrow 24 = n.location.alt
  txGain : n.hasDeviceTxGain = false → n.deviceTxGain = 0 ∧
    firstGain Usrp.Channel.txGain n.channels = none
  rxGain : n.hasDeviceRxGain = false → n.deviceRxGain = 0 ∧
    firstGain Usrp.Channel.rxGain n.channels = none

theorem stoiText_mem {s : String} {value : ℤ} (h : stoiText s = some value) :
    -2 ^ 31 ≤ value ∧ value < 2 ^ 31 := by
  unfold stoiText at h
  simp only [Option.ite_none_right_eq_some, Bool.and_eq_true,
    decide_eq_true_eq, Option.some_inj] at h
  obtain ⟨⟨⟨-, hlow⟩, hhigh⟩, hvalue⟩ := h
  rw [hvalue] at hlow hhigh
  exact ⟨hlow, hhigh⟩

theorem logicalNodeOf_mem {j : Json} {value : ℤ}
    (h : logicalNodeOf j = some value) : -2 ^ 31 ≤ value ∧ value < 2 ^ 31 := by
  have hint : ∀ v : Json, (getInt v).map Int32.toInt = some value →
      -2 ^ 31 ≤ value ∧ value < 2 ^ 31 := by
    intro v hv
    obtain ⟨z, -, rfl⟩ := Option.map_eq_some_iff.mp hv
    exact ⟨z.le_toInt, z.toInt_lt⟩
  unfold logicalNodeOf at h
  split at h
  · exact stoiText_mem h
  · split_ifs at h
    exact hint _ h
  · exact absurd h (by simp)

theorem narrow_readCoordinate {text : NumberText} (htext : text.StofIsFloat)
    {loc : Json} {alt : FloatValue}
    (h : readCoordinate loc "alt" (getFloat 24) text.stof = some alt) :
    alt.narrow 24 = alt := by
  have hround : ∀ q, FloatValue.finite (FloatValue.roundBinary 24
      (FloatValue.roundBinary 24 q)) =
      .finite (FloatValue.roundBinary 24 q) := fun q =>
    congrArg FloatValue.finite
      (FloatValue.roundBinary_roundBinary (by norm_num) q)
  unfold readCoordinate at h
  cases hfound : loc.find? "alt" with
  | none =>
      rw [hfound] at h
      obtain rfl := Option.some.inj h
      exact congrArg FloatValue.finite (FloatValue.roundBinary_zero 24)
  | some v =>
      rw [hfound] at h
      cases v with
      | integer z =>
          obtain rfl := Option.some.inj h
          exact hround z
      | float x =>
          obtain rfl := Option.some.inj h
          exact hround x
      | string s => exact htext s alt h
      | _ => exact absurd h (by simp [isNumber, getString])

theorem altitude_placeOf {text : NumberText} (htext : text.StofIsFloat)
    {j : Json} {loc : Location} (h : placeOf text j = some loc) :
    loc.alt.narrow 24 = loc.alt := by
  unfold placeOf at h
  split at h
  · simp only [Option.bind_eq_bind, Option.bind_eq_some_iff] at h
    obtain ⟨lat, -, lon, -, alt, halt, hloc⟩ := h
    obtain rfl := Option.some.inj hloc
    exact narrow_readCoordinate htext halt
  · exact absurd h (by simp)

theorem nodeTypeOf_mem (j : Json) :
    ∃ code : Int32, nodeTypeOf j = .ofCode code.toInt := by
  unfold nodeTypeOf
  split
  · exact ⟨_, rfl⟩
  · exact ⟨0, rfl⟩

theorem decoded_fromJson {text : NumberText} (htext : text.StofIsFloat)
    (j : Json) : Decoded (fromJson text j) := by
  have hnode : -2 ^ 31 ≤ (logicalNodeOf j).getD (-1) ∧
      (logicalNodeOf j).getD (-1) < 2 ^ 31 := by
    cases h : logicalNodeOf j with
    | none => exact ⟨by norm_num, by norm_num⟩
    | some value => exact logicalNodeOf_mem h
  have hgain : ∀ key gain, (gainOf j key gain).isSome = false →
      (gainOf j key gain).getD 0 = 0 ∧
        firstGain gain (channelsOf j) = none := by
    intro key gain h
    rw [Option.isSome_eq_false_iff, Option.isNone_iff_eq_none] at h
    refine ⟨by rw [h]; rfl, ?_⟩
    rw [gainOf] at h
    cases hgiven : givenGain j key with
    | none => rwa [hgiven] at h
    | some x =>
        rw [hgiven] at h
        exact absurd h (by simp)
  rw [fromJson_eq]
  exact
    { logicalNode_ge := hnode.1
      logicalNode_lt := hnode.2
      nodeType := nodeTypeOf_mem j
      location := fun h => by
        have hnone : placeOf text j = none := by
          simpa [assemble] using h
        rw [assemble, hnone]
        rfl
      altitude := by
        cases h : placeOf text j with
        | none => rfl
        | some loc => exact altitude_placeOf htext h
      txGain := hgain "tx" Usrp.Channel.txGain
      rxGain := hgain "rx" Usrp.Channel.rxGain }

/-! ## Reading back what has been written -/

/-- What is read and written is the same. -/
structure Agrees (n m : NodeConfig) : Prop where
  id : m.id = n.id
  name : m.name = n.name
  numChannels : m.numChannels = n.numChannels
  sampleRate : m.sampleRate = n.sampleRate
  channels : m.channels = n.channels
  logicalNode : m.logicalNode = n.logicalNode
  location : m.location = n.location
  hasLocation : m.hasLocation = n.hasLocation
  vehicleAddress : m.vehicleAddress = n.vehicleAddress
  aerpawKey : m.aerpawKey = n.aerpawKey
  nodeType : m.nodeType = n.nodeType
  deviceTxGain : m.deviceTxGain = n.deviceTxGain
  deviceRxGain : m.deviceRxGain = n.deviceRxGain
  hasDeviceTxGain : m.hasDeviceTxGain = n.hasDeviceTxGain
  hasDeviceRxGain : m.hasDeviceRxGain = n.hasDeviceRxGain
  inputFormat : m.inputFormat = n.inputFormat
  outputFormat : m.outputFormat = n.outputFormat

/-- The configuration with its unused parts and a negative logical node
blank. -/
def inUse (n : NodeConfig) : NodeConfig :=
  { n with
    channels := n.channels.map Usrp.Channel.inUse
    logicalNode := if n.hasLogicalNode then n.logicalNode else -1 }

variable (text : NumberText) {n : NodeConfig}

theorem decode_encode : decode text (encode n) =
    { assemble (assigned (n.members none)) none with
      location :=
        if n.hasLocation then
          { n.location with alt := n.location.alt.narrow 24 }
        else default.location
      hasLocation := n.hasLocation } := by
  have hplace : placeOf text (assigned (n.members none)) = none := by
    rw [placeOf, find?_members]
    rfl
  rw [decode, encode, fromJson_eq, hplace]
  cases n.hasLocation <;> rfl

theorem sameBut_members (location location' : Option Json) :
    SameBut "location" (assigned (n.members location))
      (assigned (n.members location')) := by
  intro key hkey
  rw [find?_members, find?_members]
  simp only [members, List.lookup_cons, beq_false_of_ne hkey]

/-- The first channel of a configuration that is read back gives no gain if
the first channel written gives none. -/
theorem firstGain_channelsOf_members {gain : Usrp.Channel → ℚ}
    (hgain : ∀ c, gain c.inUse = gain c ∨ gain c.inUse = 0)
    (hdefault : gain Usrp.Channel.default = 0) (location : Option Json)
    (h : firstGain gain n.channels = none) :
    firstGain gain (channelsOf (assigned (n.members location))) = none := by
  rw [channelsOf_members]
  cases hchannels : n.channels with
  | nil => exact firstGain_replicate hdefault n.numChannels.toNat
  | cons c rest =>
      rw [hchannels] at h
      obtain hsame | hblank := hgain c
      · exact (congrArg (fun x => (some x).filter isGain) hsame).trans h
      · exact filter_isGain_of_eq_zero hblank

theorem orElse_gain {set : Bool} {x : ℚ} {first : Option ℚ}
    (h : set = false → x = 0 ∧ first = none) :
    ((if set then some x else none).orElse fun _ => first).getD 0 = x ∧
      ((if set then some x else none).orElse fun _ => first).isSome = set := by
  cases set with
  | true => exact ⟨rfl, rfl⟩
  | false =>
      obtain ⟨hx, hfirst⟩ := h rfl
      rw [hx, hfirst]
      exact ⟨rfl, rfl⟩

theorem gainOf_members {key : String} {gain : Usrp.Channel → ℚ} {set : Bool}
    {x : ℚ} {location : Option Json}
    (hgiven : givenGain (assigned (n.members location)) key =
      if set then some x else none)
    (hinUse : ∀ c, gain c.inUse = gain c ∨ gain c.inUse = 0)
    (hdefault : gain Usrp.Channel.default = 0)
    (h : set = false → x = 0 ∧ firstGain gain n.channels = none) :
    (gainOf (assigned (n.members location)) key gain).getD 0 = x ∧
      (gainOf (assigned (n.members location)) key gain).isSome = set := by
  rw [gainOf, hgiven]
  exact orElse_gain fun hset => ⟨(h hset).1,
    firstGain_channelsOf_members hinUse hdefault location (h hset).2⟩

/-- Everything but the channels is read back. -/
theorem agrees_decode_encode (h : Decoded n) :
    Agrees { n.inUse with channels := (decode text (encode n)).channels }
      (decode text (encode n)) := by
  obtain ⟨htx, hhasTx⟩ := gainOf_members (givenGain_members n none).1
    (fun c => c.tx.gain_inUse) rfl h.txGain
  obtain ⟨hrx, hhasRx⟩ := gainOf_members (givenGain_members n none).2
    (fun c => c.rx.gain_inUse) rfl h.rxGain
  obtain ⟨code, hcode⟩ := h.nodeType
  have hlocation : (if n.hasLocation then
      { n.location with alt := n.location.alt.narrow 24 }
      else default.location) = n.location := by
    rw [h.altitude]
    split_ifs with hset
    · rfl
    · exact (h.location (Bool.eq_false_iff.mpr hset)).symm
  rw [decode_encode]
  exact
    { id := idOf_members n none
      name := nameOf_members n none
      numChannels := countOf_members n none
      sampleRate := rateOf_members n none
      channels := rfl
      logicalNode :=
        logicalNodeOf_members n none h.logicalNode_ge h.logicalNode_lt
      location := hlocation
      hasLocation := rfl
      vehicleAddress := vehicleOf_members n none
      aerpawKey := aerpawKeyOf_members n none
      nodeType := nodeTypeOf_members n none code hcode
      deviceTxGain := htx
      deviceRxGain := hrx
      hasDeviceTxGain := hhasTx
      hasDeviceRxGain := hhasRx
      inputFormat := (formats_members n none).1
      outputFormat := (formats_members n none).2 }

theorem channels_decode_encode (h : n.channels = [] → n.numChannels = 0) :
    (decode text (encode n)).channels = n.inUse.channels := by
  rw [decode_encode]
  change channelsOf (assigned (n.members none)) =
    n.channels.map Usrp.Channel.inUse
  rw [channelsOf_members]
  split_ifs with hempty
  · rw [List.isEmpty_iff] at hempty
    rw [h hempty, hempty]
    rfl
  · rfl

theorem placeOf_members {loc : Json} (h : n.location.toJson = some loc) :
    placeOf text (assigned (n.members (some loc))) =
      some { n.location with alt := n.location.alt.narrow 24 } := by
  rw [placeOf, find?_members]
  unfold Location.toJson at h
  cases hlocation : n.location with
  | mk lat lon alt =>
      rw [hlocation] at h
      cases lat with
      | finite lat =>
          cases lon with
          | finite lon =>
              cases alt with
              | finite alt =>
                  obtain rfl := Option.some.inj h
                  rfl
              | _ => exact absurd h (by simp [coordinateToJson])
          | _ => exact absurd h (by simp [coordinateToJson])
      | _ => exact absurd h (by simp [coordinateToJson])

/-- Where the location is finite, the two readings are the same. -/
theorem decode_encode_eq_fromJson {j : Json} (h : n.toJson = some j) :
    decode text (encode n) = fromJson text j := by
  rw [decode_encode, fromJson_eq]
  unfold toJson at h
  split_ifs at h with hset
  · obtain ⟨loc, hloc, rfl⟩ := Option.map_eq_some_iff.mp h
    rw [placeOf_members text hloc,
      assemble_congr (sameBut_members (some loc) none), if_pos hset, hset]
    rfl
  · obtain rfl := Option.some.inj h
    have hplace : placeOf text (assigned (n.members none)) = none := by
      rw [placeOf, find?_members]
      rfl
    rw [hplace, if_neg hset, Bool.eq_false_iff.mpr hset]
    rfl

/-- Reading, writing and reading again keeps what is in use. -/
theorem agrees_decode_encode_fromJson {text : NumberText}
    (htext : text.StofIsFloat) (j : Json) :
    let n := fromJson text j
    let m := decode text (encode n)
    Agrees { n.inUse with channels := m.channels } m ∧
      ((n.channels = [] → n.numChannels = 0) →
        m.channels = n.inUse.channels) :=
  ⟨agrees_decode_encode text (decoded_fromJson htext j),
    channels_decode_encode text⟩

theorem agrees_decode_encode_tuned :
    let n := fromJson .none (object [("id", string "n1"),
      ("logical_node", integer 3),
      ("channels", array [object [("tx", object [("tune_freq", float 5),
        ("gain", float 2), ("antenna", string "TX/RX")])]])])
    let m := decode .none (encode n)
    Agrees { n.inUse with channels := m.channels } m ∧
      m.channels = [⟨5, 0, 2, 0, "TX/RX", ""⟩] := by
  obtain ⟨hrest, hchannels⟩ := @agrees_decode_encode_fromJson .none
    (fun _ _ h => nomatch h) (object [("id", string "n1"),
      ("logical_node", integer 3),
      ("channels", array [object [("tx", object [("tune_freq", float 5),
        ("gain", float 2), ("antenna", string "TX/RX")])]])])
  exact ⟨hrest, (hchannels (by decide +kernel)).trans (by decide +kernel)⟩

/-- A channel that is not tuned yet loses its gain and its antenna. -/
theorem not_agrees_untuned :
    let n := fromJson .none (object [("id", string "n1"),
      ("channels", array [object [("tx", object [("tune_freq", float 0),
        ("gain", float 2), ("antenna", string "TX/RX")])]])])
    ¬ Agrees n (decode .none (encode n)) := by
  intro n h
  exact absurd h.channels (by decide +kernel)

end NodeConfig
end Chem
