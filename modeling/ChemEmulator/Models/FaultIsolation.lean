import ChemEmulator.Models.ConfigFields

/-!
# What one bad field costs

Two JSON objects that differ in one field, at the top or inside a part of a
channel, should give configurations that differ in what is decoded from that
field only.  The fields that are read one after the other in one `try` block
break this: a bad `id` costs the name, and inside a part a bad `tune_freq` costs
the gain and the antenna, a bad `gain` the antenna.  So does `AERPAW`, which
hides `aerpaw` even when it gives no key.
-/

namespace Chem

open Json

namespace Usrp

/-- The parts of a channel. -/
inductive Side where
  | tx
  | rx
deriving DecidableEq

def Side.key : Side → String
  | tx => "tx"
  | rx => "rx"

def Channel.part : Side → Channel → Part
  | .tx => Channel.tx
  | .rx => Channel.rx

def Side.gain (side : Side) (c : Channel) : ℚ := (c.part side).gain

/-- The members of a part. -/
inductive PartField where
  | tuneFreq
  | gain
  | antenna
deriving DecidableEq

def PartField.key : PartField → String
  | tuneFreq => "tune_freq"
  | gain => "gain"
  | antenna => "antenna"

/-- The part with nothing but one value. -/
def Part.only (p : Part) : PartField → Part
  | .tuneFreq => { Part.blank with tuneFreq := p.tuneFreq }
  | .gain => { Part.blank with gain := p.gain }
  | .antenna => { Part.blank with antenna := p.antenna }

/-! ## A part of a channel -/

def freqIn (p : Json) : Option ℚ := (p.find? "tune_freq").bind getDouble

def gainIn (p : Json) : Option ℚ := (p.find? "gain").bind getDouble

def antennaIn (p : Json) : Option String :=
  (p.find? "antenna").bind getString

/-- The value of one member of a part does not decide over values of others. -/
def PartKeeps (key : String) (p p' : Json) : Prop :=
  (key = "tune_freq" → (freqIn p).isSome = (freqIn p').isSome ∨
    ((gainIn p).getD 0 = 0 ∧
      ((gainIn p).isSome → (antennaIn p).getD "" = ""))) ∧
  (key = "gain" → (gainIn p).isSome = (gainIn p').isSome ∨
    freqIn p = none ∨ (antennaIn p).getD "" = "")

theorem Part.fromJson_eq (p : Json) :
    Part.fromJson p =
      ⟨(freqIn p).getD 0, ((freqIn p).bind fun _ => gainIn p).getD 0,
        ((freqIn p).bind fun _ => (gainIn p).bind fun _ => antennaIn p).getD
          ""⟩ := by
  rw [Part.fromJson, freqIn, gainIn, antennaIn]
  cases (p.find? "tune_freq").bind getDouble with
  | none => rfl
  | some freq => cases (p.find? "gain").bind getDouble <;> rfl

/-- A frequency that cannot be read costs the gain and the antenna. -/
theorem later_eq_iff {f f' g : Option ℚ} {a : Option String} :
    ((f.bind fun _ => g).getD 0 = (f'.bind fun _ => g).getD 0 ∧
        (f.bind fun _ => g.bind fun _ => a).getD "" =
          (f'.bind fun _ => g.bind fun _ => a).getD "") ↔
      f.isSome = f'.isSome ∨
        (g.getD 0 = 0 ∧ (g.isSome → a.getD "" = "")) := by
  cases f with
  | none =>
      cases f' <;> cases g <;> simp [@eq_comm ℚ 0, @eq_comm String ""]
  | some _ => cases f' <;> cases g <;> simp

/-- A gain that cannot be read costs the antenna. -/
theorem last_eq_iff {f g g' : Option ℚ} {a : Option String} :
    (f.bind fun _ => g.bind fun _ => a).getD "" =
        (f.bind fun _ => g'.bind fun _ => a).getD "" ↔
      g.isSome = g'.isSome ∨ f = none ∨ a.getD "" = "" := by
  cases f with
  | none => simp
  | some _ => cases g <;> cases g' <;> simp [@eq_comm String ""]

theorem Part.only_eq_iff {p p' : Part} (f : PartField) :
    p.only f = p'.only f ↔
      match f with
      | .tuneFreq => p.tuneFreq = p'.tuneFreq
      | .gain => p.gain = p'.gain
      | .antenna => p.antenna = p'.antenna := by
  cases f <;> simp [Part.only, Part.blank]

/-- The values of the other members of a part are the same exactly if the
member does not decide over them. -/
theorem only_fromJson_iff {p p' : Json} {key : String} (h : SameBut key p p') :
    (∀ f : PartField, f.key ≠ key →
        (Part.fromJson p).only f = (Part.fromJson p').only f) ↔
      PartKeeps key p p' := by
  have hfreq : key ≠ "tune_freq" → freqIn p = freqIn p' := fun hne =>
    congrArg (Option.bind · getDouble) (h "tune_freq" hne.symm)
  have hgain : key ≠ "gain" → gainIn p = gainIn p' := fun hne =>
    congrArg (Option.bind · getDouble) (h "gain" hne.symm)
  have hantenna : key ≠ "antenna" → antennaIn p = antennaIn p' := fun hne =>
    congrArg (Option.bind · getString) (h "antenna" hne.symm)
  rw [Part.fromJson_eq, Part.fromJson_eq]
  by_cases hkey : key = "tune_freq"
  · subst hkey
    rw [← hgain (by decide), ← hantenna (by decide)]
    constructor
    · intro hsame
      refine ⟨fun _ => later_eq_iff.mp ⟨?_, ?_⟩, fun hne =>
        absurd hne (by decide)⟩
      · exact (Part.only_eq_iff .gain).mp (hsame .gain (by decide))
      · exact (Part.only_eq_iff .antenna).mp (hsame .antenna (by decide))
    · intro hkeeps f hf
      obtain ⟨hg, ha⟩ := later_eq_iff.mpr (hkeeps.1 rfl)
      cases f with
      | tuneFreq => exact absurd rfl hf
      | gain => exact (Part.only_eq_iff .gain).mpr hg
      | antenna => exact (Part.only_eq_iff .antenna).mpr ha
  · rw [← hfreq hkey]
    by_cases hkey' : key = "gain"
    · subst hkey'
      rw [← hantenna (by decide)]
      constructor
      · intro hsame
        refine ⟨fun hne => absurd hne (by decide), fun _ => last_eq_iff.mp ?_⟩
        exact (Part.only_eq_iff .antenna).mp (hsame .antenna (by decide))
      · intro hkeeps f hf
        cases f with
        | tuneFreq => rfl
        | gain => exact absurd rfl hf
        | antenna =>
            exact (Part.only_eq_iff .antenna).mpr
              (last_eq_iff.mpr (hkeeps.2 rfl))
    · rw [← hgain hkey']
      refine iff_of_true ?_ ⟨fun heq => absurd heq hkey, fun heq =>
        absurd heq hkey'⟩
      intro f hf
      cases f with
      | tuneFreq => rfl
      | gain => rfl
      | antenna =>
          rw [hantenna (Ne.symm hf)]

end Usrp

namespace NodeConfig

open Usrp

/-! ## Fields and values -/

/-- A field of a JSON configuration: a member, or a member of a part of the
channel at `i`. -/
inductive Site where
  | member (key : String)
  | inPart (i : ℕ) (side : Side) (key : String)

/-- The channel lists differ in one part of one channel, and there in one
member. -/
structure PartsDiffer (i : ℕ) (side : Side) (key : String) (j j' : Json)
    (channels : List Json) (c c' p p' : Json) : Prop where
  rest : SameBut "channels" j j'
  list : j.find? "channels" = some (array channels)
  list' : j'.find? "channels" = some (array (channels.set i c'))
  channel : channels[i]? = some c
  otherPart : SameBut side.key c c'
  part : c.find? side.key = some p
  part' : c'.find? side.key = some p'
  otherValues : SameBut key p p'

/-- The configurations differ in one field, if at all. -/
def DifferOnlyIn : Site → Json → Json → Prop
  | .member key, j, j' => SameBut key j j'
  | .inPart i side key, j, j' =>
      ∃ channels c c' p p', PartsDiffer i side key j j' channels c c' p p'

/-- What a configuration holds. -/
inductive Output where
  | id
  | name
  | numChannels
  | sampleRate
  | channelCount
  | channelValue (i : ℕ) (side : Side) (field : PartField)
  | logicalNode
  | location
  | vehicleAddress
  | aerpawKey
  | deviceGain (side : Side)
  | nodeType
  | inputFormat
  | outputFormat
  /-- What is not read at all. -/
  | others

/-- A device gain and its flag. -/
def deviceGain (n : NodeConfig) : Side → ℚ × Bool
  | .tx => (n.deviceTxGain, n.hasDeviceTxGain)
  | .rx => (n.deviceRxGain, n.hasDeviceRxGain)

def Output.Same (n m : NodeConfig) : Output → Prop
  | id => n.id = m.id
  | name => n.name = m.name
  | numChannels => n.numChannels = m.numChannels
  | sampleRate => n.sampleRate = m.sampleRate
  | channelCount => n.channels.length = m.channels.length
  | channelValue i side field =>
      (n.channels[i]?.map fun c => (c.part side).only field) =
        m.channels[i]?.map fun c => (c.part side).only field
  | logicalNode => n.logicalNode = m.logicalNode
  | location => n.location = m.location ∧ n.hasLocation = m.hasLocation
  | vehicleAddress => n.vehicleAddress = m.vehicleAddress
  | aerpawKey => n.aerpawKey = m.aerpawKey
  | deviceGain side => n.deviceGain side = m.deviceGain side
  | nodeType => n.nodeType = m.nodeType
  | inputFormat => n.inputFormat = m.inputFormat
  | outputFormat => n.outputFormat = m.outputFormat
  | others =>
      n.ipAddress = m.ipAddress ∧ n.portTxNum = m.portTxNum ∧
        n.portRxNum = m.portRxNum ∧ n.characteristics = m.characteristics ∧
        n.txAntennaPattern = m.txAntennaPattern ∧
        n.rxAntennaPattern = m.rxAntennaPattern ∧
        n.hasTxAntennaPattern = m.hasTxAntennaPattern ∧
        n.hasRxAntennaPattern = m.hasRxAntennaPattern

/-- The key that a member gives. -/
def keyAt (j : Json) (member : String) : Option String :=
  (j.find? member).bind keyIn

/-- The channels are those of the list, whatever it holds, or default ones. -/
def ChannelsFrom (j : Json) (key : String) : Prop :=
  key = "channels" ∨ key = "numChannels" ∧ j.contains "channels" = false

/-- The value is decoded from a member.  A member that gives no key and no gain
is not what these are decoded from. -/
def Output.FromMember (j : Json) (key : String) : Output → Prop
  | id => key = "id"
  | name => key = "name"
  | numChannels => key = "numChannels"
  | sampleRate => key = "sample_rate"
  | channelCount => ChannelsFrom j key
  | channelValue _ _ _ => ChannelsFrom j key
  | logicalNode => key = "logical_node"
  | location => key = "location"
  | vehicleAddress => key = "vehicle"
  | aerpawKey =>
      key = "AERPAW" ∧ (keyAt j "AERPAW").isSome ∨
        key = "aerpaw" ∧ j.contains "AERPAW" = false
  | deviceGain side =>
      key = "gains" ∧ (givenGain j side.key).isSome ∨
        key = "channels" ∧ givenGain j side.key = none
  | nodeType => key = "node_type"
  | inputFormat => key = "inputFormat"
  | outputFormat => key = "outputFormat"
  | others => False

/-- The value is decoded from a member of a part: a value of this part, or the
device gain where it is that of the first channel. -/
def Output.FromPart (j : Json) (i : ℕ) (side : Side) (key : String) :
    Output → Prop
  | channelValue i' side' field => i' = i ∧ side' = side ∧ field.key = key
  | deviceGain side' =>
      side' = side ∧ i = 0 ∧ key = "gain" ∧ givenGain j side.key = none
  | _ => False

def Output.DecodedFrom (o : Output) (j : Json) : Site → Prop
  | .member key => o.FromMember j key
  | .inPart i side key => o.FromPart j i side key

/-- What is not decoded from the field is the same. -/
def Isolated (text : NumberText) (site : Site) (j j' : Json) : Prop :=
  ∀ o : Output, ¬ o.DecodedFrom j site → ¬ o.DecodedFrom j' site →
    o.Same (fromJson text j) (fromJson text j')

/-- A part of a channel of the list. -/
def partAt (j : Json) (i : ℕ) (side : Side) : Option Json :=
  match j.find? "channels" with
  | some (.array channels) => channels[i]?.bind fun c => c.find? side.key
  | _ => none

/-- The field does not decide over other fields. -/
def Keeps : Site → Json → Json → Prop
  | .member key, j, j' =>
      (key = "id" →
        badText j "id" = badText j' "id" ∨ (j.stringAt "name").getD "" = "") ∧
      (key = "AERPAW" →
        (keyAt j "AERPAW").isSome ∨ (keyAt j' "AERPAW").isSome ∨
          j.contains "AERPAW" = j'.contains "AERPAW" ∨
          (keyAt j "aerpaw").getD "" = "")
  | .inPart i side key, j, j' =>
      ∀ p p', partAt j i side = some p → partAt j' i side = some p' →
        PartKeeps key p p'

/-! ## Members -/

section Members

variable {j j' : Json} {key : String}

theorem nameOf_eq_iff (hname : j.stringAt "name" = j'.stringAt "name") :
    nameOf j = nameOf j' ↔
      badText j "id" = badText j' "id" ∨ (j.stringAt "name").getD "" = "" := by
  rw [nameOf, nameOf, ← hname]
  cases badText j "id" <;> cases badText j' "id" <;>
    simp [@eq_comm String ""]

theorem aerpawKeyOf_eq (j : Json) :
    aerpawKeyOf j =
      if j.contains "AERPAW" then keyAt j "AERPAW" else keyAt j "aerpaw" := by
  rw [aerpawKeyOf, contains, keyAt, keyAt]
  cases j.find? "AERPAW" <;> rfl

theorem aerpawKeyOf_eq_iff (haerpaw : keyAt j "aerpaw" = keyAt j' "aerpaw")
    (h : keyAt j "AERPAW" = none) (h' : keyAt j' "AERPAW" = none) :
    (aerpawKeyOf j).getD "" = (aerpawKeyOf j').getD "" ↔
      j.contains "AERPAW" = j'.contains "AERPAW" ∨
        (keyAt j "aerpaw").getD "" = "" := by
  rw [aerpawKeyOf_eq, aerpawKeyOf_eq, h, h', ← haerpaw]
  cases j.contains "AERPAW" <;> cases j'.contains "AERPAW" <;>
    simp [@eq_comm String ""]

theorem reads_keyAt (member : String) : Reads [member] (keyAt · member) := by
  intro j j' h
  simp only [keyAt, h member (List.mem_singleton_self member)]

theorem channelsOf_eq_of_sameBut (h : SameBut key j j')
    (hkey : ¬ ChannelsFrom j key) : channelsOf j = channelsOf j' := by
  rw [ChannelsFrom, not_or, not_and, Bool.not_eq_false] at hkey
  have hlist : j.find? "channels" = j'.find? "channels" :=
    h "channels" (Ne.symm hkey.1)
  by_cases hcount : key = "numChannels"
  · have hthere : j.contains "channels" = true := hkey.2 hcount
    rw [contains, Option.isSome_iff_exists] at hthere
    obtain ⟨v, hv⟩ := hthere
    rw [channelsOf, channelsOf, ← hlist, hv]
    cases v <;> rfl
  · exact reads_channelsOf.eq_of_sameBut h
      (by simp [hcount, hkey.1])

theorem deviceGain_assemble (place : Option Location) (side : Side) :
    (assemble j place).deviceGain side =
      ((gainOf j side.key side.gain).getD 0,
        (gainOf j side.key side.gain).isSome) := by
  cases side <;> rfl

theorem gainOf_of_not_given (side : Side)
    (h : givenGain j side.key = none) :
    gainOf j side.key side.gain = firstGain side.gain (channelsOf j) := by
  rw [gainOf, h]
  rfl

/-- Without a list, the channels give no gain. -/
theorem firstGain_channelsOf_of_missing (side : Side)
    (h : j.contains "channels" = false) :
    firstGain side.gain (channelsOf j) = none := by
  rw [contains, Option.isSome_eq_false_iff, Option.isNone_iff_eq_none] at h
  rw [channelsOf, h]
  exact firstGain_replicate (by cases side <;> rfl) _

theorem gainOf_eq_of_sameBut (h : SameBut key j j') (side : Side)
    (hj : ¬ (Output.deviceGain side).FromMember j key)
    (hj' : ¬ (Output.deviceGain side).FromMember j' key) :
    gainOf j side.key side.gain = gainOf j' side.key side.gain := by
  rw [Output.FromMember, not_or, not_and, not_and, Bool.not_eq_true,
    Option.isSome_eq_false_iff, Option.isNone_iff_eq_none] at hj hj'
  by_cases hgains : key = "gains"
  · rw [gainOf_of_not_given side (hj.1 hgains),
      gainOf_of_not_given side (hj'.1 hgains),
      reads_channelsOf.eq_of_sameBut h (by rw [hgains]; decide)]
  · have hgiven : givenGain j side.key = givenGain j' side.key :=
      (reads_givenGain side.key).eq_of_ne h hgains
    cases hnone : givenGain j side.key with
    | some x => rw [gainOf, gainOf, ← hgiven, hnone]; rfl
    | none =>
        rw [gainOf_of_not_given side hnone,
          gainOf_of_not_given side (hgiven ▸ hnone)]
        have hlist : key ≠ "channels" := fun hkey => hj.2 hkey hnone
        cases hthere : j.contains "channels" with
        | true =>
            rw [channelsOf_eq_of_sameBut h]
            rintro (hkey | ⟨-, hmissing⟩)
            · exact hlist hkey
            · rw [hthere] at hmissing
              exact Bool.noConfusion hmissing
        | false =>
            rw [firstGain_channelsOf_of_missing side hthere,
              firstGain_channelsOf_of_missing side]
            rw [← (reads_contains "channels").eq_of_ne h hlist, hthere]

theorem aerpawKeyOf_eq_of_sameBut (h : SameBut key j j')
    (hj : ¬ Output.aerpawKey.FromMember j key)
    (hj' : ¬ Output.aerpawKey.FromMember j' key)
    (hkeeps : Keeps (.member key) j j') :
    (aerpawKeyOf j).getD "" = (aerpawKeyOf j').getD "" := by
  rw [Output.FromMember, not_or, not_and, not_and,
    Option.not_isSome_iff_eq_none, Bool.not_eq_false] at hj hj'
  by_cases hupper : key = "AERPAW"
  · have hnone := hj.1 hupper
    have hnone' := hj'.1 hupper
    have hlower : keyAt j "aerpaw" = keyAt j' "aerpaw" :=
      (reads_keyAt "aerpaw").eq_of_ne h (by rw [hupper]; decide)
    apply (aerpawKeyOf_eq_iff hlower hnone hnone').mpr
    simpa [hnone, hnone'] using hkeeps.2 hupper
  · by_cases hlower : key = "aerpaw"
    · rw [aerpawKeyOf_eq, aerpawKeyOf_eq, hj.2 hlower, hj'.2 hlower, if_pos rfl,
        if_pos rfl, (reads_keyAt "AERPAW").eq_of_ne h hupper]
    · rw [reads_aerpawKeyOf.eq_of_sameBut h (by simp [hupper, hlower])]

theorem keeps_of_isolated {text : NumberText} (h : SameBut key j j')
    (hisolated : Isolated text (.member key) j j') :
    Keeps (.member key) j j' := by
  refine ⟨?_, ?_⟩
  · rintro rfl
    have hother : "id" ≠ "name" := by decide
    have hsame := hisolated .name hother hother
    rw [fromJson_eq, fromJson_eq] at hsame
    exact (nameOf_eq_iff ((reads_stringAt "name").eq_of_ne h hother)).mp hsame
  · rintro rfl
    by_cases hgives : (keyAt j "AERPAW").isSome
    · exact Or.inl hgives
    by_cases hgives' : (keyAt j' "AERPAW").isSome
    · exact Or.inr (Or.inl hgives')
    have hsame := hisolated .aerpawKey
      (by simp [Output.DecodedFrom, Output.FromMember, hgives])
      (by simp [Output.DecodedFrom, Output.FromMember, hgives'])
    rw [fromJson_eq, fromJson_eq] at hsame
    exact Or.inr (Or.inr ((aerpawKeyOf_eq_iff
      ((reads_keyAt "aerpaw").eq_of_ne h (by decide))
      (Option.not_isSome_iff_eq_none.mp hgives)
      (Option.not_isSome_iff_eq_none.mp hgives')).mp hsame))

theorem nameOf_eq_of_sameBut (h : SameBut key j j') (hkey : key ≠ "name")
    (hkeeps : Keeps (.member key) j j') : nameOf j = nameOf j' := by
  by_cases hid : key = "id"
  · exact (nameOf_eq_iff ((reads_stringAt "name").eq_of_ne h hkey)).mpr
      (hkeeps.1 hid)
  · exact reads_nameOf.eq_of_sameBut h (by simp [hid, hkey])

theorem isolated_of_keeps (text : NumberText) (h : SameBut key j j')
    (hkeeps : Keeps (.member key) j j') :
    Isolated text (.member key) j j' := by
  intro o hj hj'
  rw [fromJson_eq, fromJson_eq]
  cases o with
  | id => exact reads_idOf.eq_of_ne h hj
  | name => exact nameOf_eq_of_sameBut h hj hkeeps
  | numChannels => exact reads_countOf.eq_of_ne h hj
  | sampleRate => exact reads_rateOf.eq_of_ne h hj
  | channelCount =>
      exact congrArg List.length (channelsOf_eq_of_sameBut h hj)
  | channelValue i side field =>
      change (channelsOf j)[i]?.map _ = (channelsOf j')[i]?.map _
      rw [channelsOf_eq_of_sameBut h hj]
  | logicalNode =>
      exact congrArg (Option.getD · (-1))
        (reads_logicalNodeOf.eq_of_ne h hj)
  | location =>
      have hplace := (reads_placeOf text).eq_of_ne h hj
      exact ⟨congrArg (Option.getD · default.location) hplace,
        congrArg Option.isSome hplace⟩
  | vehicleAddress =>
      exact congrArg (Option.getD · "") (reads_vehicleOf.eq_of_ne h hj)
  | aerpawKey => exact aerpawKeyOf_eq_of_sameBut h hj hj' hkeeps
  | deviceGain side =>
      change (assemble j _).deviceGain side = (assemble j' _).deviceGain side
      rw [deviceGain_assemble, deviceGain_assemble,
        gainOf_eq_of_sameBut h side hj hj']
  | nodeType => exact reads_nodeTypeOf.eq_of_ne h hj
  | inputFormat =>
      exact congrArg (Option.getD · "")
        ((reads_stringAt "inputFormat").eq_of_ne h hj)
  | outputFormat =>
      exact congrArg (Option.getD · "")
        ((reads_stringAt "outputFormat").eq_of_ne h hj)
  | others => exact ⟨rfl, rfl, rfl, rfl, rfl, rfl, rfl, rfl⟩

theorem isolated_member_iff (text : NumberText) (h : SameBut key j j') :
    Isolated text (.member key) j j' ↔ Keeps (.member key) j j' :=
  ⟨keeps_of_isolated h, isolated_of_keeps text h⟩

end Members

/-! ## Parts of channels -/

theorem part_fromJson (c : Json) (side : Side) :
    (Channel.fromJson c).part side = Part.ofMember (c.find? side.key) := by
  rw [Channel.fromJson_eq]
  cases side <;> rfl

theorem only_part_fromJson {channels : List Json} {k : ℕ} {c : Json}
    (hc : channels[k]? = some c) (side : Side) (field : PartField) :
    ((channels.map Channel.fromJson)[k]?.map fun c =>
        (c.part side).only field) =
      some ((Part.ofMember (c.find? side.key)).only field) := by
  rw [List.getElem?_map, hc, Option.map_some, Option.map_some, part_fromJson]

theorem firstGain_eq (side : Side) (channels : List Usrp.Channel) :
    firstGain side.gain channels =
      ((channels[0]?.map fun c => (c.part side).only .gain).map
        Part.gain).filter isGain := by
  cases channels <;> rfl

namespace PartsDiffer

variable {j j' : Json} {i : ℕ} {side : Side} {key : String}
  {channels : List Json} {c c' p p' : Json}
  (h : PartsDiffer i side key j j' channels c c' p p')
include h

theorem channel' : (channels.set i c')[i]? = some c' :=
  List.getElem?_set_self (List.getElem?_eq_some_iff.mp h.channel).1

theorem channelsOf_eq : channelsOf j = channels.map Channel.fromJson := by
  rw [channelsOf, h.list]

theorem channelsOf_eq' :
    channelsOf j' = (channels.set i c').map Channel.fromJson := by
  rw [channelsOf, h.list']

theorem partAt_eq : partAt j i side = some p := by
  rw [partAt, h.list]
  change channels[i]?.bind _ = _
  rw [h.channel]
  exact h.part

theorem partAt_eq' : partAt j' i side = some p' := by
  rw [partAt, h.list']
  change (channels.set i c')[i]?.bind _ = _
  rw [h.channel']
  exact h.part'

/-- The values of the part itself. -/
theorem only_part_eq_iff (field : PartField) :
    (((channelsOf j)[i]?.map fun c => (c.part side).only field) =
        (channelsOf j')[i]?.map fun c => (c.part side).only field) ↔
      (Part.fromJson p).only field = (Part.fromJson p').only field := by
  rw [h.channelsOf_eq, h.channelsOf_eq', only_part_fromJson h.channel,
    only_part_fromJson h.channel', h.part, h.part']
  exact Option.some_inj

/-- The values of all channels, but those of the member that differs. -/
theorem only_part_eq (hkeeps : PartKeeps key p p') {k : ℕ} {side' : Side}
    {field : PartField} (hfield : ¬ (k = i ∧ side' = side ∧ field.key = key)) :
    ((channelsOf j)[k]?.map fun c => (c.part side').only field) =
      (channelsOf j')[k]?.map fun c => (c.part side').only field := by
  by_cases hk : k = i
  · subst hk
    by_cases hside : side' = side
    · subst hside
      have hother : field.key ≠ key := fun heq => hfield ⟨rfl, rfl, heq⟩
      exact (h.only_part_eq_iff field).mpr
        ((only_fromJson_iff h.otherValues).mpr hkeeps field hother)
    · have hother : side'.key ≠ side.key := by
        cases side <;> cases side' <;> simp_all [Side.key]
      rw [h.channelsOf_eq, h.channelsOf_eq', only_part_fromJson h.channel,
        only_part_fromJson h.channel', h.otherPart side'.key hother]
  · rw [h.channelsOf_eq, h.channelsOf_eq', List.getElem?_map,
      List.getElem?_map, List.getElem?_set_ne (Ne.symm hk)]

theorem gainOf_eq (hkeeps : PartKeeps key p p') (side' : Side)
    (hfrom : ¬ (Output.deviceGain side').FromPart j i side key) :
    gainOf j side'.key side'.gain = gainOf j' side'.key side'.gain := by
  have hgiven : givenGain j side'.key = givenGain j' side'.key :=
    (reads_givenGain side'.key).eq_of_ne h.rest (by decide)
  cases hnone : givenGain j side'.key with
  | some x =>
      rw [gainOf, gainOf, ← hgiven, hnone]
      rfl
  | none =>
      rw [gainOf_of_not_given side' hnone,
        gainOf_of_not_given side' (hgiven ▸ hnone), firstGain_eq,
        firstGain_eq, h.only_part_eq hkeeps]
      rintro ⟨rfl, rfl, rfl⟩
      exact hfrom ⟨rfl, rfl, rfl, hnone⟩

theorem keeps_of_isolated {text : NumberText}
    (hisolated : Isolated text (.inPart i side key) j j') :
    PartKeeps key p p' := by
  apply (only_fromJson_iff h.otherValues).mp
  intro field hfield
  have hvalue := hisolated (.channelValue i side field)
    (fun hfrom => hfield hfrom.2.2) (fun hfrom => hfield hfrom.2.2)
  rw [fromJson_eq, fromJson_eq] at hvalue
  exact (h.only_part_eq_iff field).mp hvalue

theorem isolated_of_keeps (text : NumberText) (hkeeps : PartKeeps key p p') :
    Isolated text (.inPart i side key) j j' := by
  intro o ho _
  have hmember : Isolated text (.member "channels") j j' :=
    (isolated_member_iff text h.rest).mpr
      ⟨fun heq => absurd heq (by decide), fun heq => absurd heq (by decide)⟩
  cases o with
  | channelCount =>
      rw [fromJson_eq, fromJson_eq]
      change (channelsOf j).length = (channelsOf j').length
      rw [h.channelsOf_eq, h.channelsOf_eq', List.length_map, List.length_map,
        List.length_set]
  | channelValue k side' field =>
      rw [fromJson_eq, fromJson_eq]
      exact h.only_part_eq hkeeps ho
  | deviceGain side' =>
      rw [fromJson_eq, fromJson_eq]
      change (assemble j _).deviceGain side' = (assemble j' _).deviceGain side'
      rw [deviceGain_assemble, deviceGain_assemble, h.gainOf_eq hkeeps side' ho]
  | _ =>
      -- not made of the channels
      exact hmember _ (by simp [Output.DecodedFrom, Output.FromMember])
        (by simp [Output.DecodedFrom, Output.FromMember])

end PartsDiffer

theorem isolated_inPart_iff (text : NumberText) {j j' : Json} {i : ℕ}
    {side : Side} {key : String}
    (h : DifferOnlyIn (.inPart i side key) j j') :
    Isolated text (.inPart i side key) j j' ↔
      Keeps (.inPart i side key) j j' := by
  obtain ⟨channels, c, c', p, p', hdiffer⟩ := h
  constructor
  · intro hisolated q q' hq hq'
    obtain rfl := Option.some.inj (hdiffer.partAt_eq.symm.trans hq)
    obtain rfl := Option.some.inj (hdiffer.partAt_eq'.symm.trans hq')
    exact hdiffer.keeps_of_isolated hisolated
  · intro hkeeps
    exact hdiffer.isolated_of_keeps text
      (hkeeps p p' hdiffer.partAt_eq hdiffer.partAt_eq')

theorem isolated_iff (text : NumberText) {site : Site} {j j' : Json}
    (h : DifferOnlyIn site j j') :
    Isolated text site j j' ↔ Keeps site j j' := by
  cases site with
  | member key => exact isolated_member_iff text h
  | inPart i side key => exact isolated_inPart_iff text h

theorem isolated_bad_count :
    Isolated .none (.member "numChannels")
      (object [("numChannels", string "two"), ("name", string "x")])
      (object [("name", string "x")]) := by
  refine (isolated_iff .none ?_).mpr
    ⟨fun heq => absurd heq (by decide), fun heq => absurd heq (by decide)⟩
  intro other hother
  simp only [find?, List.lookup_cons, beq_false_of_ne hother]

/-- A number for an identifier costs the name. -/
theorem not_isolated_bad_id :
    let j := object [("id", integer 5), ("name", string "x")]
    let j' := object [("name", string "x")]
    DifferOnlyIn (.member "id") j j' ∧
      ¬ Isolated .none (.member "id") j j' := by
  refine ⟨fun other hother => ?_, fun hisolated => ?_⟩
  · simp only [find?, List.lookup_cons, beq_false_of_ne hother]
  · have hother : "id" ≠ "name" := by decide
    have hname : (fromJson .none (object [("id", integer 5),
        ("name", string "x")])).name =
        (fromJson .none (object [("name", string "x")])).name :=
      hisolated .name hother hother
    exact absurd hname (by decide +kernel)

end NodeConfig

end Chem
