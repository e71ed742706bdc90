import ChemEmulator.Node.Reregistration

/-!
# Which sample rate is stored

A request carries a transmit and a receive rate.  They should end up in the
stored configuration, in the receiver and in the transmitter.  The rate is
taken from the request where the frequency stays, and from the stored
configuration where it changes; each direction decides for itself, and the
downlink sees what the uplink has stored.  A third way out, for a request that
equals the stored configuration, takes no rate at all.
-/

namespace Chem

open PartialRuns

namespace Controller

/-! ## One assignment -/

/-- The rate that an endpoint has after an assignment. -/
def rateAfter (dir : Direction) (C : Controller) (node : Node)
    (newConfig : NodeConfig) (ch : Usrp.Channel) : UInt32 :=
  match (node.endpoint dir).filter
    fun _ => isRepeat dir C node newConfig ch with
  | some st => st.sampleRate
  | none => toUInt32 (dir.rateOf (if moves dir node ch then
      node.config.sampleRate else newConfig.sampleRate))

theorem equip_rate {dir : Direction} {C C₁ : Controller} {node node₁ : Node}
    {st : EndpointState} (h : equip dir C node = some (some st, C₁, node₁)) :
    (∀ st₀, node.endpoint dir = some st₀ → st.sampleRate = st₀.sampleRate) ∧
      (node.endpoint dir = none →
        st.sampleRate = toUInt32 (dir.rateOf node.config.sampleRate)) := by
  rcases equip_cases h with ⟨-, hnone, -, -⟩ | ⟨-, st', hst', hensured⟩
  · cases hnone
  · cases hst'
    obtain ⟨st₀, hst, hsource⟩ := hensured.endpoint
    have hrate : st.sampleRate = st₀.sampleRate := by
      rw [hst]
      rfl
    rcases hsource with hkept | ⟨hmissing, handle, hcreate⟩
    · refine ⟨fun st₁ hst₁ => ?_, fun hnone => ?_⟩
      · cases hkept.symm.trans hst₁
        exact hrate
      · cases hkept.symm.trans hnone
    · refine ⟨fun st₁ hst₁ => ?_, fun _ => ?_⟩
      · cases hmissing.symm.trans hst₁
      · obtain ⟨-, -, hnew⟩ := endpoint_of_create hcreate
        rw [hrate, hnew, hensured.config_eq]

/-- The endpoint of a direction after its assignment. -/
theorem assignChannel_rate {dir : Direction} {C C' : Controller}
    {node node' : Node} {newConfig : NodeConfig} {ch : Usrp.Channel}
    {rest : List Usrp.Channel} {created : Bool} (hoff : C.sandbox = false)
    (hchannels : newConfig.channels = ch :: rest)
    (h : assignChannel dir C node newConfig = some (created, C', node')) :
    ∃ st, node'.endpoint dir = some st ∧
      st.sampleRate = rateAfter dir C node newConfig ch := by
  obtain ⟨e, C₁, node₁, hequip, hends⟩ := assignChannel_ends hchannels h
  have hspec := equip_spec hequip
  obtain ⟨st, rfl, hst⟩ := hspec.endpoint hoff
  obtain ⟨hkept, hnew⟩ := equip_rate hequip
  have hfilter : isRepeat dir C node newConfig ch = false →
      (node.endpoint dir).filter
        (fun _ => isRepeat dir C node newConfig ch) = none := by
    intro hrepeat
    cases node.endpoint dir <;> simp [hrepeat]
  unfold rateAfter
  cases hends with
  | repeated hrepeat hstill =>
      refine ⟨st, hst, ?_⟩
      cases hstored : node.endpoint dir with
      | some st₀ =>
          simp only [hrepeat, Option.filter_some, if_true]
          exact hkept st₀ hstored
      | none =>
          rw [hstill, hnew hstored,
            sampleRate_of_compare (Bool.and_eq_true_iff.mp hrepeat).1]
          rfl
  | moved hrepeat hmoves hjoin =>
      obtain ⟨-, -, -, -, hendpoint, -⟩ := joinChannel_spec hjoin
      refine ⟨_, hendpoint st rfl, ?_⟩
      rw [hfilter hrepeat, if_pos hmoves, hspec.sampleRate]
      rfl
  | kept hrepeat hstill =>
      obtain ⟨-, -, hendpoint, -⟩ :=
        keepChannel_spec dir (some st) node₁ newConfig
      refine ⟨_, hendpoint st rfl, ?_⟩
      rw [hfilter hrepeat, hstill, if_neg Bool.false_ne_true]
      rfl

/-! ## The channels after the uplink -/

/-- Nobody is left in the intermediate of the node's old uplink frequency when
the node goes. -/
def leavesEmpty (C : Controller) (node : Node) : Bool :=
  (C.intermediateMap.lookup (prevFreq .uplink node)).any fun I =>
    I.destinationMap.keys.isEmpty &&
      (I.sourceMap.erase node.config.id).keys.isEmpty &&
      I.sandboxNodes.isEmpty

theorem isEmpty_detachSource (I : Intermediate) (e : Endpoint) :
    (I.detachSource e).2.isEmpty =
      (I.destinationMap.keys.isEmpty && (I.sourceMap.erase e.id).keys.isEmpty &&
        I.sandboxNodes.isEmpty) := by
  unfold Intermediate.detachSource
  by_cases hmem : e.id ∈ I.sourceMap
  · simp only [hmem, if_true, Intermediate.emptyChannelChecker]
    split_ifs <;> rfl
  · have hsame : (I.sourceMap.erase e.id).keys = I.sourceMap.keys := by
      rw [AList.keys_erase]
      exact List.erase_of_not_mem (fun h => hmem (AList.mem_keys.mpr h))
    simp only [hmem, if_false, hsame]
    rfl

theorem lookup_createChannel_ne (C : Controller) {freq freq' : ℚ}
    (h : freq' ≠ freq) :
    (C.createChannel freq).intermediateMap.lookup freq' =
      C.intermediateMap.lookup freq' := by
  unfold createChannel
  split_ifs
  · rfl
  · exact AList.lookup_insert_ne h

/-- Leaving drops the intermediate if nobody else is there. -/
theorem mem_leaveChannel {C : Controller} (hC : C.KeysMatch) (freq : ℚ)
    (st : EndpointState) (node : Node) (freq' : ℚ) :
    freq' ∈ (leaveChannel .uplink C freq (some st) node).intermediateMap ↔
      freq' ∈ C.intermediateMap ∧ ¬(freq' = freq ∧
        (C.intermediateMap.lookup freq).any (fun I =>
          (I.detachSource st.endpoint).2.isEmpty) = true) := by
  have hkeys := hC.updateIntermediate freq fun I =>
    I.freq_detach .uplink st.endpoint
  have hleave : leaveChannel .uplink C freq (some st) node =
      (C.updateIntermediate freq fun I =>
        (I.detach .uplink st.endpoint).2).isChannelEmpty freq := rfl
  simp only [hleave, FiniteMap.mem_iff_lookup, lookup_isChannelEmpty hkeys,
    lookup_updateIntermediate]
  by_cases hf : freq' = freq
  · subst hf
    cases C.intermediateMap.lookup freq' with
    | none => simp
    | some I => simp [Intermediate.detach]
  · simp [hf]

theorem mem_joinChannel {dir : Direction} {C C' : Controller} {freq : ℚ}
    {e : Option EndpointState} {node node' : Node} {newConfig : NodeConfig}
    (h : joinChannel dir C freq e node newConfig = some (C', node'))
    (freq' : ℚ) :
    freq' ∈ C'.intermediateMap ↔ freq' ∈ C.intermediateMap ∨ freq' = freq := by
  cases joined_of_joinChannel h with
  | sandbox => rw [AList.mem_insert, or_comm]
  | endpoint => rw [AList.mem_insert, or_comm]

/-- The frequencies that have a channel after the uplink assignment. -/
theorem mem_assignUplink {C C' : Controller} {node node' : Node}
    {newConfig : NodeConfig} {ch : Usrp.Channel} {rest : List Usrp.Channel}
    {created : Bool} (hoff : C.sandbox = false) (hC : C.KeysMatch)
    (hids : ∀ st, node.endpoint .uplink = some st →
      st.endpoint.id = node.config.id)
    (hchannels : newConfig.channels = ch :: rest)
    (h : assignChannel .uplink C node newConfig = some (created, C', node'))
    (freq : ℚ) :
    freq ∈ C'.intermediateMap ↔ freq = ch.txTuneFreq ∨
      (freq ∈ C.intermediateMap ∧ ¬(moves .uplink node ch = true ∧
        freq = prevFreq .uplink node ∧ leavesEmpty C node = true)) := by
  obtain ⟨e, C₁, node₁, hequip, hends⟩ := assignChannel_ends hchannels h
  obtain ⟨hmap, -, -, -⟩ := equip_some hequip
  obtain ⟨st, rfl, hensured⟩ := ensured_of_equip hoff hequip
  have hid := hensured.equipped.id_eq hids
  have hcreated : ∀ freq, freq ∈ (C₁.createChannel
      (Direction.uplink.freqOf ch)).intermediateMap ↔
      freq ∈ C.intermediateMap ∨ freq = ch.txTuneFreq := by
    intro freq
    rw [mem_createChannel, hmap]
    rfl
  cases hends with
  | repeated hrepeat hstill =>
      rw [hcreated, hstill]
      simp [or_comm]
  | kept hrepeat hstill =>
      rw [hcreated, hstill]
      simp [or_comm]
  | moved hrepeat hmoves hjoin =>
      have hprev := moves_ne hmoves
      have hlookup : (C₁.createChannel
          (Direction.uplink.freqOf ch)).intermediateMap.lookup
            (prevFreq .uplink node) =
          C.intermediateMap.lookup (prevFreq .uplink node) := by
        rw [lookup_createChannel_ne C₁ hprev, hmap]
      have hempty : (C.intermediateMap.lookup (prevFreq .uplink node)).any
          (fun I => (I.detachSource st.endpoint).2.isEmpty) =
          leavesEmpty C node := by
        unfold leavesEmpty
        simp only [isEmpty_detachSource, hid]
      have hkeys : (C₁.createChannel
          (Direction.uplink.freqOf ch)).KeysMatch := by
        apply KeysMatch.createChannel
        unfold KeysMatch
        rw [hmap]
        exact hC
      rw [mem_joinChannel hjoin]
      by_cases hfound : prevFreq .uplink node ∈ C.intermediateMap
      · rw [if_pos hfound, mem_leaveChannel hkeys, hcreated, hlookup, hempty]
        simp only [hmoves, true_and]
        constructor
        · rintro (⟨hold | rfl, hstays⟩ | rfl)
          · exact Or.inr ⟨hold, hstays⟩
          · exact Or.inl rfl
          · exact Or.inl rfl
        · rintro (rfl | ⟨hold, hstays⟩)
          · exact Or.inr rfl
          · exact Or.inl ⟨Or.inl hold, hstays⟩
      · rw [if_neg hfound, hcreated]
        constructor
        · rintro ((hold | rfl) | rfl)
          · refine Or.inr ⟨hold, ?_⟩
            rintro ⟨-, rfl, -⟩
            exact hfound hold
          · exact Or.inl rfl
          · exact Or.inl rfl
        · rintro (rfl | ⟨hold, -⟩)
          · exact Or.inr rfl
          · exact Or.inl (Or.inl hold)

end Controller

/-! ## Comparing a refreshed node -/

namespace NodeConfig

/-- What a refreshed node can still differ in: the rate, a gain that is stored
and not reported, and the channels. -/
def agrees (stored n : NodeConfig) (rate : Usrp.SampleRate)
    (channels : List Usrp.Channel) : Bool :=
  decide (rate = n.sampleRate) &&
    (!stored.hasDeviceTxGain || n.hasDeviceTxGain) &&
    (!stored.hasDeviceRxGain || n.hasDeviceRxGain) &&
    Node.compareChannels channels n.channels

end NodeConfig

namespace Controller

theorem refreshed_gains (target : Node) (m : NodeConfig)
    (handlers : VehicleHandlers) :
    (target.refreshed m handlers).config.hasDeviceTxGain =
        (m.hasDeviceTxGain || target.config.hasDeviceTxGain) ∧
      (target.refreshed m handlers).config.hasDeviceRxGain =
        (m.hasDeviceRxGain || target.config.hasDeviceRxGain) := by
  unfold Node.refreshed
  rcases m.placement with _ | ⟨loc, number⟩ <;>
    cases m.storedAddress handlers <;> exact ⟨rfl, rfl⟩

theorem compare_refreshed {target node : Node} {m q : NodeConfig}
    {handlers : VehicleHandlers}
    (hrecord : SameRecord (target.refreshed m handlers) node)
    (htype : q.nodeType = m.deducedType)
    (hrequest : Node.Refresh.unaddressed q = Node.Refresh.unaddressed m) :
    node.compare q = target.config.agrees m node.config.sampleRate
      node.config.channels := by
  have hcarries := hrecord.carries (Node.carries_refreshed target m handlers)
  obtain ⟨htx, hrx⟩ := refreshed_gains target m handlers
  have htxgain : node.config.hasDeviceTxGain =
      (m.hasDeviceTxGain || target.config.hasDeviceTxGain) := by
    rw [hrecord.config]
    exact htx
  have hrxgain : node.config.hasDeviceRxGain =
      (m.hasDeviceRxGain || target.config.hasDeviceRxGain) := by
    rw [hrecord.config]
    exact hrx
  simp only [Node.Refresh.unaddressed, Node.Refresh.unplaced,
    Node.Refresh.unwritten, NodeConfig.mk.injEq] at hrequest
  obtain ⟨hip, hid, hname, -, -, -, hrate, hchannels, -, -, -, -, -, -, -,
    htxvalue, hrxvalue, htxhas, hrxhas, -, -, -, -, hinput, houtput⟩ := hrequest
  have htxsame : (!(node.config.hasDeviceTxGain && m.hasDeviceTxGain) ||
      decide (node.config.deviceTxGain = m.deviceTxGain)) = true := by
    by_cases hreported : m.hasDeviceTxGain = true
    · simp [hcarries.deviceTxGain hreported]
    · simp [hreported]
  have hrxsame : (!(node.config.hasDeviceRxGain && m.hasDeviceRxGain) ||
      decide (node.config.deviceRxGain = m.deviceRxGain)) = true := by
    by_cases hreported : m.hasDeviceRxGain = true
    · simp [hcarries.deviceRxGain hreported]
    · simp [hreported]
  have hflag : ∀ reported stored : Bool,
      decide ((reported || stored) = reported) = (!stored || reported) := by
    decide
  unfold Node.compare NodeConfig.agrees
  dsimp only
  rw [hip, hid, hname, hrate, hchannels, htype, htxvalue, hrxvalue, htxhas,
    hrxhas, hinput, houtput, htxsame, hrxsame, htxgain, hrxgain, hflag, hflag,
    hcarries.id, hcarries.name, hcarries.ipAddress, hcarries.inputFormat,
    hcarries.outputFormat, hcarries.nodeType]
  simp only [decide_true, Bool.true_and, Bool.and_true]

/-! ## What is known between the two assignments -/

/-- The node that a request is about, as it is before the request. -/
def found (C : Controller) (n : NodeConfig) (now : ℤ) : Node :=
  (C.nodeMap.lookup n.id).getD (Node.create n now)

/-- The rate that is stored when the downlink is assigned. -/
def rateBetween (target : Node) (n : NodeConfig) (ch : Usrp.Channel) :
    Usrp.SampleRate :=
  if moves .uplink target ch then target.config.sampleRate else n.sampleRate

/-- The channels that are stored when the downlink is assigned. -/
def channelsBetween (target : Node) (ch : Usrp.Channel) :
    List Usrp.Channel :=
  if moves .uplink target ch then
    target.config.channels.modifyHead
      (Direction.uplink.setFreq ch.txTuneFreq)
  else target.config.channels

/-- The request equals the stored configuration, and its transmit frequency
has no channel. -/
def repeatsUplink (C : Controller) (target : Node) (n : NodeConfig)
    (ch : Usrp.Channel) : Bool :=
  target.config.agrees n target.config.sampleRate target.config.channels &&
    !decide (ch.txTuneFreq ∈ C.intermediateMap)

/-- The receive frequency has no channel once the uplink is assigned: it had
none and is not the transmit frequency, or the node was the last one in it. -/
def missingBetween (C : Controller) (target : Node) (ch : Usrp.Channel) :
    Bool :=
  decide (ch.rxTuneFreq ≠ ch.txTuneFreq) &&
    (!decide (ch.rxTuneFreq ∈ C.intermediateMap) ||
      (moves .uplink target ch &&
        decide (ch.rxTuneFreq = prevFreq .uplink target) &&
        leavesEmpty C target))

/-- With the uplink assigned, the request equals the stored configuration, and
its receive frequency has no channel. -/
def repeatsDownlink (C : Controller) (target : Node) (n : NodeConfig)
    (ch : Usrp.Channel) : Bool :=
  target.config.agrees n (rateBetween target n ch) (channelsBetween target ch) &&
    missingBetween C target ch

/-! ## The rates after a request -/

/-- The three copies of the rate are those of the request. -/
def HasRates (C : Controller) (n : NodeConfig) : Prop :=
  ∃ node receiver transmitter, C.nodeMap.lookup n.id = some node ∧
    node.receiver = some receiver ∧ node.transmitter = some transmitter ∧
    node.config.sampleRate = n.sampleRate ∧
    (receiver.sampleRate.toNat : ℚ) = n.sampleRate.txRate ∧
    (transmitter.sampleRate.toNat : ℚ) = n.sampleRate.rxRate

/-- The rate that one direction needs.  A request that repeats the stored
configuration leaves an endpoint its rate; otherwise the endpoint gets `rate`,
as a 32-bit number. -/
@[mk_iff]
structure RateArrives (st : Option EndpointState) (repeats : Bool)
    (rate requested : ℚ) : Prop where
  kept : ∀ e, st = some e → repeats = true →
    (e.sampleRate.toNat : ℚ) = requested
  given : st = none ∨ repeats = false →
    ((toUInt32 rate).toNat : ℚ) = requested

/-- All three copies get the rate of the request. -/
@[mk_iff]
structure RatesArrive (C : Controller) (target : Node) (n : NodeConfig)
    (ch : Usrp.Channel) : Prop where
  stored : moves .uplink target ch = true → moves .downlink target ch = true →
    target.config.sampleRate = n.sampleRate
  receiver : RateArrives target.receiver (repeatsUplink C target n ch)
    (rateBetween target n ch).txRate n.sampleRate.txRate
  transmitter : RateArrives target.transmitter (repeatsDownlink C target n ch)
    (if moves .downlink target ch then (rateBetween target n ch).rxRate
      else n.sampleRate.rxRate) n.sampleRate.rxRate

instance (st : Option EndpointState) (repeats : Bool) (rate requested : ℚ) :
    Decidable (RateArrives st repeats rate requested) :=
  decidable_of_iff _ (rateArrives_iff st repeats rate requested).symm

instance (C : Controller) (target : Node) (n : NodeConfig)
    (ch : Usrp.Channel) : Decidable (RatesArrive C target n ch) :=
  decidable_of_iff _ (ratesArrive_iff C target n ch).symm

/-- The condition reads nothing but the intermediates. -/
theorem ratesArrive_congr {C C' : Controller}
    (h : C'.intermediateMap = C.intermediateMap) (target : Node)
    (n : NodeConfig) (ch : Usrp.Channel) :
    RatesArrive C' target n ch ↔ RatesArrive C target n ch := by
  have huplink : repeatsUplink C' target n ch = repeatsUplink C target n ch := by
    unfold repeatsUplink
    rw [h]
  have hdownlink : repeatsDownlink C' target n ch =
      repeatsDownlink C target n ch := by
    unfold repeatsDownlink missingBetween leavesEmpty
    rw [h]
  constructor
  · intro hC
    exact ⟨hC.stored, huplink ▸ hC.receiver, hdownlink ▸ hC.transmitter⟩
  · intro hC
    exact ⟨hC.stored, huplink ▸ hC.receiver, hdownlink ▸ hC.transmitter⟩

theorem rateAfter_eq_iff {dir : Direction} {C : Controller} {node : Node}
    {q : NodeConfig} {ch : Usrp.Channel} {st : Option EndpointState}
    {repeats : Bool} {rate requested : ℚ} (hst : node.endpoint dir = st)
    (hrepeat : isRepeat dir C node q ch = repeats)
    (hrate : dir.rateOf (if moves dir node ch then node.config.sampleRate
      else q.sampleRate) = rate) :
    ((rateAfter dir C node q ch).toNat : ℚ) = requested ↔
      RateArrives st repeats rate requested := by
  unfold rateAfter
  rw [hst, hrepeat, hrate]
  cases st with
  | none =>
      constructor
      · intro h
        refine ⟨fun e he => ?_, fun _ => h⟩
        cases he
      · exact fun h => h.given (Or.inl rfl)
  | some e =>
      cases repeats with
      | false =>
          constructor
          · intro h
            refine ⟨fun e he hrepeats => ?_, fun _ => h⟩
            cases hrepeats
          · exact fun h => h.given (Or.inr rfl)
      | true =>
          constructor
          · intro h
            refine ⟨fun e' he' _ => ?_, fun hcase => ?_⟩
            · cases he'
              exact h
            · rcases hcase with hnone | hfalse
              · cases hnone
              · cases hfalse
          · exact fun h => h.kept e rfl rfl

/-- What the downlink finds once the uplink is assigned, in terms of the node
before the request. -/
structure Between (C C₂ : Controller) (target r node₂ : Node)
    (m q : NodeConfig) (ch : Usrp.Channel) : Prop where
  uplinkMoves : moves .uplink r ch = moves .uplink target ch
  downlinkMoves : moves .downlink node₂ ch = moves .downlink target ch
  sampleRate : node₂.config.sampleRate = rateBetween target m ch
  uplinkRepeats : isRepeat .uplink C r q ch = repeatsUplink C target m ch
  downlinkRepeats : isRepeat .downlink C₂ node₂ q ch =
    repeatsDownlink C target m ch

theorem missing_after_uplink {C C₂ : Controller} {target r node₂ : Node}
    {q : NodeConfig} {ch : Usrp.Channel} {rest : List Usrp.Channel}
    {createdUL : Bool} (hoff : C.sandbox = false) (hC : C.KeysMatch)
    (hids : ∀ st, r.endpoint .uplink = some st →
      st.endpoint.id = r.config.id)
    (hid : target.config.id = r.config.id)
    (hfreq : r.freq? .uplink = target.freq? .uplink)
    (hchannels : q.channels = ch :: rest)
    (hUL : assignChannel .uplink C r q = some (createdUL, C₂, node₂)) :
    (!decide (Direction.downlink.freqOf ch ∈ C₂.intermediateMap)) =
      missingBetween C target ch := by
  have hprev : prevFreq .uplink r = prevFreq .uplink target := by
    unfold prevFreq
    rw [hfreq]
  have hleaves : leavesEmpty C r = leavesEmpty C target := by
    unfold leavesEmpty
    rw [hprev, hid]
  have hmem := mem_assignUplink hoff hC hids hchannels hUL ch.rxTuneFreq
  rw [moves_congr ch hfreq, hprev, hleaves] at hmem
  rw [Bool.eq_iff_iff]
  unfold missingBetween Direction.freqOf
  simp only [Bool.not_eq_true', decide_eq_false_iff_not, hmem,
    Bool.and_eq_true, Bool.or_eq_true, decide_eq_true_eq, not_or, ne_eq,
    Classical.not_and_iff_not_or_not, not_not, and_assoc]

theorem between_of_uplink {C C₂ : Controller} {target r node₂ : Node}
    {m q : NodeConfig} {handlers : VehicleHandlers} {ch : Usrp.Channel}
    {rest : List Usrp.Channel} {createdUL : Bool}
    (hoff : C.sandbox = false) (hC : C.KeysMatch)
    (hids : ∀ st, r.endpoint .uplink = some st →
      st.endpoint.id = r.config.id)
    (hid : target.config.id = r.config.id)
    (hr : r = target.refreshed m handlers)
    (htype : q.nodeType = m.deducedType)
    (hrequest : Node.Refresh.unaddressed q = Node.Refresh.unaddressed m)
    (hchannels : q.channels = ch :: rest)
    (hUL : assignChannel .uplink C r q = some (createdUL, C₂, node₂)) :
    Between C C₂ target r node₂ m q ch := by
  have hout := assignChannel_outcome hchannels hUL
  obtain ⟨-, hqrate⟩ := request_of_unaddressed hrequest
  obtain ⟨hkeptRate, hkeptChannels, -, -, -, -⟩ :=
    Node.refreshed_kept target m handlers
  rw [← hr] at hkeptRate hkeptChannels
  have hfreq : ∀ dir, r.freq? dir = target.freq? dir := by
    intro dir
    unfold Node.freq?
    rw [hkeptChannels]
  have hmoves := moves_congr ch (hfreq .uplink)
  have hrate : node₂.config.sampleRate = rateBetween target m ch := by
    rw [hout.sampleRate, hmoves, hkeptRate, hqrate]
    rfl
  have hbetween : node₂.config.channels = channelsBetween target ch := by
    rw [hout.channels, hmoves, hkeptChannels]
    rfl
  refine ⟨hmoves, ?_, hrate, ?_, ?_⟩
  · exact moves_congr ch ((hout.freq?_of_ne (by simp)).trans (hfreq _))
  · have hself : SameRecord (target.refreshed m handlers) r :=
      hr ▸ ⟨rfl, rfl, rfl⟩
    unfold isRepeat repeatsUplink
    rw [compare_refreshed hself htype hrequest, hkeptRate, hkeptChannels]
    rfl
  · have hrecord : SameRecord (target.refreshed m handlers) node₂ :=
      hr ▸ hout.record
    unfold isRepeat repeatsDownlink
    rw [compare_refreshed hrecord htype hrequest, hrate, hbetween,
      missing_after_uplink hoff hC hids hid (hfreq .uplink) hchannels hUL]

/-- The two assignments of a request in a sound state. -/
theorem assigned_rates_iff {C C₂ C₃ : Controller} {target r node₂ node₃ : Node}
    {m q : NodeConfig} {handlers : VehicleHandlers} {ch : Usrp.Channel}
    {rest : List Usrp.Channel} {createdUL createdDL : Bool}
    (hoff : C.sandbox = false) (hC : C.KeysMatch)
    (hids : ∀ st, r.endpoint .uplink = some st →
      st.endpoint.id = r.config.id)
    (hid : target.config.id = r.config.id)
    (hr : r = target.refreshed m handlers)
    (htype : q.nodeType = m.deducedType)
    (hrequest : Node.Refresh.unaddressed q = Node.Refresh.unaddressed m)
    (hchannels : q.channels = ch :: rest)
    (hUL : assignChannel .uplink C r q = some (createdUL, C₂, node₂))
    (hDL : assignChannel .downlink C₂ node₂ q = some (createdDL, C₃, node₃)) :
    (∃ receiver transmitter, node₃.receiver = some receiver ∧
      node₃.transmitter = some transmitter ∧
      node₃.config.sampleRate = m.sampleRate ∧
      (receiver.sampleRate.toNat : ℚ) = m.sampleRate.txRate ∧
      (transmitter.sampleRate.toNat : ℚ) = m.sampleRate.rxRate) ↔
    RatesArrive C target m ch := by
  have hbetween :=
    between_of_uplink hoff hC hids hid hr htype hrequest hchannels hUL
  have hout₂ := assignChannel_outcome hchannels hUL
  have hout₃ := assignChannel_outcome hchannels hDL
  obtain ⟨-, hqrate⟩ := request_of_unaddressed hrequest
  obtain ⟨hkeptRate, -, hkeptRx, hkeptTx, -, -⟩ :=
    Node.refreshed_kept target m handlers
  rw [← hr] at hkeptRate hkeptRx hkeptTx
  obtain ⟨receiver, hreceiver, hrxrate⟩ :=
    assignChannel_rate hoff hchannels hUL
  obtain ⟨transmitter, htransmitter, htxrate⟩ :=
    assignChannel_rate (hout₂.sandbox.trans hoff) hchannels hDL
  rw [← hout₃.others .uplink (by simp)] at hreceiver
  have hreceiverIff : ((receiver.sampleRate.toNat : ℚ) = m.sampleRate.txRate ↔
      RateArrives target.receiver (repeatsUplink C target m ch)
        (rateBetween target m ch).txRate m.sampleRate.txRate) := by
    rw [hrxrate]
    refine rateAfter_eq_iff hkeptRx hbetween.uplinkRepeats ?_
    rw [hbetween.uplinkMoves, hkeptRate, hqrate]
    rfl
  have htransmitterIff :
      ((transmitter.sampleRate.toNat : ℚ) = m.sampleRate.rxRate ↔
      RateArrives target.transmitter (repeatsDownlink C target m ch)
        (if moves .downlink target ch then (rateBetween target m ch).rxRate
          else m.sampleRate.rxRate) m.sampleRate.rxRate) := by
    rw [htxrate]
    refine rateAfter_eq_iff ?_ hbetween.downlinkRepeats ?_
    · exact (hout₂.others .downlink (by simp)).trans hkeptTx
    · rw [hbetween.downlinkMoves, hbetween.sampleRate, hqrate]
      split_ifs <;> rfl
  have hstoredIff : node₃.config.sampleRate = m.sampleRate ↔
      (moves .uplink target ch = true → moves .downlink target ch = true →
        target.config.sampleRate = m.sampleRate) := by
    rw [hout₃.sampleRate, hbetween.downlinkMoves, hbetween.sampleRate, hqrate]
    unfold rateBetween
    cases moves .uplink target ch <;> cases moves .downlink target ch <;> simp
  constructor
  · rintro ⟨receiver', transmitter', hreceiver', htransmitter', hstored, hrx,
      htx⟩
    cases hreceiver.symm.trans hreceiver'
    cases htransmitter.symm.trans htransmitter'
    exact ⟨hstoredIff.mp hstored, hreceiverIff.mp hrx, htransmitterIff.mp htx⟩
  · intro h
    exact ⟨receiver, transmitter, hreceiver, htransmitter,
      hstoredIff.mpr h.stored, hreceiverIff.mpr h.receiver,
      htransmitterIff.mpr h.transmitter⟩

/-- After every history without sandbox mode, a request with channels leaves
its rates in the stored configuration, the receiver and the transmitter
exactly when the stored rate and the branches allow it. -/
theorem rates_stored_iff (defaults : Option PropagationDefaults)
    (events : List Event) {C C' : Controller} {n : NodeConfig}
    {remoteIp : String} {now : ℤ} {response : Response} {ch : Usrp.Channel}
    {rest : List Usrp.Channel}
    (hrun : run step (create false defaults) events = some C)
    (hrequest : C.requestHandler (.config n) remoteIp now =
      some (response, C'))
    (hchannels : n.channels = ch :: rest) :
    C'.HasRates n ↔ RatesArrive C
      (C.found { n with ipAddress := remoteIp } now)
      { n with ipAddress := remoteIp } ch := by
  have hC := sound_of_run hrun
  obtain ⟨target, newlyInserted, C₁, C₂, C₃, node₂, node₃, createdUL,
    createdDL, hget, r, hr, hUL, hDL, rfl, -⟩ := handleConfig_some hrequest
  have hrefreshed := sound_refresh (sound_getOrCreateNode hC hget) hr
  obtain ⟨hnode, -, htype, hunaddressed⟩ := Node.refreshFromConfig_spec hr
  obtain ⟨hrid, -, -⟩ := refresh_same hr
  have hrchannels : r.request.channels = ch :: rest :=
    (request_of_unaddressed hunaddressed).1.trans hchannels
  have htarget : C.found { n with ipAddress := remoteIp } now = target ∧
      target.config.id = n.id ∧ C₁.intermediateMap = C.intermediateMap := by
    unfold found
    rcases getOrCreateNode_some hget with
      ⟨hstored, rfl, -⟩ | ⟨hnone, -, rfl, rfl, -⟩
    · rw [hstored]
      exact ⟨rfl, hC.ids _ target hstored, rfl⟩
    · rw [hnone]
      exact ⟨rfl, rfl, rfl⟩
  obtain ⟨hfound, htid, hmap⟩ := htarget
  have hids := (hrefreshed.nodeSound .uplink).ids
  obtain ⟨D, hD⟩ : ∃ D, { C₁ with vehicleHandlers := r.handlers } = D :=
    ⟨_, rfl⟩
  rw [hD] at hUL hrefreshed
  have hoff : D.sandbox = false := hrefreshed.sandboxOff
  have hkeys : D.KeysMatch := hrefreshed.keys
  have hDmap : D.intermediateMap = C.intermediateMap := by
    rw [← hD]
    exact hmap
  have hiff := assigned_rates_iff hoff hkeys hids (htid.trans hrid.symm) hnode
    htype hunaddressed hrchannels hUL hDL
  rw [ratesArrive_congr hDmap] at hiff
  rw [hfound, ← hiff]
  unfold HasRates
  simp [lookup_put]

/-- The same node with twice the rate. -/
def fasterConfig (id : NodeId) (txFreq rxFreq : ℚ) : NodeConfig :=
  { plainConfig id txFreq rxFreq with sampleRate := ⟨2000000, 2000000⟩ }

/-- A node that changes its rate and no frequency. -/
theorem rates_stored_on_same_frequency :
    ∃ C C' ports,
      run step (create false none) [.request
        (.config (plainConfig "n" 2400000000 2500000000)) "10.0.0.1" 0] =
          some C ∧
      C.requestHandler (.config (fasterConfig "n" 2400000000 2500000000))
        "10.0.0.1" 1 = some (⟨.success, ports⟩, C') ∧
      C'.HasRates (fasterConfig "n" 2400000000 2500000000) := by
  have hcheck : (run step (create false none) [.request
      (.config (plainConfig "n" 2400000000 2500000000)) "10.0.0.1" 0]).any
      (fun C =>
        let m := { fasterConfig "n" 2400000000 2500000000 with
          ipAddress := "10.0.0.1" }
        decide (RatesArrive C (C.found m 1) m
          ⟨2400000000, 2500000000, 0, 0, "TX/RX", "RX2"⟩) &&
        (C.requestHandler (.config (fasterConfig "n" 2400000000 2500000000))
          "10.0.0.1" 1).any fun result =>
            decide (result.1.status = .success)) = true := by
    decide +kernel
  obtain ⟨C, hrun, hC⟩ := (Option.any_eq_true _ _).mp hcheck
  obtain ⟨harrive, hanswer⟩ := Bool.and_eq_true_iff.mp hC
  obtain ⟨⟨⟨status, ports⟩, C'⟩, hrequest, hstatus⟩ :=
    (Option.any_eq_true _ _).mp hanswer
  cases of_decide_eq_true hstatus
  exact ⟨C, C', ports, hrun, hrequest,
    (rates_stored_iff none _ hrun hrequest rfl).mpr
      (of_decide_eq_true harrive)⟩

/-- A node that changes both frequencies and its rate is told `success` and
keeps the old rate. -/
theorem new_rate_lost_on_move :
    ∃ C C' ports,
      run step (create false none) [.request
        (.config (plainConfig "n" 2400000000 2500000000)) "10.0.0.1" 0] =
          some C ∧
      C.requestHandler (.config (fasterConfig "n" 2410000000 2510000000))
        "10.0.0.1" 1 = some (⟨.success, ports⟩, C') ∧
      (C'.nodeMap.lookup "n").map (fun node => node.config.sampleRate) =
        some ⟨1000000, 1000000⟩ ∧
      ¬C'.HasRates (fasterConfig "n" 2410000000 2510000000) := by
  have hcheck : (run step (create false none) [.request
      (.config (plainConfig "n" 2400000000 2500000000)) "10.0.0.1" 0]).any
      (fun C => (C.requestHandler
        (.config (fasterConfig "n" 2410000000 2510000000)) "10.0.0.1" 1).any
          fun result => decide (result.1.status = .success) &&
            decide ((result.2.nodeMap.lookup "n").map
              (fun node => node.config.sampleRate) =
                some ⟨1000000, 1000000⟩)) = true := by
    decide +kernel
  obtain ⟨C, hrun, hanswer⟩ := (Option.any_eq_true _ _).mp hcheck
  obtain ⟨⟨⟨status, ports⟩, C'⟩, hrequest, hresult⟩ :=
    (Option.any_eq_true _ _).mp hanswer
  obtain ⟨hstatus, hafter⟩ := Bool.and_eq_true_iff.mp hresult
  cases of_decide_eq_true hstatus
  have hafter := of_decide_eq_true hafter
  refine ⟨C, C', ports, hrun, hrequest, hafter, ?_⟩
  rintro ⟨node, receiver, transmitter, hlookup, -, -, hrate, -, -⟩
  have hid : (fasterConfig "n" 2410000000 2510000000).id = "n" := rfl
  rw [hid] at hlookup
  rw [hlookup, Option.map_some, hrate] at hafter
  exact absurd hafter (by decide +kernel)

end Controller

end Chem
