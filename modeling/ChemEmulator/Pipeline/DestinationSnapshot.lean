import ChemEmulator.Channel.PropagationSettings
import ChemEmulator.Node.MembershipMaps
import ChemEmulator.Node.RequestTotality
import ChemEmulator.Support.VersionStamp

/-!
# The snapshot of the destinations

`ProcessSignal` in `src/chem/channel/intermediate.cpp`: a worker keeps the list
of destinations that it has computed, with raw pointers into the channel map,
and uses it again while the version of the destinations is the same.  Every
call that inserts or erases a destination or a channel moves the version, so
that a list in use is the one that would be computed anew.

A pointer to a channel is modelled by the link and the time at which its entry
was inserted: an entry stays where it is until it is erased.  Calls are atomic.
-/

namespace Chem

open PartialRuns Intermediate

/-- A pointer to the channel of a link, by the time of its insertion. -/
structure ChannelRef where
  link : NodeId × NodeId
  born : ℕ
deriving DecidableEq

/-- An entry of the snapshot.  The configuration that it points to is that of
the transmitter. -/
structure DestInfo where
  destId : NodeId
  sampleRate : UInt32
  numChannels : UInt8
  /-- Which object it is. -/
  transmitter : ℕ
  channel : ChannelRef
deriving DecidableEq

/-- `cached_dest_version` and `cached_destinations`. -/
abbrev DestCache := Stamped UInt64 (List DestInfo)

/-- An intermediate, its transmitters and the caches of its workers. -/
structure DataPath where
  intermediate : Intermediate
  /-- `m_sample_rate` of every transmitter. -/
  rates : ℕ → UInt32
  /-- The number of calls so far. -/
  clock : ℕ
  /-- When the channel of a link was inserted. -/
  born : NodeId × NodeId → ℕ
  /-- The caches; those of workers that do not exist are empty. -/
  caches : NodeId → DestCache

namespace DataPath

/-- The cache of a new worker. -/
def emptyCache : DestCache := ⟨0, []⟩

/-- A new intermediate, and transmitters with any rates. -/
def start (freq : ℚ) (rates : ℕ → UInt32) : DataPath where
  intermediate := Intermediate.create freq
  rates := rates
  clock := 0
  born := fun _ => 0
  caches := fun _ => emptyCache

/-! ## ProcessSignal -/

/-- The entry of one attached transmitter. -/
def destInfo (S : DataPath) (srcId : NodeId) (dest : Transmitter) :
    Option DestInfo :=
  if dest.configId = srcId then none
  else if (srcId, dest.configId) ∈ S.intermediate.channelMap then
    some
      { destId := dest.configId
        sampleRate := S.rates dest.handle
        numChannels := dest.numChannels
        transmitter := dest.handle
        channel := ⟨(srcId, dest.configId), S.born (srcId, dest.configId)⟩ }
  else none

/-- The list that is computed under the lock. -/
def slowPath (S : DataPath) (srcId : NodeId) : List DestInfo :=
  (FiniteMap.values S.intermediate.destinationMap).filterMap (S.destInfo srcId)

/-- The worker takes its list from the cache. -/
def FastPath (S : DataPath) (receiverId : NodeId) : Prop :=
  (S.caches receiverId).Valid 0 S.intermediate.destVersion

instance (S : DataPath) (receiverId : NodeId) :
    Decidable (S.FastPath receiverId) :=
  inferInstanceAs (Decidable (Stamped.Valid _ _ _))

/-- The destinations for which a worker processes its next signal. -/
def destinations (S : DataPath) (ctx : WorkerContext) : List DestInfo :=
  if S.FastPath ctx.receiverId then (S.caches ctx.receiverId).value
  else S.slowPath ctx.srcNodeId

/-- `ProcessSignal`, as far as the snapshot is concerned. -/
def processSignal (S : DataPath) (ctx : WorkerContext) : DataPath :=
  if S.FastPath ctx.receiverId then S
  else { S with
    caches := Function.update S.caches ctx.receiverId
      ⟨S.intermediate.destVersion, S.slowPath ctx.srcNodeId⟩ }

/-! ## Calls -/

/-- A call creates the worker of a receiver, or destroys it. -/
def resetsWorker (I : Intermediate) (id : NodeId) : SettingOp → Bool
  | .membership (.attachSource receiver) =>
      decide (receiver.id = id ∧ receiver.id ∉ I.sourceMap)
  | .membership (.detachSource receiver) =>
      decide (receiver.id = id ∧ receiver.id ∈ I.sourceMap)
  | _ => false

/-- A call on the intermediate. -/
def operate (S : DataPath) (op : SettingOp) : Option DataPath :=
  (S.intermediate.performSetting op).map fun I =>
    { S with
      intermediate := I
      clock := S.clock + 1
      born := fun link =>
        if link ∈ S.intermediate.channelMap then S.born link else S.clock
      caches := fun id =>
        if resetsWorker S.intermediate id op then emptyCache
        else S.caches id }

inductive Event where
  | operate (op : SettingOp)
  | setShadowingSTD (std : FloatValue)
  /-- `setSampleRate` of a transmitter. -/
  | setSampleRate (transmitter : ℕ) (rate : UInt32)
  /-- A signal of the worker of a receiver, if there is one. -/
  | processSignal (receiverId : NodeId)

def step (S : DataPath) : Event → Option DataPath
  | .operate op => S.operate op
  | .setShadowingSTD std =>
      some { S with intermediate := S.intermediate.setShadowingSTD std }
  | .setSampleRate transmitter rate =>
      some { S with rates := Function.update S.rates transmitter rate }
  | .processSignal receiverId =>
      match S.intermediate.workers.lookup receiverId with
      | none => some S
      | some ctx => some (S.processSignal ctx)

/-! ## The slow path -/

theorem destInfo_eq_some {S : DataPath} {srcId : NodeId} {dest : Transmitter}
    {e : DestInfo} (h : S.destInfo srcId dest = some e) :
    dest.configId ≠ srcId ∧
      (srcId, dest.configId) ∈ S.intermediate.channelMap ∧
      e = ⟨dest.configId, S.rates dest.handle, dest.numChannels, dest.handle,
        ⟨(srcId, dest.configId), S.born (srcId, dest.configId)⟩⟩ := by
  unfold destInfo at h
  split_ifs at h with hself hlink
  exact ⟨hself, hlink, (Option.some.inj h).symm⟩

/-- Every attached destination other than the source to which there is a
channel is listed, once, with its transmitter and the entry of the map. -/
structure Lists (S : DataPath) (srcId : NodeId) (l : List DestInfo) :
    Prop where
  nodup : (l.map DestInfo.destId).Nodup
  destinations : ∀ id, id ∈ l.map DestInfo.destId ↔
    id ∈ S.intermediate.destinationMap ∧ id ≠ srcId ∧
      (srcId, id) ∈ S.intermediate.channelMap
  transmitters : ∀ e ∈ l, ∃ dest,
    S.intermediate.destinationMap.lookup e.destId = some dest ∧
      e.transmitter = dest.handle ∧ e.numChannels = dest.numChannels
  channels : ∀ e ∈ l, e.channel.link = (srcId, e.destId) ∧
    e.channel.link ∈ S.intermediate.channelMap ∧
    e.channel.born = S.born e.channel.link

/-- The identifiers on the slow path, in the order of the map. -/
theorem map_destId_slowPath (S : DataPath) (srcId : NodeId) :
    (S.slowPath srcId).map DestInfo.destId =
      ((FiniteMap.values S.intermediate.destinationMap).map
        Endpoint.configId).filter fun id =>
          decide (id ≠ srcId ∧ (srcId, id) ∈ S.intermediate.channelMap) := by
  rw [slowPath, List.map_filterMap, List.filter_map, ← List.filterMap_eq_filter,
    List.map_filterMap]
  refine List.filterMap_congr fun dest _ => ?_
  by_cases hself : dest.configId = srcId
  · simp [destInfo, hself, Option.guard]
  · by_cases hlink : (srcId, dest.configId) ∈ S.intermediate.channelMap
    · simp [destInfo, hself, hlink, Option.guard]
    · simp [destInfo, hself, hlink, Option.guard]

theorem map_configId_values {m : FiniteMap NodeId Endpoint}
    (hm : FiniteMap.All (fun k e => e.id = k) m) :
    (FiniteMap.values m).map Endpoint.configId = m.keys := by
  rw [FiniteMap.values, List.map_map, AList.keys, List.keys]
  refine List.map_congr_left fun entry hentry => ?_
  exact entry.2.configId_eq.trans (FiniteMap.all_iff_entries.mp hm entry hentry)

theorem lists_slowPath {S : DataPath} (hS : S.intermediate.Consistent)
    (srcId : NodeId) : S.Lists srcId (S.slowPath srcId) := by
  have hkeys := map_configId_values hS.destinations
  -- an entry comes from a transmitter of the map
  have hentry : ∀ e ∈ S.slowPath srcId, ∃ dest,
      S.intermediate.destinationMap.lookup dest.configId = some dest ∧
        S.destInfo srcId dest = some e := by
    intro e he
    obtain ⟨dest, hdest, hinfo⟩ := List.mem_filterMap.mp he
    obtain ⟨k, hk⟩ := FiniteMap.mem_values_iff.mp hdest
    have hid : dest.configId = k :=
      dest.configId_eq.trans (hS.destinations k dest hk)
    exact ⟨dest, hid ▸ hk, hinfo⟩
  refine ⟨?_, ?_, ?_, ?_⟩
  · rw [map_destId_slowPath, hkeys]
    exact S.intermediate.destinationMap.keys_nodup.filter _
  · intro id
    rw [map_destId_slowPath, hkeys, List.mem_filter, decide_eq_true_eq]
    exact Iff.rfl
  · intro e he
    obtain ⟨dest, hdest, hinfo⟩ := hentry e he
    obtain ⟨-, -, rfl⟩ := destInfo_eq_some hinfo
    exact ⟨dest, hdest, rfl, rfl⟩
  · intro e he
    obtain ⟨dest, -, hinfo⟩ := hentry e he
    obtain ⟨-, hlink, rfl⟩ := destInfo_eq_some hinfo
    exact ⟨rfl, hlink, rfl⟩

/-! ## Lists up to the sample rate -/

/-- An entry without its sample rate. -/
def unrated (e : DestInfo) : DestInfo := { e with sampleRate := 0 }

def SameTargets (l l' : List DestInfo) : Prop := l.map unrated = l'.map unrated

/-- What is listed does not depend on the rates. -/
theorem Lists.of_sameTargets {S : DataPath} {srcId : NodeId}
    {l l' : List DestInfo} (h : S.Lists srcId l) (hsame : SameTargets l' l) :
    S.Lists srcId l' := by
  have hids : l'.map DestInfo.destId = l.map DestInfo.destId := by
    have hmapped := congrArg (List.map DestInfo.destId) hsame
    rw [List.map_map, List.map_map] at hmapped
    exact hmapped
  -- every entry of the one list has its counterpart in the other
  have hentry : ∀ e' ∈ l', ∃ e ∈ l, unrated e = unrated e' := by
    intro e' he'
    have hmem : unrated e' ∈ l.map unrated :=
      hsame ▸ List.mem_map_of_mem he'
    exact List.mem_map.mp hmem
  refine ⟨hids ▸ h.nodup, hids ▸ h.destinations, ?_, ?_⟩
  · intro e' he'
    obtain ⟨e, he, heq⟩ := hentry e' he'
    obtain ⟨hid, -, hnum, htransmitter, -⟩ := DestInfo.mk.inj heq
    obtain ⟨dest, hdest, hhandle, hchannels⟩ := h.transmitters e he
    exact ⟨dest, hid ▸ hdest, htransmitter.symm.trans hhandle,
      hnum.symm.trans hchannels⟩
  · intro e' he'
    obtain ⟨e, he, heq⟩ := hentry e' he'
    obtain ⟨hid, -, -, -, hchannel⟩ := DestInfo.mk.inj heq
    have hlisted := h.channels e he
    rwa [hid, hchannel] at hlisted

/-! ## What a call does to the lists -/

/-- The call moves the version of the destinations. -/
def MovesVersion (I : Intermediate) : SettingOp → Prop
  | .membership (.attachSource receiver) => receiver.id ∉ I.sourceMap
  | .membership (.detachSource receiver) => receiver.id ∈ I.sourceMap
  | .membership (.attachDestination transmitter) =>
      transmitter.id ∉ I.destinationMap
  | .membership (.detachDestination transmitter) =>
      transmitter.id ∈ I.destinationMap
  | .membership _ => True
  | _ => False

/-- Nothing changes that the slow path reads. -/
structure SameDestinations (I I' : Intermediate) : Prop where
  destVersion : I'.destVersion = I.destVersion
  destinationMap : I'.destinationMap = I.destinationMap
  links : ∀ k, k ∈ I'.channelMap ↔ k ∈ I.channelMap

theorem SameDestinations.refl (I : Intermediate) : SameDestinations I I :=
  ⟨rfl, rfl, fun _ => Iff.rfl⟩

@[simp] theorem destVersion_emptyChannelChecker (I : Intermediate) :
    I.emptyChannelChecker.destVersion = I.destVersion := by
  by_cases h : I.isEmpty <;> simp [emptyChannelChecker, h]

theorem SameDestinations.of_retuned {I I' : Intermediate}
    (h : I.Retuned I') (hversion : I'.destVersion = I.destVersion) :
    SameDestinations I I' := by
  refine ⟨hversion, h.destinationMap, fun k => ?_⟩
  have hlink := congrArg Option.isSome (h.links k)
  rw [Option.isSome_map, Option.isSome_map] at hlink
  rw [← AList.lookup_isSome, ← AList.lookup_isSome, hlink]

theorem perform_destinations {I I' : Intermediate} {op : MembershipOp}
    (h : I.perform op = some I') :
    (MovesVersion I (.membership op) ∧ I'.destVersion = I.destVersion + 1) ∨
      (¬MovesVersion I (.membership op) ∧ I' = I) := by
  cases op with
  | attachSource receiver =>
      by_cases hmem : receiver.id ∈ I.sourceMap
      · simp only [perform, attachSource_eq, hmem, if_true] at h
        cases h
        exact Or.inr ⟨not_not_intro hmem, rfl⟩
      · simp only [perform, attachSource_eq, hmem, if_false] at h
        cases printStatus_some h
        exact Or.inl ⟨hmem, rfl⟩
  | attachDestination transmitter =>
      by_cases hmem : transmitter.id ∈ I.destinationMap
      · simp only [perform, attachDestination_eq, transmitter.configId_eq,
          hmem, if_true] at h
        cases h
        exact Or.inr ⟨not_not_intro hmem, rfl⟩
      · simp only [perform, attachDestination_eq, transmitter.configId_eq,
          hmem, if_false] at h
        cases printStatus_some h
        exact Or.inl ⟨hmem, rfl⟩
  | addSandboxNode nodeId numChannels =>
      cases h
      exact Or.inl ⟨trivial, rfl⟩
  | removeSandboxNode nodeId =>
      cases h
      exact Or.inl ⟨trivial, rfl⟩
  | detachSource receiver =>
      cases h
      by_cases hmem : receiver.id ∈ I.sourceMap
      · exact Or.inl ⟨hmem, by simp [detachSource, hmem, removeChannel]⟩
      · exact Or.inr ⟨hmem, by simp [detachSource, hmem]⟩
  | detachDestination transmitter =>
      cases h
      by_cases hmem : transmitter.id ∈ I.destinationMap
      · exact Or.inl ⟨hmem, by simp [detachDestination, hmem, removeChannel]⟩
      · exact Or.inr ⟨hmem, by simp [detachDestination, hmem]⟩

/-- A call is a membership call, or sets something in the channels where they
are. -/
theorem performSetting_cases {I I' : Intermediate} {op : SettingOp}
    (h : I.performSetting op = some I') :
    (∃ call, op = .membership call ∧ I.perform call = some I') ∨
      (¬MovesVersion I op ∧ I.Retuned I' ∧
        I'.destVersion = I.destVersion) := by
  cases op with
  | membership call => exact Or.inl ⟨call, rfl, h⟩
  | setPathLossMode plMode =>
      cases h
      exact Or.inr ⟨not_false, retuned_mapValues
        (fun ch => Channel.wiring_updatePlType (plTypeOf plMode) ch) rfl, rfl⟩
  | setPathLossModeText plMode =>
      cases h
      exact Or.inr ⟨not_false, retuned_mapValues
        (fun ch => Channel.wiring_updatePlType _ ch) rfl, rfl⟩
  | updatePathLoss plMode grCoeff =>
      cases h
      exact Or.inr ⟨not_false, I.retuned_updatePathLoss plMode grCoeff, rfl⟩
  | updatePathLossText plMode grCoeff =>
      cases h
      exact Or.inr ⟨not_false, I.retuned_updatePathLoss _ grCoeff, rfl⟩
  | set3gppScenario scenario =>
      cases h
      refine Or.inr ⟨not_false, I.retuned_set3gppScenario scenario, ?_⟩
      unfold Intermediate.set3gppScenario
      split_ifs <;> rfl
  | setHataEnvironment environment =>
      cases h
      refine Or.inr ⟨not_false, I.retuned_setHataEnvironment environment, ?_⟩
      unfold Intermediate.setHataEnvironment
      split_ifs <;> rfl
  | setITMParams refractivity groundConductivity groundPermittivity zone =>
      cases h
      exact Or.inr ⟨not_false, I.retuned_setITMParams _, rfl⟩

/-- A call moves the version by one, or changes nothing that the slow path
reads. -/
theorem performSetting_destinations {I I' : Intermediate} {op : SettingOp}
    (h : I.performSetting op = some I') :
    (MovesVersion I op ∧ I'.destVersion = I.destVersion + 1) ∨
      (¬MovesVersion I op ∧ SameDestinations I I') := by
  rcases performSetting_cases h with
    ⟨call, rfl, hcall⟩ | ⟨hstays, hretuned, hversion⟩
  · rcases perform_destinations hcall with hmoved | ⟨hstays, rfl⟩
    · exact Or.inl hmoved
    · exact Or.inr ⟨hstays, .refl _⟩
  · exact Or.inr ⟨hstays, .of_retuned hretuned hversion⟩

/-! ## The invariant -/

/-- A worker is known by the identifier of its receiver, which is that of the
node. -/
def WorkersNamed (I : Intermediate) : Prop :=
  FiniteMap.All (fun k ctx => ctx.receiverId = k ∧ ctx.srcNodeId = k) I.workers

theorem workersNamed_perform {I I' : Intermediate} {op : MembershipOp}
    (hI : WorkersNamed I) (h : I.perform op = some I') : WorkersNamed I' := by
  cases op with
  | attachSource receiver =>
      simp only [perform, attachSource_eq] at h
      split_ifs at h
      · cases h
        exact hI
      · cases printStatus_some h
        exact FiniteMap.All.insert hI ⟨rfl, receiver.configId_eq⟩
  | attachDestination transmitter =>
      simp only [perform, attachDestination_eq] at h
      split_ifs at h
      · cases h
        exact hI
      · cases printStatus_some h
        exact hI
  | addSandboxNode nodeId numChannels =>
      cases h
      exact hI
  | removeSandboxNode nodeId =>
      cases h
      exact hI
  | detachSource receiver =>
      cases h
      by_cases hmem : receiver.id ∈ I.sourceMap
      · simp only [detachSource, hmem, if_true, WorkersNamed,
          workers_emptyChannelChecker]
        exact FiniteMap.All.erase hI _
      · simpa only [detachSource, hmem, if_false] using hI
  | detachDestination transmitter =>
      cases h
      by_cases hmem : transmitter.id ∈ I.destinationMap
      · simp only [detachDestination, hmem, if_true, WorkersNamed,
          workers_emptyChannelChecker]
        exact hI
      · simpa only [detachDestination, hmem, if_false] using hI

/-- What the lists rest on. -/
structure Ordered (I : Intermediate) : Prop where
  tended : I.Tended
  workers : WorkersNamed I

theorem Ordered.retuned {I I' : Intermediate} (hI : Ordered I)
    (h : I.Retuned I') : Ordered I' := by
  refine ⟨h.tended hI.tended, ?_⟩
  rw [WorkersNamed, h.workers]
  exact hI.workers

theorem Ordered.performSetting {I I' : Intermediate} {op : SettingOp}
    (hI : Ordered I) (h : I.performSetting op = some I') : Ordered I' := by
  rcases performSetting_cases h with ⟨call, rfl, hcall⟩ | ⟨-, hretuned, -⟩
  · exact ⟨hI.tended.perform hcall, workersNamed_perform hI.workers hcall⟩
  · exact hI.retuned hretuned

/-- The slow path sees nothing of a call that leaves the destinations, nor of
a change of the rates. -/
theorem sameTargets_slowPath {S T : DataPath}
    (h : SameDestinations S.intermediate T.intermediate)
    (hborn : ∀ link ∈ S.intermediate.channelMap, T.born link = S.born link)
    (srcId : NodeId) : SameTargets (T.slowPath srcId) (S.slowPath srcId) := by
  rw [SameTargets, slowPath, slowPath, h.destinationMap, List.map_filterMap,
    List.map_filterMap]
  refine List.filterMap_congr fun dest _ => ?_
  by_cases hself : dest.configId = srcId
  · simp [destInfo, hself]
  · by_cases hlink : (srcId, dest.configId) ∈ S.intermediate.channelMap
    · simp [destInfo, hself, hlink, h.links, hborn _ hlink, unrated]
    · simp [destInfo, hself, hlink, h.links]

instance : PartialOrder UInt64 where
  le_refl _ := UInt64.le_refl _
  le_trans _ _ _ := UInt64.le_trans
  le_antisymm _ _ := UInt64.le_antisymm
  lt_iff_le_not_ge a b := by
    rw [UInt64.not_le]
    exact ⟨fun h => ⟨UInt64.le_of_lt h, h⟩, fun h => h.2⟩

/-- The cache of a worker gives what the slow path would compute, up to the
rates. -/
def CacheFaithful (S : DataPath) (id : NodeId) : Prop :=
  Stamped.Faithful (fun S : DataPath => S.intermediate.destVersion)
    (fun S => (S.slowPath id).map unrated) 0
    ((S.caches id).map fun l => l.map unrated) S

structure Snapshots (S : DataPath) : Prop where
  ordered : Ordered S.intermediate
  caches : ∀ id, S.CacheFaithful id

/-- The version counter does not wrap. -/
def NotWrapping (S : DataPath) (event : Event) : Prop :=
  ∀ T, S.step event = some T →
    S.intermediate.destVersion ≤ T.intermediate.destVersion

instance (S : DataPath) (event : Event) : Decidable (S.NotWrapping event) :=
  inferInstanceAs (Decidable (∀ T, S.step event = some T →
    S.intermediate.destVersion ≤ T.intermediate.destVersion))

theorem snapshots_start (freq : ℚ) (rates : ℕ → UInt32) :
    (start freq rates).Snapshots where
  ordered := ⟨tended_create freq, FiniteMap.all_empty⟩
  caches _ := Stamped.Faithful.initial _ le_rfl

theorem CacheFaithful.operate {S T : DataPath} {op : SettingOp} {id : NodeId}
    (hS : S.CacheFaithful id) (h : S.operate op = some T)
    (hmono : S.intermediate.destVersion ≤ T.intermediate.destVersion) :
    T.CacheFaithful id := by
  obtain ⟨I, hI, rfl⟩ := Option.map_eq_some_iff.mp h
  by_cases hreset : resetsWorker S.intermediate id op = true
  · simp only [CacheFaithful, hreset, if_true]
    exact Stamped.Faithful.initial _ UInt64.zero_le
  · simp only [CacheFaithful, hreset]
    refine Stamped.Faithful.step hS hmono fun hversion => ?_
    rcases performSetting_destinations hI with ⟨-, hmoved⟩ | ⟨-, hsame⟩
    · -- a version that has moved is another one
      have hstill : S.intermediate.destVersion + 1 =
          S.intermediate.destVersion := hmoved.symm.trans hversion
      simp at hstill
    · exact sameTargets_slowPath hsame (fun link hlink => if_pos hlink) id

/-- An event that changes neither the destinations nor the caches. -/
theorem CacheFaithful.of_same {S T : DataPath} {id : NodeId}
    (hS : S.CacheFaithful id)
    (hsame : SameDestinations S.intermediate T.intermediate)
    (hborn : T.born = S.born) (hcaches : T.caches id = S.caches id) :
    T.CacheFaithful id := by
  rw [CacheFaithful, hcaches]
  refine Stamped.Faithful.step hS hsame.destVersion.ge fun _ => ?_
  exact sameTargets_slowPath hsame (fun link _ => by rw [hborn]) id

theorem CacheFaithful.processSignal {S : DataPath} {ctx : WorkerContext}
    (hctx : ctx.srcNodeId = ctx.receiverId) {id : NodeId}
    (hS : S.CacheFaithful id) : (S.processSignal ctx).CacheFaithful id := by
  unfold DataPath.processSignal
  split_ifs
  · exact hS
  · by_cases hid : id = ctx.receiverId
    · subst hid
      simp only [CacheFaithful, Function.update_self, hctx]
      exact Stamped.Faithful.refreshed rfl rfl
    · exact hS.of_same (.refl _) rfl (Function.update_of_ne hid _ _)

theorem Snapshots.step {S T : DataPath} {event : Event} (hS : S.Snapshots)
    (hwrap : S.NotWrapping event) (h : S.step event = some T) :
    T.Snapshots := by
  cases event with
  | operate op =>
      refine ⟨?_, fun id => (hS.caches id).operate h (hwrap T h)⟩
      obtain ⟨I, hI, rfl⟩ := Option.map_eq_some_iff.mp h
      exact hS.ordered.performSetting hI
  | setShadowingSTD std =>
      cases h
      have hretuned := S.intermediate.retuned_setShadowingSTD std
      exact ⟨hS.ordered.retuned hretuned,
        fun id => (hS.caches id).of_same (.of_retuned hretuned rfl) rfl rfl⟩
  | setSampleRate transmitter rate =>
      cases h
      exact ⟨hS.ordered,
        fun id => (hS.caches id).of_same (.refl _) rfl rfl⟩
  | processSignal receiverId =>
      cases hctx : S.intermediate.workers.lookup receiverId with
      | none =>
          simp only [DataPath.step, hctx, Option.some.injEq] at h
          exact h ▸ hS
      | some ctx =>
          simp only [DataPath.step, hctx, Option.some.injEq] at h
          subst h
          obtain ⟨hid, hsrc⟩ := hS.ordered.workers receiverId ctx hctx
          refine ⟨?_, fun id =>
            (hS.caches id).processSignal (hsrc.trans hid.symm)⟩
          unfold DataPath.processSignal
          split_ifs <;> exact hS.ordered

/-- A worker on the fast path has the list of the slow path, up to the rates,
and every entry of it is still there. -/
def FastPathAccurate (S : DataPath) : Prop :=
  ∀ receiverId ctx, S.intermediate.workers.lookup receiverId = some ctx →
    S.FastPath ctx.receiverId →
    SameTargets (S.destinations ctx) (S.slowPath ctx.srcNodeId) ∧
      S.Lists ctx.srcNodeId (S.destinations ctx)

theorem Snapshots.fastPathAccurate {S : DataPath} (hS : S.Snapshots) :
    S.FastPathAccurate := by
  intro receiverId ctx hctx hfast
  obtain ⟨hid, hsrc⟩ := hS.ordered.workers receiverId ctx hctx
  have hsame : SameTargets (S.destinations ctx)
      (S.slowPath ctx.srcNodeId) := by
    rw [destinations, if_pos hfast, hsrc, hid]
    exact (hS.caches receiverId).value (hid ▸ hfast)
  exact ⟨hsame,
    (lists_slowPath hS.ordered.tended.consistent _).of_sameTargets hsame⟩

/-- As long as the version does not wrap, the fast path is right in every
state. -/
theorem fastPath_accurate {freq : ℚ} {rates : ℕ → UInt32}
    {events : List Event}
    (h : EveryStep step NotWrapping (start freq rates) events) :
    EveryState step FastPathAccurate (start freq rates) events := by
  have hall : EveryState step Snapshots (start freq rates) events :=
    everyState_of_everyStep (fun _ _ _ hS hwrap hT => hS.step hwrap hT)
      (snapshots_start freq rates) h
  exact hall.imp fun _ hS => hS.fastPathAccurate

/-- Two nodes that send to each other, and a worker that has taken its
snapshot. -/
theorem fastPath_accurate_pair :
    EveryState step FastPathAccurate (start 2400000000 fun _ => 1000000)
      [.operate (.membership (.attachSource (plainEndpoint 0 "x"))),
        .operate (.membership (.attachDestination (plainEndpoint 1 "y"))),
        .processSignal "x", .operate (.set3gppScenario "RMa"),
        .processSignal "x"] := by
  refine fastPath_accurate ?_
  decide

end DataPath

end Chem
