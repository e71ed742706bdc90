import ChemEmulator.Channel.PropagationSettings
import ChemEmulator.Node.MembershipMaps
import ChemEmulator.Node.RequestTotality

/-!
# Shadowing

The standard deviation of the shadowing is kept in three places: a value for
all frequencies, a table with the values of single frequencies, and the
channels.  `GET_SHADOW_STD` reports from the first two.

A command for one frequency reaches the table and the channels.  A command for
all frequencies changes every channel but leaves the table, and a new channel
starts without shadowing whatever is reported.  These are the only ways in
which a report and a channel can come to differ.
-/

namespace Chem

open PartialRuns

/-! ## Links that a call adds -/

namespace Roles

variable {ν : Type*}

def addSource (R : Roles ν) (x : ν) : Roles ν :=
  { R with sources := insert x R.sources }

def addDestination (R : Roles ν) (x : ν) : Roles ν :=
  { R with destinations := insert x R.destinations }

def addSandbox (R : Roles ν) (x : ν) : Roles ν :=
  { R with sandbox := insert x R.sandbox }

end Roles

namespace Intermediate

/-- Some link that the roles need has no channel. -/
def Lacks (I : Intermediate) (R : Roles NodeId) : Prop :=
  ∃ s d, R.Linked s d ∧ (s, d) ∉ I.channelMap

/-- The call gives an intermediate a channel that it does not have. -/
def GainsChannel (I : Intermediate) : MembershipOp → Prop
  | .attachSource receiver =>
      receiver.id ∉ I.sourceMap ∧ I.Lacks (I.roles.addSource receiver.id)
  | .attachDestination transmitter =>
      transmitter.id ∉ I.destinationMap ∧
        I.Lacks (I.roles.addDestination transmitter.id)
  | .addSandboxNode nodeId _ => I.Lacks (I.roles.addSandbox nodeId)
  | _ => False

/-- Filling the map of `J`, whose channels are those of `I`, adds a channel
exactly when a link lacks one. -/
theorem exists_added_iff {I J : Intermediate} {R : Roles NodeId}
    (hJ : J.Consistent) (hchannels : J.channelMap = I.channelMap)
    (hroles : J.roles = R) :
    (∃ k, k ∈ J.updateChannelMap.channelMap ∧ k ∉ I.channelMap) ↔
      I.Lacks R := by
  subst hroles
  constructor
  · rintro ⟨⟨s, d⟩, hmem, hnew⟩
    rcases (mem_updateChannelMap hJ s d).mp hmem with hold | hlinked
    · exact absurd (hchannels ▸ hold) hnew
    · exact ⟨s, d, hlinked, hnew⟩
  · rintro ⟨s, d, hlinked, hnew⟩
    exact ⟨(s, d), (mem_updateChannelMap hJ s d).mpr (Or.inr hlinked), hnew⟩

theorem not_exists_added {I I' : Intermediate}
    (hsub : ∀ k, k ∈ I'.channelMap → k ∈ I.channelMap) :
    (∃ k, k ∈ I'.channelMap ∧ k ∉ I.channelMap) ↔ False := by
  refine iff_false_intro ?_
  rintro ⟨k, hmem, hnew⟩
  exact hnew (hsub k hmem)

theorem exists_added_perform_iff {I I' : Intermediate} {op : MembershipOp}
    (hI : I.Consistent) (h : I.perform op = some I') :
    (∃ k, k ∈ I'.channelMap ∧ k ∉ I.channelMap) ↔ I.GainsChannel op := by
  cases op with
  | attachSource receiver =>
      by_cases hmem : receiver.id ∈ I.sourceMap
      · simp only [perform, attachSource, hmem, if_true] at h
        cases h
        simp [GainsChannel, hmem]
      · simp only [perform, attachSource_eq, hmem, if_false] at h
        cases printStatus_some h
        simp only [GainsChannel, hmem, not_false_eq_true, true_and]
        refine exists_added_iff
          (J := { I with
            sourceMap := I.sourceMap.insert receiver.id receiver
            workers := I.workers.insert receiver.id
              ⟨receiver.id, receiver.configId, receiver.handle⟩ })
          ⟨hI.sources.insert rfl, hI.destinations, hI.channels⟩ rfl ?_
        simp [roles, Roles.addSource, Set.insert_def]
  | attachDestination transmitter =>
      have hid := transmitter.configId_eq
      by_cases hmem : transmitter.id ∈ I.destinationMap
      · simp only [perform, attachDestination, hid, hmem, if_true] at h
        cases h
        simp [GainsChannel, hmem]
      · simp only [perform, attachDestination_eq, hid, hmem, if_false] at h
        cases printStatus_some h
        simp only [GainsChannel, hmem, not_false_eq_true, true_and]
        refine exists_added_iff
          (J := { I with
            destinationMap :=
              I.destinationMap.insert transmitter.configId transmitter
            destCount := I.destCount + 1 })
          ⟨hI.sources, hI.destinations.insert hid.symm, hI.channels⟩ rfl ?_
        simp [roles, Roles.addDestination, Set.insert_def, hid]
  | addSandboxNode nodeId numChannels =>
      cases h
      refine exists_added_iff
        (J := { I with
          sandboxNodes := I.sandboxNodes.insert nodeId
          sandboxNumChannels :=
            I.sandboxNumChannels.insert nodeId numChannels })
        ⟨hI.sources, hI.destinations, hI.channels⟩ rfl ?_
      simp [roles, Roles.addSandbox, Set.insert_def]
  | detachSource receiver =>
      cases h
      refine not_exists_added ?_
      rintro ⟨s, d⟩ hmem
      by_cases hattached : receiver.id ∈ I.sourceMap
      · exact (((detachSource_of_mem hI hattached).links s d).mp hmem).1
      · simpa [detachSource, hattached] using hmem
  | detachDestination transmitter =>
      cases h
      refine not_exists_added ?_
      rintro ⟨s, d⟩ hmem
      by_cases hattached : transmitter.id ∈ I.destinationMap
      · exact (((detachDestination_of_mem hI hattached).links s d).mp hmem).1
      · simpa [detachDestination, hattached] using hmem
  | removeSandboxNode nodeId =>
      cases h
      refine not_exists_added ?_
      rintro ⟨s, d⟩ hmem
      exact (((removeSandboxNode_unlinked hI nodeId).links s d).mp hmem).1

theorem IsNewChannel.shadowingStd {I : Intermediate} {k : NodeId × NodeId}
    {ch : Channel} (h : I.IsNewChannel k ch) :
    ch.shadowingStd = .finite 0 := by
  obtain ⟨destNumCh, srcNumCh, rfl⟩ := h
  simp only [newChannel, Channel.updateITMParams, Channel.updateHataEnvironment,
    Channel.update3gppScenario, Channel.updatePlType]
  split_ifs <;> rfl

/-- All channels have the given standard deviation. -/
def Shadowed (std : FloatValue) (I : Intermediate) : Prop :=
  FiniteMap.All (fun _ ch => ch.shadowingStd = std) I.channelMap

theorem shadowed_setShadowingSTD_iff (I : Intermediate)
    (std std' : FloatValue) :
    (I.setShadowingSTD std).Shadowed std' ↔ ∀ k ∈ I.channelMap, std = std' := by
  rw [Shadowed, setShadowingSTD, FiniteMap.all_mapValues_iff]
  simp only [FiniteMap.All, FiniteMap.mem_iff_lookup, forall_exists_index]
  exact Iff.rfl

/-- The channels that a call leaves keep their value, and new ones have
none. -/
theorem shadowed_perform_iff {I I' : Intermediate} {op : MembershipOp}
    {std : FloatValue} (hI : I.Consistent) (hstd : I.Shadowed std)
    (h : I.perform op = some I') :
    I'.Shadowed std ↔ (I.GainsChannel op → std = .finite 0) := by
  rw [← exists_added_perform_iff hI h]
  have hrelinked := relinked_perform h
  constructor
  · rintro hafter ⟨k, hmem, hnew⟩
    obtain ⟨ch, hch⟩ := FiniteMap.mem_iff_lookup.mp hmem
    rcases hrelinked.channels k ch hch with hold | ⟨-, hfresh⟩
    · exact absurd (FiniteMap.mem_iff_lookup.mpr ⟨ch, hold⟩) hnew
    · rw [← hafter k ch hch, hfresh.shadowingStd]
  · intro hzero k ch hch
    rcases hrelinked.channels k ch hch with hold | ⟨hnew, hfresh⟩
    · exact hstd k ch hold
    · rw [hfresh.shadowingStd]
      exact (hzero ⟨k, FiniteMap.mem_iff_lookup.mpr ⟨ch, hch⟩, hnew⟩).symm

end Intermediate

/-! ## Commands and calls -/

namespace Emulator

open Coordinator Intermediate

inductive ShadowEvent where
  /-- `UPD_SHADOW_STD`; a frequency is in Hz. -/
  | updShadowStd (std : ℚ) (freq : Option ℚ)
  | createChannel (freq : ℚ)
  /-- A call on the intermediate of a frequency. -/
  | perform (freq : ℚ) (op : MembershipOp)
  /-- An intermediate that nobody uses is dropped. -/
  | isChannelEmpty (freq : ℚ)

def shadowStep (E : Emulator) : ShadowEvent → Option Emulator
  | .updShadowStd std freq => some (updateShadowing E (.finite std) freq)
  | .createChannel freq =>
      some { E with controller := E.controller.createChannel freq }
  | .perform freq op =>
      match E.controller.intermediateMap.lookup freq with
      | none => some E
      | some I => (I.perform op).map fun I' =>
          { E with controller :=
              { E.controller with intermediateMap :=
                  E.controller.intermediateMap.insert freq I' } }
  | .isChannelEmpty freq =>
      some { E with controller := E.controller.isChannelEmpty freq }

/-- What `GET_SHADOW_STD` reports for a frequency is the value of all channels
there. -/
def ReportsShadowing (E : Emulator) : Prop :=
  FiniteMap.All (fun freq I => I.Shadowed (getShadowing E (some freq)))
    E.controller.intermediateMap

/-- A command for all frequencies finds no other value in the table for a
frequency with channels, and a call that adds a channel finds no shadowing
reported. -/
def KeepsShadowing (E : Emulator) : ShadowEvent → Prop
  | .updShadowStd std none =>
      FiniteMap.All (fun freq I => ∀ k ∈ I.channelMap,
        ∀ value, E.shadowStdByFreq.lookup freq = some value →
          value = .finite std) E.controller.intermediateMap
  | .perform freq op =>
      ∀ I, E.controller.intermediateMap.lookup freq = some I →
        I.SandboxAttached op → I.GainsChannel op →
        getShadowing E (some freq) = .finite 0
  | _ => True

/-- Every intermediate keeps its maps in step. -/
def AllTended (E : Emulator) : Prop :=
  FiniteMap.All (fun _ I => I.Tended) E.controller.intermediateMap

theorem AllTended.shadowStep {E E' : Emulator} {event : ShadowEvent}
    (hE : E.AllTended) (h : E.shadowStep event = some E') : E'.AllTended := by
  cases event with
  | updShadowStd std freq =>
      cases h
      intro k J hJ
      obtain ⟨I, hI, hretuned⟩ :=
        (managed_updateShadowing E (.finite std) freq).intermediates k J hJ
      exact hretuned.tended (hE k I hI)
  | createChannel freq =>
      cases h
      exact (Controller.kept_tended false).createChannel hE freq
  | perform freq op =>
      cases hI : E.controller.intermediateMap.lookup freq with
      | none =>
          simp only [Emulator.shadowStep, hI, Option.some.injEq] at h
          exact h ▸ hE
      | some I =>
          simp only [Emulator.shadowStep, hI, Option.map_eq_some_iff] at h
          obtain ⟨I', hI', rfl⟩ := h
          exact FiniteMap.All.insert hE ((hE freq I hI).perform hI')
  | isChannelEmpty freq =>
      cases h
      exact Controller.all_isChannelEmpty hE freq

/-! ## What each event does to the agreement -/

/-- A command for one frequency writes what it reports. -/
theorem ReportsShadowing.updateShadowing_some {E : Emulator}
    (hE : E.ReportsShadowing) (std : FloatValue) (freq : ℚ) :
    (updateShadowing E std (some freq)).ReportsShadowing := by
  -- the other frequencies and their reports stay
  have hother : ∀ k, k ≠ freq →
      getShadowing (updateShadowing E std (some freq)) (some k) =
        getShadowing E (some k) := by
    intro k hk
    simp only [getShadowing, updateShadowing, AList.lookup_insert_ne hk]
  have hreport :
      getShadowing (updateShadowing E std (some freq)) (some freq) = std := by
    simp [getShadowing, updateShadowing]
  intro k J hJ
  simp only [updateShadowing, Controller.lookup_updateIntermediate,
    Option.map_eq_some_iff] at hJ
  obtain ⟨I, hI, rfl⟩ := hJ
  by_cases hk : k = freq
  · subst hk
    rw [hreport, if_pos rfl]
    exact (shadowed_setShadowingSTD_iff I std std).mpr fun _ _ => rfl
  · rw [hother k hk, if_neg hk]
    exact hE k I hI

theorem reportsShadowing_updateShadowing_none_iff (E : Emulator) (std : ℚ) :
    (updateShadowing E (.finite std) none).ReportsShadowing ↔
      E.KeepsShadowing (.updShadowStd std none) := by
  rw [ReportsShadowing, updateShadowing, FiniteMap.all_mapValues_iff,
    KeepsShadowing]
  refine forall₃_congr fun freq I _ => ?_
  dsimp only
  rw [shadowed_setShadowingSTD_iff]
  refine forall₂_congr fun _ _ => ?_
  cases hvalue : E.shadowStdByFreq.lookup freq with
  | none => simp [getShadowing, hvalue]
  | some value => simp [getShadowing, hvalue, eq_comm]

theorem ReportsShadowing.createChannel {E : Emulator}
    (hE : E.ReportsShadowing) (freq : ℚ) :
    ({ E with controller := E.controller.createChannel freq } :
      Emulator).ReportsShadowing := by
  have hnew : ∀ std, (E.controller.newIntermediate freq).Shadowed std := by
    intro std
    rw [Shadowed, (E.controller.newIntermediate_empty freq).1]
    exact FiniteMap.all_empty
  simp only [ReportsShadowing, Controller.createChannel]
  split_ifs
  · exact hE
  · exact FiniteMap.All.insert hE (hnew _)

theorem reportsShadowing_perform_iff {E E' : Emulator} {freq : ℚ}
    {op : MembershipOp} (hE : E.AllTended) (hreports : E.ReportsShadowing)
    (h : E.shadowStep (.perform freq op) = some E') :
    E'.ReportsShadowing ↔ E.KeepsShadowing (.perform freq op) := by
  cases hI : E.controller.intermediateMap.lookup freq with
  | none =>
      simp only [shadowStep, hI, Option.some.injEq] at h
      subst h
      simpa [KeepsShadowing, hI] using hreports
  | some I =>
      simp only [shadowStep, hI, Option.map_eq_some_iff] at h
      obtain ⟨I', hI', rfl⟩ := h
      have htended := hE freq I hI
      -- the call has a result, so that it found the sandbox nodes attached
      have hattached : I.SandboxAttached op := by
        rw [← htended.harmless_iff, harmless_iff_exists_perform]
        exact ⟨I', hI'⟩
      have hcall := shadowed_perform_iff htended.consistent
        (hreports freq I hI) hI'
      simp only [KeepsShadowing, hI, Option.some.injEq, forall_eq', hattached,
        forall_const]
      rw [← hcall]
      constructor
      · intro hafter
        exact hafter freq I' (AList.lookup_insert _)
      · intro hafter
        exact FiniteMap.All.insert hreports hafter

theorem reportsShadowing_shadowStep_iff {E E' : Emulator}
    {event : ShadowEvent} (hE : E.AllTended) (hreports : E.ReportsShadowing)
    (h : E.shadowStep event = some E') :
    E'.ReportsShadowing ↔ E.KeepsShadowing event := by
  cases event with
  | updShadowStd std freq =>
      cases h
      cases freq with
      | none => exact E.reportsShadowing_updateShadowing_none_iff std
      | some freq =>
          exact iff_of_true
            (hreports.updateShadowing_some (.finite std) freq) trivial
  | createChannel freq =>
      cases h
      exact iff_of_true (hreports.createChannel freq) trivial
  | perform freq op => exact reportsShadowing_perform_iff hE hreports h
  | isChannelEmpty freq =>
      cases h
      exact iff_of_true (Controller.all_isChannelEmpty hreports freq) trivial

/-- A call that fails has no condition to meet. -/
theorem keepsShadowing_of_fail {E : Emulator} {event : ShadowEvent}
    (hE : E.AllTended) (h : E.shadowStep event = none) :
    E.KeepsShadowing event := by
  cases event with
  | updShadowStd std freq => cases h
  | createChannel freq => trivial
  | isChannelEmpty freq => trivial
  | perform freq op =>
      intro I hI hattached
      simp only [shadowStep, hI, Option.map_eq_none_iff] at h
      obtain ⟨I', hI'⟩ := harmless_iff_exists_perform.mp
        (((hE freq I hI).harmless_iff op).mpr hattached)
      cases h.symm.trans hI'

/-- In every state the reports agree with the channels, exactly when every
event meets its condition. -/
theorem reportsShadowing_iff_keepsShadowing (sandbox hasConfig : Bool)
    (defaults : Option PropagationDefaults) (events : List ShadowEvent) :
    EveryState shadowStep ReportsShadowing (start sandbox hasConfig defaults)
        events ↔
      EveryStep shadowStep KeepsShadowing (start sandbox hasConfig defaults)
        events := by
  have htended : (start sandbox hasConfig defaults).AllTended :=
    FiniteMap.all_empty
  have hreports : (start sandbox hasConfig defaults).ReportsShadowing :=
    FiniteMap.all_empty
  exact everyState_iff_everyStep (fun _ _ _ hE h => hE.shadowStep h)
    (fun _ _ _ => reportsShadowing_shadowStep_iff)
    (fun _ _ => keepsShadowing_of_fail) htended hreports events

/-- A channel that is created after a command for all frequencies has no
shadowing. -/
theorem new_channel_without_shadowing :
    ¬EveryState shadowStep ReportsShadowing (start false false none)
      [.updShadowStd 4 none, .createChannel 2400000000,
        .perform 2400000000 (.attachSource (plainEndpoint 0 "x")),
        .perform 2400000000 (.attachDestination (plainEndpoint 1 "y"))] := by
  intro h
  -- the state after the last call has the channel, with its initial value
  have hfinal : (run shadowStep (start false false none)
      [.updShadowStd 4 none, .createChannel 2400000000,
        .perform 2400000000 (.attachSource (plainEndpoint 0 "x")),
        .perform 2400000000 (.attachDestination (plainEndpoint 1 "y"))]).any
      (fun E => decide (getShadowing E (some 2400000000) = .finite 4 ∧
        ∃ I, E.controller.intermediateMap.lookup 2400000000 = some I ∧
          ∃ ch, I.channelMap.lookup ("x", "y") = some ch ∧
            ch.shadowingStd = .finite 0)) = true := by
    decide
  obtain ⟨E, hrun, hE⟩ := (Option.any_eq_true _ _).mp hfinal
  obtain ⟨hreport, I, hI, ch, hch, hstd⟩ := of_decide_eq_true hE
  have hagree := h.of_run hrun 2400000000 I hI ("x", "y") ch hch
  rw [hreport, hstd] at hagree
  exact absurd hagree (by decide)

end Emulator

end Chem
