import ChemEmulator.Channel.ChannelMap
import ChemEmulator.Channel.Commands

/-!
# The propagation settings of the channels

An intermediate pushes a changed setting to the channels that exist, and gives
its settings to every channel that it creates.  Both paths have rules of their
own for empty texts, values that are not finite and climate zones out of range.
They coincide because an intermediate never stores a setting that one of its
channels would refuse.
-/

namespace Chem

open PartialRuns

namespace Intermediate

/-! ## What a membership call does to the channels -/

/-- The settings that a channel takes from its intermediate. -/
structure Settings where
  propagationModel : PropagationModel
  scenario3gpp : String
  hataEnvironment : String
  itm : ITMParams
deriving DecidableEq

def settings (I : Intermediate) : Settings :=
  ⟨I.propagationModel, I.scenario3gpp, I.hataEnvironment, I.itm⟩

/-- The settings stay, and so does every channel that is not removed; all
other channels are new. -/
structure Relinked (I I' : Intermediate) : Prop where
  settings : I'.settings = I.settings
  channels : ∀ k ch, I'.channelMap.lookup k = some ch →
    I.channelMap.lookup k = some ch ∨ (k ∉ I.channelMap ∧ I.IsNewChannel k ch)

theorem Relinked.refl (I : Intermediate) : I.Relinked I :=
  ⟨rfl, fun _ _ h => Or.inl h⟩

theorem relinked_removeChannel (I : Intermediate) (nodeId : NodeId) :
    I.Relinked (I.removeChannel nodeId) :=
  ⟨rfl, fun _ _ h => Or.inl (FiniteMap.lookup_filter.mp h).1⟩

@[simp] theorem settings_emptyChannelChecker (I : Intermediate) :
    I.emptyChannelChecker.settings = I.settings := by
  by_cases h : I.isEmpty <;> simp [emptyChannelChecker, h, settings]

theorem relinked_perform {I I' : Intermediate} {op : MembershipOp}
    (h : I.perform op = some I') : I.Relinked I' := by
  cases op with
  | attachSource receiver =>
      by_cases hmem : receiver.id ∈ I.sourceMap
      · simp only [perform, attachSource, hmem, if_true] at h
        cases h
        exact Relinked.refl I
      · simp only [perform, attachSource, hmem, if_false] at h
        cases printStatus_some h
        exact ⟨rfl, (updateChannelMap_fills _).added⟩
  | attachDestination transmitter =>
      by_cases hmem : transmitter.configId ∈ I.destinationMap
      · simp only [perform, attachDestination, hmem, if_true] at h
        cases h
        exact Relinked.refl I
      · simp only [perform, attachDestination, hmem, if_false] at h
        cases printStatus_some h
        exact ⟨rfl, (updateChannelMap_fills _).added⟩
  | addSandboxNode nodeId numChannels =>
      cases h
      exact ⟨rfl, (updateChannelMap_fills _).added⟩
  | detachSource receiver =>
      cases h
      by_cases hmem : receiver.id ∈ I.sourceMap
      · simp only [detachSource, hmem, if_true]
        refine ⟨settings_emptyChannelChecker _, ?_⟩
        rw [channelMap_emptyChannelChecker]
        exact (I.relinked_removeChannel receiver.id).channels
      · simpa only [detachSource, hmem, if_false] using Relinked.refl I
  | detachDestination transmitter =>
      cases h
      by_cases hmem : transmitter.id ∈ I.destinationMap
      · simp only [detachDestination, hmem, if_true]
        refine ⟨settings_emptyChannelChecker _, ?_⟩
        rw [channelMap_emptyChannelChecker]
        exact (I.relinked_removeChannel transmitter.id).channels
      · simpa only [detachDestination, hmem, if_false] using Relinked.refl I
  | removeSandboxNode nodeId =>
      cases h
      exact ⟨rfl, (I.relinked_removeChannel nodeId).channels⟩

/-! ## Uniform settings -/

/-- The channel has the current settings of the intermediate. -/
structure Tuned (I : Intermediate) (ch : Channel) : Prop where
  plType : ch.plType = plTypeOf I.propagationModel
  scenario3gpp : ch.scenario3gpp = I.scenario3gpp
  hataEnvironment : ch.hataEnvironment = I.hataEnvironment
  itm : ch.itm = I.itm

def Uniform (I : Intermediate) : Prop :=
  FiniteMap.All (fun _ ch => I.Tuned ch) I.channelMap

/-- The floating point parameters are finite, and the zone is in range. -/
structure ITMAccepted (itm : ITMParams) : Prop where
  refractivity : itm.refractivity.isfinite = true
  groundConductivity : itm.groundConductivity.isfinite = true
  groundPermittivity : itm.groundPermittivity.isfinite = true
  climateZone : clampClimateZone itm.climateZone = itm.climateZone

/-- No channel refuses a setting of the intermediate. -/
structure Acceptable (I : Intermediate) : Prop where
  scenario3gpp : I.scenario3gpp.isEmpty = false
  hataEnvironment : I.hataEnvironment.isEmpty = false
  itm : ITMAccepted I.itm

theorem Acceptable.of_settings {I I' : Intermediate} (hI : I.Acceptable)
    (h : I'.settings = I.settings) : I'.Acceptable := by
  obtain ⟨-, hscenario, henvironment, hitm⟩ := Settings.mk.inj h
  exact ⟨hscenario ▸ hI.scenario3gpp, henvironment ▸ hI.hataEnvironment,
    hitm ▸ hI.itm⟩

theorem acceptable_create (freq : ℚ) : (create freq).Acceptable :=
  have hscenario : "UMa".isEmpty = false := by decide
  have henvironment : "URBAN".isEmpty = false := by decide
  have hzone : clampClimateZone 5 = 5 := by decide
  ⟨hscenario, henvironment, rfl, rfl, rfl, hzone⟩

theorem clampClimateZone_clampClimateZone (zone : ℤ) :
    clampClimateZone (clampClimateZone zone) = clampClimateZone zone := by
  unfold clampClimateZone
  omega

theorem ITMAccepted.updateITMParams {itm : ITMParams} (h : ITMAccepted itm)
    (ch : Channel) : (ch.updateITMParams itm).itm = itm := by
  simp [Channel.updateITMParams, h.refractivity, h.groundConductivity,
    h.groundPermittivity, h.climateZone]

/-- What an acceptable intermediate gives to a channel, the channel takes. -/
theorem Acceptable.tuned_newChannel {I : Intermediate} (hI : I.Acceptable)
    {k : NodeId × NodeId} {ch : Channel} (h : I.IsNewChannel k ch) :
    I.Tuned ch := by
  obtain ⟨destNumCh, srcNumCh, rfl⟩ := h
  refine ⟨?_, ?_, ?_, hI.itm.updateITMParams _⟩ <;>
    simp [newChannel, Channel.updateITMParams, Channel.updateHataEnvironment,
      Channel.update3gppScenario, Channel.updatePlType, hI.scenario3gpp,
      hI.hataEnvironment, currentPlType]

theorem Tuned.of_settings {I I' : Intermediate} {ch : Channel}
    (h : I.Tuned ch) (hsettings : I'.settings = I.settings) : I'.Tuned ch := by
  obtain ⟨hmodel, hscenario, henvironment, hitm⟩ := Settings.mk.inj hsettings
  exact ⟨hmodel ▸ h.plType, hscenario ▸ h.scenario3gpp,
    henvironment ▸ h.hataEnvironment, hitm ▸ h.itm⟩

theorem Uniform.relinked {I I' : Intermediate} (hI : I.Acceptable)
    (huniform : I.Uniform) (h : I.Relinked I') : I'.Uniform := by
  intro k ch hlookup
  refine Tuned.of_settings ?_ h.settings
  rcases h.channels k ch hlookup with hold | ⟨-, hnew⟩
  · exact huniform k ch hold
  · exact hI.tuned_newChannel hnew

/-- Pushing a setting to all channels. -/
theorem Uniform.mapValues {I I' : Intermediate} {f : Channel → Channel}
    (hI : I.Uniform) (hmap : I'.channelMap = FiniteMap.mapValues f I.channelMap)
    (hf : ∀ ch, I.Tuned ch → I'.Tuned (f ch)) : I'.Uniform := by
  intro k ch hlookup
  rw [hmap, FiniteMap.lookup_mapValues, Option.map_eq_some_iff] at hlookup
  obtain ⟨old, hold, rfl⟩ := hlookup
  exact hf old (hI k old hold)

/-! ## The setters -/

/-- The calls that change the settings or the membership.  The text of a model
is read by `PropagationModelFromString`. -/
inductive SettingOp where
  | setPathLossMode (plMode : PropagationModel)
  | setPathLossModeText (plMode : String)
  | updatePathLoss (plMode : PropagationModel) (grCoeff : FloatValue)
  | updatePathLossText (plMode : String) (grCoeff : FloatValue)
  | set3gppScenario (scenario : String)
  | setHataEnvironment (environment : String)
  /-- Finite parameters, and any `int` for the zone. -/
  | setITMParams (refractivity groundConductivity groundPermittivity : ℚ)
      (climateZone : Int32)
  | membership (op : MembershipOp)

def performSetting (I : Intermediate) : SettingOp → Option Intermediate
  | .setPathLossMode plMode => some (I.setPathLossMode plMode)
  | .setPathLossModeText plMode =>
      some (I.setPathLossMode (propagationModelFromString plMode))
  | .updatePathLoss plMode grCoeff => some (I.updatePathLoss plMode grCoeff)
  | .updatePathLossText plMode grCoeff =>
      some (I.updatePathLoss (propagationModelFromString plMode) grCoeff)
  | .set3gppScenario scenario => some (I.set3gppScenario scenario)
  | .setHataEnvironment environment => some (I.setHataEnvironment environment)
  | .setITMParams refractivity groundConductivity groundPermittivity zone =>
      some (I.setITMParams
        ⟨.finite refractivity, .finite groundConductivity,
          .finite groundPermittivity, zone.toInt⟩)
  | .membership op => I.perform op

/-- The property together with what it rests on. -/
structure UniformSettings (I : Intermediate) : Prop where
  acceptable : I.Acceptable
  uniform : I.Uniform

namespace UniformSettings

variable {I : Intermediate}

theorem setPathLossMode (hI : I.UniformSettings)
    (plMode : PropagationModel) : (I.setPathLossMode plMode).UniformSettings := by
  refine ⟨⟨hI.acceptable.scenario3gpp, hI.acceptable.hataEnvironment,
    hI.acceptable.itm⟩, hI.uniform.mapValues rfl ?_⟩
  intro ch hch
  exact ⟨rfl, hch.scenario3gpp, hch.hataEnvironment, hch.itm⟩

theorem updatePathLoss (hI : I.UniformSettings) (plMode : PropagationModel)
    (grCoeff : FloatValue) :
    (I.updatePathLoss plMode grCoeff).UniformSettings := by
  have hmode := hI.setPathLossMode plMode
  refine ⟨hmode.acceptable.of_settings rfl, ?_⟩
  intro k ch hlookup
  exact (hmode.uniform k ch hlookup).of_settings rfl

theorem set3gppScenario (hI : I.UniformSettings) (scenario : String) :
    (I.set3gppScenario scenario).UniformSettings := by
  by_cases hempty : scenario.isEmpty = true
  · simpa only [Intermediate.set3gppScenario, hempty, if_true] using hI
  · simp only [Intermediate.set3gppScenario, hempty]
    refine ⟨⟨by simpa using hempty, hI.acceptable.hataEnvironment,
      hI.acceptable.itm⟩, hI.uniform.mapValues rfl ?_⟩
    intro ch hch
    simp only [Channel.update3gppScenario, hempty]
    exact ⟨hch.plType, rfl, hch.hataEnvironment, hch.itm⟩

theorem setHataEnvironment (hI : I.UniformSettings) (environment : String) :
    (I.setHataEnvironment environment).UniformSettings := by
  by_cases hempty : environment.isEmpty = true
  · simpa only [Intermediate.setHataEnvironment, hempty, if_true] using hI
  · simp only [Intermediate.setHataEnvironment, hempty]
    refine ⟨⟨hI.acceptable.scenario3gpp, by simpa using hempty,
      hI.acceptable.itm⟩, hI.uniform.mapValues rfl ?_⟩
    intro ch hch
    simp only [Channel.updateHataEnvironment, hempty]
    exact ⟨hch.plType, hch.scenario3gpp, rfl, hch.itm⟩

theorem setITMParams (hI : I.UniformSettings) {itm : ITMParams}
    (hrefractivity : itm.refractivity.isfinite = true)
    (hconductivity : itm.groundConductivity.isfinite = true)
    (hpermittivity : itm.groundPermittivity.isfinite = true) :
    (I.setITMParams itm).UniformSettings := by
  have haccepted : ITMAccepted
      { itm with climateZone := clampClimateZone itm.climateZone } :=
    ⟨hrefractivity, hconductivity, hpermittivity,
      clampClimateZone_clampClimateZone _⟩
  refine ⟨⟨hI.acceptable.scenario3gpp, hI.acceptable.hataEnvironment,
    haccepted⟩, hI.uniform.mapValues rfl ?_⟩
  intro ch hch
  exact ⟨hch.plType, hch.scenario3gpp, hch.hataEnvironment,
    haccepted.updateITMParams ch⟩

theorem performSetting (hI : I.UniformSettings) {op : SettingOp}
    {I' : Intermediate} (h : I.performSetting op = some I') :
    I'.UniformSettings := by
  cases op with
  | setPathLossMode plMode =>
      cases h
      exact hI.setPathLossMode plMode
  | setPathLossModeText plMode =>
      cases h
      exact hI.setPathLossMode _
  | updatePathLoss plMode grCoeff =>
      cases h
      exact hI.updatePathLoss plMode grCoeff
  | updatePathLossText plMode grCoeff =>
      cases h
      exact hI.updatePathLoss _ grCoeff
  | set3gppScenario scenario =>
      cases h
      exact hI.set3gppScenario scenario
  | setHataEnvironment environment =>
      cases h
      exact hI.setHataEnvironment environment
  | setITMParams refractivity groundConductivity groundPermittivity zone =>
      cases h
      exact hI.setITMParams rfl rfl rfl
  | membership op =>
      have hrelinked : I.Relinked I' := relinked_perform h
      exact ⟨hI.acceptable.of_settings hrelinked.settings,
        hI.uniform.relinked hI.acceptable hrelinked⟩

end UniformSettings

/-- In every state every channel has the current settings of its intermediate,
whether it is older or newer than they are. -/
theorem channel_settings_uniform (freq : ℚ) (ops : List SettingOp) :
    EveryState performSetting Uniform (create freq) ops := by
  have hcreated : (create freq).UniformSettings :=
    ⟨acceptable_create freq, FiniteMap.all_empty⟩
  have hall : EveryState performSetting UniformSettings (create freq) ops :=
    everyState_of_invariant (fun _ _ _ hI h => hI.performSetting h) hcreated ops
  exact hall.imp fun _ hI => hI.uniform

end Intermediate

end Chem
