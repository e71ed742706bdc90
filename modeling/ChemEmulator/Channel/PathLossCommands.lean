import ChemEmulator.Channel.PropagationSettings

/-!
# CHG_PL and SET_DEFAULT_PL

The two commands that select a propagation model, each as its branch of
`Coordinator::requestHandler` reads and applies it.  `CHG_PL` changes the
intermediate of one frequency and goes through `Coordinator::setPathLossMode`;
`SET_DEFAULT_PL` changes all intermediates and the defaults from which
`CreateChannel` makes new ones.

The commands treat a model alike unless its name is unknown: only
`SET_DEFAULT_PL` refuses it.  A new intermediate gets what the existing ones
have got only for some parameters: `CreateChannel` skips the free-space model
and forwards neither the environment nor the terrain.
-/

namespace Chem

open Json

namespace Coordinator

/-! ## The two branches of the handler -/

/-- A `float` that is assigned if the key holds a number. -/
def floatParam (j : Json) (key : String) (default : FloatValue) : FloatValue :=
  (((j.numberAt key).bind (getFloat 24)).map FloatValue.finite).getD default

/-- A text that is assigned if the key holds a string. -/
def textParam (j : Json) (key default : String) : String :=
  (j.stringAt key).getD default

/-- An `int` that is assigned if the key holds a number. -/
def intParam (j : Json) (key : String) (default : ℤ) : ℤ :=
  (intAt j key).getD default

/-- `Coordinator::setPathLossMode`. -/
def selectPathLossMode (C : Controller) (freq : ℚ) (plMode : String)
    (grCoeff : FloatValue) (scenario : String) : Reply × Controller :=
  match C.intermediateMap.lookup freq with
  | none => (.result false, C)
  | some I =>
      let I := I.updatePathLoss (propagationModelFromString plMode) grCoeff
      let I := if propagationModelFromString plMode = .threeGPP_38_901 then
        I.set3gppScenario scenario else I
      (.result true,
        { C with intermediateMap := C.intermediateMap.insert freq I })

/-- `CHG_PL`. -/
def chgPl (C : Controller) (j : Json) : Option (Reply × Controller) := do
  let freq ← j.read getDouble "freq"
  let plMode ← j.read getString "plMode"
  let grCoeff := floatParam j "groundCoeff" (.finite (-1))
  let scenario := textParam j "scenario" "UMa"
  let (response, C) :=
    selectPathLossMode C (toHz freq) plMode grCoeff scenario
  let model := propagationModelFromString plMode
  return (response, C.updateIntermediate (toHz freq) fun I =>
    if model = .okumuraHata then
      I.setHataEnvironment (textParam j "environment" "URBAN")
    else if model = .longleyRice then
      I.setITMParams
        { refractivity := floatParam j "refractivity" (.finite 301)
          groundConductivity := floatParam j "groundConductivity"
            (.finite (5368709 / 2 ^ 30))
          groundPermittivity := floatParam j "groundPermittivity" (.finite 15)
          climateZone := intParam j "climateZone" 5 }
    else I)

/-- `SET_DEFAULT_PL`.  Of the defaults only those are kept that `CreateChannel`
reads. -/
def setDefaultPl (C : Controller) (j : Json) :
    Option (Reply × Controller) := do
  let plMode ← j.value getString "plMode" "FREE_SPACE"
  let grCoeff := floatParam j "groundCoeff" (.finite (-1))
  let scenario := textParam j "scenario" "UMa"
  let model := propagationModelFromString plMode
  if model = .unknown then return (.failed "Unknown propagation model", C)
  else
    let environment := textParam j "environment" "URBAN"
    let itm : ITMParams :=
      { refractivity := floatParam j "refractivity" (.finite 301)
        groundConductivity := floatParam j "groundConductivity"
          (.finite (5368709 / 2 ^ 30))
        groundPermittivity := floatParam j "groundPermittivity" (.finite 15)
        climateZone := intParam j "climateZone" 5 }
    return (.success, { C with
      propagationDefaults := C.propagationDefaults.map fun _ =>
        ⟨model, grCoeff, scenario⟩
      intermediateMap := FiniteMap.mapValues
        (fun I =>
          let I := I.updatePathLoss model grCoeff
          let I := if model = .threeGPP_38_901 then I.set3gppScenario scenario
            else I
          let I := if model = .okumuraHata then
            I.setHataEnvironment environment else I
          if model = .longleyRice then I.setITMParams itm else I)
        C.intermediateMap })

/-! ## The branches and the handler -/

/-- What `CHG_PL` does to an intermediate after `setPathLossMode`. -/
theorem applyModel_eq (plMode : String) (settings : PlSettings)
    (I : Intermediate) :
    applyModel plMode settings I =
      let model := propagationModelFromString plMode
      let I := I.updatePathLoss model settings.groundCoeff
      let I := if model = .threeGPP_38_901 then
        I.set3gppScenario settings.scenario else I
      if model = .okumuraHata then I.setHataEnvironment settings.environment
      else if model = .longleyRice then I.setITMParams settings.itm
      else I := by
  cases hmodel : propagationModelFromString plMode <;> simp [applyModel, hmodel]

theorem chgPl_eq (C : Controller) (j : Json) :
    chgPl C j = (do
      let freq ← j.read getDouble "freq"
      let plMode ← j.read getString "plMode"
      return setPathLossMode C (toHz freq) plMode (plSettings j)) := by
  unfold chgPl
  refine Option.bind_congr fun freq _ => Option.bind_congr fun plMode _ => ?_
  simp only [selectPathLossMode, setPathLossMode, Controller.updateIntermediate]
  cases hI : C.intermediateMap.lookup (toHz freq) with
  | none =>
      have hmem : toHz freq ∉ C.intermediateMap := by
        rw [FiniteMap.mem_iff_lookup, hI]
        simp
      simp [hI, hmem]
  | some I =>
      have hmem : toHz freq ∈ C.intermediateMap :=
        FiniteMap.mem_iff_lookup.mpr ⟨I, hI⟩
      simp only [AList.lookup_insert, hmem, decide_true, applyModel_eq,
        AList.insert_insert]
      rfl

theorem setDefaultPl_eq (C : Controller) (j : Json) :
    setDefaultPl C j = (do
      let plMode ← j.value getString "plMode" "FREE_SPACE"
      return setDefaultModel C plMode (plSettings j)) := by
  unfold setDefaultPl
  refine Option.bind_congr fun plMode _ => ?_
  by_cases hunknown : propagationModelFromString plMode = .unknown
  · simp only [setDefaultModel, hunknown, if_true]
  · simp only [setDefaultModel, hunknown, if_false]
    rfl

/-- The handler takes a command to its branch. -/
theorem coordinatorRequestHandler_chgPl {j : Json} (o : Outside) (E : Emulator)
    (hcmd : j.index "CMD" = some (.string "CHG_PL")) :
    Emulator.coordinatorRequestHandler o E (some j) =
      (chgPl E.controller j).map (onController E) := by
  have hname : Cmd.ofJson (.string "CHG_PL") = .chgPl := by decide
  simp only [Emulator.coordinatorRequestHandler, readOperation, hcmd,
    Option.bind_eq_bind, Option.bind_some, hname, decode, chgPl_eq]
  cases j.read getDouble "freq" with
  | none => rfl
  | some freq =>
      cases j.read getString "plMode" with
      | none => rfl
      | some plMode => rfl

theorem coordinatorRequestHandler_setDefaultPl {j : Json} (o : Outside)
    (E : Emulator)
    (hcmd : j.index "CMD" = some (.string "SET_DEFAULT_PL")) :
    Emulator.coordinatorRequestHandler o E (some j) =
      (setDefaultPl E.controller j).map (onController E) := by
  have hname : Cmd.ofJson (.string "SET_DEFAULT_PL") = .setDefaultPl := by
    decide
  simp only [Emulator.coordinatorRequestHandler, readOperation, hcmd,
    Option.bind_eq_bind, Option.bind_some, hname, decode, setDefaultPl_eq]
  cases j.value getString "plMode" "FREE_SPACE" with
  | none => rfl
  | some plMode => rfl

/-! ## Agreement of the two commands -/

/-- `CHG_PL` for a frequency in MHz; `params` are the other fields. -/
def chgPlCommand (freq : ℚ) (plMode : String)
    (params : List (String × Json)) : Json :=
  .object (("CMD", .string "CHG_PL") :: ("freq", .float freq) ::
    ("plMode", .string plMode) :: params)

def setDefaultPlCommand (plMode : String) (params : List (String × Json)) :
    Json :=
  .object (("CMD", .string "SET_DEFAULT_PL") :: ("plMode", .string plMode) ::
    params)

/-- Both commands fail or both are accepted; what is accepted leaves the same
intermediate, and what fails leaves the old one. -/
def CommandsAgree (C : Controller) (freq : ℚ) (plMode : String)
    (params : List (String × Json)) : Prop :=
  ∃ response C' response' C'',
    chgPl C (chgPlCommand freq plMode params) = some (response, C') ∧
    setDefaultPl C (setDefaultPlCommand plMode params) =
      some (response', C'') ∧
    response.isFail = response'.isFail ∧
    (response.isFail = false →
      C'.intermediateMap.lookup (toHz freq) =
        C''.intermediateMap.lookup (toHz freq)) ∧
    (response.isFail = true →
      C'.intermediateMap.lookup (toHz freq) =
        C.intermediateMap.lookup (toHz freq) ∧
      C''.intermediateMap.lookup (toHz freq) =
        C.intermediateMap.lookup (toHz freq))

/-- Neither command has a parameter under a key of its own. -/
theorem plSettings_commands (freq : ℚ) (plMode : String)
    (params : List (String × Json)) :
    plSettings (chgPlCommand freq plMode params) =
      plSettings (setDefaultPlCommand plMode params) := by
  have hfind : ∀ key, key ≠ "CMD" → key ≠ "freq" → key ≠ "plMode" →
      (chgPlCommand freq plMode params).find? key =
        (setDefaultPlCommand plMode params).find? key := by
    intro key hcmd hfreq hmode
    simp only [chgPlCommand, setDefaultPlCommand, find?, List.lookup_cons,
      beq_false_of_ne hcmd, beq_false_of_ne hfreq, beq_false_of_ne hmode]
  simp only [plSettings, numberAt, stringAt, intAt]
  simp only [hfind "groundCoeff" (by decide) (by decide) (by decide),
    hfind "scenario" (by decide) (by decide) (by decide),
    hfind "environment" (by decide) (by decide) (by decide),
    hfind "refractivity" (by decide) (by decide) (by decide),
    hfind "groundConductivity" (by decide) (by decide) (by decide),
    hfind "groundPermittivity" (by decide) (by decide) (by decide),
    hfind "climateZone" (by decide) (by decide) (by decide)]

theorem chgPl_command (C : Controller) (freq : ℚ) (plMode : String)
    (params : List (String × Json)) :
    chgPl C (chgPlCommand freq plMode params) =
      some (setPathLossMode C (toHz freq) plMode
        (plSettings (setDefaultPlCommand plMode params))) := by
  rw [chgPl_eq, plSettings_commands]
  rfl

theorem setDefaultPl_command (C : Controller) (plMode : String)
    (params : List (String × Json)) :
    setDefaultPl C (setDefaultPlCommand plMode params) =
      some (setDefaultModel C plMode
        (plSettings (setDefaultPlCommand plMode params))) := by
  rw [setDefaultPl_eq]
  rfl

theorem setPathLossMode_of_lookup {C : Controller} {freq : ℚ}
    {I : Intermediate} (hI : C.intermediateMap.lookup freq = some I)
    (plMode : String) (settings : PlSettings) :
    setPathLossMode C freq plMode settings = (.result true, { C with
      intermediateMap :=
        C.intermediateMap.insert freq (applyModel plMode settings I) }) := by
  have hmem : freq ∈ C.intermediateMap := FiniteMap.mem_iff_lookup.mpr ⟨I, hI⟩
  simp only [setPathLossMode, Controller.updateIntermediate, hI, hmem,
    decide_true]

theorem setDefaultModel_of_known {plMode : String}
    (hknown : propagationModelFromString plMode ≠ .unknown) (C : Controller)
    (settings : PlSettings) :
    setDefaultModel C plMode settings = (.success, { C with
      propagationDefaults := C.propagationDefaults.map fun _ =>
        ⟨propagationModelFromString plMode, settings.groundCoeff,
          settings.scenario⟩
      intermediateMap :=
        FiniteMap.mapValues (applyModel plMode settings)
          C.intermediateMap }) :=
  if_neg hknown

theorem lookup_setDefaultModel {plMode : String}
    (hknown : propagationModelFromString plMode ≠ .unknown) (C : Controller)
    (settings : PlSettings) (freq : ℚ) :
    (setDefaultModel C plMode settings).2.intermediateMap.lookup freq =
      (C.intermediateMap.lookup freq).map (applyModel plMode settings) := by
  rw [setDefaultModel_of_known hknown]
  exact FiniteMap.lookup_mapValues _ _ _

/-- The commands agree about an existing intermediate exactly when the name of
the model is known. -/
theorem commandsAgree_iff_known {C : Controller} {freq : ℚ}
    (hfreq : toHz freq ∈ C.intermediateMap) (plMode : String)
    (params : List (String × Json)) :
    CommandsAgree C freq plMode params ↔
      propagationModelFromString plMode ≠ .unknown := by
  obtain ⟨I, hI⟩ := FiniteMap.mem_iff_lookup.mp hfreq
  have hchg := chgPl_command C freq plMode params
  have hdefault := setDefaultPl_command C plMode params
  rw [setPathLossMode_of_lookup hI] at hchg
  constructor
  · rintro ⟨r, C', r', C'', hchg', hdefault', hsame, -, -⟩ hunknown
    rw [setDefaultModel, if_pos hunknown] at hdefault
    cases hchg.symm.trans hchg'
    cases hdefault.symm.trans hdefault'
    -- `CHG_PL` says that it has done what `SET_DEFAULT_PL` refuses
    exact absurd hsame (by decide)
  · intro hknown
    rw [setDefaultModel_of_known hknown] at hdefault
    refine ⟨_, _, _, _, hchg, hdefault, rfl, ?_, ?_⟩
    · intro _
      simp only [AList.lookup_insert, FiniteMap.lookup_mapValues, hI,
        Option.map_some]
    · intro hfail
      cases hfail

/-- A controller with one intermediate, at 2400 MHz. -/
def oneIntermediate : Controller :=
  (Controller.create false (some ⟨.freeSpace, .finite (-1), "UMa"⟩)).createChannel
    2400000000

theorem commandsAgree_hata :
    CommandsAgree oneIntermediate 2400 "hata"
      [("environment", .string "RURAL")] :=
  (commandsAgree_iff_known (by decide +kernel) _ _).mpr (by decide +kernel)

/-- `CHG_PL` accepts a name that `SET_DEFAULT_PL` refuses. -/
theorem commands_differ_on_unknown_name :
    ¬CommandsAgree oneIntermediate 2400 "RAYLEIGH" [] := by
  rintro ⟨r, C', r', C'', hchg, hdefault, hsame, -, -⟩
  have hreply : (chgPl oneIntermediate
      (chgPlCommand 2400 "RAYLEIGH" [])).map (fun p => p.1.isFail) =
      some false := by
    decide +kernel
  have hreply' : (setDefaultPl oneIntermediate
      (setDefaultPlCommand "RAYLEIGH" [])).map (fun p => p.1.isFail) =
      some true := by
    decide +kernel
  rw [hchg, Option.map_some, Option.some.injEq] at hreply
  rw [hdefault, Option.map_some, Option.some.injEq] at hreply'
  rw [hreply, hreply'] at hsame
  cases hsame

/-! ## Existing and new intermediates -/

/-- A sequence of `SET_DEFAULT_PL` commands. -/
def setDefaults (C : Controller) (commands : List (String × PlSettings)) :
    Controller :=
  commands.foldl (fun C c => (setDefaultModel C c.1 c.2).2) C

theorem setDefaults_concat (C : Controller)
    (commands : List (String × PlSettings)) (plMode : String)
    (settings : PlSettings) :
    setDefaults C (commands ++ [(plMode, settings)]) =
      (setDefaultModel (setDefaults C commands) plMode settings).2 := by
  rw [setDefaults, List.foldl_append]
  rfl

theorem isSome_propagationDefaults_setDefaults {C : Controller}
    (hC : C.propagationDefaults.isSome = true)
    (commands : List (String × PlSettings)) :
    (setDefaults C commands).propagationDefaults.isSome = true := by
  induction commands generalizing C with
  | nil => exact hC
  | cons c commands ih =>
      refine ih ?_
      simp only [setDefaultModel]
      split_ifs
      · exact hC
      · rw [Option.isSome_map]
        exact hC

/-- The same model, with the same values of the parameters that it uses. -/
@[mk_iff]
structure SameModel (I J : Intermediate) : Prop where
  propagationModel : I.propagationModel = J.propagationModel
  grReflection : I.grReflection = J.grReflection
  scenario3gpp : I.propagationModel = .threeGPP_38_901 →
    I.scenario3gpp = J.scenario3gpp
  hataEnvironment : I.propagationModel = .okumuraHata →
    I.hataEnvironment = J.hataEnvironment
  itm : I.propagationModel = .longleyRice → I.itm = J.itm

/-- The parameters of the command reach new intermediates as they reach `I`:
those that creation does not forward have the initial values. -/
def Forwarded (settings : PlSettings) (I : Intermediate) :
    PropagationModel → Prop
  | .freeSpace => settings.groundCoeff = .finite (-1)
  | .threeGPP_38_901 =>
      settings.scenario.isEmpty = true → I.scenario3gpp = "UMa"
  | .okumuraHata =>
      (if settings.environment.isEmpty then I.hataEnvironment
        else settings.environment) = "URBAN"
  | .longleyRice =>
      { settings.itm with
        climateZone := clampClimateZone settings.itm.climateZone } =
          ITMParams.default
  | _ => True

theorem sameModel_applyModel_iff {plMode : String}
    (hknown : propagationModelFromString plMode ≠ .unknown)
    (settings : PlSettings) (I : Intermediate) {D : Controller}
    (hD : D.propagationDefaults = some ⟨propagationModelFromString plMode,
      settings.groundCoeff, settings.scenario⟩) (freq : ℚ) :
    SameModel (applyModel plMode settings I) (D.newIntermediate freq) ↔
      Forwarded settings I (propagationModelFromString plMode) := by
  cases hmodel : propagationModelFromString plMode with
  | unknown => exact absurd hmodel hknown
  | freeSpace =>
      simp only [hmodel] at hD
      simp [sameModel_iff, applyModel, hmodel, Controller.newIntermediate, hD,
        Intermediate.updatePathLoss, Intermediate.setPathLossMode,
        Intermediate.create, Forwarded]
  | twoRay =>
      simp only [hmodel] at hD
      simp [sameModel_iff, applyModel, hmodel, Controller.newIntermediate, hD,
        Intermediate.updatePathLoss, Intermediate.setPathLossMode, Forwarded]
  | none =>
      simp only [hmodel] at hD
      simp [sameModel_iff, applyModel, hmodel, Controller.newIntermediate, hD,
        Intermediate.updatePathLoss, Intermediate.setPathLossMode, Forwarded]
  | threeGPP_38_901 =>
      simp only [hmodel] at hD
      by_cases hempty : settings.scenario = "" <;>
        simp [sameModel_iff, applyModel, hmodel, Controller.newIntermediate,
          hD, Intermediate.updatePathLoss, Intermediate.setPathLossMode,
          Intermediate.set3gppScenario, Intermediate.create, Forwarded, hempty]
  | okumuraHata =>
      simp only [hmodel] at hD
      by_cases hempty : settings.environment = "" <;>
        simp [sameModel_iff, applyModel, hmodel, Controller.newIntermediate,
          hD, Intermediate.updatePathLoss, Intermediate.setPathLossMode,
          Intermediate.setHataEnvironment, Intermediate.create, Forwarded,
          hempty]
  | longleyRice =>
      simp only [hmodel] at hD
      simp [sameModel_iff, applyModel, hmodel, Controller.newIntermediate, hD,
        Intermediate.updatePathLoss, Intermediate.setPathLossMode,
        Intermediate.setITMParams, Intermediate.create, Forwarded]

/-- After the last of a sequence of commands, an intermediate that is created
has the model and the parameters of one that existed before exactly when the
parameters are forwarded.  The controller `D` that creates it may have done
anything else in between; it never changes the defaults. -/
theorem sameModel_iff_forwarded {C : Controller}
    (hC : C.propagationDefaults.isSome = true)
    (commands : List (String × PlSettings)) {plMode : String}
    (hknown : propagationModelFromString plMode ≠ .unknown)
    (settings : PlSettings) {freq : ℚ} {I : Intermediate}
    (hI : (setDefaults C commands).intermediateMap.lookup freq = some I)
    {D : Controller}
    (hD : D.propagationDefaults =
      (setDefaults C (commands ++ [(plMode, settings)])).propagationDefaults)
    {newFreq : ℚ} (hnew : newFreq ∉ D.intermediateMap) :
    ∃ I' J,
      (setDefaults C (commands ++ [(plMode, settings)])).intermediateMap.lookup
        freq = some I' ∧
      (D.createChannel newFreq).intermediateMap.lookup newFreq = some J ∧
      (SameModel I' J ↔
        Forwarded settings I (propagationModelFromString plMode)) := by
  obtain ⟨d, hd⟩ := Option.isSome_iff_exists.mp
    (isSome_propagationDefaults_setDefaults hC commands)
  rw [setDefaults_concat, setDefaultModel_of_known hknown, hd,
    Option.map_some] at hD
  refine ⟨applyModel plMode settings I, D.newIntermediate newFreq, ?_, ?_,
    sameModel_applyModel_iff hknown settings I hD newFreq⟩
  · rw [setDefaults_concat, lookup_setDefaultModel hknown, hI, Option.map_some]
  · rw [Controller.createChannel, if_neg hnew]
    exact AList.lookup_insert _

/-- The settings of a command without parameters. -/
def plainSettings : PlSettings := plSettings (.object [])

/-- The intermediate of `oneIntermediate`. -/
def firstIntermediate : Intermediate :=
  (Controller.create false
    (some ⟨.freeSpace, .finite (-1), "UMa"⟩)).newIntermediate 2400000000

theorem sameModel_hata_after_twoRay :
    ∃ I' J,
      (setDefaults oneIntermediate
        ([("TWO_RAY", plainSettings)] ++
          [("HATA", plainSettings)])).intermediateMap.lookup 2400000000 =
            some I' ∧
      ((setDefaults oneIntermediate
        ([("TWO_RAY", plainSettings)] ++
          [("HATA", plainSettings)])).createChannel
            5000000000).intermediateMap.lookup 5000000000 = some J ∧
      (SameModel I' J ↔ Forwarded plainSettings
        (applyModel "TWO_RAY" plainSettings firstIntermediate)
        (propagationModelFromString "HATA")) := by
  have hexisting : (setDefaults oneIntermediate
      [("TWO_RAY", plainSettings)]).intermediateMap.lookup 2400000000 =
        some (applyModel "TWO_RAY" plainSettings firstIntermediate) :=
    lookup_setDefaultModel (by decide +kernel) oneIntermediate _ _
  exact sameModel_iff_forwarded rfl _ (by decide +kernel) _ hexisting rfl
    (by decide +kernel)

/-- A new intermediate does not get the environment of the last command. -/
theorem new_intermediate_without_environment :
    ¬∀ I' J,
      (setDefaults oneIntermediate
        [("HATA", { plainSettings with
          environment := "RURAL" })]).intermediateMap.lookup 2400000000 =
            some I' →
      ((setDefaults oneIntermediate
        [("HATA", { plainSettings with
          environment := "RURAL" })]).createChannel
            5000000000).intermediateMap.lookup 5000000000 = some J →
      SameModel I' J := by
  intro h
  have hexisting : ((setDefaults oneIntermediate
      [("HATA", { plainSettings with
        environment := "RURAL" })]).intermediateMap.lookup 2400000000).map
      (fun I => (I.propagationModel, I.hataEnvironment)) =
        some (.okumuraHata, "RURAL") := by
    decide +kernel
  have hnew : (((setDefaults oneIntermediate
      [("HATA", { plainSettings with
        environment := "RURAL" })]).createChannel
          5000000000).intermediateMap.lookup 5000000000).map
      (fun I => I.hataEnvironment) = some "URBAN" := by
    decide +kernel
  obtain ⟨I', hI', hrural⟩ := Option.map_eq_some_iff.mp hexisting
  obtain ⟨J, hJ, hurban⟩ := Option.map_eq_some_iff.mp hnew
  obtain ⟨hmodel, henvironment⟩ := Prod.mk.inj hrural
  have hsame := (h I' J hI' hJ).hataEnvironment hmodel
  rw [henvironment, hurban] at hsame
  exact absurd hsame (by decide)

end Coordinator

end Chem
