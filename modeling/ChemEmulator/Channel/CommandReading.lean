import ChemEmulator.Channel.Commands

/-!
# Which commands the coordinator can read

Only parsing a request is guarded.  Every branch of the handler then converts
the fields it uses: some without looking whether they are there, some with a
default for a missing field, some after a test of their type.  A field of the
first kind has to be there, one of the first two kinds must not have another
type; fields of the third kind do no harm.

What has been read is carried out, except that a response may quote a text that
cannot be written and that an extension may never come to an end.
-/

namespace Chem

open Json

namespace Coordinator

/-! ## The fields of each command -/

def linkKeys : List Field :=
  [⟨"freq", .number⟩, ⟨"src", .text⟩, ⟨"dest", .text⟩]

/-- Fields that are converted unseen. -/
def neededFields : Cmd → List Field
  | .chgPl => [⟨"freq", .number⟩, ⟨"plMode", .text⟩]
  | .chgCoeff => linkKeys ++
      [⟨"coeff", .number⟩, ⟨"p_src", .number⟩, ⟨"p_dest", .number⟩]
  | .chgNoiseMdl => [⟨"freq", .number⟩, ⟨"noiseModel", .text⟩,
      ⟨"pwr", .number⟩, ⟨"src", .text⟩, ⟨"dest", .text⟩]
  | .chgFreqOffset => linkKeys ++ [⟨"offsetHz", .number⟩]
  | .chgDoppler => linkKeys
  | .chgCir => linkKeys
  | .updShadowStd => [⟨"std", .number⟩]
  | _ => []

/-- Fields that may be missing. -/
def optionalFields : Cmd → List Field
  | .chgAntenna => [⟨"node", .text⟩, ⟨"pattern", .text⟩,
      ⟨"tx_pattern", .text⟩, ⟨"rx_pattern", .text⟩]
  | .chgSourcePower => [⟨"node", .text⟩]
  | .setDefaultPl => [⟨"plMode", .text⟩]
  | .chgDoppler => [⟨"enabled", .flag⟩]
  | .chgCir => [⟨"p_src", .arithmetic⟩, ⟨"p_dest", .arithmetic⟩]
  | .updShadowStd => [⟨"freq", .number⟩]
  | .getShadowStd => [⟨"freq", .number⟩]
  | .ext => [⟨"extension", .text⟩, ⟨"action", .text⟩]
  | _ => []

/-- Keys can be assigned to the value. -/
def takesKeys : Json → Bool
  | .object _ => true
  | .null => true
  | _ => false

/-- `EXT`: the other keys can be merged into the parameters. -/
def mergeable (fields : List (String × Json)) : Bool :=
  takesKeys ((fields.lookup "params").getD (.object [])) ||
    fields.all fun f => decide (f.1 ∈ extKeys)

def readable (fields : List (String × Json)) (cmd : Cmd) : Bool :=
  (neededFields cmd).all (Json.object fields).has &&
    (optionalFields cmd).all (Json.object fields).allows &&
    (decide (cmd ≠ .ext) || mergeable fields)

/-- The texts from outside that the response to a command quotes. -/
def quoted (o : Outside) (E : Emulator) (j : Json) :
    Cmd → List (Option ByteArray)
  | .getNodes => o.nodeRows
  | .getChannels => o.channelRows
  | .getAntennaPatterns => o.antennaNames.map some
  | .getConfigFile => if E.hasConfig then [some o.configPath] else []
  | .saveConfigFile =>
      if E.hasConfig && ((j.stringAt "path").getD "").isEmpty then
        [some o.configPath] else []
  | .getLogs => (lastFormatted (o.logLines.getD []) (logLimit j)).map some
  | _ => []

/-- An extension comes to an end with the command: the address that it is
started with can be searched, the thread that it joins ends, and the server
answers. -/
def extensionEnds (o : Outside) (E : Emulator) (extName action : String)
    (params : Json) : Bool :=
  if extName = "sandbox" then
    if action = "start" then
      E.sandboxExtension.running || o.searchEnds (middlemanUrl E params)
    else if action = "stop" then
      !E.sandboxExtension.running || o.threadEnds
    else true
  else if extName = "sionna" then
    if action = "start" then
      E.sionnaExtension.running || o.searchEnds (sionnaUrl E params)
    else if action = "stop" then
      !E.sionnaExtension.running || o.threadEnds
    else if action = "config" then !movesOrigin o params || o.putEnds
    else true
  else true

/-- The parameters of `EXT`, with the other keys merged. -/
def extParams (fields : List (String × Json)) : Json :=
  (mergeParams (((Json.object fields).find? "params").getD (.object []))
    fields).getD .null

/-- The same for the fields of a command. -/
def commandEnds (o : Outside) (E : Emulator) (fields : List (String × Json)) :
    Cmd → Bool
  | .ext => extensionEnds o E
      (((Json.object fields).stringAt "extension").getD "")
      (((Json.object fields).stringAt "action").getD "") (extParams fields)
  | _ => true

/-! ## Reading -/

theorem isSome_mergeParams (params : Json) (fields : List (String × Json)) :
    (mergeParams params fields).isSome =
      (takesKeys params || fields.all fun f => decide (f.1 ∈ extKeys)) := by
  -- after the first assignment the parameters are an object
  have hmerge : ∀ (extra : List (String × Json)) (params : Json),
      (extra.foldlM (fun (params : Json) f => params.assign f.1 f.2)
        params).isSome = (takesKeys params || extra.isEmpty) := by
    intro extra
    induction extra with
    | nil => simp
    | cons f extra ih =>
        intro params
        rw [List.foldlM_cons]
        cases params with
        | object fields => exact ih _
        | null => exact ih _
        | _ => rfl
  rw [mergeParams, hmerge]
  congr 1
  rw [Bool.eq_iff_iff]
  simp [List.filter_eq_nil_iff]

section Fields

variable (fields : List (String × Json))

theorem isSome_readFreq :
    (readFreq (.object fields)).isSome =
      (Json.object fields).allows ⟨"freq", .number⟩ := by
  rw [Bool.eq_iff_iff, ← isSome_read_of_contains takes_getDouble, readFreq]
  split_ifs with h <;> simp [h]

theorem isSome_readLink :
    (readLink (.object fields)).isSome =
      linkKeys.all (Json.object fields).has := by
  simp [readLink, linkKeys, Option.isSome_bind, any_const,
    isSome_read takes_getDouble, isSome_read takes_getString]

/-- A command is decoded exactly when its fields allow it. -/
theorem isSome_decode (maxTaps : ℤ) (cmd : Cmd) :
    (decode maxTaps (.object fields) cmd).isSome = readable fields cmd := by
  cases cmd
  case ext =>
    simp [decode, readable, neededFields, optionalFields, Option.isSome_bind,
      any_const, isSome_value takes_getString, isSome_mergeParams, mergeable,
      find?, Bool.and_assoc]
  all_goals
    simp [decode, readable, neededFields, optionalFields, Option.isSome_bind,
      any_const, isSome_read takes_getDouble, isSome_read takes_getString,
      isSome_read takes_getUnsigned, isSome_value takes_getString,
      isSome_value takes_getBoolean, isSome_value takes_getInt,
      isSome_readFreq, isSome_readLink]

theorem isSome_routeCommand (o : Outside) (E : Emulator)
    (extName action : String) (params : Json) :
    (routeCommand o E extName action params).isSome =
      extensionEnds o E extName action params := by
  unfold routeCommand sandboxCommand sionnaCommand extensionEnds sandboxStart
    sandboxStop sionnaStart sionnaStop
  cases movesOrigin o params <;> split_ifs <;> simp_all

theorem commandEnds_of_ne (o : Outside) (E : Emulator)
    (fields : List (String × Json)) {cmd : Cmd} (h : cmd ≠ .ext) :
    commandEnds o E fields cmd = true := by
  cases cmd with
  | ext => exact absurd rfl h
  | _ => rfl

/-- The text that `value` reads is the one under the key, or the default. -/
theorem eq_of_value {key text default : String}
    (h : (Json.object fields).value getString key default = some text) :
    ((Json.object fields).stringAt key).getD default = text := by
  rw [Json.value] at h
  rw [stringAt, find?]
  cases hfind : fields.lookup key with
  | none =>
      rw [hfind] at h
      exact Option.some.inj h
  | some v =>
      rw [hfind] at h
      have hread : getString v = some text := h
      rw [Option.bind_some, hread, Option.getD_some]

/-- What a decoded `EXT` names, and what its parameters are. -/
theorem commandEnds_ext {o : Outside} {E : Emulator} {operation : Operation}
    (h : decode E.cirMaxTaps (.object fields) .ext = some operation) :
    ∃ extName action params, operation = .ext extName action params ∧
      commandEnds o E fields .ext =
        extensionEnds o E extName action params := by
  simp only [decode, Option.bind_eq_bind, Option.bind_eq_some_iff] at h
  obtain ⟨extName, hname, action, haction, params, hparams, h⟩ := h
  have hmerged : extParams fields = params := by
    rw [extParams, hparams, Option.getD_some]
  refine ⟨extName, action, params, (Option.some.inj h).symm, ?_⟩
  rw [commandEnds, eq_of_value fields hname, eq_of_value fields haction,
    hmerged]

theorem isSome_reportOf (texts : List (Option ByteArray)) (E : Emulator) :
    (reportOf texts E).isSome = texts.all isText := by
  rw [reportOf]
  split_ifs with hall <;> simp [hall]

theorem isSome_saveConfigFile (o : Outside) (E : Emulator)
    (config : Option Json) (path : String) :
    (saveConfigFile o E config path).isSome =
      (if E.hasConfig && path.isEmpty then [some o.configPath]
        else []).all isText := by
  rw [saveConfigFile]
  cases E.hasConfig with
  | false => rfl
  | true =>
      cases path.isEmpty <;> cases htext : isText (some o.configPath) <;>
        cases o.saved <;> simp [htext]

/-- A decoded command is carried out exactly when the texts it quotes can be
written and its extension comes to an end. -/
theorem isSome_execute {o : Outside} {E : Emulator} {cmd : Cmd}
    {operation : Operation}
    (h : decode E.cirMaxTaps (.object fields) cmd = some operation) :
    (execute o E operation).isSome =
      ((quoted o E (.object fields) cmd).all isText &&
        commandEnds o E fields cmd) := by
  by_cases hext : cmd = .ext
  · subst hext
    obtain ⟨extName, action, params, rfl, hends⟩ := commandEnds_ext fields h
    rw [hends]
    exact isSome_routeCommand o E extName action params
  rw [commandEnds_of_ne o E fields hext, Bool.and_true]
  cases cmd
  case getNodes =>
    cases h
    exact isSome_reportOf _ E
  case getChannels =>
    cases h
    exact isSome_reportOf _ E
  case getAntennaPatterns =>
    cases h
    exact isSome_reportOf _ E
  case getConfigFile =>
    cases h
    simp only [execute, quoted]
    split_ifs
    · exact isSome_reportOf _ E
    · rfl
  case saveConfigFile =>
    cases h
    exact isSome_saveConfigFile o E _ _
  case getLogs =>
    cases h
    cases hlog : o.logLines with
    | none => simp [execute, quoted, hlog, lastFormatted]
    | some log =>
        simp only [execute, quoted, hlog]
        exact isSome_reportOf _ E
  case ext => exact absurd rfl hext
  -- the other commands quote nothing
  all_goals
    simp only [decode, Option.bind_eq_bind, Option.bind_eq_some_iff] at h
    repeat obtain ⟨_, -, h⟩ := h
    rfl

end Fields

/-! ## Faults -/

/-- A field is missing without which the command has nothing to work on. -/
def lacking (j : Json) : Cmd → Bool
  | .chgAntenna => !j.contains "node" ||
      !(j.contains "pattern" || j.contains "tx_pattern" ||
        j.contains "rx_pattern")
  | .chgSourcePower => !j.contains "node"
  | .ext => !j.contains "extension" || !j.contains "action"
  | .invalid => true
  | _ => false

/-- The command of an object. -/
def cmdOf (fields : List (String × Json)) : Cmd :=
  Cmd.ofJson ((fields.lookup "CMD").getD .null)

/-- Not JSON, JSON that is not an object, or an object in which a field is
missing or has the wrong type. -/
def faulty : Option Json → Bool
  | some (.object fields) =>
      !readable fields (cmdOf fields) || lacking (.object fields) (cmdOf fields)
  | _ => true

/-- The request does not make the handler throw or wait for ever. -/
def handled (o : Outside) (E : Emulator) : Option Json → Bool
  | none => true
  | some .null => true
  | some (.object fields) => readable fields (cmdOf fields) &&
      ((quoted o E (.object fields) (cmdOf fields)).all isText &&
        commandEnds o E fields (cmdOf fields))
  | some _ => false

theorem isFail_execute_of_lacking {o : Outside} {E E' : Emulator}
    {fields : List (String × Json)} {cmd : Cmd} {operation : Operation}
    {reply : Reply}
    (hdecode : decode E.cirMaxTaps (.object fields) cmd = some operation)
    (hexecute : execute o E operation = some (reply, E'))
    (h : lacking (.object fields) cmd = true) : reply.isFail = true := by
  cases cmd
  case invalid =>
    cases hdecode
    cases hexecute
    rfl
  case chgSourcePower =>
    have hnode : (Json.object fields).contains "node" = false := by
      simpa [lacking] using h
    simp only [decode, value_of_missing hnode, Option.bind_eq_bind,
      Option.bind_some] at hdecode
    cases hdecode
    cases hexecute
    rfl
  case chgAntenna =>
    simp only [decode, Option.bind_eq_bind, Option.bind_eq_some_iff]
      at hdecode
    obtain ⟨node, hnode, pattern, hpattern, txPattern, htx, rxPattern, hrx,
      hoperation⟩ := hdecode
    cases hoperation
    cases hexecute
    -- the missing texts are empty
    have hempty : node.isEmpty = true ∨
        Patterns.isMissing ⟨pattern, txPattern, rxPattern⟩ = true := by
      simp only [lacking, Bool.or_eq_true, Bool.not_eq_true',
        Bool.or_eq_false_iff] at h
      rcases h with hmissing | ⟨⟨hp, ht⟩, hr⟩
      · left
        rw [value_of_missing hmissing, Option.some.injEq] at hnode
        rw [← hnode]
        rfl
      · right
        rw [value_of_missing hp, Option.some.injEq] at hpattern
        rw [value_of_missing ht, Option.some.injEq] at htx
        rw [value_of_missing hr, Option.some.injEq] at hrx
        rw [← hpattern, ← htx, ← hrx]
        rfl
    have hfail : (node.isEmpty || Patterns.isMissing
        ⟨pattern, txPattern, rxPattern⟩) = true := by
      simpa using hempty
    simp [changeAntenna, hfail, Reply.isFail, Response.failed]
  case ext =>
    simp only [decode, Option.bind_eq_bind, Option.bind_eq_some_iff]
      at hdecode
    obtain ⟨extName, hname, action, haction, params, -, hoperation⟩ := hdecode
    cases hoperation
    simp only [execute] at hexecute
    simp only [lacking, Bool.or_eq_true, Bool.not_eq_true'] at h
    rcases h with hmissing | hmissing
    · rw [value_of_missing hmissing, Option.some.injEq] at hname
      subst hname
      cases hexecute
      rfl
    · rw [value_of_missing hmissing, Option.some.injEq] at haction
      subst haction
      unfold routeCommand at hexecute
      split_ifs at hexecute <;> cases hexecute <;> rfl
  all_goals cases h

end Coordinator

namespace Emulator

open Coordinator

theorem coordinatorRequestHandler_object (o : Outside) (E : Emulator)
    (fields : List (String × Json)) :
    coordinatorRequestHandler o E (some (.object fields)) =
      (decode E.cirMaxTaps (.object fields) (cmdOf fields)).bind
        (execute o E) :=
  rfl

/-- The coordinator answers exactly the requests that it can read, that come to
an end and whose answer it can write. -/
theorem isSome_coordinatorRequestHandler (o : Outside) (E : Emulator)
    (parsed : Option Json) :
    (coordinatorRequestHandler o E parsed).isSome = handled o E parsed := by
  rcases parsed with _ | j
  · rfl
  cases j with
  | object fields =>
      rw [coordinatorRequestHandler_object, handled,
        ← isSome_decode fields E.cirMaxTaps]
      cases hdecode : decode E.cirMaxTaps (.object fields) (cmdOf fields) with
      | none => rfl
      | some operation => exact isSome_execute fields hdecode
  | null => rfl
  | _ => rfl

/-- A faulty request that is answered is answered with a failure. -/
theorem isFail_of_faulty {o : Outside} {E E' : Emulator}
    {parsed : Option Json} {reply : Reply}
    (h : coordinatorRequestHandler o E parsed = some (reply, E'))
    (hfaulty : faulty parsed = true) : reply.isFail = true := by
  have hhandled : handled o E parsed = true := by
    rw [← isSome_coordinatorRequestHandler, h]
    rfl
  rcases parsed with _ | j
  · cases h
    rfl
  cases j with
  | null =>
      cases h
      rfl
  | object fields =>
      rw [coordinatorRequestHandler_object] at h
      obtain ⟨operation, hdecode, hexecute⟩ := Option.bind_eq_some_iff.mp h
      have hreadable : readable fields (cmdOf fields) = true :=
        (Bool.and_eq_true_iff.mp hhandled).1
      have hlacking : lacking (.object fields) (cmdOf fields) = true := by
        simpa [faulty, hreadable] using hfaulty
      exact isFail_execute_of_lacking hdecode hexecute hlacking
  | _ => cases hhandled

end Emulator

end Chem
