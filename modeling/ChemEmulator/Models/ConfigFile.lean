import ChemEmulator.Support.FiniteMap
import ChemEmulator.Support.MergePatch
import ChemEmulator.Support.PartialRuns

/-!
# The configuration file

`config.h` and `config.cpp`, with what `main` and the commands
`GET_CONFIG_FILE` and `SAVE_CONFIG_FILE` of the coordinator do with it.  `read`
takes one setting after the other from the file and stops at the first one that
it cannot convert; `main` goes on in any case.  A command merges a patch into
the configuration in memory and then tries to write a file.

What `dump` writes is read as the same value.  A file that cannot be opened
stays as it is; when writing breaks off, the file may have any content.  Files
are told apart by the texts of their paths: no two paths in use lead to one file
(by a link, or as a relative and an absolute path).
-/

namespace Chem

open PartialRuns SortedMembers

/-- The settings, without the document that they come from. -/
structure Settings where
  controllerIpaddr : String
  controllerPort : UInt16
  coordIpaddress : String
  coordPort : UInt16
  maxNode : UInt8
  logDirectory : String
  logLevel : String
  cpuAffinity : String
  numaNode : Int32
  maxCores : Int32
  numaEnabled : Bool
  extensionsConfig : Json
  sandboxEnabled : Bool
  sandboxMiddlemanUrl : String
  sandboxUpdateRateMs : Int32

structure Config where
  configuration : Json
  path : String
  settings : Settings

/-- The initial values of the members. -/
def Settings.default : Settings where
  controllerIpaddr := "0.0.0.0"
  controllerPort := 10000
  coordIpaddress := "0.0.0.0"
  coordPort := 5000
  maxNode := 2
  logDirectory := "chem.log"
  logLevel := "info"
  cpuAffinity := ""
  numaNode := -1
  maxCores := 10
  numaEnabled := true
  extensionsConfig := .object []
  sandboxEnabled := false
  sandboxMiddlemanUrl := "http://localhost:8080"
  sandboxUpdateRateMs := 500

namespace Config

/-! ## Reading -/

/-- `static_cast` of a number or a boolean; the language does not define what a
float out of range becomes. -/
def getUInt16 : Json → Option UInt16
  | .integer n => some (UInt16.ofInt n)
  | .float x => some (UInt16.ofInt (FloatValue.truncate x))
  | .boolean b => some (if b then 1 else 0)
  | _ => none

def getUInt8 : Json → Option UInt8
  | .integer n => some (UInt8.ofInt n)
  | .float x => some (UInt8.ofInt (FloatValue.truncate x))
  | .boolean b => some (if b then 1 else 0)
  | _ => none

/-- `std::max(1, static_cast<int>(..))`. -/
def getCores (j : Json) : Option Int32 :=
  (Json.getInt j).map fun cores => max 1 cores

/-- `configuration[key]`: a member that is missing is added. -/
def access (j : Json) (key : String) : Option (Json × Json) :=
  match j with
  | .object fields =>
      match fields.lookup key with
      | some v => some (.object fields, v)
      | none => some (.object (insertMember (key, .null) fields), .null)
  | .null => some (.object [(key, .null)], .null)
  | _ => none

def isObject : Json → Bool
  | .object _ => true
  | _ => false

/-- One statement of `read`; when it throws, what it has done stays done. -/
abbrev Statement := Config → Except Config Config

section Statements

variable {α : Type} (get : Json → Option α) (key : String)
  (set : α → Settings → Settings)

/-- `member = configuration[key]`. -/
def required : Statement := fun c =>
  match access c.configuration key with
  | none => .error c
  | some (j, v) =>
      let c := { c with configuration := j }
      match get v with
      | none => .error c
      | some a => .ok { c with settings := set a c.settings }

/-- The same, if `configuration.contains(key)`. -/
def optional : Statement := fun c =>
  if c.configuration.contains key then required get key set c else .ok c

/-- The section under a key, if it is an object. -/
def sectionAt (set : Json → Settings → Settings) : Statement := fun c =>
  match (c.configuration.find? key).filter isObject with
  | some v => .ok { c with settings := set v c.settings }
  | none => .ok c

end Statements

/-- The section `sandbox`. -/
def readSandbox (sb : Json) (s : Settings) : Settings where
  __ := s
  sandboxEnabled := ((sb.find? "enabled").bind Json.getBoolean).getD
    s.sandboxEnabled
  sandboxMiddlemanUrl := (sb.stringAt "middlemanUrl").getD
    s.sandboxMiddlemanUrl
  sandboxUpdateRateMs := (((sb.numberAt "updateRateMs").bind Json.getInt).map
    fun rate => max 50 rate).getD s.sandboxUpdateRateMs

def statements : List Statement :=
  [required Json.getString "controllerIpAddress"
      fun v s => { s with controllerIpaddr := v },
    required getUInt16 "controllerPort"
      fun v s => { s with controllerPort := v },
    required Json.getString "coordIpaddress"
      fun v s => { s with coordIpaddress := v },
    required getUInt16 "coordPort" fun v s => { s with coordPort := v },
    required getUInt8 "maxNode" fun v s => { s with maxNode := v },
    required Json.getString "logDirectory"
      fun v s => { s with logDirectory := v },
    required Json.getString "logLevel" fun v s => { s with logLevel := v },
    optional Json.getString "cpuAffinity"
      fun v s => { s with cpuAffinity := v },
    optional Json.getInt "numaNode" fun v s => { s with numaNode := v },
    optional getCores "maxCores" fun v s => { s with maxCores := v },
    optional Json.getBoolean "numaEnabled"
      fun v s => { s with numaEnabled := v },
    sectionAt "extensions" fun v s => { s with extensionsConfig := v },
    sectionAt "sandbox" readSandbox]

def attempt : List Statement → Config → Bool × Config
  | [], c => (true, c)
  | statement :: rest, c =>
      match statement c with
      | .ok c => attempt rest c
      | .error c => (false, c)

/-- `Config::read`, on what the parser makes of the file. -/
def read (fpath : String) (parsed : Json) : Bool × Config :=
  attempt statements ⟨parsed, fpath, .default⟩

/-! ## What is accepted -/

/-- What `read` makes of a document that it accepts. -/
def settingsOf (j : Json) : Settings :=
  let default := Settings.default
  let value {α : Type} (get : Json → Option α) (key : String) (default : α) :
      α := ((j.find? key).bind get).getD default
  let s : Settings :=
    { controllerIpaddr := value Json.getString "controllerIpAddress"
        default.controllerIpaddr
      controllerPort := value getUInt16 "controllerPort" default.controllerPort
      coordIpaddress := value Json.getString "coordIpaddress"
        default.coordIpaddress
      coordPort := value getUInt16 "coordPort" default.coordPort
      maxNode := value getUInt8 "maxNode" default.maxNode
      logDirectory := value Json.getString "logDirectory" default.logDirectory
      logLevel := value Json.getString "logLevel" default.logLevel
      cpuAffinity := value Json.getString "cpuAffinity" default.cpuAffinity
      numaNode := value Json.getInt "numaNode" default.numaNode
      maxCores := value getCores "maxCores" default.maxCores
      numaEnabled := value Json.getBoolean "numaEnabled" default.numaEnabled
      extensionsConfig := ((j.find? "extensions").filter isObject).getD
        default.extensionsConfig
      sandboxEnabled := default.sandboxEnabled
      sandboxMiddlemanUrl := default.sandboxMiddlemanUrl
      sandboxUpdateRateMs := default.sandboxUpdateRateMs }
  match (j.find? "sandbox").filter isObject with
  | some sb => readSandbox sb s
  | none => s

/-- The settings that a document must have, and those that it may have. -/
def requiredFields : List Json.Field :=
  [⟨"controllerIpAddress", .text⟩, ⟨"controllerPort", .arithmetic⟩,
    ⟨"coordIpaddress", .text⟩, ⟨"coordPort", .arithmetic⟩,
    ⟨"maxNode", .arithmetic⟩, ⟨"logDirectory", .text⟩, ⟨"logLevel", .text⟩]

def optionalFields : List Json.Field :=
  [⟨"cpuAffinity", .text⟩, ⟨"numaNode", .arithmetic⟩,
    ⟨"maxCores", .arithmetic⟩, ⟨"numaEnabled", .flag⟩]

/-- A document from which every setting can be taken. -/
def Acceptable (j : Json) : Prop :=
  (∀ field ∈ requiredFields, j.has field = true) ∧
    ∀ field ∈ optionalFields, j.allows field = true

theorem takes_getUInt16 : Json.Takes getUInt16 .arithmetic := by
  intro j
  cases j <;> rfl

theorem takes_getUInt8 : Json.Takes getUInt8 .arithmetic := by
  intro j
  cases j <;> rfl

theorem takes_getCores : Json.Takes getCores .arithmetic := by
  intro j
  rw [getCores, Option.isSome_map]
  exact Json.takes_getInt j

section Statements

variable {α : Type} {get : Json → Option α} {kind : Json.Kind}
  (hget : Json.Takes get kind) (key : String) (set : α → Settings → Settings)

include hget

theorem required_of_has {c : Config}
    (h : c.configuration.has ⟨key, kind⟩ = true) (default : α) :
    required get key set c = .ok { c with
      settings := set (((c.configuration.find? key).bind get).getD default)
        c.settings } := by
  obtain ⟨j, path, s⟩ := c
  cases j with
  | object fields =>
      rw [Json.has, Json.find?] at h
      cases hv : fields.lookup key with
      | none =>
          rw [hv] at h
          cases h
      | some v =>
          rw [hv, Option.any_some, ← hget v] at h
          obtain ⟨a, ha⟩ := Option.isSome_iff_exists.mp h
          simp only [required, access, Json.find?, hv, Option.bind_some, ha,
            Option.getD_some]
  | _ => cases h

theorem required_of_not {c : Config}
    (h : c.configuration.has ⟨key, kind⟩ = false) :
    ∃ c', required get key set c = .error c' := by
  have hnull : get .null = none := by
    rw [← Option.not_isSome_iff_eq_none, hget]
    cases kind <;> exact Bool.false_ne_true
  obtain ⟨j, path, s⟩ := c
  cases j with
  | object fields =>
      rw [Json.has, Json.find?] at h
      cases hv : fields.lookup key with
      | none =>
          simp only [required, access, hv, hnull]
          exact ⟨_, rfl⟩
      | some v =>
          rw [hv, Option.any_some, ← hget v] at h
          have hnone : get v = none := by
            rw [← Option.not_isSome_iff_eq_none, h]
            exact Bool.false_ne_true
          simp only [required, access, hv, hnone]
          exact ⟨_, rfl⟩
  | null =>
      simp only [required, access, hnull]
      exact ⟨_, rfl⟩
  | _ => exact ⟨_, rfl⟩

theorem optional_of_allows (member : Settings → α)
    (hset : ∀ s, set (member s) s = s) {c : Config}
    (h : c.configuration.allows ⟨key, kind⟩ = true) :
    optional get key set c = .ok { c with
      settings := set (((c.configuration.find? key).bind get).getD
        (member c.settings)) c.settings } := by
  rw [optional]
  split_ifs with hcontains
  · refine required_of_has hget key set ?_ _
    rw [Json.contains, Option.isSome_iff_exists] at hcontains
    obtain ⟨v, hv⟩ := hcontains
    rw [Json.allows, hv] at h
    rw [Json.has, hv]
    exact h
  · rw [Json.contains, Option.not_isSome_iff_eq_none] at hcontains
    rw [hcontains, Option.bind_none, Option.getD_none, hset]

theorem optional_of_not {c : Config}
    (h : c.configuration.allows ⟨key, kind⟩ = false) :
    ∃ c', optional get key set c = .error c' := by
  cases hv : c.configuration.find? key with
  | none =>
      rw [Json.allows, hv] at h
      cases h
  | some v =>
      rw [optional, if_pos (by rw [Json.contains, hv]; rfl)]
      refine required_of_not hget key set ?_
      rw [Json.allows, hv] at h
      rw [Json.has, hv]
      exact h

end Statements

/-- A statement succeeds on the documents that `admits` says, and then only
changes the settings. -/
structure Specified (statement : Statement) (admits : Json → Bool)
    (effect : Json → Settings → Settings) : Prop where
  ok : ∀ c, admits c.configuration = true →
    statement c = .ok { c with settings := effect c.configuration c.settings }
  error : ∀ c, admits c.configuration = false →
    ∃ c', statement c = .error c'

/-- The value under a key, or else the old one. -/
def taken {α : Type} (get : Json → Option α) (key : String)
    (set : α → Settings → Settings) (member : Settings → α) (j : Json)
    (s : Settings) : Settings :=
  set (((j.find? key).bind get).getD (member s)) s

theorem specified_required {α : Type} {get : Json → Option α}
    {kind : Json.Kind} (hget : Json.Takes get kind) (key : String)
    (set : α → Settings → Settings) (member : Settings → α) :
    Specified (required get key set) (·.has ⟨key, kind⟩)
      (taken get key set member) where
  ok c h := required_of_has hget key set h (member c.settings)
  error _ h := required_of_not hget key set h

theorem specified_optional {α : Type} {get : Json → Option α}
    {kind : Json.Kind} (hget : Json.Takes get kind) (key : String)
    {set : α → Settings → Settings} {member : Settings → α}
    (hset : ∀ s, set (member s) s = s) :
    Specified (optional get key set) (·.allows ⟨key, kind⟩)
      (taken get key set member) where
  ok _ h := optional_of_allows hget key set member hset h
  error _ h := optional_of_not hget key set h

theorem specified_sectionAt (key : String)
    (set : Json → Settings → Settings) :
    Specified (sectionAt key set) (fun _ => true)
      (fun j s => ((j.find? key).filter isObject).elim s fun v => set v s) where
  ok c _ := by
    rw [sectionAt]
    cases (c.configuration.find? key).filter isObject <;> rfl
  error _ h := by cases h

theorem attempt_eq {statements : List Statement}
    {specs : List ((Json → Bool) × (Json → Settings → Settings))}
    (h : List.Forall₂ (fun statement spec =>
      Specified statement spec.1 spec.2) statements specs) (c : Config) :
    (∀ spec ∈ specs, spec.1 c.configuration = true) ∧
        attempt statements c = (true, { c with
          settings := specs.foldl (fun s spec => spec.2 c.configuration s)
            c.settings }) ∨
      (∃ spec ∈ specs, spec.1 c.configuration = false) ∧
        (attempt statements c).1 = false := by
  induction h generalizing c with
  | nil => exact Or.inl ⟨nofun, rfl⟩
  | @cons statement spec statements specs hspec hrest ih =>
      cases hadmits : spec.1 c.configuration with
      | true =>
          rw [attempt, hspec.ok c hadmits]
          rcases ih { c with settings := spec.2 c.configuration c.settings }
            with ⟨hall, hattempt⟩ | ⟨⟨spec', hmem, hspec'⟩, hattempt⟩
          · exact Or.inl ⟨List.forall_mem_cons.mpr ⟨hadmits, hall⟩, hattempt⟩
          · exact Or.inr ⟨⟨spec', List.mem_cons_of_mem _ hmem, hspec'⟩,
              hattempt⟩
      | false =>
          obtain ⟨c', hc'⟩ := hspec.error c hadmits
          refine Or.inr ⟨⟨spec, List.mem_cons_self, hadmits⟩, ?_⟩
          rw [attempt, hc']

/-- What each statement of `read` does. -/
def specs : List ((Json → Bool) × (Json → Settings → Settings)) :=
  [(fun j => j.has ⟨"controllerIpAddress", .text⟩,
      taken Json.getString "controllerIpAddress"
        (fun v s => { s with controllerIpaddr := v })
        Settings.controllerIpaddr),
    (fun j => j.has ⟨"controllerPort", .arithmetic⟩,
      taken getUInt16 "controllerPort"
        (fun v s => { s with controllerPort := v }) Settings.controllerPort),
    (fun j => j.has ⟨"coordIpaddress", .text⟩,
      taken Json.getString "coordIpaddress"
        (fun v s => { s with coordIpaddress := v }) Settings.coordIpaddress),
    (fun j => j.has ⟨"coordPort", .arithmetic⟩,
      taken getUInt16 "coordPort"
        (fun v s => { s with coordPort := v }) Settings.coordPort),
    (fun j => j.has ⟨"maxNode", .arithmetic⟩,
      taken getUInt8 "maxNode"
        (fun v s => { s with maxNode := v }) Settings.maxNode),
    (fun j => j.has ⟨"logDirectory", .text⟩,
      taken Json.getString "logDirectory"
        (fun v s => { s with logDirectory := v }) Settings.logDirectory),
    (fun j => j.has ⟨"logLevel", .text⟩,
      taken Json.getString "logLevel"
        (fun v s => { s with logLevel := v }) Settings.logLevel),
    (fun j => j.allows ⟨"cpuAffinity", .text⟩,
      taken Json.getString "cpuAffinity"
        (fun v s => { s with cpuAffinity := v }) Settings.cpuAffinity),
    (fun j => j.allows ⟨"numaNode", .arithmetic⟩,
      taken Json.getInt "numaNode"
        (fun v s => { s with numaNode := v }) Settings.numaNode),
    (fun j => j.allows ⟨"maxCores", .arithmetic⟩,
      taken getCores "maxCores"
        (fun v s => { s with maxCores := v }) Settings.maxCores),
    (fun j => j.allows ⟨"numaEnabled", .flag⟩,
      taken Json.getBoolean "numaEnabled"
        (fun v s => { s with numaEnabled := v }) Settings.numaEnabled),
    (fun _ => true, fun j s => ((j.find? "extensions").filter isObject).elim s
      fun v => { s with extensionsConfig := v }),
    (fun _ => true, fun j s => ((j.find? "sandbox").filter isObject).elim s
      fun sb => readSandbox sb s)]

theorem specified_statements :
    List.Forall₂ (fun statement spec => Specified statement spec.1 spec.2)
      statements specs :=
  .cons (specified_required Json.takes_getString _ _ _) <|
  .cons (specified_required takes_getUInt16 _ _ _) <|
  .cons (specified_required Json.takes_getString _ _ _) <|
  .cons (specified_required takes_getUInt16 _ _ _) <|
  .cons (specified_required takes_getUInt8 _ _ _) <|
  .cons (specified_required Json.takes_getString _ _ _) <|
  .cons (specified_required Json.takes_getString _ _ _) <|
  .cons (specified_optional Json.takes_getString _ fun _ => rfl) <|
  .cons (specified_optional Json.takes_getInt _ fun _ => rfl) <|
  .cons (specified_optional takes_getCores _ fun _ => rfl) <|
  .cons (specified_optional Json.takes_getBoolean _ fun _ => rfl) <|
  .cons (specified_sectionAt _ _) <|
  .cons (specified_sectionAt _ _) .nil

theorem acceptable_iff (j : Json) :
    Acceptable j ↔ ∀ spec ∈ specs, spec.1 j = true := by
  simp only [Acceptable, requiredFields, optionalFields, specs,
    List.forall_mem_cons, List.not_mem_nil, false_implies, implies_true,
    and_true, and_assoc]

theorem settings_eq (j : Json) :
    specs.foldl (fun s spec => spec.2 j s) Settings.default =
      settingsOf j := by
  simp only [specs, List.foldl_cons, List.foldl_nil, taken, settingsOf]
  cases (j.find? "extensions").filter isObject <;>
    cases (j.find? "sandbox").filter isObject <;> rfl

/-- The documents that are accepted are those with all settings, each of its
kind; then they are not changed. -/
theorem read_eq (fpath : String) (j : Json) :
    (Acceptable j ∧ read fpath j = (true, ⟨j, fpath, settingsOf j⟩)) ∨
      (¬Acceptable j ∧ (read fpath j).1 = false) := by
  rw [acceptable_iff, ← settings_eq]
  refine (attempt_eq specified_statements ⟨j, fpath, .default⟩).imp id ?_
  rintro ⟨⟨spec, hmem, hspec⟩, hattempt⟩
  refine ⟨fun hall => ?_, hattempt⟩
  rw [hall spec hmem] at hspec
  cases hspec

/-! ## What reading never does -/

/-- `std::max` keeps these from being too small. -/
structure Sane (s : Settings) : Prop where
  cores : 1 ≤ s.maxCores
  rate : 50 ≤ s.sandboxUpdateRateMs

theorem sane_default : Sane .default := ⟨by decide, by decide⟩

/-- A step of `read`, whether it throws or not, loses nothing. -/
structure Kept (c c' : Config) : Prop where
  path : c'.path = c.path
  found : ∀ keys v, keys ≠ [] → c.configuration.valueAt keys = some v →
    c'.configuration.valueAt keys = some v
  sane : Sane c.settings → Sane c'.settings

theorem kept_refl (c : Config) : Kept c c := ⟨rfl, fun _ _ _ h => h, id⟩

theorem Kept.trans {c c' c'' : Config} (h : Kept c c') (h' : Kept c' c'') :
    Kept c c'' where
  path := h'.path.trans h.path
  found keys v hkeys hv := h'.found keys v hkeys (h.found keys v hkeys hv)
  sane hs := h'.sane (h.sane hs)

/-- The configuration that a statement leaves. -/
def left : Except Config Config → Config
  | .ok c => c
  | .error c => c

def Keeps (statement : Statement) : Prop := ∀ c, Kept c (left (statement c))

/-- Only a member that is not there is added. -/
theorem valueAt_access {j j' v : Json} {key : String}
    (h : access j key = some (j', v)) {keys : List String} {w : Json}
    (hkeys : keys ≠ []) (hw : j.valueAt keys = some w) :
    j'.valueAt keys = some w := by
  cases keys with
  | nil => exact absurd rfl hkeys
  | cons first rest =>
      rw [Json.valueAt, Option.bind_eq_some_iff] at hw
      obtain ⟨u, hu, hw⟩ := hw
      cases j with
      | object fields =>
          rw [access] at h
          split at h
          · cases h
            rw [Json.valueAt, hu]
            exact hw
          · next hmissing =>
            cases h
            have hne : first ≠ key := by
              rintro rfl
              cases hmissing.symm.trans hu
            rw [Json.valueAt, Json.find?, lookup_insertMember, if_neg hne]
            rw [Json.find?] at hu
            rw [hu]
            exact hw
      | _ => cases hu

section Statements

variable {α : Type} {get : Json → Option α} {key : String}
  {set : α → Settings → Settings}

theorem keeps_required
    (hset : ∀ v a, get v = some a → ∀ s, Sane s → Sane (set a s)) :
    Keeps (required get key set) := by
  intro c
  rw [required]
  cases haccess : access c.configuration key with
  | none => exact kept_refl c
  | some jv =>
      obtain ⟨j, v⟩ := jv
      have hfound : ∀ keys w, keys ≠ [] →
          c.configuration.valueAt keys = some w → j.valueAt keys = some w :=
        fun _ _ => valueAt_access haccess
      cases hv : get v with
      | none =>
          simp only [hv]
          exact ⟨rfl, hfound, id⟩
      | some a =>
          simp only [hv]
          exact ⟨rfl, hfound, hset v a hv c.settings⟩

theorem keeps_optional
    (hset : ∀ v a, get v = some a → ∀ s, Sane s → Sane (set a s)) :
    Keeps (optional get key set) := by
  intro c
  rw [optional]
  split_ifs
  · exact keeps_required hset c
  · exact kept_refl c

theorem keeps_sectionAt {set : Json → Settings → Settings}
    (hset : ∀ v s, Sane s → Sane (set v s)) : Keeps (sectionAt key set) := by
  intro c
  rw [sectionAt]
  split
  · next v _ => exact ⟨rfl, fun _ _ _ h => h, hset v c.settings⟩
  · exact kept_refl c

end Statements

theorem le_max_left_int32 (a b : Int32) : a ≤ max a b := by
  change a ≤ if a ≤ b then b else a
  split_ifs with h
  · exact h
  · exact Int32.le_refl a

theorem sane_readSandbox (sb : Json) {s : Settings} (h : Sane s) :
    Sane (readSandbox sb s) where
  cores := h.cores
  rate := by
    rw [readSandbox]
    cases (sb.numberAt "updateRateMs").bind Json.getInt with
    | none => exact h.rate
    | some rate => exact le_max_left_int32 50 rate

theorem sane_cores {v : Json} {a : Int32} (h : getCores v = some a)
    {s : Settings} (hs : Sane s) : Sane { s with maxCores := a } where
  cores := by
    obtain ⟨cores, -, rfl⟩ := Option.map_eq_some_iff.mp h
    exact le_max_left_int32 1 cores
  rate := hs.rate

theorem keeps_statements : ∀ statement ∈ statements, Keeps statement := by
  simp only [statements, List.forall_mem_cons, List.not_mem_nil, false_implies,
    implies_true, and_true]
  refine ⟨keeps_required ?_, keeps_required ?_, keeps_required ?_,
    keeps_required ?_, keeps_required ?_, keeps_required ?_, keeps_required ?_,
    keeps_optional ?_, keeps_optional ?_,
    keeps_optional fun _ _ h _ => sane_cores h, keeps_optional ?_,
    keeps_sectionAt fun _ _ hs => ⟨hs.cores, hs.rate⟩,
    keeps_sectionAt fun sb _ => sane_readSandbox sb⟩
  all_goals exact fun _ _ _ _ hs => ⟨hs.cores, hs.rate⟩

theorem kept_attempt {statements : List Statement}
    (h : ∀ statement ∈ statements, Keeps statement) (c : Config) :
    Kept c (attempt statements c).2 := by
  induction statements generalizing c with
  | nil => exact kept_refl c
  | cons statement rest ih =>
      obtain ⟨hfirst, hrest⟩ := List.forall_mem_cons.mp h
      have hc := hfirst c
      rw [attempt]
      split
      · next c' hc' =>
        rw [hc'] at hc
        exact hc.trans (ih hrest c')
      · next c' hc' =>
        rw [hc'] at hc
        exact hc

theorem kept_read (fpath : String) (j : Json) :
    Kept ⟨j, fpath, .default⟩ (read fpath j).2 :=
  kept_attempt keeps_statements _

/-- The documents that are accepted are those with all settings, each of its
kind.  Whatever the document is, its path is recorded, none of its members is
lost, and two of the settings are never too small. -/
theorem read_spec (fpath : String) (j : Json) :
    ((read fpath j).1 = true ↔ Acceptable j) ∧
      ((read fpath j).1 = true →
        (read fpath j).2 = ⟨j, fpath, settingsOf j⟩) ∧
      (read fpath j).2.path = fpath ∧
      Sane (read fpath j).2.settings ∧
      ∀ keys v, keys ≠ [] → j.valueAt keys = some v →
        (read fpath j).2.configuration.valueAt keys = some v := by
  have hkept := kept_read fpath j
  have hsane : Sane (read fpath j).2.settings :=
    hkept.sane sane_default
  rcases read_eq fpath j with ⟨hj, hread⟩ | ⟨hj, hread⟩
  · refine ⟨⟨fun _ => hj, fun _ => ?_⟩, fun _ => ?_, hkept.path, hsane,
      hkept.found⟩
    · rw [hread]
    · rw [hread]
  · refine ⟨⟨fun h => ?_, fun h => absurd h hj⟩, fun h => ?_, hkept.path,
      hsane, hkept.found⟩ <;>
    · rw [hread] at h
      cases h

/-! ## Saving -/

/-- `Config::mergePatch`. -/
def mergePatch (c : Config) (patch : Json) : Config :=
  { c with configuration := c.configuration.mergePatch patch }

/-- What happens to a file that is to be written; `left` is what a parser makes
of the content.  The end of the text is only written when the stream is closed,
after `good` has been asked. -/
inductive Write where
  | cannotOpen
  | breaksOff (noticed : Bool) (left : Option Json)
  | complete

abbrev Files := FiniteMap String (Option Json)

/-- `Config::save`. -/
def save (c : Config) (path : String) (write : Write) (files : Files) :
    Bool × Files :=
  let target := if path.isEmpty then c.path else path
  if target.isEmpty then (false, files)
  else
    match write with
    | .cannotOpen => (false, files)
    | .breaksOff noticed left => (!noticed, files.insert target left)
    | .complete => (true, files.insert target (some c.configuration))

/-- What a file has after a `save`, if the value was there already unless it
is written now. -/
def Write.secures (secured : Bool) : Write → Bool
  | cannotOpen => secured
  | breaksOff _ _ => false
  | complete => true

theorem save_secures {c : Config} {path fpath : String} {write : Write}
    {files : Files} {P : Json → Prop} {secured : Bool}
    (hpath : c.path = fpath) (hc : P c.configuration)
    (hfile : secured = true → ∃ j, files.lookup fpath = some (some j) ∧ P j)
    (h : (if (if path.isEmpty then fpath else path) = fpath ∧
      fpath.isEmpty = false then write.secures secured else secured) = true) :
    ∃ j, (c.save path write files).2.lookup fpath = some (some j) ∧ P j := by
  unfold save
  rw [hpath]
  generalize (if path.isEmpty then fpath else path) = target at h ⊢
  dsimp only
  by_cases htarget : target = fpath
  · subst htarget
    split_ifs with hempty
    · rw [if_neg (fun hand => by rw [hempty] at hand; cases hand.2)] at h
      exact hfile h
    · rw [if_pos ⟨rfl, Bool.eq_false_iff.mpr hempty⟩] at h
      cases write with
      | cannotOpen => exact hfile h
      | breaksOff noticed left => cases h
      | complete => exact ⟨c.configuration, AList.lookup_insert _, hc⟩
  · rw [if_neg fun hand => htarget hand.1] at h
    split_ifs
    · exact hfile h
    · cases write with
      | cannotOpen => exact hfile h
      | _ =>
          dsimp only
          rw [AList.lookup_insert_ne (Ne.symm htarget)]
          exact hfile h

/-- The reply to `GET_CONFIG_FILE` and `SAVE_CONFIG_FILE`. -/
structure FileReply where
  ok : Bool
  path : String
  config : Json

/-- `GET_CONFIG_FILE`. -/
def getConfigFile (c : Config) : FileReply := ⟨true, c.path, c.configuration⟩

/-- The patch of a request, if it has one. -/
def patchOf (request : Json) : Option Json :=
  (request.find? "config").filter isObject

/-- The configuration with the patch of a request. -/
def patched (c : Config) (request : Json) : Config :=
  match patchOf request with
  | some patch => c.mergePatch patch
  | none => c

/-- `SAVE_CONFIG_FILE`. -/
def saveConfigFile (c : Config) (request : Json) (write : Write)
    (files : Files) : FileReply × Config × Files :=
  let c := c.patched request
  let path := (request.stringAt "path").getD ""
  let (ok, files) := c.save path write files
  (⟨ok, if path.isEmpty then c.path else path, c.configuration⟩, c, files)

theorem path_patched (c : Config) (request : Json) :
    (c.patched request).path = c.path := by
  rw [patched]
  split <;> rfl

end Config

/-! ## The program and its files -/

open Config

/-- `running` is the configuration of the process, if there is one. -/
structure Installation where
  /-- The path that `main` passes to `read`. -/
  fpath : String
  files : Files
  running : Option Config

namespace Installation

inductive Event where
  /-- `SAVE_CONFIG_FILE`, with the request as the parser has read it. -/
  | save (request : {j : Json // j.ordered = true}) (write : Write)
  /-- The process ends, and `main` starts again. -/
  | restart

/-- `main` up to `read`: without a document the parser throws, and nothing
catches it. -/
def boot (fpath : String) (files : Files) : Option Config :=
  (files.lookup fpath).join.map fun parsed => (Config.read fpath parsed).2

def start (fpath : String) (files : Files) : Installation :=
  ⟨fpath, files, boot fpath files⟩

def step (s : Installation) : Event → Option Installation
  | .save request write =>
      s.running.map fun c =>
        let (_, c, files) := c.saveConfigFile request write s.files
        { s with files := files, running := some c }
  | .restart => some { s with running := boot s.fpath s.files }

/-! ## How long a setting lasts -/

/-- What the patch of an event does to a setting. -/
def Event.effectAt (keys : List String) : Event → Json.Effect
  | .save request _ =>
      match patchOf request with
      | some patch => patch.effect keys
      | none => .keep
  | .restart => .keep

/-- The file that a request is for. -/
def target (fpath : String) (request : Json) : String :=
  let path := (request.stringAt "path").getD ""
  if path.isEmpty then fpath else path

/-- Whether the file that is read at the next start has the setting, from
whether it has it before. -/
def Event.secures (fpath : String) (secured : Bool) : Event → Bool
  | .save request write =>
      if target fpath request = fpath ∧ fpath.isEmpty = false then
        write.secures secured
      else secured
  | .restart => secured

def Event.isRestart : Event → Bool
  | .save _ _ => false
  | .restart => true

/-- No patch touches the setting, and the process only starts again while the
file has it. -/
def survives (fpath : String) (keys : List String) : Bool → List Event → Bool
  | _, [] => true
  | secured, e :: es =>
      (e.effectAt keys).isKeep && (!e.isRestart || secured) &&
        survives fpath keys (e.secures fpath secured) es

/-- The setting has the value in memory. -/
def InForce (keys : List String) (v : Json) (s : Installation) : Prop :=
  ∃ c, s.running = some c ∧ c.configuration.valueAt keys = some v

/-- The process works on the file that `main` has named. -/
structure Installed (fpath : String) (s : Installation) : Prop where
  named : s.fpath = fpath
  works : ∀ c, s.running = some c → c.path = fpath

structure Standing (fpath : String) (keys : List String) (v : Json)
    (secured : Bool) (s : Installation) : Prop where
  installed : Installed fpath s
  memory : InForce keys v s
  file : secured = true → ∃ j, s.files.lookup fpath = some (some j) ∧
    j.valueAt keys = some v

theorem ordered_patchOf {request patch : Json} (h : request.ordered = true)
    (hpatch : patchOf request = some patch) :
    patch.ordered = true ∧ isObject patch = true := by
  rw [patchOf, Option.filter_eq_some_iff] at hpatch
  obtain ⟨hfind, hobject⟩ := hpatch
  refine ⟨?_, hobject⟩
  cases request with
  | object fields =>
      exact Json.ordered_of_lookup (Json.sorted_of_ordered h).2 hfind
  | _ => cases hfind

/-- No patch takes the place of the whole configuration. -/
theorem effectAt_nil (e : Event) (v : Option Json) :
    e.effectAt [] ≠ .set v := by
  intro h
  cases e with
  | save request write =>
      rw [Event.effectAt] at h
      split at h
      · next patch hpatch =>
        have hobject := (ordered_patchOf request.2 hpatch).2
        cases patch with
        | object fields => cases h
        | _ => cases hobject
      · cases h
  | restart => cases h

theorem path_boot {fpath : String} {files : Files} {c : Config}
    (h : boot fpath files = some c) : c.path = fpath := by
  obtain ⟨parsed, -, rfl⟩ := Option.map_eq_some_iff.mp h
  exact (kept_read fpath parsed).path

theorem installed_step {fpath : String} {s t : Installation} {e : Event}
    (h : Installed fpath s) (hstep : step s e = some t) :
    Installed fpath t := by
  cases e with
  | save request write =>
      obtain ⟨c, hc, rfl⟩ := Option.map_eq_some_iff.mp hstep
      refine ⟨h.named, fun c' hc' => ?_⟩
      cases hc'
      exact (path_patched c request).trans (h.works c hc)
  | restart =>
      cases hstep
      refine ⟨h.named, fun c hc => ?_⟩
      rw [h.named] at hc
      exact path_boot hc

theorem valueAt_patched {request : {j : Json // j.ordered = true}}
    (write : Write) (c : Config) (keys : List String) :
    (c.patched request).configuration.valueAt keys =
      ((Event.save request write).effectAt keys).apply
        (c.configuration.valueAt keys) := by
  rw [patched, Event.effectAt]
  cases hpatch : patchOf request with
  | none => rfl
  | some patch =>
      exact Json.valueAt_mergePatch (ordered_patchOf request.2 hpatch).1 _ keys

/-- A request that leaves the value in memory. -/
theorem standing_save {fpath : String} {keys : List String} {v : Json}
    {secured : Bool} {s t : Installation} {c : Config}
    {request : {j : Json // j.ordered = true}} {write : Write}
    (hinstalled : Installed fpath s) (hc : s.running = some c)
    (hv : (c.patched request).configuration.valueAt keys = some v)
    (hfile : secured = true → ∃ j, s.files.lookup fpath = some (some j) ∧
      j.valueAt keys = some v)
    (hstep : step s (.save request write) = some t) :
    Standing fpath keys v ((Event.save request write).secures fpath secured)
      t where
  installed := installed_step hinstalled hstep
  memory := by
    rw [step, hc, Option.map_some] at hstep
    cases hstep
    exact ⟨_, rfl, hv⟩
  file := by
    have hpath : (c.patched request).path = fpath :=
      (path_patched c request).trans (hinstalled.works c hc)
    rw [step, hc, Option.map_some] at hstep
    cases hstep
    exact save_secures hpath hv hfile

theorem standing_step {fpath : String} {keys : List String} {v : Json}
    {secured : Bool} {s t : Installation} {e : Event}
    (h : Standing fpath keys v secured s) (hkeys : keys ≠ [])
    (hkeep : (e.effectAt keys).isKeep = true)
    (hrestart : (!e.isRestart || secured) = true) (hstep : step s e = some t) :
    Standing fpath keys v (e.secures fpath secured) t := by
  cases e with
  | save request write =>
      obtain ⟨c, hc, hv⟩ := h.memory
      refine standing_save h.installed hc ?_ h.file hstep
      rw [valueAt_patched write, Json.Effect.eq_keep hkeep]
      exact hv
  | restart =>
      obtain ⟨j, hj, hv⟩ := h.file hrestart
      have hinstalled := installed_step h.installed hstep
      cases hstep
      refine ⟨hinstalled, ⟨(Config.read fpath j).2, ?_, ?_⟩, h.file⟩
      · dsimp only
        rw [h.installed.named, boot, hj]
        rfl
      · exact (kept_read fpath j).found keys v hkeys hv

theorem standing_run {fpath : String} {keys : List String} {v : Json}
    (hkeys : keys ≠ []) {secured : Bool} {s : Installation}
    (h : Standing fpath keys v secured s) {es : List Event}
    (hes : survives fpath keys secured es = true) :
    EveryState step (InForce keys v) s es := by
  induction es generalizing secured s with
  | nil => exact h.memory
  | cons e es ih =>
      rw [survives, Bool.and_eq_true, Bool.and_eq_true] at hes
      obtain ⟨⟨hkeep, hrestart⟩, hrest⟩ := hes
      exact ⟨h.memory, fun t ht =>
        ih (standing_step h hkeys hkeep hrestart ht) hrest⟩

/-- A setting that a client has sent stays in force through all that others
do, as long as no other patch touches it and the process does not start again
before the file has it: what the requests answer, where they write and which
of the writes fail does not matter otherwise. -/
theorem setting_survives {fpath : String} {files : Files} {pre : List Event}
    {s t : Installation} {e : Event} {keys : List String} {v : Json}
    {post : List Event} (hpre : run step (start fpath files) pre = some s)
    (hset : e.effectAt keys = .set (some v)) (hstep : step s e = some t)
    (hpost : survives fpath keys (e.secures fpath false) post = true) :
    EveryState step (InForce keys v) t post := by
  have hstart : Installed fpath (start fpath files) :=
    ⟨rfl, fun _ => path_boot⟩
  have hs : Installed fpath s :=
    (everyState_of_invariant (fun _ _ _ => installed_step) hstart pre).of_run
      hpre
  cases e with
  | save request write =>
      cases hc : s.running with
      | none =>
          rw [step, hc] at hstep
          cases hstep
      | some c =>
          refine standing_run ?_ (standing_save hs hc ?_ (fun h => ?_) hstep)
            hpost
          · rintro rfl
            exact effectAt_nil _ _ hset
          · rw [valueAt_patched write, hset]
            rfl
          · cases h
  | restart => cases hset

/-- The rate of the sandbox is changed while the file cannot be written. -/
def rateChange : Event :=
  .save ⟨.object [("config",
    .object [("sandbox", .object [("updateRateMs", .integer 100)])])], rfl⟩
    .cannotOpen

/-- A file that leaves most settings out. -/
def shortFile : Files :=
  AList.insert "config.json" (some (.object [("sandbox",
    .object [("updateRateMs", .integer 500)])])) ∅

/-- Then the file is written for another setting, another file breaks, and the
process starts again. -/
theorem setting_survives_rateChange : ∃ t,
    step (start "config.json" shortFile) rateChange = some t ∧
      EveryState step (InForce ["sandbox", "updateRateMs"] (.integer 100)) t
        [.save ⟨.object [("config", .object [("coordPort", .integer 5001)])],
            rfl⟩ .complete,
          .save ⟨.object [("path", .string "backup.json")], rfl⟩
            (.breaksOff true none),
          .restart] :=
  ⟨_, rfl, setting_survives (e := rateChange)
    (rfl : run step (start "config.json" shortFile) [] = _) rfl rfl rfl⟩

end Installation

end Chem
