import ChemEmulator.Channel.PathLoss
import ChemEmulator.Node.RequestTotality
import Mathlib.Data.Nat.Log
import Mathlib.Data.Rat.Sqrt

/-!
# What the sandbox extension sends

`SandboxExtension::pushPathLoss` in
`extensions/sandbox/src/middleman_client.cpp`, over the histories that change a
link: requests to the controller, moves of the nodes, `configChannels` and the
commands that set the propagation models.

The extension sends the path loss that a link has stored, and only
`processChannel` stores one, for a burst that a worker processes.  In sandbox
mode no node has a receiver, so there is no worker: the stored value is the
initial one in every state, and it is the right one exactly for links whose
model gives no loss.
-/

namespace Chem

open Chem.Geometry PathLoss PartialRuns

/-! ## The members of a link -/

/-- A `Channel` as it is constructed. -/
def LinkChannel.create (source dest : NodeId) : LinkChannel ℚ where
  source := source
  dest := dest
  linkInfo := ⟨0, 0, 0, 0⟩
  txHeight := 15 / 10
  rxHeight := 15 / 10
  plDb := 0
  dopplerEnabled := false
  dopplerHz := 0

abbrev LinkTable := FiniteMap ℚ (ChannelMap ℚ)

/-- The links that were removed and made anew in one step. -/
abbrev Renewed := List (ℚ × NodeId × NodeId)

namespace LinkTable

/-- A link keeps its members as long as it is not removed. -/
def memberOf (links : LinkTable) (renewed : Renewed) (freq : ℚ)
    (ends : NodeId × NodeId) : LinkChannel ℚ :=
  if (freq, ends) ∈ renewed then LinkChannel.create ends.1 ends.2
  else (linkAt links freq ends.1 ends.2).getD
    (LinkChannel.create ends.1 ends.2)

theorem ends_memberOf (links : LinkTable) (renewed : Renewed) (freq : ℚ)
    (ends : NodeId × NodeId) :
    ((links.memberOf renewed freq ends).source,
      (links.memberOf renewed freq ends).dest) = ends := by
  rw [memberOf]
  split_ifs
  · rfl
  · match hlink : linkAt links freq ends.1 ends.2 with
    | none => rfl
    | some ch =>
        obtain ⟨hsource, hdest⟩ := ends_of_linkAt hlink
        exact Prod.ext hsource hdest

/-- The members of the links that an intermediate has. -/
def ofIntermediate (links : LinkTable) (renewed : Renewed) (freq : ℚ)
    (I : Intermediate) : ChannelMap ℚ where
  channels := FiniteMap.mapTo (fun ends _ => links.memberOf renewed freq ends)
    I.channelMap
  keyed := by
    intro ends ch hch
    rw [FiniteMap.lookup_mapTo, Option.map_eq_some_iff] at hch
    obtain ⟨-, -, rfl⟩ := hch
    exact links.ends_memberOf renewed freq ends

/-- The members of all links that there are. -/
def follow (links : LinkTable) (C : Controller) (renewed : Renewed) :
    LinkTable :=
  FiniteMap.mapTo (links.ofIntermediate renewed) C.intermediateMap

theorem linkAt_follow (links : LinkTable) (C : Controller) (renewed : Renewed)
    (freq : ℚ) (src dest : NodeId) :
    linkAt (links.follow C renewed) freq src dest =
      (C.intermediateMap.lookup freq).bind fun I =>
        (I.channelMap.lookup (src, dest)).map fun _ =>
          links.memberOf renewed freq (src, dest) := by
  rw [linkAt, follow, FiniteMap.lookup_mapTo]
  match C.intermediateMap.lookup freq with
  | none => rfl
  | some I => exact FiniteMap.lookup_mapTo _ _ _

/-- `setPl`. -/
def setPl (links : LinkTable) (freq : ℚ) (ends : NodeId × NodeId) (plDb : ℚ) :
    LinkTable :=
  FiniteMap.mapEntries
    (fun freq' links =>
      { channels := FiniteMap.mapEntries
          (fun ends' ch => if (freq', ends') = (freq, ends) then
            { ch with plDb := plDb } else ch) links.channels
        keyed := by
          intro ends' ch hch
          rw [FiniteMap.lookup_mapEntries, Option.map_eq_some_iff] at hch
          obtain ⟨ch, hlookup, rfl⟩ := hch
          have hends := links.keyed ends' ch hlookup
          split_ifs
          · exact hends
          · exact hends }) links

end LinkTable

/-! ## Histories -/

/-- The commands that set propagation models. -/
inductive PropagationCommand where
  | chgPl (freq : ℚ) (plMode : String) (settings : Coordinator.PlSettings)
  | setDefaultPl (plMode : String) (settings : Coordinator.PlSettings)
  | updShadowStd (std : ℚ) (freq : Option ℚ)

namespace PropagationCommand

open Coordinator

/-- The state after the command; see `Coordinator.execute`. -/
def apply (E : Emulator) : PropagationCommand → Emulator
  | chgPl freq plMode settings =>
      { E with
        controller := (setPathLossMode E.controller freq plMode settings).2 }
  | setDefaultPl plMode settings =>
      { E with controller := (setDefaultModel E.controller plMode settings).2 }
  | updShadowStd std freq => updateShadowing E (.finite std) freq

theorem managed_apply (E : Emulator) (command : PropagationCommand) :
    E.controller.Managed (command.apply E).controller :=
  match command with
  | chgPl freq plMode settings =>
      E.controller.managed_updateIntermediate freq
        (Intermediate.retuned_applyModel plMode settings)
  | setDefaultPl plMode settings =>
      managed_setDefaultModel E.controller plMode settings
  | updShadowStd std freq => managed_updateShadowing E (.finite std) freq

theorem sandbox_apply (E : Emulator) (command : PropagationCommand) :
    (command.apply E).controller.sandbox = E.controller.sandbox := by
  match command with
  | chgPl freq plMode settings =>
      rw [apply, setPathLossMode, Controller.updateIntermediate]
      split
      · rfl
      · rfl
  | setDefaultPl plMode settings =>
      rw [apply, setDefaultModel]
      dsimp only
      split_ifs
      · rfl
      · rfl
  | updShadowStd std none => rfl
  | updShadowStd std (some freq) =>
      rw [apply, updateShadowing, Controller.updateIntermediate]
      split
      · rfl
      · rfl

end PropagationCommand

structure Sandbox where
  emulator : Emulator
  /-- Where the nodes are that have reported a location. -/
  locations : FiniteMap NodeId (NodeLocation ℚ)
  /-- The members of the links that change apart from the settings. -/
  links : LinkTable

namespace Sandbox

/-- The state in which the servers are started in sandbox mode. -/
def start (hasConfig : Bool) (defaults : Option PropagationDefaults) :
    Sandbox where
  emulator := Emulator.start true hasConfig defaults
  locations := ∅
  links := ∅

abbrev controller (S : Sandbox) : Controller := S.emulator.controller

/-- What `configChannels` reads of the nodes. -/
def locatedNodes (S : Sandbox) : FiniteMap NodeId (LocatedNode ℚ) :=
  FiniteMap.mapTo
    (fun id node => ⟨node.config.name, S.locations.lookup id⟩)
    S.controller.nodeMap

def update (S : Sandbox) (E : Emulator) (renewed : Renewed) : Sandbox :=
  { S with
    emulator := E
    links := S.links.follow E.controller renewed }

/-- The parameters of `ProcessSignal`. -/
def paramsOf (I : Intermediate) : Params :=
  ⟨I.propagationModel, I.grReflection, I.freq⟩

inductive Event where
  | controller (event : Controller.Event) (renewed : Renewed)
  | command (command : PropagationCommand)
  | move (id : NodeId) (location : Option (NodeLocation ℚ))
  | configChannels
  /-- The worker of `src` processes a burst for `dest`. -/
  | burst (freq : ℚ) (src dest : NodeId) (draw : Draw)

def move (S : Sandbox) (id : NodeId) : Option (NodeLocation ℚ) → Sandbox
  | none => { S with locations := S.locations.erase id }
  | some location => { S with locations := S.locations.insert id location }

/-- A burst is processed by the worker of its source, for an attached
destination. -/
def burst (M : Cmath) (S : Sandbox) (freq : ℚ) (src dest : NodeId)
    (draw : Draw) : Option Sandbox := do
  let I ← S.controller.intermediateMap.lookup freq
  let settings ← I.channelMap.lookup (src, dest)
  let ch ← linkAt S.links freq src dest
  let plDb :=
    computePathLoss M draw none settings ch ch.linkInfo.dist (paramsOf I)
  if src ∈ I.workers ∧ dest ∈ I.destinationMap then
    some { S with links := S.links.setPl freq (src, dest) plDb }
  else none

def step (M : Cmath) (T : Trigonometry ℚ) (S : Sandbox) :
    Event → Option Sandbox
  | .controller event renewed =>
      (S.controller.step event).map fun C =>
        S.update { S.emulator with controller := C } renewed
  | .command command => some (S.update (command.apply S.emulator) [])
  | .move id location => some (S.move id location)
  | .configChannels =>
      some { S with links := configChannels T S.locatedNodes S.links }
  | .burst freq src dest draw => S.burst M freq src dest draw

/-! ## The report -/

structure PathLossEntry where
  tx : String
  rx : String
  freqHz : ℚ
  pathlossDb : ℚ
  distanceM : ℚ
  elevationDeg : ℚ
deriving DecidableEq

/-- `resolveName`. -/
def resolveName (S : Sandbox) (id : NodeId) : String :=
  match S.controller.nodeMap.lookup id with
  | none => id
  | some node => if node.config.name.isEmpty then id else node.config.name

def entry (S : Sandbox) (freq : ℚ) (ch : LinkChannel ℚ) : PathLossEntry where
  tx := S.resolveName ch.source
  rx := S.resolveName ch.dest
  freqHz := freq
  pathlossDb := ch.plDb
  distanceM := ch.linkInfo.dist
  elevationDeg := ch.linkInfo.elevation

/-- The links that the loops visit and do not skip. -/
def pushedLinks (S : Sandbox) : List (ℚ × LinkChannel ℚ) :=
  S.links.entries.flatMap fun e =>
    ((FiniteMap.values e.2.channels).filter fun ch =>
      decide (ch.source ≠ ch.dest)).map fun ch => (e.1, ch)

/-- `pushPathLoss`: what is posted, if anything is. -/
def pushPathLoss (S : Sandbox) : Option (List PathLossEntry) :=
  let channels := S.pushedLinks.map fun p => S.entry p.1 p.2
  if channels.isEmpty then none else some channels

theorem mem_pushedLinks {S : Sandbox} {freq : ℚ} {ch : LinkChannel ℚ} :
    (freq, ch) ∈ S.pushedLinks ↔ ch.source ≠ ch.dest ∧
      linkAt S.links freq ch.source ch.dest = some ch := by
  simp only [pushedLinks, List.mem_flatMap, List.mem_map, List.mem_filter,
    Prod.mk.injEq, decide_eq_true_eq, linkAt, Option.bind_eq_some_iff]
  constructor
  · rintro ⟨⟨freq, links⟩, hlinks, ch, ⟨hch, hne⟩, rfl, rfl⟩
    obtain ⟨ends, hlookup⟩ := FiniteMap.mem_values_iff.mp hch
    obtain rfl := links.keyed ends ch hlookup
    exact ⟨hne, links, AList.mem_lookup_iff.mpr hlinks, hlookup⟩
  · rintro ⟨hne, links, hlinks, hch⟩
    exact ⟨⟨freq, links⟩, AList.mem_lookup_iff.mp hlinks, ch,
      ⟨FiniteMap.mem_values_iff.mpr ⟨_, hch⟩, hne⟩, rfl, rfl⟩

/-! ## Links have settings -/

/-- The links with members are those of the intermediates. -/
def Mirrored (S : Sandbox) : Prop :=
  ∀ freq src dest, (linkAt S.links freq src dest).isSome =
    ((S.controller.intermediateMap.lookup freq).bind fun I =>
      I.channelMap.lookup (src, dest)).isSome

theorem mirrored_update (S : Sandbox) (E : Emulator) (renewed : Renewed) :
    (S.update E renewed).Mirrored := by
  intro freq src dest
  rw [update, LinkTable.linkAt_follow]
  match E.controller.intermediateMap.lookup freq with
  | none => rfl
  | some I => rw [Option.bind_some, Option.bind_some, Option.isSome_map]

/-! ## Nothing is processed -/

/-- No worker, and no link with a stored path loss. -/
structure Idle (S : Sandbox) : Prop where
  sandbox : S.controller.sandbox = true
  workers : FiniteMap.All (fun _ I => ∀ id, id ∉ I.workers)
    S.controller.intermediateMap
  unset : ∀ freq src dest ch,
    linkAt S.links freq src dest = some ch → ch.plDb = 0

/-- In sandbox mode nobody is attached, and so nobody gets a worker. -/
theorem kept_workers :
    Controller.Kept true fun _ I => ∀ id, id ∉ I.workers where
  created C freq id := by
    rw [(C.newIntermediate_empty freq).2]
    exact AList.notMem_empty id
  performed freq I I' op hmode hI h id := by
    match op with
    | .attachSource _ => cases hmode
    | .attachDestination _ => cases hmode
    | .addSandboxNode _ _ =>
        obtain rfl := Option.some.inj h
        exact hI id
    | .removeSandboxNode _ =>
        obtain rfl := Option.some.inj h
        exact hI id
    | .detachSource receiver =>
        obtain rfl := Option.some.inj h
        rw [Intermediate.detachSource]
        split_ifs
        · rw [Intermediate.workers_emptyChannelChecker]
          exact fun hmem => hI id (AList.mem_erase.mp hmem).2
        · exact hI id
    | .detachDestination transmitter =>
        obtain rfl := Option.some.inj h
        rw [Intermediate.detachDestination]
        split_ifs
        · rw [Intermediate.workers_emptyChannelChecker]
          exact hI id
        · exact hI id

theorem unset_follow {links : LinkTable}
    (h : ∀ freq src dest ch, linkAt links freq src dest = some ch → ch.plDb = 0)
    (C : Controller) (renewed : Renewed) (freq : ℚ) (src dest : NodeId)
    (ch : LinkChannel ℚ)
    (hlink : linkAt (links.follow C renewed) freq src dest = some ch) :
    ch.plDb = 0 := by
  rw [LinkTable.linkAt_follow, Option.bind_eq_some_iff] at hlink
  obtain ⟨I, -, hmember⟩ := hlink
  obtain ⟨settings, -, rfl⟩ := Option.map_eq_some_iff.mp hmember
  rw [LinkTable.memberOf]
  split_ifs
  · rfl
  · match hold : linkAt links freq src dest with
    | none => rfl
    | some ch => exact h freq src dest ch hold

theorem Idle.update {S : Sandbox} (hS : S.Idle) {E : Emulator}
    (hsandbox : E.controller.sandbox = true)
    (hworkers : FiniteMap.All (fun _ I => ∀ id, id ∉ I.workers)
      E.controller.intermediateMap) (renewed : Renewed) :
    (S.update E renewed).Idle :=
  ⟨hsandbox, hworkers, unset_follow hS.unset E.controller renewed⟩

theorem plDb_configLink (T : Trigonometry ℚ)
    (nodes : FiniteMap NodeId (LocatedNode ℚ)) (carrierHz : ℚ)
    (ch : LinkChannel ℚ) :
    (configLink T nodes carrierHz ch).plDb = ch.plDb := by
  rw [configLink]
  split
  · rfl
  · rfl

variable {M : Cmath} {T : Trigonometry ℚ}

theorem burst_eq_none {S : Sandbox} (hS : S.Idle) (freq : ℚ)
    (src dest : NodeId) (draw : Draw) :
    S.burst M freq src dest draw = none := by
  rw [burst, Option.bind_eq_bind, Option.bind_eq_none_iff]
  intro I hI
  rw [Option.bind_eq_bind, Option.bind_eq_none_iff]
  intro settings _
  rw [Option.bind_eq_bind, Option.bind_eq_none_iff]
  intro ch _
  exact if_neg fun h => hS.workers freq I hI src h.1

/-- What one event leaves as it is. -/
theorem idle_step {S S' : Sandbox} {event : Event} (hS : S.Idle)
    (h : S.step M T event = some S') : S'.Idle := by
  match event with
  | .controller event renewed =>
      obtain ⟨C, hC, rfl⟩ := Option.map_eq_some_iff.mp h
      have hsandbox : C.sandbox = true :=
        (Controller.sandbox_step hC).trans hS.sandbox
      have hkept := kept_workers
      rw [← hS.sandbox] at hkept
      exact hS.update hsandbox (hkept.step hS.workers hC) renewed
  | .command command =>
      obtain rfl := Option.some.inj h
      refine hS.update ((command.sandbox_apply _).trans hS.sandbox) ?_ []
      intro freq J hJ id
      obtain ⟨I, hI, hretuned⟩ :=
        (command.managed_apply S.emulator).intermediates freq J hJ
      rw [hretuned.workers]
      exact hS.workers freq I hI id
  | .move id none =>
      obtain rfl := Option.some.inj h
      exact ⟨hS.sandbox, hS.workers, hS.unset⟩
  | .move id (some location) =>
      obtain rfl := Option.some.inj h
      exact ⟨hS.sandbox, hS.workers, hS.unset⟩
  | .configChannels =>
      obtain rfl := Option.some.inj h
      refine ⟨hS.sandbox, hS.workers, ?_⟩
      intro freq src dest ch hlink
      rw [linkAt_configChannels, Option.map_eq_some_iff] at hlink
      obtain ⟨ch, hold, rfl⟩ := hlink
      rw [plDb_configLink]
      exact hS.unset freq src dest ch hold
  | .burst freq src dest draw =>
      rw [step, burst_eq_none hS] at h
      cases h

theorem idle_start (hasConfig : Bool) (defaults : Option PropagationDefaults) :
    (start hasConfig defaults).Idle :=
  ⟨rfl, FiniteMap.all_empty, fun _ _ _ _ h => by cases h⟩

/-- In no history does a link get a path loss. -/
theorem idle_of_run {hasConfig : Bool} {defaults : Option PropagationDefaults}
    {events : List Event} {S : Sandbox}
    (h : run (step M T) (start hasConfig defaults) events = some S) : S.Idle :=
  (everyState_of_invariant (fun _ _ _ => idle_step)
    (idle_start hasConfig defaults) events).of_run h

theorem mirrored_step {S S' : Sandbox} {event : Event} (hidle : S.Idle)
    (hS : S.Mirrored) (h : S.step M T event = some S') : S'.Mirrored := by
  match event with
  | .controller event renewed =>
      obtain ⟨C, -, rfl⟩ := Option.map_eq_some_iff.mp h
      exact S.mirrored_update _ renewed
  | .command command =>
      obtain rfl := Option.some.inj h
      exact S.mirrored_update _ []
  | .move id none =>
      obtain rfl := Option.some.inj h
      exact hS
  | .move id (some location) =>
      obtain rfl := Option.some.inj h
      exact hS
  | .configChannels =>
      obtain rfl := Option.some.inj h
      intro freq src dest
      rw [linkAt_configChannels, Option.isSome_map]
      exact hS freq src dest
  | .burst freq src dest draw =>
      rw [step, burst_eq_none hidle] at h
      cases h

theorem mirrored_of_run {hasConfig : Bool}
    {defaults : Option PropagationDefaults} {events : List Event} {S : Sandbox}
    (h : run (step M T) (start hasConfig defaults) events = some S) :
    S.Mirrored := by
  have hstart : (start hasConfig defaults).Idle ∧
      (start hasConfig defaults).Mirrored :=
    ⟨idle_start hasConfig defaults, fun _ _ _ => rfl⟩
  have hstep : ∀ (S : Sandbox) (event : Event) (S' : Sandbox),
      S.Idle ∧ S.Mirrored → S.step M T event = some S' →
        S'.Idle ∧ S'.Mirrored :=
    fun _ _ _ hS h => ⟨idle_step hS.1 h, mirrored_step hS.1 hS.2 h⟩
  exact ((everyState_of_invariant hstep hstart events).of_run h).2

/-! ## Current values -/

/-- The path loss of a link at its members and at the settings of its
intermediate, without shadowing. -/
def currentPathLoss (M : Cmath) (draw : Draw) (S : Sandbox) (freq : ℚ)
    (ch : LinkChannel ℚ) : Option ℚ := do
  let I ← S.controller.intermediateMap.lookup freq
  let settings ← I.channelMap.lookup (ch.source, ch.dest)
  return computePathLoss M draw none (settings.setShadowingSTD (.finite 0)) ch
    ch.linkInfo.dist ⟨I.propagationModel, I.grReflection, freq⟩

/-- Every entry that is sent has the current path loss of its link. -/
def Current (M : Cmath) (draws : ℚ × NodeId × NodeId → Draw) (S : Sandbox) :
    Prop :=
  ∀ channels, S.pushPathLoss = some channels →
    List.Forall₂ (fun p e =>
      currentPathLoss M (draws (p.1, p.2.source, p.2.dest)) S p.1 p.2 =
        some e.pathlossDb) S.pushedLinks channels

/-- The models give no loss for the links that are sent. -/
def Lossless (M : Cmath) (draws : ℚ × NodeId × NodeId → Draw) (S : Sandbox) :
    Prop :=
  ∀ p ∈ S.pushedLinks,
    currentPathLoss M (draws (p.1, p.2.source, p.2.dest)) S p.1 p.2 = some 0

/-- Every link that is sent has a current path loss. -/
theorem isSome_currentPathLoss {S : Sandbox} (hS : S.Mirrored)
    {freq : ℚ} {ch : LinkChannel ℚ} (h : (freq, ch) ∈ S.pushedLinks)
    (draw : Draw) : (currentPathLoss M draw S freq ch).isSome = true := by
  obtain ⟨-, hlink⟩ := mem_pushedLinks.mp h
  have hsettings := hS freq ch.source ch.dest
  rw [hlink, Option.isSome_some, eq_comm, Option.isSome_iff_exists] at hsettings
  obtain ⟨settings, hbind⟩ := hsettings
  obtain ⟨I, hI, hchannel⟩ := Option.bind_eq_some_iff.mp hbind
  simp only [currentPathLoss, hI, hchannel, Option.bind_eq_bind,
    Option.bind_some]
  rfl

theorem current_iff {draws : ℚ × NodeId × NodeId → Draw} {S : Sandbox} :
    S.Current M draws ↔ ∀ p ∈ S.pushedLinks,
      currentPathLoss M (draws (p.1, p.2.source, p.2.dest)) S p.1 p.2 =
        some (S.entry p.1 p.2).pathlossDb := by
  rw [Current, pushPathLoss]
  match S.pushedLinks with
  | [] => simp
  | p :: ps =>
      have hsome : ((p :: ps).map fun p => S.entry p.1 p.2).isEmpty = false :=
        rfl
      simp only [hsome, Bool.false_eq_true, if_false, Option.some.injEq,
        forall_eq', List.forall₂_map_right_iff, List.forall₂_same]

theorem pathlossDb_of_pushed {S : Sandbox} (hS : S.Idle)
    {p : ℚ × LinkChannel ℚ} (h : p ∈ S.pushedLinks) :
    (S.entry p.1 p.2).pathlossDb = 0 :=
  hS.unset p.1 p.2.source p.2.dest p.2 (mem_pushedLinks.mp h).2

/-- Models without a loss: none at all, and every model but the one for free
space at a frequency that is not above zero. -/
theorem lossless_of_models {S : Sandbox} (hS : S.Mirrored)
    (h : FiniteMap.All (fun freq I => I.propagationModel = .none ∨
      I.propagationModel = .unknown ∨
      (freq ≤ 0 ∧ I.propagationModel ≠ .freeSpace)) S.controller.intermediateMap)
    (draws : ℚ × NodeId × NodeId → Draw) : S.Lossless M draws := by
  rintro ⟨freq, ch⟩ hp
  obtain ⟨loss, hloss⟩ := Option.isSome_iff_exists.mp
    (isSome_currentPathLoss (M := M) hS hp (draws (freq, ch.source, ch.dest)))
  rw [hloss]
  simp only [currentPathLoss, Option.bind_eq_bind,
    Option.bind_eq_some_iff] at hloss
  obtain ⟨I, hI, settings, -, hcompute⟩ := hloss
  have hstd : (settings.setShadowingSTD (.finite 0)).shadowingStd =
      .finite 0 := rfl
  obtain rfl := Option.some.inj hcompute
  rcases h freq I hI with hmodel | hmodel | ⟨hfreq, hmodel⟩
  · simp only [computePathLoss, hmodel]
  · simp only [computePathLoss, hmodel]
  · have hzero : ¬0 < freq := not_lt.mpr hfreq
    cases hparams : I.propagationModel with
    | none => simp only [computePathLoss]
    | unknown => simp only [computePathLoss]
    | freeSpace => exact absurd hparams hmodel
    | twoRay =>
        simp only [computePathLoss, calc2ray, hstd, hzero, if_false,
          shadowed_finite_zero]
    | threeGPP_38_901 =>
        simp only [computePathLoss, calc3gpp38901, hstd, hzero, if_false,
          shadowed_finite_zero]
    | okumuraHata =>
        simp only [computePathLoss, calcOkumuraHata, hstd, hzero, if_false,
          shadowed_finite_zero]
    | longleyRice =>
        simp only [computePathLoss, calcLongleyRice, hstd, hzero, if_false,
          shadowed_finite_zero]

/-- After every history the extension sends current values exactly if the
models give no loss for the links that are sent. -/
theorem current_iff_lossless {hasConfig : Bool}
    {defaults : Option PropagationDefaults} {events : List Event} {S : Sandbox}
    (h : run (step M T) (start hasConfig defaults) events = some S)
    (draws : ℚ × NodeId × NodeId → Draw) :
    S.Current M draws ↔ S.Lossless M draws := by
  have hidle := idle_of_run h
  rw [current_iff]
  refine forall₂_congr fun p hp => ?_
  rw [pathlossDb_of_pushed hidle hp]

/-! ## Two nodes, one kilometre apart

Powers of ten have their logarithms and squares their roots; angles are
small. -/

def exactCmath : Cmath where
  log10 q := (Nat.log 10 q.num.natAbs : ℚ) - Nat.log 10 q.den
  exp q := 1 + q
  sqrt := Rat.sqrt
  cos q := 1 - q ^ 2 / 2
  pow q n := q ^ n.floor

def smallAngles : Trigonometry ℚ where
  sin q := q
  cos q := 1 - q ^ 2 / 2
  atan q := q
  atan2 y x := y / x
  sqrt := Rat.sqrt
  fmod a b := a - b * FloatValue.truncate (a / b)

/-- A request for one frequency. -/
def register (id : NodeId) (freq : ℚ) : Event :=
  .controller (.request (.config (Controller.plainConfig id freq freq)) "10.0.0.1" 0) []

def noDraw : ℚ × NodeId × NodeId → Draw := fun _ => ⟨0, 0⟩

/-- A node that is so far to the north, in metres. -/
def place (id : NodeId) (north : ℚ) : Event :=
  .move id (some ⟨⟨1 / 100 + north / metersPerDeg, 1 / 100, 0⟩, ⟨0, 0, 0⟩⟩)

/-- Both nodes change their frequency, so that they become sandbox nodes. -/
def twoNodes : List Event :=
  [register "a" 900000000, register "b" 900000000, register "a" 1000000000,
    register "b" 1000000000, place "a" 0, place "b" (1000 - logSafeGuard),
    .configChannels]

/-- `SET_DEFAULT_PL` without a model. -/
def withoutModel : Event :=
  .command (.setDefaultPl "NONE" ⟨.finite (-1), "UMa", "URBAN", .default⟩)

/-- With the model switched off, the two links have no loss. -/
theorem current_without_model :
    ∃ S, run (step exactCmath smallAngles) (start false none)
        (twoNodes ++ [withoutModel]) = some S ∧
      S.pushedLinks.length = 2 ∧ S.Current exactCmath noDraw := by
  have hcheck : (run (step exactCmath smallAngles) (start false none)
      (twoNodes ++ [withoutModel])).any (fun S =>
        decide (S.pushedLinks.length = 2) &&
        S.controller.intermediateMap.values.all fun I =>
          decide (I.propagationModel = .none)) = true := by
    decide +kernel
  obtain ⟨S, hrun, hS⟩ := (Option.any_eq_true _ _).mp hcheck
  obtain ⟨hlength, hmodels⟩ := Bool.and_eq_true_iff.mp hS
  refine ⟨S, hrun, of_decide_eq_true hlength, ?_⟩
  refine (current_iff_lossless hrun noDraw).mpr
    (lossless_of_models (mirrored_of_run hrun) (fun freq I hI => ?_) noDraw)
  have hmem := FiniteMap.mem_values_iff.mpr ⟨freq, hI⟩
  exact Or.inl (of_decide_eq_true (List.all_eq_true.mp hmodels I hmem))

/-- In free space the loss at 1 GHz is 92.45 dB; 0 dB is sent. -/
theorem free_space_loss_not_sent :
    ∃ S, run (step exactCmath smallAngles) (start false none) twoNodes =
        some S ∧
      (∀ p ∈ S.pushedLinks, currentPathLoss exactCmath ⟨0, 0⟩ S p.1 p.2 =
        some (9245 / 100)) ∧
      ¬S.Current exactCmath noDraw := by
  have hcheck : (run (step exactCmath smallAngles) (start false none)
      twoNodes).any (fun S =>
        (S.pushedLinks.all fun p => decide
          (currentPathLoss exactCmath ⟨0, 0⟩ S p.1 p.2 =
            some (9245 / 100))) &&
        S.pushedLinks.any fun p =>
          decide ((S.entry p.1 p.2).pathlossDb = 0)) = true := by
    decide +kernel
  obtain ⟨S, hrun, hS⟩ := (Option.any_eq_true _ _).mp hcheck
  obtain ⟨hloss, hsent⟩ := Bool.and_eq_true_iff.mp hS
  have hvalue : ∀ p ∈ S.pushedLinks,
      currentPathLoss exactCmath ⟨0, 0⟩ S p.1 p.2 = some (9245 / 100) :=
    fun p hp => of_decide_eq_true (List.all_eq_true.mp hloss p hp)
  refine ⟨S, hrun, hvalue, fun hcurrent => ?_⟩
  obtain ⟨p, hp, hzero⟩ := List.any_eq_true.mp hsent
  have hsame := current_iff.mp hcurrent p hp
  rw [of_decide_eq_true hzero, noDraw, hvalue p hp, Option.some.injEq] at hsame
  norm_num at hsame

end Sandbox

end Chem
