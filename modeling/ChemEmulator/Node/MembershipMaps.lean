import ChemEmulator.Node.Intermediates

/-!
# The maps of an intermediate in step

An intermediate keeps its members in five containers: the receivers, the
transmitters, their count, the workers and the channels.  As long as only
receivers and transmitters join and leave, every channel has its two ends in
the maps of sources and destinations, and listing the status finds them.

A sandbox node has channels but no receiver and no transmitter.  The attach
calls end by listing the status, so that they are safe exactly when every
sandbox node is also attached as a source and as a destination.
-/

namespace Chem

open PartialRuns

namespace Intermediate

/-! ## Calls on receivers and transmitters -/

inductive EndpointOp where
  | attachSource (receiver : Receiver)
  | detachSource (receiver : Receiver)
  | attachDestination (transmitter : Transmitter)
  | detachDestination (transmitter : Transmitter)

def EndpointOp.toMembershipOp : EndpointOp → MembershipOp
  | .attachSource receiver => .attachSource receiver
  | .detachSource receiver => .detachSource receiver
  | .attachDestination transmitter => .attachDestination transmitter
  | .detachDestination transmitter => .detachDestination transmitter

def performEndpoint (I : Intermediate) (op : EndpointOp) :
    Option Intermediate :=
  I.perform op.toMembershipOp

/-- The containers agree.  The size of a map is a `size_t`, like the count. -/
structure InStep (I : Intermediate) : Prop where
  channels : FiniteMap.All
    (fun k ch => k.1 ∈ I.sourceMap ∧ k.2 ∈ I.destinationMap ∧
      ch.source = k.1 ∧ ch.dest = k.2) I.channelMap
  workers : ∀ id, id ∈ I.workers ↔ id ∈ I.sourceMap
  destCount : I.destCount = UInt64.ofNat I.destinationMap.keys.length
  printStatus : I.printStatus = some I

/-- What the calls on receivers and transmitters keep. -/
structure EndpointsOnly (I : Intermediate) : Prop where
  tended : I.Tended
  sandboxNodes : I.sandboxNodes = []
  destCount : I.destCount = UInt64.ofNat I.destinationMap.keys.length

theorem tended_create (freq : ℚ) : (create freq).Tended where
  consistent := consistent_create freq
  linked _ _ hmem := absurd hmem (AList.notMem_empty _)
  workers _ := Iff.rfl

theorem endpointsOnly_create (freq : ℚ) : (create freq).EndpointsOnly :=
  ⟨tended_create freq, rfl, rfl⟩

theorem EndpointsOnly.inStep {I : Intermediate} (hI : I.EndpointsOnly) :
    I.InStep where
  channels k ch hlookup := by
    have hmem : k ∈ I.channelMap := FiniteMap.mem_iff_lookup.mpr ⟨ch, hlookup⟩
    obtain ⟨hs, hd⟩ := (hI.tended.linked k.1 k.2 hmem).ends
    have hnobody : ∀ id, id ∉ I.roles.sandbox := by
      intro id hid
      simp [roles, hI.sandboxNodes] at hid
    have hends := Prod.ext_iff.mp (hI.tended.consistent.channels k ch hlookup)
    exact ⟨hs.resolve_right (hnobody _), hd.resolve_right (hnobody _), hends⟩
  workers := hI.tended.workers
  destCount := hI.destCount
  printStatus := hI.tended.printStatus hI.sandboxNodes

/-! ## The count of destinations -/

@[simp] theorem destCount_emptyChannelChecker (I : Intermediate) :
    I.emptyChannelChecker.destCount = I.destCount := by
  by_cases h : I.isEmpty <;> simp [emptyChannelChecker, h]

theorem EndpointsOnly.withSource {I : Intermediate} (hI : I.EndpointsOnly)
    (receiver : Receiver) : (I.withSource receiver).EndpointsOnly :=
  ⟨hI.tended.withSource receiver, hI.sandboxNodes, hI.destCount⟩

theorem EndpointsOnly.withDestination {I : Intermediate}
    (hI : I.EndpointsOnly) {transmitter : Transmitter}
    (hnew : transmitter.configId ∉ I.destinationMap) :
    (I.withDestination transmitter).EndpointsOnly := by
  refine ⟨hI.tended.withDestination transmitter, hI.sandboxNodes, ?_⟩
  have hkeys : (I.destinationMap.insert transmitter.configId
      transmitter).keys.length = I.destinationMap.keys.length + 1 := by
    rw [AList.keys_insert, List.length_cons,
      List.erase_of_not_mem (fun h => hnew (AList.mem_keys.mpr h))]
  simp only [Intermediate.withDestination, Intermediate.updateChannelMap]
  rw [hkeys, hI.destCount, UInt64.ofNat_add]
  rfl

theorem EndpointsOnly.detachDestination {I : Intermediate}
    (hI : I.EndpointsOnly) (transmitter : Transmitter) :
    (I.detachDestination transmitter).2.EndpointsOnly := by
  refine ⟨hI.tended.detachDestination transmitter, ?_, ?_⟩
  · by_cases hmem : transmitter.id ∈ I.destinationMap
    · simp [Intermediate.detachDestination, hmem, removeChannel,
        hI.sandboxNodes]
    · simp [Intermediate.detachDestination, hmem, hI.sandboxNodes]
  · by_cases hmem : transmitter.id ∈ I.destinationMap
    · obtain ⟨n, hn⟩ : ∃ n, I.destinationMap.keys.length = n + 1 :=
        Nat.exists_eq_succ_of_ne_zero
          (List.length_pos_of_mem (AList.mem_keys.mp hmem)).ne'
      have hkeys : (I.destinationMap.erase transmitter.id).keys.length = n := by
        rw [AList.keys_erase, List.length_erase_of_mem (AList.mem_keys.mp hmem),
          hn, Nat.add_sub_cancel]
      simp only [Intermediate.detachDestination, hmem, if_true,
        destCount_emptyChannelChecker, destinationMap_emptyChannelChecker,
        removeChannel]
      rw [hkeys, hI.destCount, hn, UInt64.ofNat_add]
      exact UInt64.add_sub_cancel _ _
    · simpa [Intermediate.detachDestination, hmem] using hI.destCount

theorem EndpointsOnly.detachSource {I : Intermediate}
    (hI : I.EndpointsOnly) (receiver : Receiver) :
    (I.detachSource receiver).2.EndpointsOnly := by
  refine ⟨hI.tended.detachSource receiver, ?_, ?_⟩
  · by_cases hmem : receiver.id ∈ I.sourceMap
    · simp [Intermediate.detachSource, hmem, removeChannel, hI.sandboxNodes]
    · simp [Intermediate.detachSource, hmem, hI.sandboxNodes]
  · by_cases hmem : receiver.id ∈ I.sourceMap
    · simpa [Intermediate.detachSource, hmem, removeChannel] using hI.destCount
    · simpa [Intermediate.detachSource, hmem] using hI.destCount

/-- A call on a receiver or a transmitter has a result. -/
theorem EndpointsOnly.performEndpoint {I : Intermediate}
    (hI : I.EndpointsOnly) (op : EndpointOp) :
    ∃ I', I.performEndpoint op = some I' ∧ I'.EndpointsOnly := by
  cases op with
  | attachSource receiver =>
      by_cases hmem : receiver.id ∈ I.sourceMap
      · exact ⟨I, by simp [Intermediate.performEndpoint,
          EndpointOp.toMembershipOp, perform, attachSource_eq, hmem], hI⟩
      · have hadded := hI.withSource receiver
        refine ⟨I.withSource receiver, ?_, hadded⟩
        simpa [Intermediate.performEndpoint, EndpointOp.toMembershipOp,
          perform, attachSource_eq, hmem] using hadded.inStep.printStatus
  | attachDestination transmitter =>
      by_cases hmem : transmitter.configId ∈ I.destinationMap
      · exact ⟨I, by simp [Intermediate.performEndpoint,
          EndpointOp.toMembershipOp, perform, attachDestination_eq, hmem], hI⟩
      · have hadded := hI.withDestination hmem
        refine ⟨I.withDestination transmitter, ?_, hadded⟩
        simpa [Intermediate.performEndpoint, EndpointOp.toMembershipOp,
          perform, attachDestination_eq, hmem] using hadded.inStep.printStatus
  | detachSource receiver => exact ⟨_, rfl, hI.detachSource receiver⟩
  | detachDestination transmitter =>
      exact ⟨_, rfl, hI.detachDestination transmitter⟩

/-- Whatever receivers and transmitters come and go, no call dereferences a
null pointer, and the containers agree in every state. -/
theorem endpoint_runs_inStep (freq : ℚ) (ops : List EndpointOp) :
    (∃ I, run performEndpoint (create freq) ops = some I) ∧
      EveryState performEndpoint InStep (create freq) ops := by
  constructor
  · exact exists_run_of_invariant (fun I op hI => hI.performEndpoint op)
      (endpointsOnly_create freq) ops
  · have hall : EveryState performEndpoint EndpointsOnly (create freq) ops := by
      refine everyState_of_invariant ?_ (endpointsOnly_create freq) ops
      intro I op I' hI hstep
      obtain ⟨J, hJ, hkept⟩ := hI.performEndpoint op
      cases hJ.symm.trans hstep
      exact hkept
    exact hall.imp fun _ hI => hI.inStep

/-! ## Attaching beside sandbox nodes -/

end Intermediate

namespace Roles

variable {ν : Type*}

/-- Every link runs from a source to a destination. -/
def RealEnds (R : Roles ν) : Prop :=
  ∀ s d, R.Linked s d → s ∈ R.sources ∧ d ∈ R.destinations

/-- Every sandbox node is also a source and a destination. -/
def SandboxReal (R : Roles ν) : Prop :=
  ∀ a ∈ R.sandbox, a ∈ R.sources ∧ a ∈ R.destinations

theorem SandboxReal.realEnds {R : Roles ν} (h : R.SandboxReal) :
    R.RealEnds := by
  intro s d hlinked
  obtain ⟨hs, hd⟩ := hlinked.ends
  exact ⟨hs.elim id fun hbox => (h s hbox).1,
    hd.elim id fun hbox => (h d hbox).2⟩

/-- A source has a link to every sandbox node, and a sandbox node that is a
destination has a link to itself. -/
theorem realEnds_iff_of_source {R : Roles ν} {x : ν} (hx : x ∈ R.sources) :
    R.RealEnds ↔ R.SandboxReal := by
  refine ⟨?_, SandboxReal.realEnds⟩
  intro h a ha
  have hdest := (h x a (Or.inr (Or.inr (Or.inr ⟨hx, ha⟩)))).2
  exact ⟨(h a a (Or.inr (Or.inr (Or.inl ⟨ha, hdest⟩)))).1, hdest⟩

theorem realEnds_iff_of_destination {R : Roles ν} {x : ν}
    (hx : x ∈ R.destinations) : R.RealEnds ↔ R.SandboxReal := by
  refine ⟨?_, SandboxReal.realEnds⟩
  intro h a ha
  have hsource := (h a x (Or.inr (Or.inr (Or.inl ⟨ha, hx⟩)))).1
  exact ⟨hsource, (h a a (Or.inr (Or.inr (Or.inr ⟨hsource, ha⟩)))).2⟩

end Roles

namespace Intermediate

/-- An attach call changes the two maps only by adding its node. -/
def OnlyAdds (I I' : Intermediate) : MembershipOp → Prop
  | .attachSource receiver =>
      I'.sourceMap =
        FiniteMap.insertIfMissing receiver.id receiver I.sourceMap ∧
      I'.destinationMap = I.destinationMap
  | .attachDestination transmitter =>
      I'.sourceMap = I.sourceMap ∧
      I'.destinationMap = FiniteMap.insertIfMissing transmitter.id transmitter
        I.destinationMap
  | _ => True

/-- The call dereferences no null pointer and corrupts neither map. -/
def Harmless (I : Intermediate) (op : MembershipOp) : Prop :=
  ∃ I', I.perform op = some I' ∧ I.OnlyAdds I' op

/-- An endpoint that is new to the intermediate finds every sandbox node
attached in both roles, one of which may be its own. -/
def SandboxAttached (I : Intermediate) : MembershipOp → Prop
  | .attachSource receiver =>
      receiver.id ∉ I.sourceMap → ∀ a ∈ I.sandboxNodes,
        (a = receiver.id ∨ a ∈ I.sourceMap) ∧ a ∈ I.destinationMap
  | .attachDestination transmitter =>
      transmitter.id ∉ I.destinationMap → ∀ a ∈ I.sandboxNodes,
        a ∈ I.sourceMap ∧ (a = transmitter.id ∨ a ∈ I.destinationMap)
  | _ => True

/-- In a filled map there is a channel for every link and for nothing else, so
that listing the status is safe exactly when all links have real ends. -/
theorem Tended.printStatus_isSome_iff {I : Intermediate} (hI : I.Tended)
    (hcomplete : I.ChannelMapComplete) :
    (∃ I', I.printStatus = some I') ↔ I.roles.RealEnds := by
  rw [← Option.isSome_iff_exists, Intermediate.printStatus]
  simp only [Option.isSome_ite, List.all_eq_true, Bool.and_eq_true,
    decide_eq_true_eq]
  constructor
  · intro h s d hlinked
    obtain ⟨ch, hlookup⟩ := FiniteMap.mem_iff_lookup.mp (hcomplete s d hlinked)
    obtain ⟨rfl, rfl⟩ := Prod.mk.inj (hI.consistent.channels _ ch hlookup)
    exact h ch (FiniteMap.mem_values_iff.mpr ⟨_, hlookup⟩)
  · intro h ch hch
    obtain ⟨⟨s, d⟩, hlookup⟩ := FiniteMap.mem_values_iff.mp hch
    obtain ⟨rfl, rfl⟩ := Prod.mk.inj (hI.consistent.channels _ ch hlookup)
    exact h _ _ (hI.linked _ _ (FiniteMap.mem_iff_lookup.mpr ⟨ch, hlookup⟩))

theorem Tended.complete_withSource {I : Intermediate} (hI : I.Tended)
    (receiver : Receiver) : (I.withSource receiver).ChannelMapComplete := by
  have hjoined : ({ I with
      sourceMap := I.sourceMap.insert receiver.id receiver
      workers := I.workers.insert receiver.id
        ⟨receiver.id, receiver.configId, receiver.handle⟩ } :
      Intermediate).Consistent :=
    ⟨hI.consistent.sources.insert rfl, hI.consistent.destinations,
      hI.consistent.channels⟩
  exact hjoined.complete_updateChannelMap

theorem Tended.complete_withDestination {I : Intermediate} (hI : I.Tended)
    (transmitter : Transmitter) :
    (I.withDestination transmitter).ChannelMapComplete := by
  have hjoined : ({ I with
      destinationMap :=
        I.destinationMap.insert transmitter.configId transmitter
      destCount := I.destCount + 1 } : Intermediate).Consistent :=
    ⟨hI.consistent.sources,
      hI.consistent.destinations.insert transmitter.configId_eq.symm,
      hI.consistent.channels⟩
  exact hjoined.complete_updateChannelMap

/-- A call that returns has added nothing else. -/
theorem onlyAdds_perform {I I' : Intermediate} {op : MembershipOp}
    (h : I.perform op = some I') : I.OnlyAdds I' op := by
  cases op with
  | attachSource receiver =>
      simp only [perform, attachSource_eq] at h
      split_ifs at h with hmem
      · cases h
        simp [OnlyAdds, FiniteMap.insertIfMissing, hmem]
      · cases printStatus_some h
        simp [OnlyAdds, FiniteMap.insertIfMissing, hmem, withSource,
          updateChannelMap]
  | attachDestination transmitter =>
      simp only [perform, attachDestination_eq, transmitter.configId_eq] at h
      split_ifs at h with hmem
      · cases h
        simp [OnlyAdds, FiniteMap.insertIfMissing, hmem]
      · cases printStatus_some h
        simp [OnlyAdds, FiniteMap.insertIfMissing, hmem, withDestination,
          updateChannelMap, transmitter.configId_eq]
  | _ => trivial

theorem harmless_iff_exists_perform {I : Intermediate} {op : MembershipOp} :
    I.Harmless op ↔ ∃ I', I.perform op = some I' :=
  ⟨fun ⟨I', h, _⟩ => ⟨I', h⟩, fun ⟨I', h⟩ => ⟨I', h, onlyAdds_perform h⟩⟩

theorem Tended.attachSource_harmless_iff {I : Intermediate} (hI : I.Tended)
    (receiver : Receiver) :
    I.Harmless (.attachSource receiver) ↔
      I.SandboxAttached (.attachSource receiver) := by
  rw [harmless_iff_exists_perform]
  simp only [Intermediate.perform, attachSource_eq]
  by_cases hmem : receiver.id ∈ I.sourceMap
  · simp [SandboxAttached, hmem]
  · have hsource : receiver.id ∈ (I.withSource receiver).roles.sources :=
      AList.mem_insert _ |>.mpr (Or.inl rfl)
    have hstatus := (hI.withSource receiver).printStatus_isSome_iff
      (hI.complete_withSource receiver)
    rw [Roles.realEnds_iff_of_source hsource] at hstatus
    rw [if_neg hmem, hstatus]
    simp [Roles.SandboxReal, roles, SandboxAttached, hmem,
      Intermediate.withSource, Intermediate.updateChannelMap]

theorem Tended.attachDestination_harmless_iff {I : Intermediate}
    (hI : I.Tended) (transmitter : Transmitter) :
    I.Harmless (.attachDestination transmitter) ↔
      I.SandboxAttached (.attachDestination transmitter) := by
  have hid := transmitter.configId_eq
  rw [harmless_iff_exists_perform]
  simp only [Intermediate.perform, attachDestination_eq, hid]
  by_cases hmem : transmitter.id ∈ I.destinationMap
  · simp [SandboxAttached, hmem]
  · have hdest : transmitter.configId ∈
        (I.withDestination transmitter).roles.destinations :=
      AList.mem_insert _ |>.mpr (Or.inl rfl)
    have hstatus := (hI.withDestination transmitter).printStatus_isSome_iff
      (hI.complete_withDestination transmitter)
    rw [Roles.realEnds_iff_of_destination hdest] at hstatus
    rw [if_neg hmem, hstatus]
    simp [Roles.SandboxReal, roles, SandboxAttached, hmem, hid,
      Intermediate.withDestination, Intermediate.updateChannelMap]

/-- Only the attach calls list the status. -/
theorem Tended.harmless_iff {I : Intermediate} (hI : I.Tended)
    (op : MembershipOp) : I.Harmless op ↔ I.SandboxAttached op := by
  cases op with
  | attachSource receiver => exact hI.attachSource_harmless_iff receiver
  | attachDestination transmitter =>
      exact hI.attachDestination_harmless_iff transmitter
  | detachSource receiver => exact iff_of_true ⟨_, rfl, trivial⟩ trivial
  | detachDestination transmitter =>
      exact iff_of_true ⟨_, rfl, trivial⟩ trivial
  | addSandboxNode nodeId numChannels =>
      exact iff_of_true ⟨_, rfl, trivial⟩ trivial
  | removeSandboxNode nodeId => exact iff_of_true ⟨_, rfl, trivial⟩ trivial

/-- A run is harmless exactly when every endpoint that joins finds the sandbox
nodes attached in both roles. -/
theorem harmless_iff_sandboxAttached (freq : ℚ) (ops : List MembershipOp) :
    EveryStep perform Harmless (create freq) ops ↔
      EveryStep perform SandboxAttached (create freq) ops :=
  everyStep_congr (fun _ _ _ hI _ h => hI.perform h)
    (fun _ op hI => hI.harmless_iff op) (tended_create freq) ops

/-- A receiver that joins a sandbox node gets a channel to it, and the status
is listed for a destination that does not exist. -/
theorem attachSource_beside_sandbox_node :
    ¬EveryStep perform Harmless (create 2400000000)
      [.addSandboxNode "a" 1, .attachSource (plainEndpoint 0 "x")] := by
  rintro ⟨-, hafter⟩
  obtain ⟨I', hI', -⟩ :=
    (hafter ((create 2400000000).addSandboxNode "a" 1) rfl).1
  have hnull : ((create 2400000000).addSandboxNode "a" 1).attachSource
      (plainEndpoint 0 "x") = none := by
    decide
  cases hnull.symm.trans hI'

end Intermediate

end Chem
