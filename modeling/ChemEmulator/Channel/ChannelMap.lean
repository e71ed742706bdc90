import ChemEmulator.Channel.Intermediate
import ChemEmulator.Support.PartialRuns
import Mathlib.Order.BooleanAlgebra.Set

/-!
# Completeness of the channel map

A node can be a source, a destination and a sandbox node of one intermediate
at the same time.  `Roles` says who plays which part, and `Roles.Linked` which
ordered pairs of nodes need a channel.

Attaching fills the map with the whole cross product, so it always leaves a
complete map.  Detaching removes every channel of the node, also those that it
needs in the roles it keeps: a detach leaves a complete map exactly when the
node has no link left in its other roles.
-/

namespace Chem

open PartialRuns

/-! ## Roles and the links they need -/

/-- Which nodes are sources, destinations and sandbox nodes. -/
structure Roles (ν : Type*) where
  sources : Set ν
  destinations : Set ν
  sandbox : Set ν

namespace Roles

variable {ν : Type*}

/-- `s` sends to `d`. -/
def Linked (R : Roles ν) (s d : ν) : Prop :=
  (s ∈ R.sources ∧ d ∈ R.destinations) ∨
    (s ∈ R.sandbox ∧ d ∈ R.sandbox ∧ s ≠ d) ∨
    (s ∈ R.sandbox ∧ d ∈ R.destinations) ∨
    (s ∈ R.sources ∧ d ∈ R.sandbox)

/-- `x` is at one end of a link. -/
def InUse (R : Roles ν) (x : ν) : Prop :=
  ∃ y, R.Linked x y ∨ R.Linked y x

def removeSource (R : Roles ν) (x : ν) : Roles ν :=
  { R with sources := R.sources \ {x} }

def removeDestination (R : Roles ν) (x : ν) : Roles ν :=
  { R with destinations := R.destinations \ {x} }

def removeSandbox (R : Roles ν) (x : ν) : Roles ν :=
  { R with sandbox := R.sandbox \ {x} }

/-- Every role of `R` is also a role of `R'`. -/
structure Le (R R' : Roles ν) : Prop where
  sources : R.sources ⊆ R'.sources
  destinations : R.destinations ⊆ R'.destinations
  sandbox : R.sandbox ⊆ R'.sandbox

theorem Le.linked {R R' : Roles ν} (h : R.Le R') {s d : ν}
    (hlinked : R.Linked s d) : R'.Linked s d := by
  rcases hlinked with ⟨hs, hd⟩ | ⟨hs, hd, hne⟩ | ⟨hs, hd⟩ | ⟨hs, hd⟩
  · exact Or.inl ⟨h.sources hs, h.destinations hd⟩
  · exact Or.inr (Or.inl ⟨h.sandbox hs, h.sandbox hd, hne⟩)
  · exact Or.inr (Or.inr (Or.inl ⟨h.sandbox hs, h.destinations hd⟩))
  · exact Or.inr (Or.inr (Or.inr ⟨h.sources hs, h.sandbox hd⟩))

theorem removeSource_le (R : Roles ν) (x : ν) : (R.removeSource x).Le R :=
  ⟨Set.sdiff_subset, subset_rfl, subset_rfl⟩

theorem removeDestination_le (R : Roles ν) (x : ν) :
    (R.removeDestination x).Le R :=
  ⟨subset_rfl, Set.sdiff_subset, subset_rfl⟩

theorem removeSandbox_le (R : Roles ν) (x : ν) : (R.removeSandbox x).Le R :=
  ⟨subset_rfl, subset_rfl, Set.sdiff_subset⟩

/-- A set of links from which all links of `x` have been taken still covers
the smaller roles exactly when `x` has no link in them. -/
theorem covered_iff_not_inUse {R R' : Roles ν} {links links' : Set (ν × ν)}
    {x : ν} (hle : R'.Le R) (hcovered : ∀ s d, R.Linked s d → (s, d) ∈ links)
    (hremoved : ∀ s d, (s, d) ∈ links' ↔ (s, d) ∈ links ∧ s ≠ x ∧ d ≠ x) :
    (∀ s d, R'.Linked s d → (s, d) ∈ links') ↔ ¬R'.InUse x := by
  constructor
  · rintro h ⟨y, hxy | hyx⟩
    · exact ((hremoved x y).mp (h x y hxy)).2.1 rfl
    · exact ((hremoved y x).mp (h y x hyx)).2.2 rfl
  · intro h s d hlinked
    refine (hremoved s d).mpr ⟨hcovered s d (hle.linked hlinked), ?_, ?_⟩
    · rintro rfl
      exact h ⟨d, Or.inl hlinked⟩
    · rintro rfl
      exact h ⟨s, Or.inr hlinked⟩

end Roles

namespace Intermediate

/-! ## Consistency -/

def roles (I : Intermediate) : Roles NodeId where
  sources := {s | s ∈ I.sourceMap}
  destinations := {d | d ∈ I.destinationMap}
  sandbox := {a | a ∈ I.sandboxNodes}

/-- Every needed link has its channel. -/
def ChannelMapComplete (I : Intermediate) : Prop :=
  ∀ s d, I.roles.Linked s d → (s, d) ∈ I.channelMap

/-- Entries are stored under the identity of their value. -/
structure Consistent (I : Intermediate) : Prop where
  sources : FiniteMap.All (fun k receiver => receiver.id = k) I.sourceMap
  destinations :
    FiniteMap.All (fun k transmitter => transmitter.id = k) I.destinationMap
  channels : FiniteMap.All (fun k channel => channel.ends = k) I.channelMap

theorem consistent_create (freq : ℚ) : (create freq).Consistent :=
  ⟨FiniteMap.all_empty, FiniteMap.all_empty, FiniteMap.all_empty⟩

theorem channelMapComplete_create (freq : ℚ) :
    (create freq).ChannelMapComplete := by
  intro s d hlinked
  simp [roles, create, Roles.Linked] at hlinked

/-- The endpoints of a consistent map are found under their own identity. -/
private theorem exists_endpoint_iff {m : FiniteMap NodeId Endpoint}
    (hm : FiniteMap.All (fun k e => e.id = k) m) {id : NodeId} :
    (∃ e ∈ FiniteMap.values m, e.id = id) ↔ id ∈ m := by
  rw [FiniteMap.mem_iff_lookup]
  constructor
  · rintro ⟨e, he, rfl⟩
    obtain ⟨k, hk⟩ := FiniteMap.mem_values_iff.mp he
    exact ⟨e, hm k e hk ▸ hk⟩
  · rintro ⟨e, he⟩
    exact ⟨e, FiniteMap.mem_values_iff.mpr ⟨id, he⟩, hm id e he⟩

/-! ## What filling the map does -/

theorem mem_insertChannelIfMissing (I : Intermediate)
    (m : FiniteMap (NodeId × NodeId) Channel) (src dest : NodeId)
    (destNumCh srcNumCh : UInt8) (k : NodeId × NodeId) :
    k ∈ I.insertChannelIfMissing m src dest destNumCh srcNumCh ↔
      k ∈ m ∨ (k.1 = src ∧ k.2 = dest) := by
  rw [insertChannelIfMissing, FiniteMap.mem_insertIfMissing, Prod.ext_iff]

theorem mem_linkEndpoints {I : Intermediate} (hI : I.Consistent)
    (m : FiniteMap (NodeId × NodeId) Channel) (k : NodeId × NodeId) :
    k ∈ I.linkEndpoints m ↔
      k ∈ m ∨ (k.1 ∈ I.sourceMap ∧ k.2 ∈ I.destinationMap) := by
  -- one round adds the links of one source to all destinations
  have hround : ∀ (m : FiniteMap (NodeId × NodeId) Channel) (src : Receiver)
      (k : NodeId × NodeId),
      k ∈ (FiniteMap.values I.destinationMap).foldl
        (fun m dest => I.insertChannelIfMissing m src.id dest.id
          dest.numChannels src.numChannels) m ↔
        k ∈ m ∨ (src.id = k.1 ∧ k.2 ∈ I.destinationMap) := by
    intro m src k
    rw [FiniteMap.mem_foldl fun m dest k =>
      I.mem_insertChannelIfMissing m src.id dest.id _ _ k,
      ← exists_endpoint_iff hI.destinations]
    constructor
    · rintro (h | ⟨dest, hdest, hs, hd⟩)
      · exact Or.inl h
      · exact Or.inr ⟨hs.symm, dest, hdest, hd.symm⟩
    · rintro (h | ⟨hs, dest, hdest, hd⟩)
      · exact Or.inl h
      · exact Or.inr ⟨dest, hdest, hs.symm, hd.symm⟩
  rw [linkEndpoints, FiniteMap.mem_foldl hround,
    ← exists_endpoint_iff hI.sources]
  constructor
  · rintro (h | ⟨src, hsrc, hs, hd⟩)
    · exact Or.inl h
    · exact Or.inr ⟨⟨src, hsrc, hs⟩, hd⟩
  · rintro (h | ⟨⟨src, hsrc, hs⟩, hd⟩)
    · exact Or.inl h
    · exact Or.inr ⟨src, hsrc, hs, hd⟩

theorem mem_linkSandboxNode {I : Intermediate} (hI : I.Consistent)
    (m : FiniteMap (NodeId × NodeId) Channel) (node : NodeId)
    (k : NodeId × NodeId) :
    k ∈ I.linkSandboxNode m node ↔
      k ∈ m ∨ (k.1 = node ∧ k.2 ∈ I.sandboxNodes ∧ k.1 ≠ k.2) ∨
        (k.1 = node ∧ k.2 ∈ I.destinationMap) ∨
        (k.1 ∈ I.sourceMap ∧ k.2 = node) := by
  have hpeer : ∀ (m : FiniteMap (NodeId × NodeId) Channel) (peer : NodeId)
      (k : NodeId × NodeId),
      k ∈ (if node = peer then m
        else I.insertChannelIfMissing m node peer (I.sandboxChannels peer)
          (I.sandboxChannels node)) ↔
        k ∈ m ∨ (k.1 = node ∧ k.2 = peer ∧ node ≠ peer) := by
    intro m peer k
    by_cases hself : node = peer
    · simp [hself]
    · simp [hself, mem_insertChannelIfMissing]
  rw [linkSandboxNode,
    FiniteMap.mem_foldl fun m (src : Receiver) k =>
      I.mem_insertChannelIfMissing m src.id node _ _ k,
    FiniteMap.mem_foldl fun m (dest : Transmitter) k =>
      I.mem_insertChannelIfMissing m node dest.id _ _ k,
    FiniteMap.mem_foldl hpeer, ← exists_endpoint_iff hI.sources,
    ← exists_endpoint_iff hI.destinations]
  constructor
  · rintro (((h | ⟨peer, hpeer, hs, hd, hne⟩) | ⟨dest, hdest, hs, hd⟩) |
      ⟨src, hsrc, hs, hd⟩)
    · exact Or.inl h
    · refine Or.inr (Or.inl ⟨hs, hd ▸ hpeer, ?_⟩)
      rwa [hs, hd]
    · exact Or.inr (Or.inr (Or.inl ⟨hs, dest, hdest, hd.symm⟩))
    · exact Or.inr (Or.inr (Or.inr ⟨⟨src, hsrc, hs.symm⟩, hd⟩))
  · rintro (h | ⟨hs, hpeer, hne⟩ | ⟨hs, dest, hdest, hd⟩ |
      ⟨⟨src, hsrc, hs⟩, hd⟩)
    · exact Or.inl (Or.inl (Or.inl h))
    · exact Or.inl (Or.inl (Or.inr ⟨k.2, hpeer, hs, rfl, hs ▸ hne⟩))
    · exact Or.inl (Or.inr ⟨dest, hdest, hs, hd.symm⟩)
    · exact Or.inr ⟨src, hsrc, hs.symm, hd⟩

/-- `updateChannelMap` adds exactly the missing links. -/
theorem mem_updateChannelMap {I : Intermediate} (hI : I.Consistent)
    (s d : NodeId) :
    (s, d) ∈ I.updateChannelMap.channelMap ↔
      (s, d) ∈ I.channelMap ∨ I.roles.Linked s d := by
  rw [updateChannelMap, FiniteMap.mem_foldl (mem_linkSandboxNode hI),
    mem_linkEndpoints hI]
  constructor
  · rintro ((h | h) | ⟨node, hnode, ⟨rfl, hd, hne⟩ | ⟨rfl, hd⟩ | ⟨hs, rfl⟩⟩)
    · exact Or.inl h
    · exact Or.inr (Or.inl h)
    · exact Or.inr (Or.inr (Or.inl ⟨hnode, hd, hne⟩))
    · exact Or.inr (Or.inr (Or.inr (Or.inl ⟨hnode, hd⟩)))
    · exact Or.inr (Or.inr (Or.inr (Or.inr ⟨hs, hnode⟩)))
  · rintro (h | h | ⟨hs, hd, hne⟩ | ⟨hs, hd⟩ | ⟨hs, hd⟩)
    · exact Or.inl (Or.inl h)
    · exact Or.inl (Or.inr h)
    · exact Or.inr ⟨s, hs, Or.inl ⟨rfl, hd, hne⟩⟩
    · exact Or.inr ⟨s, hs, Or.inr (Or.inl ⟨rfl, hd⟩)⟩
    · exact Or.inr ⟨d, hd, Or.inr (Or.inr ⟨hs, rfl⟩)⟩

/-- `ch` is what `insertChannelIfMissing` makes for a link. -/
def IsNewChannel (I : Intermediate) (k : NodeId × NodeId) (ch : Channel) :
    Prop :=
  ∃ destNumCh srcNumCh, ch = I.newChannel k.1 k.2 destNumCh srcNumCh

theorem IsNewChannel.ends {I : Intermediate} {k : NodeId × NodeId}
    {ch : Channel} (h : I.IsNewChannel k ch) : ch.ends = k := by
  obtain ⟨destNumCh, srcNumCh, rfl⟩ := h
  have hwiring : (I.newChannel k.1 k.2 destNumCh srcNumCh).wiring =
      (Channel.create k.1 k.2 destNumCh srcNumCh).wiring := by
    simp [newChannel]
  exact congrArg Prod.fst hwiring

/-- `updateChannelMap` leaves the channels that exist as they are. -/
theorem updateChannelMap_fills (I : Intermediate) :
    FiniteMap.Fills I.IsNewChannel I.channelMap
      I.updateChannelMap.channelMap := by
  have hinsert : ∀ m src dest destNumCh srcNumCh,
      FiniteMap.Fills I.IsNewChannel I.channelMap m →
      FiniteMap.Fills I.IsNewChannel I.channelMap
        (I.insertChannelIfMissing m src dest destNumCh srcNumCh) :=
    fun m src dest destNumCh srcNumCh hm =>
      hm.insertIfMissing ⟨destNumCh, srcNumCh, rfl⟩
  have hendpoints : FiniteMap.Fills I.IsNewChannel I.channelMap
      (I.linkEndpoints I.channelMap) :=
    FiniteMap.Fills.foldl
      (fun m (src : Receiver) hm => FiniteMap.Fills.foldl
        (fun m (dest : Transmitter) => hinsert m src.id dest.id _ _) hm _)
      (FiniteMap.Fills.refl _) _
  refine FiniteMap.Fills.foldl ?_ hendpoints I.sandboxNodes
  intro m node hm
  refine FiniteMap.Fills.foldl
    (fun m (src : Receiver) => hinsert m src.id node _ _) ?_ _
  refine FiniteMap.Fills.foldl
    (fun m (dest : Transmitter) => hinsert m node dest.id _ _) ?_ _
  refine FiniteMap.Fills.foldl ?_ hm _
  intro m peer hm
  by_cases hself : node = peer
  · simpa [hself] using hm
  · simpa [hself] using hinsert m node peer _ _ hm

theorem Consistent.updateChannelMap {I : Intermediate} (hI : I.Consistent) :
    I.updateChannelMap.Consistent :=
  ⟨hI.sources, hI.destinations,
    I.updateChannelMap_fills.all hI.channels fun _ _ h => h.ends⟩

/-! ## What emptying the map does -/

/-- `removeChannel` removes exactly the links of the node. -/
theorem mem_removeChannel {I : Intermediate} (hI : I.Consistent)
    (x s d : NodeId) :
    (s, d) ∈ (I.removeChannel x).channelMap ↔
      (s, d) ∈ I.channelMap ∧ s ≠ x ∧ d ≠ x := by
  rw [removeChannel, FiniteMap.mem_filter, FiniteMap.mem_iff_lookup]
  constructor
  · rintro ⟨ch, hch, hsurvives⟩
    obtain ⟨rfl, rfl⟩ := Prod.mk.inj (hI.channels _ ch hch)
    simp only [Bool.not_eq_true', Bool.or_eq_false_iff, decide_eq_false_iff_not]
      at hsurvives
    exact ⟨⟨ch, hch⟩, hsurvives⟩
  · rintro ⟨⟨ch, hch⟩, hs, hd⟩
    obtain ⟨rfl, rfl⟩ := Prod.mk.inj (hI.channels _ ch hch)
    exact ⟨ch, hch, by simp [hs, hd]⟩

/-! ## The membership operations -/

inductive MembershipOp where
  | attachSource (receiver : Receiver)
  | detachSource (receiver : Receiver)
  | attachDestination (transmitter : Transmitter)
  | detachDestination (transmitter : Transmitter)
  | addSandboxNode (nodeId : NodeId) (numChannels : ℕ)
  | removeSandboxNode (nodeId : NodeId)

/-- One call; there is no result when `printStatus` hits a null pointer. -/
def perform (I : Intermediate) : MembershipOp → Option Intermediate
  | .attachSource receiver => I.attachSource receiver
  | .detachSource receiver => some (I.detachSource receiver).2
  | .attachDestination transmitter => I.attachDestination transmitter
  | .detachDestination transmitter => some (I.detachDestination transmitter).2
  | .addSandboxNode nodeId numChannels =>
      some (I.addSandboxNode nodeId numChannels)
  | .removeSandboxNode nodeId => some (I.removeSandboxNode nodeId)

/-- The call leaves no needed link without its channel: when it removes the
channels of a node, the node has no link in the roles that it keeps. -/
def KeepsLinks (I : Intermediate) : MembershipOp → Prop
  | .attachSource _ => True
  | .detachSource receiver =>
      receiver.id ∈ I.sourceMap →
        ¬(I.roles.removeSource receiver.id).InUse receiver.id
  | .attachDestination _ => True
  | .detachDestination transmitter =>
      transmitter.id ∈ I.destinationMap →
        ¬(I.roles.removeDestination transmitter.id).InUse transmitter.id
  | .addSandboxNode _ _ => True
  | .removeSandboxNode nodeId => ¬(I.roles.removeSandbox nodeId).InUse nodeId

theorem printStatus_some {I I' : Intermediate}
    (h : I.printStatus = some I') : I' = I := by
  unfold printStatus at h
  split at h
  · exact (Option.some.inj h).symm
  · cases h

@[simp] theorem channelMap_emptyChannelChecker (I : Intermediate) :
    I.emptyChannelChecker.channelMap = I.channelMap := by
  by_cases h : I.isEmpty <;> simp [emptyChannelChecker, h]

@[simp] theorem roles_emptyChannelChecker (I : Intermediate) :
    I.emptyChannelChecker.roles = I.roles := by
  by_cases h : I.isEmpty <;> simp [emptyChannelChecker, h, roles]

theorem Consistent.emptyChannelChecker {I : Intermediate}
    (hI : I.Consistent) : I.emptyChannelChecker.Consistent := by
  by_cases h : I.isEmpty
  · simpa [Intermediate.emptyChannelChecker, h] using
      ⟨hI.sources, hI.destinations, hI.channels⟩
  · simpa [Intermediate.emptyChannelChecker, h] using hI

/-- A filled map is complete. -/
theorem Consistent.complete_updateChannelMap {I : Intermediate}
    (hI : I.Consistent) : I.updateChannelMap.ChannelMapComplete := by
  intro s d hlinked
  exact (mem_updateChannelMap hI s d).mpr (Or.inr hlinked)

theorem attachSource_some {I I' : Intermediate} {receiver : Receiver}
    (hI : I.Consistent) (h : I.attachSource receiver = some I') :
    I'.Consistent ∧ (I' = I ∨ I'.ChannelMapComplete) := by
  unfold attachSource at h
  split at h
  · cases h
    exact ⟨hI, Or.inl rfl⟩
  · have hadded : ({ I with
        sourceMap := I.sourceMap.insert receiver.id receiver
        workers := I.workers.insert receiver.id
          ⟨receiver.id, receiver.configId, receiver.handle⟩ } :
        Intermediate).Consistent :=
      ⟨hI.sources.insert rfl, hI.destinations, hI.channels⟩
    cases printStatus_some h
    exact ⟨⟨hadded.updateChannelMap.sources, hadded.updateChannelMap.destinations,
      hadded.updateChannelMap.channels⟩, Or.inr hadded.complete_updateChannelMap⟩

theorem attachDestination_some {I I' : Intermediate}
    {transmitter : Transmitter} (hI : I.Consistent)
    (h : I.attachDestination transmitter = some I') :
    I'.Consistent ∧ (I' = I ∨ I'.ChannelMapComplete) := by
  unfold attachDestination at h
  split at h
  · cases h
    exact ⟨hI, Or.inl rfl⟩
  · have hadded : ({ I with
        destinationMap :=
          I.destinationMap.insert transmitter.configId transmitter
        destCount := I.destCount + 1 } : Intermediate).Consistent :=
      ⟨hI.sources, hI.destinations.insert transmitter.configId_eq.symm,
        hI.channels⟩
    cases printStatus_some h
    exact ⟨⟨hadded.updateChannelMap.sources, hadded.updateChannelMap.destinations,
      hadded.updateChannelMap.channels⟩, Or.inr hadded.complete_updateChannelMap⟩

theorem addSandboxNode_complete {I : Intermediate} (hI : I.Consistent)
    (nodeId : NodeId) (numChannels : ℕ) :
    (I.addSandboxNode nodeId numChannels).Consistent ∧
      (I.addSandboxNode nodeId numChannels).ChannelMapComplete := by
  have hadded : ({ I with
      sandboxNodes := I.sandboxNodes.insert nodeId
      sandboxNumChannels := I.sandboxNumChannels.insert nodeId numChannels } :
      Intermediate).Consistent :=
    ⟨hI.sources, hI.destinations, hI.channels⟩
  exact ⟨⟨hadded.updateChannelMap.sources, hadded.updateChannelMap.destinations,
    hadded.updateChannelMap.channels⟩, hadded.complete_updateChannelMap⟩

/-- `I'` has lost the channels of `x` and one of its roles. -/
structure Unlinked (I I' : Intermediate) (R : Roles NodeId) (x : NodeId) :
    Prop where
  consistent : I'.Consistent
  roles : I'.roles = R
  links : ∀ s d, (s, d) ∈ I'.channelMap ↔
    (s, d) ∈ I.channelMap ∧ s ≠ x ∧ d ≠ x

theorem Unlinked.complete_iff {I I' : Intermediate} {R : Roles NodeId}
    {x : NodeId} (h : Unlinked I I' R x) (hle : R.Le I.roles)
    (hcomplete : I.ChannelMapComplete) :
    I'.ChannelMapComplete ↔ ¬R.InUse x := by
  have hroles := h.roles
  subst hroles
  exact Roles.covered_iff_not_inUse hle hcomplete h.links

theorem detachSource_of_mem {I : Intermediate} {receiver : Receiver}
    (hI : I.Consistent) (hmem : receiver.id ∈ I.sourceMap) :
    Unlinked I (I.detachSource receiver).2
      (I.roles.removeSource receiver.id) receiver.id := by
  simp only [detachSource, hmem, if_true]
  refine ⟨?_, ?_, ?_⟩
  · apply Consistent.emptyChannelChecker
    exact ⟨hI.sources.erase _, hI.destinations, hI.channels.filter _⟩
  · rw [roles_emptyChannelChecker]
    simp only [roles, removeChannel, Roles.removeSource, AList.mem_erase,
      Roles.mk.injEq, and_true]
    ext s
    simp [and_comm]
  · intro s d
    rw [channelMap_emptyChannelChecker]
    exact mem_removeChannel hI receiver.id s d

theorem detachDestination_of_mem {I : Intermediate}
    {transmitter : Transmitter} (hI : I.Consistent)
    (hmem : transmitter.id ∈ I.destinationMap) :
    Unlinked I (I.detachDestination transmitter).2
      (I.roles.removeDestination transmitter.id) transmitter.id := by
  simp only [detachDestination, hmem, if_true]
  refine ⟨?_, ?_, ?_⟩
  · apply Consistent.emptyChannelChecker
    exact ⟨hI.sources, hI.destinations.erase _, hI.channels.filter _⟩
  · rw [roles_emptyChannelChecker]
    simp only [roles, removeChannel, Roles.removeDestination, AList.mem_erase,
      Roles.mk.injEq, and_true, true_and]
    ext s
    simp [and_comm]
  · intro s d
    rw [channelMap_emptyChannelChecker]
    exact mem_removeChannel hI transmitter.id s d

theorem removeSandboxNode_unlinked {I : Intermediate} (hI : I.Consistent)
    (nodeId : NodeId) :
    Unlinked I (I.removeSandboxNode nodeId)
      (I.roles.removeSandbox nodeId) nodeId := by
  refine ⟨⟨hI.sources, hI.destinations, hI.channels.filter _⟩, ?_, ?_⟩
  · simp only [roles, removeSandboxNode, removeChannel, Roles.removeSandbox,
      Roles.mk.injEq, true_and]
    ext a
    simp
  · exact mem_removeChannel hI nodeId

/-! ## One call -/

theorem consistent_perform {I I' : Intermediate} {op : MembershipOp}
    (hI : I.Consistent) (h : I.perform op = some I') : I'.Consistent := by
  cases op with
  | attachSource receiver => exact (attachSource_some hI h).1
  | attachDestination transmitter => exact (attachDestination_some hI h).1
  | addSandboxNode nodeId numChannels =>
      cases h
      exact (addSandboxNode_complete hI nodeId numChannels).1
  | detachSource receiver =>
      cases h
      by_cases hmem : receiver.id ∈ I.sourceMap
      · exact (detachSource_of_mem hI hmem).consistent
      · simpa [detachSource, hmem] using hI
  | detachDestination transmitter =>
      cases h
      by_cases hmem : transmitter.id ∈ I.destinationMap
      · exact (detachDestination_of_mem hI hmem).consistent
      · simpa [detachDestination, hmem] using hI
  | removeSandboxNode nodeId =>
      cases h
      exact (removeSandboxNode_unlinked hI nodeId).consistent

/-- A call keeps a complete map complete exactly under its condition. -/
theorem perform_complete_iff {I I' : Intermediate} {op : MembershipOp}
    (hI : I.Consistent) (hcomplete : I.ChannelMapComplete)
    (h : I.perform op = some I') :
    I'.ChannelMapComplete ↔ I.KeepsLinks op := by
  have attached : (I' = I ∨ I'.ChannelMapComplete) →
      (I'.ChannelMapComplete ↔ True) := by
    rintro (rfl | h)
    · exact iff_true_intro hcomplete
    · exact iff_true_intro h
  cases op with
  | attachSource receiver => exact attached (attachSource_some hI h).2
  | attachDestination transmitter =>
      exact attached (attachDestination_some hI h).2
  | addSandboxNode nodeId numChannels =>
      cases h
      exact attached (Or.inr (addSandboxNode_complete hI nodeId numChannels).2)
  | detachSource receiver =>
      cases h
      by_cases hmem : receiver.id ∈ I.sourceMap
      · have hkept := (detachSource_of_mem hI hmem).complete_iff
          (I.roles.removeSource_le _) hcomplete
        simpa [KeepsLinks, hmem] using hkept
      · simpa [detachSource, KeepsLinks, hmem] using hcomplete
  | detachDestination transmitter =>
      cases h
      by_cases hmem : transmitter.id ∈ I.destinationMap
      · have hkept := (detachDestination_of_mem hI hmem).complete_iff
          (I.roles.removeDestination_le _) hcomplete
        simpa [KeepsLinks, hmem] using hkept
      · simpa [detachDestination, KeepsLinks, hmem] using hcomplete
  | removeSandboxNode nodeId =>
      cases h
      exact (removeSandboxNode_unlinked hI nodeId).complete_iff
        (I.roles.removeSandbox_le _) hcomplete

/-! ## Runs -/

/-- Along a run of a new intermediate the channel map is complete in every
state exactly when every call meets its condition. -/
theorem channelMap_complete_iff_keepsLinks (freq : ℚ)
    (ops : List MembershipOp) :
    EveryState perform ChannelMapComplete (create freq) ops ↔
      EveryStep perform KeepsLinks (create freq) ops := by
  refine everyState_iff_everyStep (fun _ _ _ => consistent_perform)
    (fun _ _ _ => perform_complete_iff) ?_ (consistent_create freq)
    (channelMapComplete_create freq) ops
  -- only the two attach calls can fail, and they have no condition
  intro I op _ hfail
  cases op with
  | attachSource receiver => trivial
  | attachDestination transmitter => trivial
  | addSandboxNode nodeId numChannels => cases hfail
  | detachSource receiver => cases hfail
  | detachDestination transmitter => cases hfail
  | removeSandboxNode nodeId => cases hfail

/-- An endpoint of a node whose name is its identifier. -/
def plainEndpoint (handle : ℕ) (id : NodeId) : Endpoint :=
  ⟨handle, id, id, 1, id, rfl⟩

/-- A node that sends and receives loses its link to another destination when
only its own transmitter is detached. -/
theorem detachDestination_unlinks_source :
    ¬EveryState perform ChannelMapComplete (create 2400000000)
      [.attachSource (plainEndpoint 0 "x"),
        .attachDestination (plainEndpoint 1 "x"),
        .attachDestination (plainEndpoint 2 "y"),
        .detachDestination (plainEndpoint 1 "x")] := by
  intro h
  have hfinal : (run perform (create 2400000000)
      [.attachSource (plainEndpoint 0 "x"),
        .attachDestination (plainEndpoint 1 "x"),
        .attachDestination (plainEndpoint 2 "y"),
        .detachDestination (plainEndpoint 1 "x")]).any
      (fun I => decide ("x" ∈ I.sourceMap ∧ "y" ∈ I.destinationMap ∧
        ("x", "y") ∉ I.channelMap)) = true := by
    decide
  obtain ⟨I, hrun, hI⟩ := (Option.any_eq_true _ _).mp hfinal
  obtain ⟨hx, hy, hmissing⟩ := of_decide_eq_true hI
  have hcomplete : I.ChannelMapComplete := h.of_run hrun
  exact hmissing (hcomplete "x" "y" (Or.inl ⟨hx, hy⟩))

end Intermediate

end Chem
