import ChemEmulator.Extensions.SionnaCir

/-!
# Stopping the extension

`extensions/sionna/src/sionna_client.cpp`, `pollLoop`, `onStop` and
`clearExtensionFlags`: the thread polls until it is joined, while links come and
go; then the links that carry the name of the extension lose the name and the
bypass of the path loss.

Nothing removes the taps that a poll has written into a link, and nobody knows
what name and bypass were there before.  Stopping restores the links along runs
in which no poll reaches one.
-/

namespace Chem
namespace SionnaExtension

open PartialRuns

variable {R D G K : Type}

/-! ## Runs -/

/-- What the extension has registered, and the links of all intermediates. -/
structure Session (R K : Type) where
  registry : Registry R
  links : ExtendedLinks R K

/-- What happens between start and stop. -/
inductive SessionEvent (R D G K : Type) where
  /-- A round of `pollLoop`: the nodes, and what the server answers. -/
  | poll (T : TapSettings D G K) (refAlt : R) (sceneId : String)
      (nodes : List (Visit R)) (answer : Option (CirResponse D G))
  /-- A link is constructed, unless there is one. -/
  | attach (key : ℚ × NodeId × NodeId) (state : LinkState R K)
  | detach (key : ℚ × NodeId × NodeId)

/-- The constructor of `Channel` leaves no taps and no extension. -/
def newLink (state : LinkState R K) : ExtendedLink R K where
  state := { state with chTaps := ∅, extensionBypassesPathLoss := false }
  activeExtension := ""
  created := true

/-- `onStop`, which calls `clearExtensionFlags`. -/
def onStop (links : ExtendedLinks R K) : ExtendedLinks R K :=
  FiniteMap.mapValues (fun l =>
    if l.activeExtension = "sionna" then l.clearActiveExtension else l) links

/-- The state when the thread starts. -/
def onStart (links : ExtendedLinks R K) : Session R K := ⟨.start, links⟩

section Polls

variable [Zero K] [Add K]

/-- The taps that an answer has for the link between two nodes. -/
def Provides (T : TapSettings D G K) (sceneId : String) (s : Registry R)
    (answer : Option (CirResponse D G)) (ends : NodeId × NodeId) : Prop :=
  sceneId.isEmpty = false ∧ ∃ resp, answer = some resp ∧ resp.numPaths ≠ 0 ∧
    ∃ i ∈ installs T s resp, ends = (i.srcId, i.destId)

namespace SessionEvent

variable [BEq R] [Add R]

def apply (S : Session R K) : SessionEvent R D G K → Option (Session R K)
  | poll T refAlt sceneId nodes answer =>
      let registry := S.registry.syncPositions refAlt sceneId nodes
      some ⟨registry, computeAndApplyCir T sceneId registry answer S.links⟩
  | attach key state =>
      some { S with
        links := FiniteMap.insertIfMissing key (newLink state) S.links }
  | detach key => some { S with links := S.links.erase key }

/-- The answer to a poll has no taps for a link that there is. -/
def ReachesNoLink (S : Session R K) : SessionEvent R D G K → Prop
  | poll T refAlt sceneId nodes answer =>
      ∀ key ∈ S.links, ¬Provides T sceneId
        (S.registry.syncPositions refAlt sceneId nodes) answer key.2
  | attach _ _ => True
  | detach _ => True

end SessionEvent

end Polls

/-! ## Restoring -/

section Restoring

variable {old links : ExtendedLinks R K}

/-- A link made during the run has no taps and no extension, any other one the
taps, the extension and the bypass that it had before. -/
def RestoredLink (old : ExtendedLinks R K) (key : ℚ × NodeId × NodeId)
    (l : ExtendedLink R K) : Prop :=
  if l.created then l.state.chTaps = ∅ ∧ l.activeExtension = ""
  else
    ∃ before, old.lookup key = some before ∧
      l.state.chTaps = before.state.chTaps ∧
      l.activeExtension = before.activeExtension ∧
      l.state.extensionBypassesPathLoss =
        before.state.extensionBypassesPathLoss

def Restored (old links : ExtendedLinks R K) : Prop :=
  FiniteMap.All (RestoredLink old) links

/-- Links before the extension has written into them. -/
def BeforeStart (links : ExtendedLinks R K) : Prop :=
  FiniteMap.All
    (fun _ l => l.created = false ∧ l.activeExtension ≠ "sionna") links

/-- No poll has written into the link. -/
def UntouchedLink (old : ExtendedLinks R K) (key : ℚ × NodeId × NodeId)
    (l : ExtendedLink R K) : Prop :=
  if l.created then l.state.chTaps = ∅ ∧ l.activeExtension = ""
  else old.lookup key = some l

def Untouched (old links : ExtendedLinks R K) : Prop :=
  FiniteMap.All (UntouchedLink old) links

theorem BeforeStart.untouched (h : BeforeStart old) : Untouched old old := by
  intro key l hl
  rw [UntouchedLink, if_neg (by rw [(h key l hl).1]; decide)]
  exact hl

/-- Stopping does nothing where no poll has written. -/
theorem Untouched.restored (h : Untouched old links) (hold : BeforeStart old) :
    Restored old (onStop links) := by
  intro key l hl
  rw [onStop, FiniteMap.lookup_mapValues, Option.map_eq_some_iff] at hl
  obtain ⟨l, hlookup, rfl⟩ := hl
  have huntouched : UntouchedLink old key l := h key l hlookup
  unfold UntouchedLink at huntouched
  unfold RestoredLink
  by_cases hcreated : l.created = true
  · rw [if_pos hcreated] at huntouched
    obtain ⟨htaps, hname⟩ := huntouched
    have hother : l.activeExtension ≠ "sionna" := by
      rw [hname]
      decide
    rw [if_neg hother, if_pos hcreated]
    exact ⟨htaps, hname⟩
  · rw [if_neg hcreated] at huntouched
    rw [if_neg (hold key l huntouched).2, if_neg hcreated]
    exact ⟨l, huntouched, rfl, rfl, rfl⟩

variable [Zero K] [Add K]

/-- A poll leaves a link alone for which there are no taps. -/
theorem lookup_of_not_provides {T : TapSettings D G K} {sceneId : String}
    {s : Registry R} {answer : Option (CirResponse D G)}
    {key : ℚ × NodeId × NodeId} {l : ExtendedLink R K}
    (hnone : key ∈ links → ¬Provides T sceneId s answer key.2)
    (h : (computeAndApplyCir T sceneId s answer links).lookup key = some l) :
    links.lookup key = some l := by
  obtain ⟨l', hl', hresult⟩ := lookup_computeAndApplyCir h
  rcases hresult with rfl | ⟨resp, hanswer, hscene, hpaths, i, hi, hends, -⟩
  · exact hl'
  · have hkey : key ∈ links := FiniteMap.mem_iff_lookup.mpr ⟨l', hl'⟩
    exact absurd ⟨hscene, resp, hanswer, hpaths, i, hi, hends⟩ (hnone hkey)

variable [BEq R] [Add R]

theorem Untouched.apply {S S' : Session R K} (h : Untouched old S.links)
    {e : SessionEvent R D G K} (hreach : e.ReachesNoLink S)
    (happly : e.apply S = some S') : Untouched old S'.links := by
  cases e with
  | poll T refAlt sceneId nodes answer =>
      obtain rfl := Option.some.inj happly
      intro key l hl
      exact h key l (lookup_of_not_provides (hreach key) hl)
  | attach key state =>
      obtain rfl := Option.some.inj happly
      dsimp only
      rw [FiniteMap.insertIfMissing]
      split_ifs
      · exact h
      · exact FiniteMap.All.insert h (by simp [UntouchedLink, newLink])
  | detach key =>
      obtain rfl := Option.some.inj happly
      exact FiniteMap.All.erase h key

/-- Whenever the extension is stopped along a run that reaches no link, the
links are restored. -/
theorem onStop_restores (old : ExtendedLinks R K)
    (events : List (SessionEvent R D G K)) :
    BeforeStart old ∧
        EveryStep SessionEvent.apply SessionEvent.ReachesNoLink (onStart old)
          events →
      EveryState SessionEvent.apply (fun S => Restored old (onStop S.links))
        (onStart old) events := by
  rintro ⟨hold, hreach⟩
  have huntouched : EveryState SessionEvent.apply
      (fun S => Untouched old S.links) (onStart old) events :=
    everyState_of_everyStep
      (fun S e S' (h : Untouched old S.links) hQ happly => h.apply hQ happly)
      hold.untouched hreach
  exact huntouched.imp fun S h => h.restored hold

end Restoring

/-! ## A server with one path -/

open Registry

/-- A link that was there before the start. -/
def idleLink : ExtendedLink ℤ (ℤ × ℤ) where
  state :=
    { portChCoeffs := ∅, chTaps := ∅, cirApplyMethod := .directConv
      extensionBypassesPathLoss := false, noiseType := .none, powerCounter := 0
      cachedSigPower := 0, freqOffsetHz := 0, freqOffsetPhase := []
      dopplerEnabled := false, dopplerHz := 0 }
  activeExtension := ""
  created := false

def idleLinks : ExtendedLinks ℤ (ℤ × ℤ) :=
  AList.insert (3500, "1", "2") idleLink ∅

/-- A round over two nodes, and one path of gain `1` for every pair. -/
def pollOf (numPaths : ℤ) : SessionEvent ℤ ℚ ℤ (ℤ × ℤ) :=
  .poll pairTaps 112 "scene"
    [hovering "1" "drone" .processed .processed,
      hovering "2" "tower" .processed .processed]
    (some ⟨2, 2, numPaths, fun _ _ => some ([0], [1], [0])⟩)

theorem reachesNoLink_pollOf (S : Session ℤ (ℤ × ℤ)) :
    (pollOf 0).ReachesNoLink S := by
  rintro key - ⟨-, resp, hanswer, hpaths, -⟩
  obtain rfl := Option.some.inj hanswer
  exact hpaths rfl

/-- The server finds no paths, while a link comes and goes. -/
theorem onStop_restores_silent :
    EveryState SessionEvent.apply
      (fun S => Restored idleLinks (onStop S.links)) (onStart idleLinks)
      [pollOf 0, .attach (3500, "2", "1") idleLink.state, pollOf 0,
        .detach (3500, "2", "1")] := by
  refine onStop_restores idleLinks _ ⟨?_, ?_⟩
  · exact FiniteMap.All.insert FiniteMap.all_empty ⟨rfl, by decide⟩
  · exact ⟨reachesNoLink_pollOf _, fun _ _ => ⟨trivial, fun _ _ =>
      ⟨reachesNoLink_pollOf _, fun _ _ => ⟨trivial, fun _ _ => trivial⟩⟩⟩⟩

/-- One poll reaches the link; the taps are still there when the extension has
been stopped. -/
theorem not_restored_polled :
    ¬EveryState SessionEvent.apply
      (fun S => Restored idleLinks (onStop S.links)) (onStart idleLinks)
      [pollOf 1] := by
  intro h
  have hpolled :
      (((pollOf 1).apply (onStart idleLinks)).bind fun S =>
          ((onStop S.links).lookup (3500, "1", "2")).map fun l =>
            (l.created, l.state.chTaps.keys)) =
        some (false, [(0, 0)]) := by decide +kernel
  obtain ⟨S, hS, hlink⟩ := Option.bind_eq_some_iff.mp hpolled
  obtain ⟨l, hl, hkeys⟩ := Option.map_eq_some_iff.mp hlink
  obtain ⟨hcreated, htaps⟩ := Prod.mk.inj hkeys
  have hrestored : RestoredLink idleLinks (3500, "1", "2") l :=
    (h.2 S hS).head _ l hl
  rw [RestoredLink, if_neg (by rw [hcreated]; decide)] at hrestored
  obtain ⟨before, hbefore, hsame, -⟩ := hrestored
  obtain rfl : idleLink = before := Option.some.inj hbefore
  rw [hsame] at htaps
  cases htaps

end SionnaExtension
end Chem
