import ChemEmulator.Channel.PortOrientation
import ChemEmulator.Extensions.SionnaRegistry
import ChemEmulator.Extensions.SionnaTaps
import Mathlib.Data.String.Basic

/-!
# Channel responses from the server

`extensions/sionna/src/sionna_client.cpp`, `computeAndApplyCIR`: the answer of
the server has one entry for every pair of a receiver and a transmitter, in the
order in which it keeps them.  The client finds the two nodes of an entry by its
own orders: the name at the index, and the node that is known by this name.  The
taps go to the link between the two nodes in every intermediate.

What the extraction of an entry yields is part of the answer: three lists, or
nothing if a value is missing or has another type.
-/

namespace Chem
namespace SionnaExtension

open PartialRuns

variable {R D G K : Type}

/-! ## Links -/

/-- A `Channel` with the name of the extension that is active on it.  `created`
marks the links that were made while the extension runs. -/
structure ExtendedLink (R K : Type) where
  state : LinkState R K
  activeExtension : String
  created : Bool

namespace ExtendedLink

/-- `updateCIR` for the first pair of ports, and `setActiveExtension`. -/
def applyCir (taps : List K) (l : ExtendedLink R K) : ExtendedLink R K :=
  { l with
    state := { l.state.updateCIR (0, 0) taps with
      extensionBypassesPathLoss := true }
    activeExtension := "sionna" }

/-- `clearActiveExtension`. -/
def clearActiveExtension (l : ExtendedLink R K) : ExtendedLink R K :=
  { l with
    state := { l.state with extensionBypassesPathLoss := false }
    activeExtension := "" }

end ExtendedLink

/-- The channel lists of all intermediates, by frequency and ends. -/
abbrev ExtendedLinks (R K : Type) :=
  FiniteMap (ℚ × NodeId × NodeId) (ExtendedLink R K)

/-! ## One answer -/

/-- The answer to `simulation/cir`. -/
structure CirResponse (D G : Type) where
  numRx : ℤ
  numTx : ℤ
  numPaths : ℤ
  /-- `delays`, `gains_re` and `gains_im` of a receiver and a transmitter,
  unless an exception leaves their extraction. -/
  entry : ℕ → ℕ → Option (List D × List G × List G)

/-- What `cirToTaps` needs besides the paths: arithmetic, samples, the limit and
`destSampleRate`. -/
structure TapSettings (D G K : Type) where
  arithmetic : IndexArithmetic D
  fc : G → G → K
  cirMaxTaps : ℤ
  destSampleRate : NodeId → D

/-- Taps on their way to the links between two nodes. -/
structure Install (K : Type) where
  srcId : NodeId
  destId : NodeId
  taps : List K

/-- `txNameToId` or `rxNameToId`: of several nodes with one name the last in the
order of the map. -/
def nameToId (map : FiniteMap NodeId String) (name : String) : Option NodeId :=
  ((map.entries.filter fun e => e.2 = name).map fun e => e.1).max?

section Response

variable [Zero K] [Add K]

/-- The body of the inner loop up to the loop over the intermediates. -/
def installOf (T : TapSettings D G K) (s : Registry R) (resp : CirResponse D G)
    (rxIdx txIdx : ℕ) : Option (Install K) := do
  let txName ← s.tx.order[txIdx]?
  let rxName ← s.rx.order[rxIdx]?
  let srcId ← nameToId s.tx.map txName
  let destId ← nameToId s.rx.map rxName
  if srcId = destId then none
  else
    let (delays, gainsRe, gainsIm) ← resp.entry rxIdx txIdx
    if delays.isEmpty then none
    else
      let taps := cirToTaps T.arithmetic T.fc T.cirMaxTaps delays gainsRe
        gainsIm (T.destSampleRate destId)
      if taps.isEmpty then none else some ⟨srcId, destId, taps⟩

/-- The double loop. -/
def installs (T : TapSettings D G K) (s : Registry R)
    (resp : CirResponse D G) : List (Install K) :=
  (List.range (min resp.numRx.toNat s.rx.order.length)).flatMap fun rxIdx =>
    (List.range (min resp.numTx.toNat s.tx.order.length)).filterMap fun txIdx =>
      installOf T s resp rxIdx txIdx

/-- The loop over the intermediates. -/
def Install.apply (i : Install K) (links : ExtendedLinks R K) :
    ExtendedLinks R K :=
  FiniteMap.mapEntries (fun key l =>
    if key.2 = (i.srcId, i.destId) then l.applyCir i.taps else l) links

/-- `computeAndApplyCIR`; without an answer a request has failed, or the answer
is not of the right form. -/
def computeAndApplyCir (T : TapSettings D G K) (sceneId : String)
    (s : Registry R) (answer : Option (CirResponse D G))
    (links : ExtendedLinks R K) : ExtendedLinks R K :=
  if sceneId.isEmpty || s.tx.map.entries.isEmpty || s.rx.map.entries.isEmpty ||
      links.entries.isEmpty then links
  else
    match answer with
    | none => links
    | some resp =>
        if resp.numPaths = 0 then links
        else (installs T s resp).foldl (fun links i => i.apply links) links

end Response

/-! ## What happens to a link -/

theorem Install.lookup_apply (i : Install K) (links : ExtendedLinks R K)
    (key : ℚ × NodeId × NodeId) :
    (i.apply links).lookup key = (links.lookup key).map fun l =>
      if key.2 = (i.srcId, i.destId) then l.applyCir i.taps else l :=
  FiniteMap.lookup_mapEntries _ _ _

/-- New taps replace the old ones. -/
theorem ExtendedLink.applyCir_applyCir (l : ExtendedLink R K)
    {taps taps' : List K} (htaps : taps.isEmpty = false)
    (htaps' : taps'.isEmpty = false) :
    (l.applyCir taps).applyCir taps' = l.applyCir taps' := by
  simp only [applyCir, LinkState.updateCIR, htaps, htaps', Bool.false_eq_true,
    if_false, LinkState.updateChTaps, AList.insert_insert]

/-- A link is as it was, or has the taps of one of the installations. -/
theorem lookup_foldl_apply {is : List (Install K)}
    (htaps : ∀ i ∈ is, i.taps.isEmpty = false) {links : ExtendedLinks R K}
    {key : ℚ × NodeId × NodeId} {l' : ExtendedLink R K}
    (h : (is.foldl (fun links i => i.apply links) links).lookup key =
      some l') :
    ∃ l, links.lookup key = some l ∧ (l' = l ∨ ∃ i ∈ is,
      key.2 = (i.srcId, i.destId) ∧ l' = l.applyCir i.taps) := by
  induction is generalizing links with
  | nil => exact ⟨l', h, .inl rfl⟩
  | cons i is ih =>
      obtain ⟨l₁, hlookup, hresult⟩ :=
        ih (fun j hj => htaps j (.tail i hj)) h
      rw [i.lookup_apply, Option.map_eq_some_iff] at hlookup
      obtain ⟨l, hl, rfl⟩ := hlookup
      refine ⟨l, hl, ?_⟩
      by_cases hkey : key.2 = (i.srcId, i.destId)
      · rw [if_pos hkey] at hresult
        right
        rcases hresult with rfl | ⟨j, hj, hends, rfl⟩
        · exact ⟨i, List.mem_cons_self, hkey, rfl⟩
        · refine ⟨j, .tail i hj, hends, ?_⟩
          exact l.applyCir_applyCir (htaps i List.mem_cons_self)
            (htaps j (.tail i hj))
      · rw [if_neg hkey] at hresult
        rcases hresult with rfl | ⟨j, hj, hends, rfl⟩
        · exact .inl rfl
        · exact .inr ⟨j, .tail i hj, hends, rfl⟩

/-! ## Where the taps come from -/

section Origin

variable [Zero K] [Add K] {T : TapSettings D G K} {s : Registry R}
  {resp : CirResponse D G} {i : Install K}

theorem of_installOf {rxIdx txIdx : ℕ}
    (h : installOf T s resp rxIdx txIdx = some i) :
    ∃ txName rxName delays gainsRe gainsIm,
      s.tx.order[txIdx]? = some txName ∧ s.rx.order[rxIdx]? = some rxName ∧
      nameToId s.tx.map txName = some i.srcId ∧
      nameToId s.rx.map rxName = some i.destId ∧
      resp.entry rxIdx txIdx = some (delays, gainsRe, gainsIm) ∧
      i.taps.isEmpty = false ∧
      i.taps = cirToTaps T.arithmetic T.fc T.cirMaxTaps delays gainsRe gainsIm
        (T.destSampleRate i.destId) := by
  simp only [installOf, Option.bind_eq_bind, Option.bind_eq_some_iff] at h
  obtain ⟨txName, htx, rxName, hrx, srcId, hsrc, destId, hdest, h⟩ := h
  split_ifs at h
  simp only [Option.bind_eq_some_iff] at h
  obtain ⟨⟨delays, gainsRe, gainsIm⟩, hentry, h⟩ := h
  split_ifs at h with hdelays htaps
  obtain rfl := Option.some.inj h
  exact ⟨txName, rxName, delays, gainsRe, gainsIm, htx, hrx, hsrc, hdest, hentry,
    eq_false_of_ne_true htaps, rfl⟩

theorem exists_of_mem_installs (h : i ∈ installs T s resp) :
    ∃ rxIdx txIdx, installOf T s resp rxIdx txIdx = some i := by
  obtain ⟨rxIdx, -, hrow⟩ := List.mem_flatMap.mp h
  obtain ⟨txIdx, -, hpair⟩ := List.mem_filterMap.mp hrow
  exact ⟨rxIdx, txIdx, hpair⟩

theorem taps_of_mem_installs (h : i ∈ installs T s resp) :
    i.taps.isEmpty = false := by
  obtain ⟨rxIdx, txIdx, hpair⟩ := exists_of_mem_installs h
  obtain ⟨-, -, -, -, -, -, -, -, -, -, htaps, -⟩ := of_installOf hpair
  exact htaps

/-- The taps of a poll that finds the link `src` to `dest`. -/
theorem lookup_computeAndApplyCir {sceneId : String}
    {answer : Option (CirResponse D G)} {links : ExtendedLinks R K}
    {key : ℚ × NodeId × NodeId} {l' : ExtendedLink R K}
    (h : (computeAndApplyCir T sceneId s answer links).lookup key = some l') :
    ∃ l, links.lookup key = some l ∧ (l' = l ∨ ∃ resp, answer = some resp ∧
      sceneId.isEmpty = false ∧ resp.numPaths ≠ 0 ∧
      ∃ i ∈ installs T s resp, key.2 = (i.srcId, i.destId) ∧
        l' = l.applyCir i.taps) := by
  unfold computeAndApplyCir at h
  split_ifs at h with hguard
  · exact ⟨l', h, .inl rfl⟩
  · cases answer with
    | none => exact ⟨l', h, .inl rfl⟩
    | some resp =>
        dsimp only at h
        split_ifs at h with hpaths
        · exact ⟨l', h, .inl rfl⟩
        · have hscene : sceneId.isEmpty = false := by
            simp only [Bool.or_eq_true, not_or, Bool.not_eq_true] at hguard
            exact hguard.1.1.1
          obtain ⟨l, hl, hresult⟩ := lookup_foldl_apply
            (fun i hi => taps_of_mem_installs hi) h
          refine ⟨l, hl, hresult.imp_right ?_⟩
          exact fun hinstalled => ⟨resp, rfl, hscene, hpaths, hinstalled⟩

end Origin

/-! ## Alignment -/

theorem lookup_of_nameToId {map : FiniteMap NodeId String} {name : String}
    {id : NodeId} (h : nameToId map name = some id) :
    map.lookup id = some name := by
  obtain ⟨e, he, rfl⟩ := List.mem_map.mp (List.max?_mem h)
  obtain ⟨hmem, hname⟩ := List.mem_filter.mp he
  obtain rfl := of_decide_eq_true hname
  exact AList.mem_lookup_iff.mpr hmem

/-- The node that the client finds for an index is the one for which the device
at the index was registered. -/
theorem Endpoint.Registered.owner_of_nameToId {e : Endpoint R}
    (h : e.Registered) {idx : ℕ} {name : String} {id : NodeId}
    (horder : e.order[idx]? = some name) (hid : nameToId e.map name = some id) :
    ∃ d, e.devices[idx]? = some d ∧ d.owner = id := by
  rw [h.mirrored, names, List.getElem?_map, Option.map_eq_some_iff] at horder
  obtain ⟨d, hd, hname⟩ := horder
  obtain ⟨d', hd', howner, hname'⟩ :=
    (h.map_iff id name).mp (lookup_of_nameToId hid)
  have hsame := h.eq_of_name (List.mem_of_getElem? hd) hd'
    (hname.trans hname'.symm)
  exact ⟨d, hd, hsame ▸ howner⟩

namespace Registry

variable [Zero K] [Add K]

/-- The entry of a receiver and a transmitter that were registered for the two
ends of a link gives these taps. -/
def TapsOfDevices (T : TapSettings D G K) (s : Registry R)
    (resp : CirResponse D G) (ends : NodeId × NodeId) (taps : List K) : Prop :=
  ∃ txIdx rxIdx tx rx delays gainsRe gainsIm,
    s.tx.devices[txIdx]? = some tx ∧ tx.owner = ends.1 ∧
    s.rx.devices[rxIdx]? = some rx ∧ rx.owner = ends.2 ∧
    resp.entry rxIdx txIdx = some (delays, gainsRe, gainsIm) ∧
    taps = cirToTaps T.arithmetic T.fc T.cirMaxTaps delays gainsRe gainsIm
      (T.destSampleRate ends.2)

/-- The orders are the lists of the server, and whatever it answers, a link is
left alone or gets the taps of its devices. -/
def Aligned (T : TapSettings D G K) (s : Registry R) : Prop :=
  s.Mirrored ∧
  ∀ (sceneId : String) (answer : Option (CirResponse D G))
    (links : ExtendedLinks R K) key l',
    (computeAndApplyCir T sceneId s answer links).lookup key = some l' →
    ∃ l, links.lookup key = some l ∧ (l' = l ∨ ∃ resp taps,
      answer = some resp ∧ TapsOfDevices T s resp key.2 taps ∧
      l' = l.applyCir taps)

theorem Registered.aligned (T : TapSettings D G K) {s : Registry R}
    (h : s.Registered) : s.Aligned T := by
  refine ⟨h.mirrored, ?_⟩
  intro sceneId answer links key l' hlookup
  obtain ⟨l, hl, hresult⟩ := lookup_computeAndApplyCir hlookup
  refine ⟨l, hl, hresult.imp_right ?_⟩
  rintro ⟨resp, hanswer, -, -, i, hi, hkey, rfl⟩
  obtain ⟨rxIdx, txIdx, hpair⟩ := exists_of_mem_installs hi
  obtain ⟨txName, rxName, delays, gainsRe, gainsIm, htxName, hrxName, hsrc, hdest,
    hentry, -, htaps⟩ := of_installOf hpair
  obtain ⟨tx, htx, htxOwner⟩ := h.1.owner_of_nameToId htxName hsrc
  obtain ⟨rx, hrx, hrxOwner⟩ := h.2.owner_of_nameToId hrxName hdest
  refine ⟨resp, i.taps, hanswer, ?_, rfl⟩
  rw [hkey]
  exact ⟨txIdx, rxIdx, tx, rx, delays, gainsRe, gainsIm, htx, htxOwner, hrx,
    hrxOwner, hentry, htaps⟩

/-- The client stays aligned with the server along a run exactly if no
registration of the run is answered with an error status. -/
theorem aligned_iff [BEq R] [Add R] (T : TapSettings D G K) (refAlt : R)
    (vs : List (Visit R)) :
    EveryState (step refAlt) (Aligned T) start vs ↔
      EveryStep (step refAlt) NoErrorStatus start vs := by
  refine everyState_iff_everyStep_of_strong ?_ (fun s hs => hs.aligned T) ?_
    (fun s v h => by cases h) registered_start vs
  · rintro s v t hs hstatus ⟨rfl⟩
    exact hs.visit refAlt hstatus
  · rintro s v t hs ⟨rfl⟩ haligned
    exact (mirrored_visit_iff refAlt hs.mirrored).mp haligned.1

/-- Taps of pairs of integers. -/
def pairTaps : TapSettings ℚ ℤ (ℤ × ℤ) := ⟨.exact, Prod.mk, 64, fun _ => 1⟩

/-- Two nodes have the same name: the server refuses the second one, and the
client counts it. -/
theorem not_aligned_equal_names :
    ¬EveryState (step 112) (Aligned pairTaps) start
      [hovering "1" "drone" .processed .processed,
        hovering "2" "drone" .processed .processed] := by
  intro h
  have hmirrored : ["drone-tx", "drone-tx"] = ["drone-tx"] :=
    ((h.2 _ rfl).2 _ rfl).head.1.1
  exact absurd hmirrored (by decide)

end Registry

end SionnaExtension
end Chem
