import ChemEmulator.Channel.Commands
import ChemEmulator.Pipeline.Samples

/-!
# Pairs of ports in commands and in processing

`CHG_COEFF` and `CHG_CIR` address one pair of ports of a link.  They build the
key `{p_src, p_dest}` for it.  The constructor of `Channel` gets the number of
destination ports first, and `ProcessDestinationSignal` looks a pair up as
`{c_dest, c_src}`.  So a command writes the cell that processing reads for the
pair with both ports exchanged.  A coefficient without a cell is dropped, taps
get a cell of their own, and the reply says only whether the link exists.
-/

namespace Chem

open Dsp

variable {R K : Type}

/-! ## One link -/

namespace LinkState

/-- `createPortCombinations`. -/
def createPortCombinations [One R] (txNumCh rxNumCh : ℕ) :
    FiniteMap (ℕ × ℕ) R :=
  (List.range txNumCh).foldl
    (fun coeffs c0 => (List.range rxNumCh).foldl
      (fun coeffs c1 => FiniteMap.insertIfMissing (c0, c1) 1 coeffs) coeffs)
    ∅

theorem mem_createPortCombinations [One R] {txNumCh rxNumCh : ℕ}
    {p : ℕ × ℕ} :
    p ∈ (createPortCombinations txNumCh rxNumCh : FiniteMap (ℕ × ℕ) R) ↔
      p.1 < txNumCh ∧ p.2 < rxNumCh := by
  have hrow : ∀ (coeffs : FiniteMap (ℕ × ℕ) R) (c0 : ℕ) (k : ℕ × ℕ),
      k ∈ (List.range rxNumCh).foldl (fun coeffs c1 =>
        FiniteMap.insertIfMissing (c0, c1) 1 coeffs) coeffs ↔
          k ∈ coeffs ∨ (k.1 = c0 ∧ k.2 < rxNumCh) := by
    intro coeffs c0 k
    have hcell : ∀ (m : FiniteMap (ℕ × ℕ) R) (c1 : ℕ) (k : ℕ × ℕ),
        k ∈ FiniteMap.insertIfMissing (c0, c1) 1 m ↔ k ∈ m ∨ k = (c0, c1) :=
      fun _ _ _ => FiniteMap.mem_insertIfMissing
    rw [FiniteMap.mem_foldl hcell]
    apply or_congr_right
    constructor
    · rintro ⟨c1, hc1, rfl⟩
      exact ⟨rfl, List.mem_range.mp hc1⟩
    · rintro ⟨hfst, hsnd⟩
      exact ⟨k.2, List.mem_range.mpr hsnd, Prod.ext hfst rfl⟩
  unfold createPortCombinations
  rw [FiniteMap.mem_foldl hrow, or_iff_right (by simp)]
  constructor
  · rintro ⟨c0, hc0, hfst, hsnd⟩
    exact ⟨hfst ▸ List.mem_range.mp hc0, hsnd⟩
  · rintro ⟨hfst, hsnd⟩
    exact ⟨p.1, List.mem_range.mpr hfst, rfl, hsnd⟩

/-- `updateChCoeff`. -/
def updateChCoeff (link : LinkState R K) (ch : ℕ × ℕ) (val : R) :
    LinkState R K :=
  if ch ∈ link.portChCoeffs then
    { link with portChCoeffs := link.portChCoeffs.insert ch val }
  else link

/-- `updateChTaps`. -/
def updateChTaps (link : LinkState R K) (ch : ℕ × ℕ) (taps : List K) :
    LinkState R K :=
  { link with chTaps := link.chTaps.insert ch taps }

/-- `clearChTaps`. -/
def clearChTaps (link : LinkState R K) (ch : ℕ × ℕ) : LinkState R K :=
  { link with chTaps := link.chTaps.erase ch }

/-- `updateCIR`, for a link that exists. -/
def updateCIR (link : LinkState R K) (ch : ℕ × ℕ) (taps : List K) :
    LinkState R K :=
  if taps.isEmpty then link.clearChTaps ch else link.updateChTaps ch taps

/-- The coefficient that is applied from a source port to a destination
port. -/
def appliedCoeff [Zero R] (link : LinkState R K) (cSrc cDest : ℕ) : R :=
  link.getChCoeffs cDest cSrc

/-- The taps that are applied from a source port to a destination port. -/
def appliedTaps (link : LinkState R K) (cSrc cDest : ℕ) : List K :=
  (link.chTaps.lookup (cDest, cSrc)).getD []

/-- `ProcessDestinationSignal` applies them. -/
theorem applied_eq [Zero R] (j : Pipeline.Job R K) (cDest cSrc : ℕ) :
    j.coeff cDest cSrc = j.link.appliedCoeff cSrc cDest ∧
      j.link.tapsOf (j.params cDest cSrc) = j.link.appliedTaps cSrc cDest :=
  ⟨rfl, rfl⟩

theorem mem_updateChCoeff (link : LinkState R K) (ch : ℕ × ℕ) (val : R)
    (p : ℕ × ℕ) :
    p ∈ (link.updateChCoeff ch val).portChCoeffs ↔ p ∈ link.portChCoeffs := by
  unfold updateChCoeff
  split_ifs with hmem
  · rw [AList.mem_insert]
    constructor
    · rintro (rfl | hp)
      · exact hmem
      · exact hp
    · exact Or.inr
  · rfl

theorem portChCoeffs_updateCIR (link : LinkState R K) (ch : ℕ × ℕ)
    (taps : List K) :
    (link.updateCIR ch taps).portChCoeffs = link.portChCoeffs := by
  unfold updateCIR
  split_ifs
  · rfl
  · rfl

theorem appliedCoeff_updateChCoeff [Zero R] (link : LinkState R K)
    (ch : ℕ × ℕ) (val : R) {cSrc cDest : ℕ}
    (hmem : (cDest, cSrc) ∈ link.portChCoeffs) :
    (link.updateChCoeff ch val).appliedCoeff cSrc cDest =
      if cDest = ch.1 ∧ cSrc = ch.2 then val
      else link.appliedCoeff cSrc cDest := by
  unfold appliedCoeff getChCoeffs updateChCoeff
  by_cases hpair : cDest = ch.1 ∧ cSrc = ch.2
  · have hch : ch = (cDest, cSrc) := Prod.ext hpair.1.symm hpair.2.symm
    rw [if_pos hpair, hch, if_pos hmem, AList.lookup_insert]
    rfl
  · have hne : (cDest, cSrc) ≠ ch := fun h => hpair (Prod.ext_iff.mp h)
    rw [if_neg hpair]
    split_ifs
    · rw [AList.lookup_insert_ne hne]
    · rfl

theorem appliedTaps_updateCIR (link : LinkState R K) (ch : ℕ × ℕ)
    (taps : List K) (cSrc cDest : ℕ) :
    (link.updateCIR ch taps).appliedTaps cSrc cDest =
      if cDest = ch.1 ∧ cSrc = ch.2 then taps
      else link.appliedTaps cSrc cDest := by
  unfold appliedTaps updateCIR updateChTaps clearChTaps
  by_cases hpair : cDest = ch.1 ∧ cSrc = ch.2
  · have hch : ch = (cDest, cSrc) := Prod.ext hpair.1.symm hpair.2.symm
    rw [if_pos hpair, hch]
    split_ifs with hempty
    · rw [AList.lookup_erase, List.isEmpty_iff.mp hempty]
      rfl
    · rw [AList.lookup_insert]
      rfl
  · have hne : (cDest, cSrc) ≠ ch := fun h => hpair (Prod.ext_iff.mp h)
    rw [if_neg hpair]
    split_ifs
    · rw [AList.lookup_erase_ne hne]
    · rw [AList.lookup_insert_ne hne]

end LinkState

/-! ## Exchanged ports -/

/-- A value is set for one pair of ports, which exists, and for no other
pair. -/
structure SetsOnly {α : Type} (before after : ℕ → ℕ → α)
    (srcCount destCount pSrc pDest : ℕ) (val : α) : Prop where
  src_lt : pSrc < srcCount
  dest_lt : pDest < destCount
  target : after pSrc pDest = val
  others : ∀ cSrc cDest, cSrc < srcCount → cDest < destCount →
    ¬(cSrc = pSrc ∧ cDest = pDest) → after cSrc cDest = before cSrc cDest

/-- The pair exists, and exchanging its ports makes no difference: they have
one number, or neither the pair nor the exchanged one would change. -/
structure Straight {α : Type} (before : ℕ → ℕ → α)
    (srcCount destCount pSrc pDest : ℕ) (val : α) : Prop where
  src_lt : pSrc < srcCount
  dest_lt : pDest < destCount
  unmoved : pSrc = pDest ∨ (before pSrc pDest = val ∧
    (pDest < srcCount → pSrc < destCount → before pDest pSrc = val))

/-- A write to the exchanged pair. -/
theorem setsOnly_iff_straight {α : Type} {before after : ℕ → ℕ → α}
    {srcCount destCount pSrc pDest : ℕ} {val : α}
    (hafter : ∀ cSrc cDest, cSrc < srcCount → cDest < destCount →
      after cSrc cDest =
        if cDest = pSrc ∧ cSrc = pDest then val else before cSrc cDest) :
    SetsOnly before after srcCount destCount pSrc pDest val ↔
      Straight before srcCount destCount pSrc pDest val := by
  constructor
  · rintro ⟨hsrc, hdest, htarget, hothers⟩
    refine ⟨hsrc, hdest, ?_⟩
    by_cases hsame : pSrc = pDest
    · exact Or.inl hsame
    · refine Or.inr ⟨?_, ?_⟩
      · have hkept := hafter pSrc pDest hsrc hdest
        rw [if_neg fun h => hsame h.2] at hkept
        exact hkept.symm.trans htarget
      · intro hsrc' hdest'
        have hwritten := hafter pDest pSrc hsrc' hdest'
        rw [if_pos ⟨rfl, rfl⟩] at hwritten
        rw [← hwritten]
        exact (hothers pDest pSrc hsrc' hdest' fun h => hsame h.2).symm
  · rintro ⟨hsrc, hdest, hunmoved⟩
    rcases hunmoved with rfl | ⟨hbefore, hexchanged⟩
    · refine ⟨hsrc, hdest, ?_, ?_⟩
      · rw [hafter _ _ hsrc hdest, if_pos ⟨rfl, rfl⟩]
      · intro cSrc cDest hcs hcd hne
        rw [hafter _ _ hcs hcd, if_neg fun h => hne h.symm]
    · refine ⟨hsrc, hdest, ?_, ?_⟩
      · rw [hafter _ _ hsrc hdest, hbefore, ite_self]
      · intro cSrc cDest hcs hcd _
        rw [hafter _ _ hcs hcd]
        split_ifs with hpair
        · rw [hpair.1, hpair.2]
          exact (hexchanged (hpair.2 ▸ hcs) (hpair.1 ▸ hcd)).symm
        · rfl

namespace Coordinator

/-- `double` to `float`, and two of them to a sample. -/
structure Conversions (R K : Type) where
  coeff : ℚ → R
  tap : ℚ × ℚ → K

/-- The controller and the coefficients and taps of its links.  A link has a
cell for every pair of ports that its constructor has counted; the first count
is that of the destination. -/
structure PortState (R K : Type) where
  controller : Controller
  links : ℚ → NodeId × NodeId → LinkState R K
  sized : ∀ freq I ends ch, controller.intermediateMap.lookup freq = some I →
    I.channelMap.lookup ends = some ch →
    ∀ p : ℕ × ℕ, p ∈ (links freq ends).portChCoeffs ↔
      p.1 < ch.txNumCh.toNat ∧ p.2 < ch.rxNumCh.toNat

namespace PortState

/-- The key of a link in the channel map. -/
def endsOf (S : PortState R K) (link : LinkName) : NodeId × NodeId :=
  (resolveNodeId S.controller link.src, resolveNodeId S.controller link.dest)

/-- `getChannel`. -/
def getChannel (S : PortState R K) (link : LinkName) : Option Channel :=
  (S.controller.intermediateMap.lookup link.freq).bind fun I =>
    I.channelMap.lookup (S.endsOf link)

/-- The members of the link that processing reads. -/
def state (S : PortState R K) (link : LinkName) : LinkState R K :=
  S.links link.freq (S.endsOf link)

/-- A change of one link that adds and removes no coefficients. -/
def update (S : PortState R K) (link : LinkName)
    (f : LinkState R K → LinkState R K)
    (hf : ∀ l p, p ∈ (f l).portChCoeffs ↔ p ∈ l.portChCoeffs) :
    PortState R K where
  controller := S.controller
  links freq ends :=
    if freq = link.freq ∧ ends = S.endsOf link then f (S.links freq ends)
    else S.links freq ends
  sized := by
    intro freq I ends ch hI hch p
    split_ifs
    · exact (hf _ p).trans (S.sized freq I ends ch hI hch p)
    · exact S.sized freq I ends ch hI hch p

theorem state_update (S : PortState R K) (link : LinkName)
    (f : LinkState R K → LinkState R K)
    (hf : ∀ l p, p ∈ (f l).portChCoeffs ↔ p ∈ l.portChCoeffs) :
    (S.update link f hf).state link = f (S.state link) :=
  if_pos ⟨rfl, rfl⟩

theorem mem_portChCoeffs {S : PortState R K} {link : LinkName} {ch : Channel}
    (h : S.getChannel link = some ch) (p : ℕ × ℕ) :
    p ∈ (S.state link).portChCoeffs ↔
      p.1 < ch.txNumCh.toNat ∧ p.2 < ch.rxNumCh.toNat := by
  obtain ⟨I, hI, hch⟩ := Option.bind_eq_some_iff.mp h
  exact S.sized _ I _ ch hI hch p

/-- `setChCoeff`. -/
def setChCoeff (V : Conversions R K) (S : PortState R K) (link : LinkName)
    (ch : ChId) (coeff : ℚ) : Reply × PortState R K :=
  match S.getChannel link with
  | none => (.result false, S)
  | some _ => (.result true, S.update link
      (·.updateChCoeff (ch.src, ch.dest) (V.coeff coeff))
      fun l => l.mem_updateChCoeff _ _)

/-- `setCIR`. -/
def setCIR (V : Conversions R K) (S : PortState R K) (link : LinkName)
    (ch : ChId) (taps : List (ℚ × ℚ)) : Reply × PortState R K :=
  match S.getChannel link with
  | none => (.result false, S)
  | some _ => (.result true, S.update link
      (·.updateCIR (ch.src, ch.dest) (taps.map V.tap))
      fun l p => by rw [l.portChCoeffs_updateCIR])

/-- The replies are those of the command handler. -/
theorem reply_eq (V : Conversions R K) (S : PortState R K) (o : Outside)
    (E : Emulator) (hE : E.controller = S.controller) (link : LinkName)
    (ch : ChId) (coeff : ℚ) (taps : List (ℚ × ℚ)) :
    (execute o E (.chgCoeff link ch coeff)).map Prod.fst =
        some (S.setChCoeff V link ch coeff).1 ∧
      (execute o E (.chgCir link ch taps)).map Prod.fst =
        some (S.setCIR V link ch taps).1 := by
  have hexists : linkExists E.controller link =
      (S.getChannel link).isSome := by
    unfold linkExists linkEnds getChannel endsOf
    rw [hE]
    cases S.controller.intermediateMap.lookup link.freq with
    | none => rfl
    | some I =>
        rw [Option.any_some, Option.bind_some, Bool.eq_iff_iff,
          decide_eq_true_iff, AList.lookup_isSome]
  have hcoeff : (Coordinator.setChCoeff E.controller link ch coeff).1 =
      .result (S.getChannel link).isSome := congrArg Reply.result hexists
  have hcir : (Coordinator.setCIR E.controller link ch taps).1 =
      .result (S.getChannel link).isSome := congrArg Reply.result hexists
  simp only [execute, onController, Option.map_some, hcoeff, hcir]
  unfold setChCoeff setCIR
  cases S.getChannel link with
  | none => exact ⟨rfl, rfl⟩
  | some _ => exact ⟨rfl, rfl⟩

theorem replies_true_iff (V : Conversions R K) (S : PortState R K)
    (link : LinkName) (ch : ChId) :
    (∀ coeff, (S.setChCoeff V link ch coeff).1 = .result true ↔
      (S.getChannel link).isSome) ∧
    ∀ taps, (S.setCIR V link ch taps).1 = .result true ↔
      (S.getChannel link).isSome := by
  unfold setChCoeff setCIR
  cases S.getChannel link with
  | none => simp
  | some c => simp

/-- A command that replies `true` sets the coefficient of the addressed pair and
of no other one. -/
def CoeffAddressed [Zero R] (V : Conversions R K) (S : PortState R K)
    (link : LinkName) (ch : ChId) (coeff : ℚ) : Prop :=
  (S.setChCoeff V link ch coeff).1 = .result true →
    ∃ c, S.getChannel link = some c ∧
      SetsOnly (S.state link).appliedCoeff
        ((S.setChCoeff V link ch coeff).2.state link).appliedCoeff
        c.rxNumCh.toNat c.txNumCh.toNat ch.src ch.dest (V.coeff coeff)

/-- The same for the taps. -/
def CirAddressed (V : Conversions R K) (S : PortState R K) (link : LinkName)
    (ch : ChId) (taps : List (ℚ × ℚ)) : Prop :=
  (S.setCIR V link ch taps).1 = .result true →
    ∃ c, S.getChannel link = some c ∧
      SetsOnly (S.state link).appliedTaps
        ((S.setCIR V link ch taps).2.state link).appliedTaps
        c.rxNumCh.toNat c.txNumCh.toNat ch.src ch.dest (taps.map V.tap)

theorem imp_exists_iff_forall {α : Type} {o : Option α} {A : Prop}
    {P : α → Prop} (hA : A ↔ o.isSome) :
    (A → ∃ c, o = some c ∧ P c) ↔ ∀ c, o = some c → P c := by
  rw [hA]
  cases o with
  | none => simp
  | some c => simp

/-- Both commands do what they report exactly if the ports exist and may be
exchanged. -/
theorem addressed_iff_straight [Zero R] (V : Conversions R K)
    (S : PortState R K) (link : LinkName) (ch : ChId) :
    (∀ coeff, CoeffAddressed V S link ch coeff ↔
      ∀ c, S.getChannel link = some c →
        Straight (S.state link).appliedCoeff c.rxNumCh.toNat c.txNumCh.toNat
          ch.src ch.dest (V.coeff coeff)) ∧
    ∀ taps, CirAddressed V S link ch taps ↔
      ∀ c, S.getChannel link = some c →
        Straight (S.state link).appliedTaps c.rxNumCh.toNat c.txNumCh.toNat
          ch.src ch.dest (taps.map V.tap) := by
  constructor
  · intro coeff
    refine (imp_exists_iff_forall ((S.replies_true_iff V link ch).1
      coeff)).trans (forall₂_congr fun c hc => setsOnly_iff_straight ?_)
    intro cSrc cDest hsrc hdest
    have hmem := (mem_portChCoeffs hc (cDest, cSrc)).mpr ⟨hdest, hsrc⟩
    unfold setChCoeff
    rw [hc]
    dsimp only
    rw [state_update]
    exact (S.state link).appliedCoeff_updateChCoeff _ _ hmem
  · intro taps
    refine (imp_exists_iff_forall ((S.replies_true_iff V link ch).2
      taps)).trans (forall₂_congr fun c hc => setsOnly_iff_straight ?_)
    intro cSrc cDest _ _
    unfold setCIR
    rw [hc]
    dsimp only
    rw [state_update]
    exact (S.state link).appliedTaps_updateCIR _ _ _ _

/-! ## Two ports on each side -/

/-- One link from `a` to `b`. -/
def linkedIntermediate (destNumCh srcNumCh : UInt8) : Intermediate :=
  { Intermediate.create 1000000 with
    channelMap := AList.singleton ("a", "b")
      (Channel.create "a" "b" destNumCh srcNumCh) }

/-- A controller with that link alone; every pair of ports has the coefficient
1 and no taps. -/
def linkedPorts (destNumCh srcNumCh : UInt8) :
    PortState ℚ Pipeline.ExactSample where
  controller :=
    { Controller.create false none with
      intermediateMap :=
        AList.singleton 1000000 (linkedIntermediate destNumCh srcNumCh) }
  links _ _ := Pipeline.plainLink
    (LinkState.createPortCombinations destNumCh.toNat srcNumCh.toNat)
  sized := by
    intro freq I ends ch hI hch p
    rw [← Option.mem_def, AList.mem_lookup_iff] at hI
    obtain ⟨-, rfl⟩ : freq = 1000000 ∧
        I = linkedIntermediate destNumCh srcNumCh := by
      simpa using hI
    rw [← Option.mem_def, AList.mem_lookup_iff] at hch
    obtain ⟨-, rfl⟩ : ends = ("a", "b") ∧
        ch = Channel.create "a" "b" destNumCh srcNumCh := by
      simpa [linkedIntermediate] using hch
    exact LinkState.mem_createPortCombinations

/-- Nothing is rounded. -/
def exactConversions : Conversions ℚ Pipeline.ExactSample :=
  ⟨id, fun t => ⟨t.1, t.2⟩⟩

/-- The pair from port 0 to port 1: both commands report `true` and change the
pair from port 1 to port 0. -/
theorem commands_exchange_ports :
    ((linkedPorts 2 2).setChCoeff exactConversions ⟨1000000, "a", "b"⟩ ⟨0, 1⟩
        (1 / 2)).1 = .result true ∧
      ¬CoeffAddressed exactConversions (linkedPorts 2 2) ⟨1000000, "a", "b"⟩
        ⟨0, 1⟩ (1 / 2) ∧
      ¬CirAddressed exactConversions (linkedPorts 2 2) ⟨1000000, "a", "b"⟩
        ⟨0, 1⟩ [(1, 0)] := by
  have hcoeff : (((linkedPorts 2 2).setChCoeff exactConversions
      ⟨1000000, "a", "b"⟩ ⟨0, 1⟩ (1 / 2)).2.state
        ⟨1000000, "a", "b"⟩).appliedCoeff 0 1 = 1 := by decide +kernel
  have htaps : (((linkedPorts 2 2).setCIR exactConversions
      ⟨1000000, "a", "b"⟩ ⟨0, 1⟩ [(1, 0)]).2.state
        ⟨1000000, "a", "b"⟩).appliedTaps 0 1 = [] := by decide +kernel
  refine ⟨by decide +kernel, ?_, ?_⟩
  · intro h
    obtain ⟨c, -, hsets⟩ := h (by decide +kernel)
    have htarget := hsets.target
    rw [hcoeff] at htarget
    revert htarget
    decide +kernel
  · intro h
    obtain ⟨c, -, hsets⟩ := h (by decide +kernel)
    have htarget := hsets.target
    rw [htaps] at htarget
    cases htarget

end PortState
end Coordinator
end Chem
