import ChemEmulator.Net.StreamRoundTrip

/-!
# A complete burst behind arbitrary datagrams

A first fragment that arrives while the receiver is assembling is not taken as
the beginning of a burst: its number is not the next one, so the assembly is
reset and the fragment is dropped, and without it the rest of the burst is
dropped as well.  A burst is also lost when the batch in which it begins has
already completed another burst, because the call returns and forgets the rest
of the batch.  And no burst is returned by a call that has copied beyond its
buffer, which happens when a burst announces more than `IQ_SIZE` bytes.
`ClearAt` and the size of the burst exclude exactly these cases.
-/

namespace Chem
namespace UDPServer

open ByteMemory EarlyExit UDPClient Transmission

/-! ## The datagrams that a call processes -/

theorem batchSteps_append_next {s s' : RecvState} {ds : List Datagram}
    (h : runLoop processPacket s ds = .next s') (es : List Datagram) :
    batchSteps s (ds ++ es) = batchSteps s ds ++ batchSteps s' es := by
  induction ds generalizing s with
  | nil =>
      cases h
      rfl
  | cons d ds ih =>
      cases hstep : processPacket s d with
      | next u =>
          rw [runLoop_cons_next ds hstep] at h
          simp only [List.cons_append, batchSteps, hstep, ih h]
      | stop u =>
          rw [runLoop_cons_stop ds hstep] at h
          cases h

theorem batchSteps_append_stop {s s' : RecvState} {ds : List Datagram}
    (h : runLoop processPacket s ds = .stop s') (es : List Datagram) :
    batchSteps s (ds ++ es) = batchSteps s ds := by
  induction ds generalizing s with
  | nil => cases h
  | cons d ds ih =>
      cases hstep : processPacket s d with
      | next u =>
          rw [runLoop_cons_next ds hstep] at h
          simp only [List.cons_append, batchSteps, hstep, ih h]
      | stop u => simp only [List.cons_append, batchSteps, hstep]

theorem batchSteps_next {s s' : RecvState} {ds : List Datagram}
    (h : runLoop processPacket s ds = .next s') :
    (batchSteps s ds).map Prod.snd = ds := by
  induction ds generalizing s with
  | nil => rfl
  | cons d ds ih =>
      cases hstep : processPacket s d with
      | next u =>
          rw [runLoop_cons_next ds hstep] at h
          simp only [batchSteps, hstep, List.map_cons, ih h]
      | stop u =>
          rw [runLoop_cons_stop ds hstep] at h
          cases h

theorem length_batchSteps_le (s : RecvState) (ds : List Datagram) :
    (batchSteps s ds).length ≤ ds.length := by
  induction ds generalizing s with
  | nil => exact Nat.le_refl _
  | cons d ds ih =>
      simp only [batchSteps, List.length_cons]
      refine Nat.succ_le_succ ?_
      split
      · exact ih _
      · exact Nat.zero_le _

theorem length_callSteps_le (s : RecvState) (os : List SocketOutcome) :
    (callSteps s os).length ≤ (arrivals os).length := by
  induction os generalizing s with
  | nil => exact Nat.le_refl _
  | cons o os ih =>
      cases o with
      | closed => exact Nat.zero_le _
      | failed => exact Nat.zero_le _
      | wouldBlock =>
          rw [callSteps, arrivals_wouldBlock]
          split
          · exact Nat.zero_le _
          · exact ih s
      | packets ds =>
          have hbatch := length_batchSteps_le s ds
          rw [callSteps, arrivals_packets, List.length_append,
            List.length_append]
          split
          next s' _ => exact Nat.add_le_add hbatch (ih _)
          next s' _ =>
            exact Nat.add_le_add hbatch (Nat.zero_le _)

theorem callSteps_append_waiting {s t : RecvState} {os : List SocketOutcome}
    (os' : List SocketOutcome) (h : (recvLoop s os).1 = .waiting t) :
    (callSteps s (os ++ os')).map Prod.snd =
      arrivals os ++ (callSteps t os').map Prod.snd := by
  induction os generalizing s with
  | nil =>
      cases h
      rfl
  | cons o os ih =>
      cases o with
      | closed => cases h
      | failed => cases h
      | wouldBlock =>
          rw [recvLoop] at h
          split at h
          · cases h
          next hidle =>
            rw [List.cons_append, callSteps, if_neg hidle, arrivals_wouldBlock]
            exact ih h
      | packets ds =>
          rw [recvLoop] at h
          rw [List.cons_append, callSteps, arrivals_packets]
          cases hbatch : runLoop processPacket s ds with
          | stop u =>
              rw [hbatch] at h
              cases h
          | next u =>
              rw [hbatch] at h
              rw [List.map_append, batchSteps_next hbatch, List.append_assoc]
              exact congrArg _ (ih h)

/-! ## A batch in two parts -/

theorem recvLoop_packets_append {s s' : RecvState} {p : List Datagram}
    (h : runLoop processPacket s p = .next s') (q : List Datagram)
    (os : List SocketOutcome) :
    recvLoop s (.packets (p ++ q) :: os) = recvLoop s' (.packets q :: os) := by
  rw [recvLoop, recvLoop, runLoop_append_next q h]

theorem callSteps_packets_append {s s' : RecvState} {p : List Datagram}
    (h : runLoop processPacket s p = .next s') (q : List Datagram)
    (os : List SocketOutcome) :
    (callSteps s (.packets (p ++ q) :: os)).map Prod.snd =
      p ++ (callSteps s' (.packets q :: os)).map Prod.snd := by
  rw [callSteps, callSteps, runLoop_append_next q h, batchSteps_append_next h,
    List.append_assoc, List.map_append, batchSteps_next h]

/-! ## A burst that is taken -/

section OneBurst

variable {t : Transmission} (ht : t.Complete)
include ht

omit ht in
theorem Received.adjust {k : ℕ} {s : RecvState} (h : Received t k s) :
    Received t k (adjustBatchSize s) := by
  cases k with
  | zero =>
      have hidle : s.isAssembling = false := h
      change (adjustBatchSize s).isAssembling = false
      rw [adjustBatchSize_eq]
      exact hidle
  | succ k => exact Holding.adjust h

theorem batchSteps_fragments_last {k n : ℕ} {s : RecvState}
    (h : Received t k s) (hn : k + (n + 1) = t.totalFrags)
    (trail : List Datagram) :
    (batchSteps s (t.fragments k (n + 1) ++ trail)).map Prod.snd =
      t.fragments k (n + 1) := by
  obtain ⟨u, hrun, hu⟩ := runLoop_fragments ht h (n := n) (by omega)
  obtain ⟨s', hstep, _⟩ := received_last ht hu (by omega)
  rw [fragments_add, List.append_assoc, batchSteps_append_next hrun,
    List.map_append, batchSteps_next hrun]
  simp only [fragments_succ, List.cons_append, batchSteps, hstep]
  rfl

/-- However the rest of a burst is grouped, the call takes it and returns. -/
theorem recvLoop_groups {k : ℕ} {s : RecvState} {gs : List (List Datagram)}
    {trail : List Datagram} (hs : Received t k s) (hk : k < t.totalFrags)
    (hflat : gs.flatten = t.fragments k (t.totalFrags - k) ++ trail)
    (more : List SocketOutcome) :
    ∃ s' rest, recvLoop s (gs.map .packets ++ more) = (.complete s', rest) ∧
      Holding t t.totalFrags s' ∧
      (callSteps s (gs.map .packets ++ more)).map Prod.snd =
        t.fragments k (t.totalFrags - k) := by
  induction gs generalizing k s with
  | nil => exact absurd hflat.symm (fragments_append_ne_nil hk trail)
  | cons g gs ih =>
      rw [List.flatten_cons] at hflat
      rw [List.map_cons, List.cons_append, recvLoop, callSteps]
      by_cases hlen : g.length < t.totalFrags - k
      · obtain ⟨m, hm⟩ := Nat.exists_eq_add_of_lt hlen
        have hparts : t.totalFrags - k = g.length + (m + 1) := by omega
        rw [hparts, fragments_add, List.append_assoc] at hflat
        obtain ⟨hg, htail⟩ := List.append_inj hflat (by simp)
        obtain ⟨u, hrun, hu⟩ := runLoop_fragments ht hs
          (n := g.length) (by omega)
        rw [← hg] at hrun
        have hleft : t.totalFrags - (k + g.length) = m + 1 := by omega
        obtain ⟨s', rest, hloop, hs', hsteps⟩ :=
          ih hu.adjust (by omega) (by rw [hleft]; exact htail)
        rw [hrun]
        refine ⟨s', rest, hloop, hs', ?_⟩
        simp only []
        rw [List.map_append, batchSteps_next hrun, hsteps, hparts, hleft,
          fragments_add t k g.length, ← hg]
      · -- The batch reaches the end of the burst.
        obtain ⟨n, hn⟩ := Nat.exists_eq_succ_of_ne_zero
          (n := t.totalFrags - k) (by omega)
        rw [hn] at hflat hlen ⊢
        obtain ⟨trail', hg⟩ := List.prefix_of_prefix_length_le
          (List.prefix_append _ _) (hflat ▸ List.prefix_append _ _)
          (by rw [length_fragments]; omega)
        obtain ⟨s', hrun, hs'⟩ := runLoop_fragments_last ht hs
          (n := n) (by omega) trail'
        rw [← hg, hrun]
        refine ⟨s', _, rfl, hs', ?_⟩
        simp only [List.append_nil]
        exact batchSteps_fragments_last ht hs (by omega) trail'

/-! ## A burst that is lost -/

omit ht in
/-- The receiver will not take the burst from datagram `k` on: the first one
meets an assembly, the others an idle receiver. -/
def Missed (k : ℕ) (s : RecvState) : Prop :=
  if k = 0 then s.isAssembling = true ∧ s.lastSeqNo < 2 ^ 16
  else s.isAssembling = false

theorem missed_step {k : ℕ} {s : RecvState} (h : Missed k s)
    (hk : k < t.totalFrags) :
    ∃ s', processPacket s (t.fragment k) = .next s' ∧ Missed (k + 1) s' := by
  have hlen := ht.udpHeaderSize_le hk
  rw [processPacket, if_neg (Nat.not_lt.mpr hlen), checkSequence]
  by_cases hzero : k = 0
  · subst hzero
    obtain ⟨hasm, hseq⟩ := h
    rw [if_neg (by rw [hasm]; decide), ht.seqNumber_fragment hk,
      if_pos (by omega)]
    exact ⟨_, rfl, rfl⟩
  · have hidle : s.isAssembling = false := by
      simpa only [Missed, if_neg hzero] using h
    have hstart : (t.fragment k).startFlag = false := by
      rw [Bool.eq_false_iff, ne_eq, ht.startFlag_fragment hk]
      exact hzero
    rw [if_pos hidle, if_pos hstart]
    exact ⟨s, rfl, hidle⟩

theorem runLoop_missed {k n : ℕ} {s : RecvState} (h : Missed k s)
    (hn : k + n ≤ t.totalFrags) :
    ∃ s', runLoop processPacket s (t.fragments k n) = .next s' ∧
      Missed (k + n) s' :=
  runLoop_fragments_of_step (fun _ _ hs hk => missed_step ht hs hk) h hn

omit ht in
theorem Missed.adjust {k : ℕ} {s : RecvState} (h : Missed k s) :
    Missed k (adjustBatchSize s) := by
  rw [adjustBatchSize_eq]
  exact h

/-- A missed burst leaves the call waiting. -/
theorem recvLoop_missed {s : RecvState} (h : Missed 0 s)
    {q q' : List Datagram} (hq : q ++ q' = t.datagrams) :
    ∃ s', (recvLoop s [.packets q, .packets q']).1 = .waiting s' := by
  have hlen := congrArg List.length hq
  rw [ht.datagrams_eq_fragments, List.length_append, length_fragments] at hlen
  rw [ht.datagrams_eq_fragments, ← hlen, fragments_add] at hq
  obtain ⟨hfirst, hsecond⟩ := List.append_inj hq (by simp)
  obtain ⟨u, hrun, hu⟩ := runLoop_missed ht h (n := q.length) (by omega)
  obtain ⟨v, hrun', _⟩ := runLoop_missed ht hu.adjust
    (n := q'.length) (by omega)
  rw [← hfirst] at hrun
  rw [← hsecond] at hrun'
  refine ⟨adjustBatchSize v, ?_⟩
  rw [recvLoop, hrun]
  simp only [recvLoop, hrun']

end OneBurst

/-! ## This or the next call -/

/-- The call returns the burst, which it read behind the datagrams `before`. -/
def ReturnsBurst (t : Transmission) (before : List Datagram)
    (udpPool iqPool : DataArrayPool) (hdr : Header)
    (os : List SocketOutcome) : Prop :=
  (callSteps .initial os).map Prod.snd = before ++ t.datagrams ∧
    ∃ r, recvWithin udpPool iqPool hdr os = some r ∧ Delivers t r

/-- The burst behind `before` is returned by this call or by the next one. -/
def ReturnedByThisOrNext (t : Transmission) (before : List Datagram)
    (udpPool iqPool iqPool' : DataArrayPool) (hdr : Header)
    (os : List SocketOutcome) : Prop :=
  ReturnsBurst t before udpPool iqPool hdr os ∨
    ∃ r, recvWithin udpPool iqPool hdr os = some r ∧
      ReturnsBurst t [] r.udpPool iqPool' hdr r.rest

/-- The way is clear for a burst that begins behind `p`, of which `q` is read
in the same batch: either no burst is in assembly there, or the call has
already returned and nothing of the burst was in that batch.  In both cases
all that was copied is in the buffer. -/
def ClearAt (s : RecvState) (p q : List Datagram) : Prop :=
  match runLoop processPacket s p with
  | .next s' => s'.isAssembling = false ∧ s'.Within
  | .stop s' => q = [] ∧ s'.Within

theorem recv_of_waiting {udpPool iqPool : DataArrayPool} (hdr : Header)
    {os : List SocketOutcome} {s : RecvState}
    (h : batchSize ≤ udpPool.available) (hiq : 0 < iqPool.available)
    (hloop : (recvLoop .initial os).1 = .waiting s) :
    (recv udpPool iqPool hdr os).outcome = .waiting s ∧
      (recv udpPool iqPool hdr os).rest = [] := by
  obtain ⟨item, left, hitem⟩ := DataArrayPool.acquire_of_pos hiq
  have hrest := recvLoop_waiting_rest hloop
  rw [recv, acquirePackets_of_le [] h]
  simp only [hitem]
  rcases hend : recvLoop .initial os with ⟨loopEnd, rest⟩
  rw [hend] at hloop hrest
  cases hloop
  exact ⟨rfl, hrest⟩

theorem opensWithin_of_fragments {t : Transmission} (ht : t.Complete)
    (hsize : t.sig.getSize ≤ iqSize) {steps : List (RecvState × Datagram)}
    (h : steps.map Prod.snd = t.fragments 0 t.totalFrags) :
    ∀ x ∈ steps, OpensWithin x := by
  intro x hx _ hopens
  have hmem : x.2 ∈ t.fragments 0 t.totalFrags := h ▸ List.mem_map_of_mem hx
  obtain ⟨k, hk, hfragment⟩ := List.mem_map.mp hmem
  have hlt : k < t.totalFrags := by
    have := (List.mem_range'_1.mp hk).2
    omega
  have hstart : (t.fragment k).startFlag = true := hfragment ▸ hopens.start
  obtain rfl := (ht.startFlag_fragment hlt).mp hstart
  rw [← hfragment, ht.mainHdr_fragment]
  exact ht.getSize_eq ▸ hsize

section ThisOrNext

variable {t : Transmission} (ht : t.Complete) (hdr : Header)
  {udpPool iqPool iqPool' : DataArrayPool}
  (hudp : batchSize ≤ udpPool.available) (hiq : 0 < iqPool.available)
include ht hudp hiq

/-- A call that is idle when the burst begins returns it. -/
theorem returnsBurst_of_idle {os : List SocketOutcome} {s : RecvState}
    {before : List Datagram} {gs : List (List Datagram)}
    {trail : List Datagram} {more : List SocketOutcome}
    (hidle : s.isAssembling = false) (hwithin : s.Within)
    (hsize : t.sig.getSize ≤ iqSize)
    (hloop : recvLoop .initial os = recvLoop s (gs.map .packets ++ more))
    (hsteps : (callSteps .initial os).map Prod.snd = before ++
      (callSteps s (gs.map .packets ++ more)).map Prod.snd)
    (hflat : gs.flatten = t.datagrams ++ trail) :
    ReturnsBurst t before udpPool iqPool hdr os := by
  have hfrags : 4 ≤ t.totalFrags := ht.sufficient.frags
  rw [ht.datagrams_eq_fragments] at hflat
  obtain ⟨s', rest, hburst, hs', hread⟩ := recvLoop_groups ht
    (k := 0) (s := s) hidle (by omega) hflat more
  obtain ⟨_, _, item, hreturned⟩ :=
    recv_of_complete hdr hudp hiq (hloop.trans hburst)
  have hbounded := bounded_call (Bounded.of_idle hidle hwithin)
    (opensWithin_of_fragments ht hsize hread)
  refine ⟨?_, _, recvWithin_of_within ?_,
    ht.delivers hs'.header hs'.run hreturned rfl⟩
  · rw [hsteps, hread, ht.datagrams_eq_fragments]
    rfl
  · rw [hloop]
    exact hbounded.writes

theorem returned_of_clearAt (hiq' : 0 < iqPool'.available)
    {es : List SocketOutcome} {s : RecvState}
    (hwait : (recvLoop .initial es).1 = .waiting s)
    {p q q' : List Datagram} (hq : q ++ q' = t.datagrams)
    (hclear : ClearAt s p q) (hsize : t.sig.getSize ≤ iqSize)
    {gs : List (List Datagram)} {trail : List Datagram}
    (hflat : gs.flatten = q' ++ trail) (more : List SocketOutcome) :
    ReturnedByThisOrNext t (arrivals es ++ p) udpPool iqPool iqPool' hdr
      (es ++ .packets (p ++ q) :: (gs.map .packets ++ more)) := by
  have hloop := recvLoop_append_waiting
    (.packets (p ++ q) :: (gs.map .packets ++ more)) hwait
  have hsteps := callSteps_append_waiting
    (.packets (p ++ q) :: (gs.map .packets ++ more)) hwait
  unfold ClearAt at hclear
  split at hclear
  next s' hrun =>
    left
    obtain ⟨hidle, hwithin⟩ := hclear
    rw [recvLoop_packets_append hrun] at hloop
    rw [callSteps_packets_append hrun, ← List.append_assoc] at hsteps
    have hgroups : SocketOutcome.packets q :: (gs.map .packets ++ more) =
        (q :: gs).map .packets ++ more := rfl
    have hall : (q :: gs).flatten = t.datagrams ++ trail := by
      rw [List.flatten_cons, hflat, ← List.append_assoc, hq]
    rw [hgroups] at hloop hsteps
    exact returnsBurst_of_idle ht hdr hudp hiq hidle hwithin hsize hloop hsteps
      hall
  next s' hrun =>
    right
    obtain ⟨rfl, hwithin⟩ := hclear
    rw [List.append_nil, recvLoop, hrun] at hloop
    rw [List.nil_append] at hq
    rw [List.append_nil] at *
    obtain ⟨hpool, hleft, _⟩ := recv_of_complete hdr hudp hiq hloop
    refine ⟨_, recvWithin_of_within ?_, ?_⟩
    · rw [hloop]
      exact hwithin
    · rw [hleft]
      exact returnsBurst_of_idle ht hdr (hpool ▸ hudp) hiq' rfl
        bounded_initial.writes hsize rfl rfl (hq ▸ hflat)

omit ht in
/-- A call with a result has kept to its buffer. -/
theorem within_of_complete {os rest : List SocketOutcome} {s : RecvState}
    (hloop : recvLoop .initial os = (.complete s, rest)) {r : RecvResult}
    (h : recvWithin udpPool iqPool hdr os = some r) :
    s.Within ∧ s.finalHdr.size.toNat ≤ iqSize := by
  obtain ⟨_, _, item, hreturned⟩ := recv_of_complete hdr hudp hiq hloop
  have hwithin := within_of_recvWithin h (by simp [hreturned])
  rw [hloop] at hwithin
  exact ⟨hwithin, announced_le_of_inBounds hloop hwithin⟩

/-- A call that takes the burst and has a result is one for which the way was
clear. -/
theorem clear_of_taken (gs : List (List Datagram))
    (more : List SocketOutcome) {os : List SocketOutcome} {s : RecvState}
    (hidle : s.isAssembling = false)
    (hloop : recvLoop .initial os = recvLoop s (gs.map .packets ++ more))
    (hflat : gs.flatten = t.datagrams) {r : RecvResult}
    (h : recvWithin udpPool iqPool hdr os = some r) :
    s.Within ∧ t.sig.getSize ≤ iqSize := by
  have hfrags : 4 ≤ t.totalFrags := ht.sufficient.frags
  rw [ht.datagrams_eq_fragments, ← List.append_nil (t.fragments _ _)] at hflat
  obtain ⟨s', rest, hburst, hs', -⟩ := recvLoop_groups ht
    (k := 0) (s := s) hidle (by omega) hflat more
  obtain ⟨hwithin, hsize⟩ :=
    within_of_complete hdr hudp hiq (hloop.trans hburst) h
  rw [hs'.header] at hsize
  refine ⟨within_of_call (gs.map .packets ++ more) ?_,
    ht.getSize_eq ▸ hsize⟩
  rw [hburst]
  exact hwithin

omit hudp hiq in
/-- Too few datagrams for the burst are left. -/
theorem callSteps_ne_datagrams {os : List SocketOutcome}
    (h : (arrivals os).length < t.totalFrags) :
    (callSteps .initial os).map Prod.snd ≠ t.datagrams := by
  intro heq
  have hlen := congrArg List.length heq
  have hle := length_callSteps_le .initial os
  rw [ht.datagrams_eq_fragments, List.length_map, length_fragments] at hlen
  omega

/-- If the way is not clear and nothing else arrives, the burst is lost. -/
theorem not_returned_of_not_clearAt (hiq' : 0 < iqPool'.available)
    {es : List SocketOutcome} {s : RecvState}
    (hwait : (recvLoop .initial es).1 = .waiting s)
    {p q q' : List Datagram} (hq : q ++ q' = t.datagrams)
    (hclear : ¬ (ClearAt s p q ∧ t.sig.getSize ≤ iqSize)) :
    ¬ ReturnedByThisOrNext t (arrivals es ++ p) udpPool iqPool iqPool' hdr
      (es ++ [.packets (p ++ q), .packets q']) := by
  have hfrags : 4 ≤ t.totalFrags := ht.sufficient.frags
  have hlen := congrArg List.length hq
  rw [List.length_append, ht.datagrams_eq_fragments, length_fragments] at hlen
  have hloop := recvLoop_append_waiting [.packets (p ++ q), .packets q'] hwait
  have hsteps := callSteps_append_waiting [.packets (p ++ q), .packets q'] hwait
  rw [ClearAt] at hclear
  cases hrun : runLoop processPacket s p with
  | next s' =>
      rw [recvLoop_packets_append hrun] at hloop
      simp only [hrun] at hclear
      cases hasm : s'.isAssembling with
      | false =>
          -- The call takes the burst, and so it has no result.
          have htaken := fun r => clear_of_taken (r := r) ht hdr hudp hiq
            [q, q'] [] hasm hloop (by simpa using hq)
          rintro (⟨_, r, hr, _⟩ | ⟨r, hr, _⟩) <;>
            exact hclear ⟨⟨hasm, (htaken r hr).1⟩, (htaken r hr).2⟩
      | true =>
          -- The first datagram of the burst meets an assembly.
          have hcounted := recvLoop_waiting countedAfter_batchFree
            countedAfter_step [] countedAfter_initial hwait
          have hseq :=
            (runLoop_next countedAfter_step hcounted hrun hasm).seq_lt
          obtain ⟨u, hu⟩ := recvLoop_missed ht (s := s') ⟨hasm, hseq⟩ hq
          rw [← hloop] at hu
          obtain ⟨houtcome, hrest⟩ := recv_of_waiting hdr hudp hiq hu
          rintro (⟨_, r, hr, buf, hbuf, _⟩ | ⟨r, hr, hnext, _⟩)
          · rw [eq_recv_of_recvWithin hr, houtcome] at hbuf
            cases hbuf
          · refine callSteps_ne_datagrams ht ?_ hnext
            rw [eq_recv_of_recvWithin hr, hrest]
            exact Nat.lt_of_lt_of_le (Nat.zero_lt_succ 3) hfrags
  | stop s' =>
      simp only [hrun] at hclear
      have hstop := runLoop_append_stop q hrun
      rw [recvLoop, hstop] at hloop
      obtain ⟨hpool, hrest, _⟩ := recv_of_complete hdr hudp hiq hloop
      rintro (⟨hthis, -⟩ | ⟨r, hr, hnext, r', hr', -⟩)
      · -- The call has returned before the burst.
        rw [hsteps, callSteps, hstop, batchSteps_append_stop hrun,
          List.append_assoc] at hthis
        have hsame := congrArg List.length (List.append_cancel_left hthis)
        have hbound := length_batchSteps_le s p
        rw [ht.datagrams_eq_fragments] at hsame
        simp only [List.append_nil, List.length_map, List.length_append,
          length_fragments] at hsame
        omega
      · have hwithin := (within_of_complete hdr hudp hiq hloop hr).1
        rw [eq_recv_of_recvWithin hr] at hr' hnext
        rw [hrest] at hr' hnext
        by_cases hnil : q = []
        · -- The next call takes it, and so it has no result.
          subst hnil
          have htaken := clear_of_taken ht hdr (hpool ▸ hudp) hiq' [q'] []
            (s := .initial) rfl rfl (by simpa using hq) hr'
          exact hclear ⟨⟨rfl, hwithin⟩, htaken.2⟩
        · -- A part of the burst is gone with the batch.
          have hpos : 0 < q.length := List.length_pos_iff.mpr hnil
          refine callSteps_ne_datagrams ht ?_ hnext
          simp only [arrivals_packets, arrivals_nil, List.append_nil]
          omega

end ThisOrNext

/-- Behind an arbitrary beginning `es` of a call and the datagrams `p`, a
complete burst that arrives next is returned by this or the next call, in
whatever groups its rest is read and whatever follows, if and only if the way
is clear and the burst fits in a buffer. -/
theorem burst_returned_iff_clearAt {t : Transmission} (ht : t.Complete)
    (hdr : Header) {udpPool iqPool iqPool' : DataArrayPool}
    (hudp : batchSize ≤ udpPool.available) (hiq : 0 < iqPool.available)
    (hiq' : 0 < iqPool'.available) {es : List SocketOutcome} {s : RecvState}
    (hwait : (recvLoop .initial es).1 = .waiting s)
    {p q q' : List Datagram} (hq : q ++ q' = t.datagrams) :
    (∀ (gs : List (List Datagram)) (trail : List Datagram)
        (more : List SocketOutcome), gs.flatten = q' ++ trail →
      ReturnedByThisOrNext t (arrivals es ++ p) udpPool iqPool iqPool' hdr
        (es ++ .packets (p ++ q) :: (gs.map .packets ++ more))) ↔
      ClearAt s p q ∧ t.sig.getSize ≤ iqSize := by
  constructor
  · intro hall
    by_contra hclear
    have hreturned := hall [q'] [] [] (by simp)
    exact not_returned_of_not_clearAt ht hdr hudp hiq hiq' hwait hq hclear
      hreturned
  · rintro ⟨hclear, hsize⟩ gs trail more hflat
    exact returned_of_clearAt ht hdr hudp hiq hiq' hwait hq hclear hsize hflat
      more

/-- Behind an idle timeout and a datagram of three bytes. -/
theorem burst_returned_iff_clearAt_short_datagram :
    (∀ (gs : List (List Datagram)) (trail : List Datagram)
        (more : List SocketOutcome),
      gs.flatten = (plainTransmission 1 37).datagrams.drop 2 ++ trail →
      ReturnedByThisOrNext (plainTransmission 1 37)
        (arrivals [.wouldBlock] ++ [.ofWire [1, 2, 3]]) serverPool
        (.filled 1 iqSize "IQ" false 0) (.filled 1 iqSize "IQ" false 0)
        Header.zero
        ([.wouldBlock] ++ .packets ([.ofWire [1, 2, 3]] ++
          (plainTransmission 1 37).datagrams.take 2) ::
            (gs.map .packets ++ more))) ↔
      ClearAt .initial [.ofWire [1, 2, 3]]
          ((plainTransmission 1 37).datagrams.take 2) ∧
        (plainTransmission 1 37).sig.getSize ≤ iqSize :=
  burst_returned_iff_clearAt plainTransmission_plain_one.complete Header.zero
    (by decide) (by decide) (by decide) rfl (List.take_append_drop _ _)

/-- The first fragment of one burst and then all of another: the second burst
is not returned. -/
theorem burst_lost_behind_unfinished :
    ¬ ReturnedByThisOrNext (plainTransmission 1 37)
      (arrivals [] ++ [(plainTransmission 2 20).fragment 0]) serverPool
      (.filled 1 iqSize "IQ" false 0) (.filled 1 iqSize "IQ" false 0)
      Header.zero
      ([] ++ [.packets ([(plainTransmission 2 20).fragment 0] ++
          (plainTransmission 1 37).datagrams.take 3),
        .packets ((plainTransmission 1 37).datagrams.drop 3)]) := by
  refine not_returned_of_not_clearAt plainTransmission_plain_one.complete
    Header.zero (by decide) (by decide) (by decide) rfl
    (List.take_append_drop _ _) ?_
  obtain ⟨s, hstep, hs⟩ := holding_first plainTransmission_plain_two.complete
    (s := .initial) rfl
  rw [ClearAt, runLoop_cons_next [] hstep]
  simp [hs.assembling]

end UDPServer
end Chem
