import ChemEmulator.Net.StreamRoundTrip

/-!
# Bursts under loss

Fragments carry a sequence number that starts again at zero in every burst,
and nothing that names the burst.  If the tail of one burst and the head of a
later one are lost, the receiver can continue the first with the second.  The
exact trigger is a datagram that is directly followed by the next number of
*another* burst; `Unspliced` excludes it, and then every returned burst is one
of those that were sent.
-/

namespace Chem
namespace UDPServer

open ByteMemory EarlyExit UDPClient Transmission

/-- A datagram under way: number `index` of the burst at position `burst`. -/
structure Sent where
  burst : ℕ
  source : Transmission
  index : ℕ

def Sent.datagram (x : Sent) : Datagram := x.source.fragment x.index

/-- The datagrams of successive calls of `Send`, with their origin. -/
def sentStream (ts : List Transmission) : List Sent :=
  ts.zipIdx.flatMap fun tb =>
    (List.range tb.1.totalFrags).map fun i => ⟨tb.2, tb.1, i⟩

theorem sentStream_datagrams {ts : List Transmission}
    (hts : ∀ t ∈ ts, t.Complete) :
    (sentStream ts).map Sent.datagram = ts.flatMap Transmission.datagrams := by
  have hburst : ∀ tb ∈ ts.zipIdx,
      (((List.range tb.1.totalFrags).map fun i => (⟨tb.2, tb.1, i⟩ : Sent)).map
        Sent.datagram) = tb.1.datagrams := by
    intro tb htb
    have ht := hts tb.1 (List.fst_mem_of_mem_zipIdx htb)
    rw [ht.datagrams_eq, List.map_map]
    rfl
  rw [sentStream, List.map_flatMap]
  calc
    (ts.zipIdx.flatMap fun tb => ((List.range tb.1.totalFrags).map
        fun i => (⟨tb.2, tb.1, i⟩ : Sent)).map Sent.datagram)
        = ts.zipIdx.flatMap fun tb => tb.1.datagrams :=
          List.flatMap_congr hburst
    _ = (ts.zipIdx.map Prod.fst).flatMap Transmission.datagrams := by
          rw [List.flatMap_map]
    _ = ts.flatMap Transmission.datagrams := by rw [List.zipIdx_map_fst]

/-- The datagram belongs to one of the bursts. -/
structure Sent.Of (ts : List Transmission) (x : Sent) : Prop where
  source : ts[x.burst]? = some x.source
  index_lt : x.index < x.source.totalFrags

theorem sentStream_of {ts : List Transmission} {x : Sent}
    (hx : x ∈ sentStream ts) : x.Of ts := by
  obtain ⟨tb, htb, hmem⟩ := List.mem_flatMap.mp hx
  obtain ⟨i, hi, rfl⟩ := List.mem_map.mp hmem
  exact ⟨List.mem_zipIdx_iff_getElem?.mp htb, List.mem_range.mp hi⟩

/-- No datagram is directly followed by the next number of another burst. -/
def Unspliced (xs : List Sent) : Prop :=
  xs.IsChain fun x y => y.index = x.index + 1 → y.burst = x.burst

/-! ## A run of fragments stays in its burst -/

theorem Sent.Of.mem {ts : List Transmission} {x : Sent} (h : x.Of ts) :
    x.source ∈ ts := List.mem_of_getElem? h.source

theorem Sent.Of.eq_next {ts : List Transmission} {x y : Sent} (hx : x.Of ts)
    (hy : y.Of ts) (hindex : y.index = x.index + 1)
    (hburst : y.burst = x.burst) :
    y = ⟨x.burst, x.source, x.index + 1⟩ := by
  have hsource : some y.source = some x.source := by
    rw [← hx.source, ← hy.source, hburst]
  cases y
  cases hindex
  cases hburst
  cases Option.some.inj hsource
  rfl

theorem eq_range_of_isChain {ts : List Transmission} {x : Sent}
    {xs : List Sent} (hof : ∀ y ∈ x :: xs, y.Of ts)
    (hchain : (x :: xs).IsChain fun y z =>
      z.index = y.index + 1 ∧ z.burst = y.burst) :
    x :: xs = (List.range' x.index (xs.length + 1)).map
      fun i => ⟨x.burst, x.source, i⟩ := by
  induction xs generalizing x with
  | nil => rfl
  | cons y xs ih =>
      obtain ⟨⟨hindex, hburst⟩, htail⟩ := List.isChain_cons_cons.mp hchain
      have hy := (hof x List.mem_cons_self).eq_next
        (hof y (List.mem_cons_of_mem _ List.mem_cons_self)) hindex hburst
      have hrest := ih (fun z hz => hof z (List.mem_cons_of_mem _ hz)) htail
      rw [List.length_cons, List.range'_succ, List.map_cons, hrest, hy]

section Received

variable {ts : List Transmission} (hts : ∀ t ∈ ts, t.Complete)
include hts

theorem seqNumber_datagram {x : Sent} (hx : x.Of ts) :
    x.datagram.seqNumber = x.index :=
  (hts _ hx.mem).seqNumber_fragment hx.index_lt

/-- A finished run of unspliced datagrams is a whole burst. -/
theorem finished_is_burst {xs : List Sent} (hof : ∀ x ∈ xs, x.Of ts)
    (hunspliced : Unspliced xs) {s : RecvState}
    (hfinished : Finished (xs.map Sent.datagram) s) :
    ∃ t ∈ ts, s.finalHdr = mainHeader t.sig ∧
      Assembling ((List.range t.totalFrags).map t.fragment) s := by
  obtain ⟨d, rest, hfirst, hopens, hhdr⟩ := hfinished.assembled.fragments.first
  obtain ⟨x, xs, rfl, rfl, hrest⟩ := List.map_eq_cons_iff.mp hfirst
  have hx := hof x List.mem_cons_self
  have ht := hts _ hx.mem
  have hzero : x.index = 0 :=
    (ht.startFlag_fragment hx.index_lt).mp hopens.start
  -- Consecutive numbers without a splice: the run counts up in one burst.
  have hchain : (x :: xs).IsChain fun y z =>
      z.index = y.index + 1 ∧ z.burst = y.burst := by
    have hseq := (List.isChain_map _).mp hfinished.assembled.fragments.consecutive
    have hindex : (x :: xs).IsChain fun y z => z.index = y.index + 1 := by
      refine hseq.imp_of_mem_imp ?_
      intro y z hy hz hnext
      rw [seqNumber_datagram hts (hof z hz),
        seqNumber_datagram hts (hof y hy)] at hnext
      exact hnext
    rw [List.isChain_iff_getElem]
    intro i hi
    have hnext := List.isChain_iff_getElem.mp hindex i hi
    exact ⟨hnext, List.isChain_iff_getElem.mp hunspliced i hi hnext⟩
  have hrun := eq_range_of_isChain hof hchain
  rw [hzero] at hrun
  have hlast : xs.length + 1 = x.source.totalFrags := by
    obtain ⟨front, e, hsplit, hend, _⟩ := hfinished.last_end
    rw [hrun, List.map_map, List.range'_1_concat, List.map_append] at hsplit
    have he := (List.append_inj' hsplit rfl).2
    simp only [List.map_cons, List.map_nil, Function.comp_apply,
      Sent.datagram, List.cons.injEq, and_true, Nat.zero_add] at he
    have hlen : xs.length < x.source.totalFrags := by
      have hmem : (⟨x.burst, x.source, xs.length⟩ : Sent) ∈ x :: xs := by
        rw [hrun]
        refine List.mem_map.mpr ⟨xs.length, ?_, rfl⟩
        rw [List.mem_range'_1]
        omega
      exact (hof _ hmem).index_lt
    rw [← he] at hend
    exact (ht.endFlag_fragment hlen).mp hend
  refine ⟨x.source, hx.mem, ?_, ?_⟩
  · have hfragment : x.datagram = x.source.fragment 0 := by
      rw [Sent.datagram, hzero]
    rw [← hhdr, hfragment, ht.mainHdr_fragment]
  · have hall := hfinished.assembled
    rw [hrun, List.map_map, hlast, ← List.range_eq_range'] at hall
    exact hall

theorem hasHeader_datagram {x : Sent} (hx : x.Of ts) :
    x.datagram.hasHeader = true := by
  have hlen := (hts _ hx.mem).udpHeaderSize_le hx.index_lt
  exact decide_eq_true hlen

/-! ## Calls under loss -/

theorem recv_returns_sent {xs : List Sent} (hof : ∀ x ∈ xs, x.Of ts)
    (hunspliced : Unspliced xs) {os : List SocketOutcome}
    (hos : arrivals os = xs.map Sent.datagram)
    {udpPool iqPool : DataArrayPool} {hdr h : Header} {buf : DArray}
    (hr : (recv udpPool iqPool hdr os).outcome = .returned h (some buf)) :
    ∃ t ∈ ts, Delivers t (recv udpPool iqPool hdr os) := by
  obtain ⟨s, rest, m, hloop, rfl, hmem⟩ := recv_returned_some hr
  obtain ⟨front, run, back, hsplit, hfinished⟩ := recvLoop_finished hloop
  have hall : (arrivals os).filter Datagram.hasHeader =
      xs.map Sent.datagram := by
    rw [hos, List.filter_eq_self]
    intro d hd
    obtain ⟨x, hx, rfl⟩ := List.mem_map.mp hd
    exact hasHeader_datagram hts (hof x hx)
  rw [hall] at hsplit
  obtain ⟨before, after, rfl, hbefore, _⟩ := List.map_eq_append_iff.mp hsplit
  obtain ⟨left, ys, rfl, _, rfl⟩ := List.map_eq_append_iff.mp hbefore
  obtain ⟨t, ht, hheader, hrun⟩ := finished_is_burst hts
    (fun y hy => hof y (by simp [hy]))
    hunspliced.left_of_append.right_of_append hfinished
  exact ⟨t, ht, (hts t ht).delivers hheader hrun hr hmem⟩

theorem recvCalls_return_sent {xs : List Sent} (hof : ∀ x ∈ xs, x.Of ts)
    (hunspliced : Unspliced xs) {os : List SocketOutcome}
    (hos : arrivals os = xs.map Sent.datagram) (udpPool : DataArrayPool)
    (hdr : Header) (iqPools : List DataArrayPool) :
    ∀ r ∈ recvCalls udpPool hdr iqPools os, ∀ h buf,
      r.outcome = .returned h (some buf) → ∃ t ∈ ts, Delivers t r := by
  induction iqPools generalizing xs os udpPool with
  | nil =>
      intro r hr
      exact absurd hr (List.not_mem_nil)
  | cons iqPool iqPools ih =>
      intro r hr h buf hreturned
      rcases List.mem_cons.mp hr with rfl | hlater
      · exact recv_returns_sent hts hof hunspliced hos hreturned
      · obtain ⟨consumed, hconsumed⟩ := recv_suffix udpPool iqPool hdr os
        rw [← hconsumed, arrivals_append] at hos
        obtain ⟨front, ys, rfl, _, hrest⟩ := List.map_eq_append_iff.mp hos.symm
        exact ih (fun y hy => hof y (List.mem_append_right _ hy))
          hunspliced.right_of_append hrest.symm _ r hlater h buf hreturned

end Received

/-- Under any loss that leaves the stream unspliced, every buffer that a call
of `Recv` returns is one of the bursts that were sent. -/
theorem recvCalls_integrity {ts : List Transmission}
    (hts : ∀ t ∈ ts, t.Complete) {xs : List Sent}
    (hlost : xs.Sublist (sentStream ts)) (hunspliced : Unspliced xs)
    {os : List SocketOutcome} (hos : arrivals os = xs.map Sent.datagram)
    (udpPool : DataArrayPool) (hdr : Header) (iqPools : List DataArrayPool) :
    ∀ r ∈ recvCalls udpPool hdr iqPools os, ∀ h buf,
      r.outcome = .returned h (some buf) → ∃ t ∈ ts, Delivers t r :=
  recvCalls_return_sent hts (fun _ hx => sentStream_of (hlost.mem hx))
    hunspliced hos udpPool hdr iqPools

/-- 37 samples of value `v` on one channel: four datagrams. -/
def constantTransmission (v : UInt8) : Transmission :=
  { plainTransmission 1 37 with
    sig := { plainBurst 1 37 with iqData := some ⟨0, fun _ => v⟩ } }

/-- The results of one call that reads the datagrams `xs` at once. -/
def resultsOf (xs : List Sent) : List RecvResult :=
  recvCalls serverPool Header.zero [.filled 1 iqSize "IQ" false 0]
    [.packets (xs.map Sent.datagram)]

theorem constantTransmission_complete (v : UInt8) :
    (constantTransmission v).Complete := by
  have h := plainTransmission_plain_one
  have hplain : (constantTransmission v).Plain :=
    ⟨h.port, h.bytesPerOtw, h.samples, h.channels, h.size_dvd, h.size_gt,
      h.size_le⟩
  exact hplain.complete

theorem constantTransmission_totalFrags (v : UInt8) :
    (constantTransmission v).totalFrags = 4 := by
  change (plainTransmission 1 37).totalFrags = 4
  decide

/-- Byte `i` of a returned buffer. -/
def returnedByte (r : RecvResult) (i : ℕ) : Option UInt8 :=
  match r.outcome with
  | .returned _ (some buf) => some (buf.mem i)
  | _ => none

theorem exists_of_returnedByte {r : RecvResult} {i : ℕ} {b : UInt8}
    (h : returnedByte r i = some b) :
    ∃ hdr buf, r.outcome = .returned hdr (some buf) := by
  unfold returnedByte at h
  split at h
  next hdr buf houtcome => exact ⟨hdr, buf, houtcome⟩
  · cases h

theorem returnedByte_eq {r : RecvResult} {hdr : Header} {buf : DArray}
    (h : r.outcome = .returned hdr (some buf)) (i : ℕ) :
    returnedByte r i = some (buf.mem i) := by
  rw [returnedByte, h]

theorem unspliced_of_burst {xs : List Sent} {b : ℕ}
    (h : ∀ x ∈ xs, x.burst = b) : Unspliced xs := by
  refine List.isChain_iff_getElem.mpr fun i hi _ => ?_
  rw [h _ (List.getElem_mem _), h _ (List.getElem_mem _)]

theorem recvCalls_integrity_one_burst :
    ∃ t ∈ [constantTransmission 7], Delivers t
      (recv serverPool (.filled 1 iqSize "IQ" false 0) Header.zero
        [.packets ([constantTransmission 7].flatMap
          Transmission.datagrams)]) := by
  have hcomplete : ∀ t ∈ [constantTransmission 7], t.Complete := by
    intro t ht
    rw [List.mem_singleton.mp ht]
    exact constantTransmission_complete 7
  rw [← sentStream_datagrams hcomplete]
  have hbyte : returnedByte
      (recv serverPool (.filled 1 iqSize "IQ" false 0) Header.zero
        [.packets ((sentStream [constantTransmission 7]).map
          Sent.datagram)]) 0 = some 7 := by decide
  obtain ⟨h, buf, hreturned⟩ := exists_of_returnedByte hbyte
  refine recvCalls_integrity hcomplete (List.Sublist.refl _) ?_ (by simp)
    serverPool Header.zero [.filled 1 iqSize "IQ" false 0] _ List.mem_cons_self
    h buf hreturned
  refine unspliced_of_burst (b := 0) ?_
  intro x hx
  obtain ⟨tb, htb, hmem⟩ := List.mem_flatMap.mp hx
  obtain ⟨j, _, rfl⟩ := List.mem_map.mp hmem
  simp only [List.zipIdx_cons, List.zipIdx_nil, List.mem_singleton] at htb
  rw [htb]

/-- Two datagrams of a burst of zeros, then the last two of a burst of ones. -/
def splicedArrival : List Sent :=
  [⟨0, constantTransmission 0, 0⟩, ⟨0, constantTransmission 0, 1⟩,
    ⟨1, constantTransmission 1, 2⟩, ⟨1, constantTransmission 1, 3⟩]

/-- The tail of the first burst and the head of the second are lost, and the
call returns a burst that is neither. -/
theorem recv_returns_spliced_burst :
    splicedArrival.Sublist
        (sentStream [constantTransmission 0, constantTransmission 1]) ∧
      ∃ r ∈ resultsOf splicedArrival, ∃ h buf,
        r.outcome = .returned h (some buf) ∧
          ∀ t ∈ [constantTransmission 0, constantTransmission 1],
            ¬ Delivers t r := by
  constructor
  · simp only [sentStream, List.zipIdx_cons, List.zipIdx_nil,
      List.flatMap_cons, List.flatMap_nil, constantTransmission_totalFrags]
    exact .cons_cons _ (.cons_cons _ (.cons _ (.cons _ (.cons _ (.cons _
      (List.Sublist.refl _))))))
  · let r := recv serverPool (.filled 1 iqSize "IQ" false 0) Header.zero
      [.packets (splicedArrival.map Sent.datagram)]
    have hfirst : returnedByte r 0 = some 0 := by decide
    have hlast : returnedByte r 147 = some 1 := by decide
    obtain ⟨h, buf, hreturned⟩ := exists_of_returnedByte hfirst
    rw [returnedByte_eq hreturned] at hfirst hlast
    refine ⟨r, List.mem_singleton_self _, h, buf, hreturned, ?_⟩
    intro t ht hdelivers
    obtain ⟨buf', hbuf, hbytes⟩ := hdelivers
    rw [hreturned] at hbuf
    cases hbuf
    rcases List.mem_pair.mp ht with rfl | rfl
    · have hbyte := eq_of_read_eq (hbytes 0 (by decide)) (i := 147) (by decide)
      rw [show 0 * _ + 147 = 147 by omega, Option.some.inj hlast] at hbyte
      exact absurd hbyte (by decide)
    · have hbyte := eq_of_read_eq (hbytes 0 (by decide)) (i := 0) (by decide)
      rw [show 0 * _ + 0 = 0 by omega, Option.some.inj hfirst] at hbyte
      exact absurd hbyte (by decide)

end UDPServer
end Chem
