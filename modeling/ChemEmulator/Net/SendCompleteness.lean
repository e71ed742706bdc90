import ChemEmulator.Net.Fragmentation

/-!
# Exactly when `Send` transmits the whole burst

`Fragmentable size nch` is the condition in terms of the burst alone.  A burst
that is split again into `BATCH_SIZE` parts goes out completely only if the
parts are equal, hold whole samples of every channel and leave room for the
burst header; a larger burst goes out if what is lost by rounding every
fragment down to the channel count still fits in the planned number of
fragments, and if that number fits in the header field.

Sufficiency instantiates `Sufficient`.  For necessity the loop is followed for
as long as no subtraction wraps: then fragment `i` is the `i`-th message and
the bytes sent so far are at most `capacity p i`.
-/

namespace Chem
namespace UDPClient

open ByteMemory EarlyExit

/-- The bursts that `Send` transmits completely. -/
def Fragmentable (size nch : ℕ) : Prop :=
  if size + headerSize ≤ 3 * payloadSize then
    3 * headerSize < size ∧ nch ∣ headerSize ∧ batchSize * nch ∣ size + headerSize
  else
    size ≤ (1400 - 1400 % nch) +
        (fullFrags size - 1) * (payloadSize - payloadSize % nch) ∧
      fullFrags size < 2 ^ 16

instance (size nch : ℕ) : Decidable (Fragmentable size nch) :=
  inferInstanceAs (Decidable (ite _ _ _))

/-! ## The two regimes of `fragmentation` -/

theorem fullFrags_mul_lt (size : ℕ) :
    (fullFrags size - 1) * payloadSize < size + headerSize := by
  have hdiv := Nat.div_add_mod (size + headerSize) payloadSize
  have hheader : headerSize = 48 := rfl
  unfold fullFrags
  rw [payloadSize_eq] at *
  split
  · omega
  · omega

theorem le_fullFrags_mul (size : ℕ) :
    size + headerSize ≤ fullFrags size * payloadSize := by
  have hdiv := Nat.div_add_mod (size + headerSize) payloadSize
  have hmod := Nat.mod_lt (size + headerSize) (y := payloadSize) (by decide)
  unfold fullFrags
  rw [payloadSize_eq] at *
  split
  · omega
  · omega

theorem fullFrags_pos (size : ℕ) : 0 < fullFrags size := by
  have hle := le_fullFrags_mul size
  have hheader : headerSize = 48 := rfl
  rw [payloadSize_eq] at hle
  omega

theorem fullFrags_lt_batchSize_iff (size : ℕ) :
    fullFrags size < batchSize ↔ size + headerSize ≤ 3 * payloadSize := by
  have hle := le_fullFrags_mul size
  have hlt := fullFrags_mul_lt size
  have hbatch : batchSize = 4 := rfl
  rw [payloadSize_eq] at *
  omega

theorem fragmentation_small {size : ℕ}
    (h : size + headerSize ≤ 3 * payloadSize) :
    fragmentation size = ((size + headerSize + batchSize - 1) / batchSize,
      (size + headerSize) / ((size + headerSize + batchSize - 1) / batchSize)) :=
  if_pos ⟨(fullFrags_lt_batchSize_iff size).mpr h, fullFrags_pos size⟩

theorem fragmentation_large {size : ℕ}
    (h : ¬ size + headerSize ≤ 3 * payloadSize) :
    fragmentation size = (payloadSize, fullFrags size) :=
  if_neg fun hsmall => h ((fullFrags_lt_batchSize_iff size).mp hsmall.1)

/-- Equal parts: the burst really becomes `BATCH_SIZE` fragments. -/
theorem fragmentation_of_dvd {size : ℕ}
    (h : size + headerSize ≤ 3 * payloadSize)
    (hdvd : batchSize ∣ size + headerSize) :
    fragmentation size = ((size + headerSize) / batchSize, batchSize) := by
  have hround : (size + headerSize + batchSize - 1) / batchSize =
      (size + headerSize) / batchSize := by
    unfold headerSize batchSize at *
    omega
  have hcount : (size + headerSize) / ((size + headerSize) / batchSize) =
      batchSize :=
    Nat.div_div_self hdvd (by unfold headerSize; omega)
  rw [fragmentation_small h, hround, hcount]

/-- Unequal parts: one fragment too few is planned. -/
theorem fragmentation_of_not_dvd {size : ℕ}
    (h : size + headerSize ≤ 3 * payloadSize)
    (hdvd : ¬ batchSize ∣ size + headerSize) :
    fragmentation size = ((size + headerSize) / batchSize + 1, 3) := by
  have hround : (size + headerSize + batchSize - 1) / batchSize =
      (size + headerSize) / batchSize + 1 := by
    unfold headerSize batchSize at *
    omega
  have hcount : (size + headerSize) / ((size + headerSize) / batchSize + 1) =
      3 := by
    unfold headerSize batchSize at *
    apply Nat.div_eq_of_lt_le
    · omega
    · omega
  rw [fragmentation_small h, hround, hcount]

/-- The plan of a small burst that splits into equal parts. -/
theorem sendPlan_of_parts {sig : Signal} {part : ℕ}
    (hsmall : sig.getSize + headerSize ≤ 3 * payloadSize)
    (hpart : sig.getSize + headerSize = batchSize * part) :
    (sendPlan sig).currentPayloadSize = part ∧
      (sendPlan sig).totalFrags = 4 := by
  have hfrag := fragmentation_of_dvd hsmall ⟨part, hpart⟩
  rw [hpart, Nat.mul_div_cancel_left _ (by decide)] at hfrag
  exact ⟨congrArg Prod.fst hfrag, congrArg Prod.snd hfrag⟩

/-- The plan of a large burst. -/
theorem sendPlan_large {sig : Signal}
    (hlarge : ¬ sig.getSize + headerSize ≤ 3 * payloadSize) :
    (sendPlan sig).currentPayloadSize = payloadSize ∧
      (sendPlan sig).totalFrags = fullFrags sig.getSize ∧
      batchSize ≤ fullFrags sig.getSize := by
  have hfrag := fragmentation_large hlarge
  have hmany : ¬ fullFrags sig.getSize < batchSize := fun hlt =>
    hlarge ((fullFrags_lt_batchSize_iff _).mp hlt)
  exact ⟨congrArg Prod.fst hfrag, congrArg Prod.snd hfrag,
    Nat.le_of_not_lt hmany⟩

/-! ## The condition is enough -/

theorem align_eq_sub_mod (n x : ℕ) : align n x = x - x % n := by
  have hsplit := align_add_mod n x
  omega

theorem Fragmentable.sufficient {sig : Signal}
    (hch : 0 < sig.getNumberOfChannels)
    (hdvd : sig.getNumberOfChannels ∣ sig.getSize)
    (h : Fragmentable sig.getSize sig.getNumberOfChannels) :
    Sufficient (sendPlan sig) := by
  have hsizeLt := sig.getSize_lt
  have hheader : headerSize = 48 := rfl
  have hbatch : batchSize = 4 := rfl
  have hchLt : sig.getNumberOfChannels < 256 :=
    sig.header.numberOfChannels.toNat_lt
  unfold Fragmentable at h
  split at h
  next hsmall =>
    obtain ⟨hroom, hhdr, hparts⟩ := h
    have hquarter : batchSize ∣ sig.getSize + headerSize :=
      Dvd.dvd.trans (Nat.dvd_mul_right _ _) hparts
    obtain ⟨part, hpart⟩ := hquarter
    have hpartDvd : sig.getNumberOfChannels ∣ part := by
      rw [hpart] at hparts
      exact Nat.dvd_of_mul_dvd_mul_left (by decide) hparts
    obtain ⟨hpayload, hcount⟩ := sendPlan_of_parts hsmall hpart
    have hfirst := align_of_dvd (Nat.dvd_sub hpartDvd hhdr)
    have hfull := align_of_dvd hpartDvd
    rw [payloadSize_eq] at hsmall
    rw [hbatch] at hpart
    refine ⟨hch, hdvd, hsizeLt, ?_, ?_, ?_, ?_, ?_, ?_, ?_⟩
    · rw [hpayload, payloadSize_eq]
      omega
    · rw [hpayload]
      omega
    · rw [hpayload]
      change 0 < align sig.getNumberOfChannels _
      rw [hfirst]
      omega
    · omega
    · omega
    · rw [hpayload, hcount]
      change _ < sig.getSize + headerSize
      omega
    · rw [hcount]
      simp only [capacity, hpayload]
      change sig.getSize ≤ align sig.getNumberOfChannels _ +
        3 * align sig.getNumberOfChannels _
      rw [hfirst, hfull]
      omega
  next hlarge =>
    obtain ⟨hcap, hlt⟩ := h
    obtain ⟨hpayload, hcount, hmany⟩ := sendPlan_large hlarge
    refine ⟨hch, hdvd, hsizeLt, ?_, ?_, ?_, ?_, ?_, ?_, ?_⟩
    · exact Nat.le_of_eq hpayload
    · rw [hpayload]
      decide
    · have hmod := Nat.mod_lt 1400 hch
      rw [hpayload, align_eq_sub_mod]
      change 0 < 1400 - 1400 % sig.getNumberOfChannels
      omega
    · omega
    · omega
    · rw [hpayload, hcount]
      exact fullFrags_mul_lt sig.getSize
    · obtain ⟨k, hk⟩ := Nat.exists_eq_succ_of_ne_zero
        (Nat.ne_of_gt (fullFrags_pos sig.getSize))
      rw [hcount, hk]
      simp only [capacity, hpayload, align_eq_sub_mod]
      rw [hk] at hcap
      exact hcap

/-! ## The condition is needed -/

/-- The payloads of all messages built so far. -/
def payloads (st : SendState) : List ℕ :=
  (st.emitted ++ st.queued).map Message.payloadLength

/-- The loop before round `i`, as long as nothing has wrapped. -/
structure Unwrapped (p : SendPlan) (i : ℕ) (st : SendState) : Prop where
  count : (payloads st).length = i
  sum : (payloads st).sum = st.sent
  sent_le : st.sent ≤ capacity p i
  room : 1 ≤ i → headerSize < p.currentPayloadSize

theorem align_mono (n : ℕ) {x y : ℕ} (h : x ≤ y) : align n x ≤ align n y :=
  Nat.mul_le_mul_right n (Nat.div_le_div_right h)

theorem sendFragment_next {env : SendEnv} {p : SendPlan} {st st' : SendState}
    {i : ℕ} (h : sendFragment env p st i = .next st') :
    min (sizeSub p.size st.sent) p.currentPayloadSize ≠ 0 ∧
      align p.nofCh (fragPayload p i st.sent) ≠ 0 ∧
      st' = queueFragment env p { st with
        subtractions := st.subtractions ++ fragSubtractions p i st.sent } i
          (fragPayload p i st.sent / p.nofCh) := by
  simp only [sendFragment] at h
  split at h
  · cases h
  next hpayload =>
    split at h
    · cases h
    next haligned =>
      cases h
      exact ⟨hpayload, haligned, rfl⟩

theorem sendFragment_stop {env : SendEnv} {p : SendPlan} {st st' : SendState}
    {i : ℕ} (h : sendFragment env p st i = .stop st') :
    st' = { st with
      subtractions := st.subtractions ++ fragSubtractions p i st.sent } := by
  simp only [sendFragment] at h
  split at h
  · cases h
    rfl
  · split at h
    · cases h
      rfl
    · cases h

theorem payloads_queueFragment (env : SendEnv) (p : SendPlan)
    (st : SendState) (i k : ℕ) :
    payloads (queueFragment env p st i k) = payloads st ++ [k * p.nofCh] := by
  rw [payloads, queueFragment_messages, List.map_append]
  simp [payloads, Message.payloadLength, fragMessage, Function.comp_def,
    Nat.mul_comm]

/-- The payload of a round whose subtractions do not wrap. -/
theorem fragPayload_le_of_subtractions {p : SendPlan} {i sent : ℕ}
    (hsize : p.size < 2 ^ 32) (hfrags : 1 < p.totalFrags)
    (hsent : sent ≤ p.size)
    (hpayload : min (sizeSub p.size sent) p.currentPayloadSize ≠ 0)
    (hwrap : ∀ s ∈ fragSubtractions p i sent, s.2 ≤ s.1) :
    fragPayload p i sent ≤ p.size - sent ∧
      (i = 0 → headerSize ≤ p.currentPayloadSize ∧
        fragPayload p i sent ≤ p.currentPayloadSize - headerSize) ∧
      fragPayload p i sent ≤ p.currentPayloadSize := by
  have hremaining := sizeSub_of_le hsent (by omega)
  rw [fragPayload]
  rw [hremaining] at hpayload ⊢
  split
  next hfirst =>
    have hroom : headerSize ≤ min (p.size - sent) p.currentPayloadSize := by
      apply hwrap (_, headerSize)
      apply List.mem_append_right
      rw [hremaining, if_pos ⟨hpayload, hfirst⟩]
      exact List.mem_singleton_self _
    rw [sizeSub_of_le hroom (by omega)]
    omega
  next hlater =>
    have hne : i ≠ 0 := fun h0 => hlater ⟨h0, hfrags⟩
    omega

theorem unwrapped_step {env : SendEnv} {p : SendPlan}
    (hsize : p.size < 2 ^ 32) (hfrags : 1 < p.totalFrags)
    {i : ℕ} {st st' : SendState}
    (hinv : (∀ s ∈ st.subtractions, s.2 ≤ s.1) → Unwrapped p i st)
    (hstep : sendFragment env p st i = .next st')
    (hwrap : ∀ s ∈ st'.subtractions, s.2 ≤ s.1) :
    Unwrapped p (i + 1) st' := by
  obtain ⟨hpayload, haligned, rfl⟩ := sendFragment_next hstep
  rw [queueFragment_subtractions] at hwrap
  have hst := hinv fun s hs => hwrap s (List.mem_append_left _ hs)
  have hnew : ∀ s ∈ fragSubtractions p i st.sent, s.2 ≤ s.1 :=
    fun s hs => hwrap s (List.mem_append_right _ hs)
  have hsent : st.sent ≤ p.size := hnew (p.size, st.sent)
    (List.mem_append_left _ (by simp))
  obtain ⟨hleft, hfirst, hfull⟩ :=
    fragPayload_le_of_subtractions hsize hfrags hsent hpayload hnew
  have hle := align_le p.nofCh (fragPayload p i st.sent)
  have hadd : sizeT (st.sent + fragPayload p i st.sent / p.nofCh * p.nofCh) =
      st.sent + align p.nofCh (fragPayload p i st.sent) :=
    sizeT_of_lt (by unfold align at hle; omega)
  constructor
  · rw [payloads_queueFragment, List.length_append]
    exact congrArg (· + 1) hst.count
  · rw [payloads_queueFragment, List.sum_append, queueFragment_sent, hadd]
    have hsum := hst.sum
    simp only [payloads, SendState.emitted] at hsum ⊢
    rw [hsum]
    simp [align]
  · rw [queueFragment_sent, hadd]
    have hcap := hst.sent_le
    cases i with
    | zero =>
        have hmono := align_mono p.nofCh (hfirst rfl).2
        simp only [capacity] at hcap ⊢
        omega
    | succ i =>
        have hmono := align_mono p.nofCh hfull
        rw [capacity_succ_succ]
        omega
  · intro _
    cases i with
    | zero =>
        obtain ⟨hroom, hbound⟩ := hfirst rfl
        unfold align at hle
        have hpos : 0 < fragPayload p 0 st.sent := by
          apply Nat.pos_of_ne_zero
          intro hzero
          rw [hzero] at haligned
          exact haligned (by simp [align])
        omega
    | succ i => exact hst.room (by omega)

/-- What a complete transmission says about the plan. -/
theorem capacity_of_complete {port : UInt16} {env : SendEnv} {sig : Signal}
    {bytesPerOtw : UInt8} (hpass : shouldPass port sig bytesPerOtw = false)
    (hpos : 0 < sig.getSize) (hfrags : 1 < (sendPlan sig).totalFrags)
    (hcomplete : CompleteFragmentation sig
      (sendTrace port env sig bytesPerOtw)) :
    sig.getSize ≤ capacity (sendPlan sig)
        ((sendPlan sig).totalFrags % 2 ^ 16) ∧
      headerSize < (sendPlan sig).currentPayloadSize := by
  have htrace : sendTrace port env sig bytesPerOtw =
      (runLoop (sendFragment env (sendPlan sig)) .initial
        (List.range (sendPlan sig).totalFrags)).state := by
    rw [sendTrace, hpass, if_neg (by simp), if_neg (by omega)]
  have hinit : (∀ s ∈ SendState.initial.subtractions, s.2 ≤ s.1) →
      Unwrapped (sendPlan sig) 0 .initial :=
    fun _ => ⟨rfl, rfl, Nat.le_refl _, fun h => absurd h (by omega)⟩
  -- Whether or not the loop was left early, its last state is an unwrapped one.
  have hlast : ∃ i, Unwrapped (sendPlan sig) i
      (sendTrace port env sig bytesPerOtw) := by
    have hwrap := hcomplete.noWrap
    rw [htrace] at hwrap ⊢
    have hstep : ∀ i < (sendPlan sig).totalFrags, ∀ t t',
        ((∀ s ∈ t.subtractions, s.2 ≤ s.1) → Unwrapped (sendPlan sig) i t) →
        sendFragment env (sendPlan sig) t i = .next t' →
        (∀ s ∈ t'.subtractions, s.2 ≤ s.1) →
          Unwrapped (sendPlan sig) (i + 1) t' :=
      fun i _ t t' hinv hnext => unwrapped_step sig.getSize_lt hfrags hinv hnext
    rcases runLoop_range hstep hinit with
      ⟨t, hrun, ht⟩ | ⟨i, _, t, t', ht, hstop, hrun⟩
    · rw [hrun] at hwrap ⊢
      exact ⟨_, ht hwrap⟩
    · rw [hrun] at hwrap ⊢
      have hstopped := sendFragment_stop hstop
      subst hstopped
      have hbefore := ht fun s hs => hwrap s (List.mem_append_left _ hs)
      exact ⟨i, hbefore.count, hbefore.sum, hbefore.sent_le, hbefore.room⟩
  obtain ⟨i, hlast⟩ := hlast
  have hpayloads : payloads (sendTrace port env sig bytesPerOtw) =
      (sendTrace port env sig bytesPerOtw).emitted.map Message.payloadLength := by
    rw [payloads, hcomplete.allHanded, List.append_nil]
  have hcount : i = (sendPlan sig).totalFrags % 2 ^ 16 := by
    have hseq := congrArg List.length hcomplete.seqNumbers
    rw [List.length_map, List.length_range] at hseq
    have hlen := hlast.count
    rw [hpayloads, List.length_map, hseq] at hlen
    rw [← hlen]
    simp [mainHeader, sendPlan]
  have hsize : sig.getSize = (sendTrace port env sig bytesPerOtw).sent := by
    rw [← hlast.sum, hpayloads, hcomplete.payloadSum]
  have hle := hlast.sent_le
  subst hcount
  refine ⟨by rw [hsize]; exact hle, hlast.room ?_⟩
  by_contra hzero
  have hnone : (sendPlan sig).totalFrags % 2 ^ 16 = 0 := by omega
  rw [hnone] at hle
  simp only [capacity] at hle
  omega

section Needed

variable {port : UInt16} {env : SendEnv} {sig : Signal} {bytesPerOtw : UInt8}
variable (hpass : shouldPass port sig bytesPerOtw = false)
variable (hpos : 0 < sig.getSize)
variable (hcomplete : CompleteFragmentation sig
  (sendTrace port env sig bytesPerOtw))
include hpass hpos hcomplete

/-- A small burst goes out completely only in four equal parts, none of which
loses anything to rounding. -/
theorem parts_of_complete
    (hsmall : sig.getSize + headerSize ≤ 3 * payloadSize) :
    3 * headerSize < sig.getSize ∧ sig.getNumberOfChannels ∣ headerSize ∧
      batchSize * sig.getNumberOfChannels ∣ sig.getSize + headerSize := by
  have hheader : headerSize = 48 := rfl
  have hbatch : batchSize = 4 := rfl
  have hplan := fun hfrags => capacity_of_complete hpass hpos hfrags hcomplete
  by_cases hquarter : batchSize ∣ sig.getSize + headerSize
  · obtain ⟨part, hpart⟩ := hquarter
    obtain ⟨hpayload, hcount⟩ := sendPlan_of_parts hsmall hpart
    rw [hcount, hpayload] at hplan
    obtain ⟨hcap, hroom⟩ := hplan (by omega)
    simp only [capacity, hpayload, Nat.reduceMod, Nat.reducePow] at hcap
    change sig.getSize ≤ align sig.getNumberOfChannels _ +
      3 * align sig.getNumberOfChannels _ at hcap
    have hfirst := align_add_mod sig.getNumberOfChannels (part - headerSize)
    have hfull := align_add_mod sig.getNumberOfChannels part
    rw [hpart, hbatch]
    rw [hbatch] at hpart
    have hmodFull : part % sig.getNumberOfChannels = 0 := by omega
    have hmodFirst : (part - headerSize) % sig.getNumberOfChannels = 0 := by
      omega
    have hdvdPart := Nat.dvd_of_mod_eq_zero hmodFull
    have hdvdHeader : sig.getNumberOfChannels ∣ headerSize := by
      have hdiff := Nat.dvd_sub hdvdPart (Nat.dvd_of_mod_eq_zero hmodFirst)
      rwa [Nat.sub_sub_self (Nat.le_of_lt hroom)] at hdiff
    exact ⟨by omega, hdvdHeader, Nat.mul_dvd_mul_left 4 hdvdPart⟩
  · exfalso
    have hfrag := fragmentation_of_not_dvd hsmall hquarter
    have hpayload : (sendPlan sig).currentPayloadSize =
        (sig.getSize + headerSize) / batchSize + 1 := congrArg Prod.fst hfrag
    have hcount : (sendPlan sig).totalFrags = 3 := congrArg Prod.snd hfrag
    rw [hcount, hpayload] at hplan
    obtain ⟨hcap, hroom⟩ := hplan (by omega)
    have hbound := capacity_le (sendPlan sig) 2
    rw [hpayload] at hbound
    simp only [Nat.reduceMod, Nat.reducePow, Nat.reduceAdd] at hcap hbound
    unfold headerSize batchSize at *
    omega

theorem Fragmentable.of_complete :
    Fragmentable sig.getSize sig.getNumberOfChannels := by
  unfold Fragmentable
  split
  next hsmall => exact parts_of_complete hpass hpos hcomplete hsmall
  next hlarge =>
    have hheader : headerSize = 48 := rfl
    have hbatch : batchSize = 4 := rfl
    obtain ⟨hpayload, hcount, hmany⟩ := sendPlan_large hlarge
    obtain ⟨hcap, _⟩ := capacity_of_complete hpass hpos
      (by rw [hcount]; omega) hcomplete
    rw [hcount] at hcap
    have hneeded := fullFrags_mul_lt sig.getSize
    by_cases hlt : fullFrags sig.getSize < 2 ^ 16
    · refine ⟨?_, hlt⟩
      rw [Nat.mod_eq_of_lt hlt] at hcap
      obtain ⟨k, hk⟩ := Nat.exists_eq_succ_of_ne_zero
        (Nat.ne_of_gt (fullFrags_pos sig.getSize))
      rw [hk] at hcap ⊢
      simp only [capacity, hpayload, align_eq_sub_mod] at hcap
      exact hcap
    · -- The header field is too narrow: too few fragments would be expected.
      exfalso
      have hmono := capacity_mono (sendPlan sig)
        (show fullFrags sig.getSize % 2 ^ 16 ≤ 65534 + 1 by omega)
      have hbound := capacity_le (sendPlan sig) 65534
      rw [hpayload, payloadSize_eq] at hbound
      rw [payloadSize_eq] at hneeded
      omega

end Needed

/-- A burst goes out completely if and only if it is `Fragmentable`. -/
theorem completeFragmentation_iff_fragmentable {port : UInt16} (env : SendEnv)
    {sig : Signal} {bytesPerOtw : UInt8}
    (hpass : shouldPass port sig bytesPerOtw = false)
    (hpos : 0 < sig.getSize)
    (hdvd : sig.getNumberOfChannels ∣ sig.getSize) :
    CompleteFragmentation sig (sendTrace port env sig bytesPerOtw) ↔
      Fragmentable sig.getSize sig.getNumberOfChannels := by
  have hch : 0 < sig.getNumberOfChannels := by
    apply Nat.pos_of_ne_zero
    intro hzero
    rw [hzero, zero_dvd_iff] at hdvd
    omega
  constructor
  · exact Fragmentable.of_complete hpass hpos
  · intro h
    exact complete_of_sufficient env hpass (h.sufficient hch hdvd)

/-- A burst of `samples` samples of four bytes on each of `nch` channels. -/
def plainBurst (nch : UInt8) (samples : UInt32) : Signal where
  header := { Header.zero with
    size := 4 * nch.toUInt64 * samples.toUInt64
    numberOfSamples := samples
    numberOfChannels := nch }
  iqData := some ⟨0, fun _ => 0⟩

/-- A clock that stands still, over memory that was zero. -/
def plainEnv : SendEnv := ⟨fun _ => 0, default, 0⟩

theorem completeFragmentation_four_channels :
    shouldPass 5000 (plainBurst 4 13) 4 = false ∧
      (CompleteFragmentation (plainBurst 4 13)
        (sendTrace 5000 plainEnv (plainBurst 4 13) 4) ↔ Fragmentable 208 4) :=
  ⟨rfl, completeFragmentation_iff_fragmentable plainEnv rfl
    (by decide) (by decide)⟩

/-- Ten samples on one channel: the first of four fragments has room for 22
bytes, from which the 48 bytes of the burst header are subtracted. -/
theorem ten_samples_not_completeFragmentation :
    shouldPass 5000 (plainBurst 1 10) 4 = false ∧
      0 < (plainBurst 1 10).getSize ∧
      (plainBurst 1 10).getNumberOfChannels ∣ (plainBurst 1 10).getSize ∧
      ¬ CompleteFragmentation (plainBurst 1 10)
        (sendTrace 5000 plainEnv (plainBurst 1 10) 4) := by
  refine ⟨rfl, by decide, by decide, fun hcomplete => ?_⟩
  have hwrapped : (22, 48) ∈
      (sendTrace 5000 plainEnv (plainBurst 1 10) 4).subtractions := by decide
  exact absurd (hcomplete.noWrap _ hwrapped) (by decide)

end UDPClient
end Chem
