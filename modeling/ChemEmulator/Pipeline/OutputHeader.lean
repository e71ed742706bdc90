import ChemEmulator.Net.Reassembly
import ChemEmulator.Pipeline.Worker
import ChemEmulator.Support.Outcome

/-!
# What an outgoing header says about its buffer

`ProcessDestinationSignal` writes the samples of every output channel at a
fixed distance into the buffer, and `Send` finds them again by the header.  The
two agree when the rates are equal, the channel counts are equal and the
incoming header counts four bytes for every sample.  A burst that is resampled
never qualifies: its size counts the header, which the size of a `Header` does
not.
-/

namespace Chem
namespace Pipeline

open ByteMemory UDPServer

variable {n : ℕ}

namespace WorkerContext

/-- The header of `out` describes what was written for `dest`. -/
structure Describes (sigCtx : SignalContext) (dest : DestInfo) (out : Signal) :
    Prop where
  channels : out.header.numberOfChannels = dest.numChannels
  size : out.header.size.toNat =
    out.header.numberOfChannels.toNat * destSzCh sigCtx dest
  stride : destSzCh sigCtx dest = 4 * out.header.numberOfSamples.toNat
  data : ∀ c < dest.numChannels.toNat,
    out.getData c = some (outputPtr sigCtx dest c)

/-- The propagation delay changes none of the fields that describe the
buffer. -/
theorem outgoingHeader_fields (sigCtx : SignalContext) (dest : DestInfo)
    (distance : FloatValue) :
    let hdr := outgoingHeader sigCtx dest distance
    hdr.numberOfChannels = (destHeader sigCtx dest).numberOfChannels ∧
      hdr.size = (destHeader sigCtx dest).size ∧
      hdr.numberOfSamples = (destHeader sigCtx dest).numberOfSamples := by
  unfold outgoingHeader
  split
  · exact ⟨rfl, rfl, rfl⟩
  · exact ⟨rfl, rfl, rfl⟩

/-- The header that is counted in never goes unnoticed, not even when the size
wraps. -/
theorem dataSz_ne (destSzCh destNCh : ℕ) :
    dataSz destSzCh destNCh ≠ destSzCh * destNCh := by
  unfold dataSz sizeT headerSize
  omega

theorem not_describes_of_resampled {sigCtx : SignalContext} {dest : DestInfo}
    {out : Signal} {distance : FloatValue}
    (hout : out.header = outgoingHeader sigCtx dest distance)
    (hrates : destSrate dest ≠ sigCtx.sigSrate) :
    ¬Describes sigCtx dest out := by
  intro h
  obtain ⟨-, hsize, -⟩ := outgoingHeader_fields sigCtx dest distance
  have hbytes := h.size
  rw [h.channels, hout, hsize, destHeader, if_pos hrates, destSzCh,
    if_pos hrates] at hbytes
  have hlt : dataSz (scaled sigCtx.iSzCh (sampleRatio sigCtx dest))
      dest.numChannels.toNat < 2 ^ 64 := sizeT_lt _
  rw [UInt64.toNat_ofNat', Nat.mod_eq_of_lt hlt, Nat.mul_comm] at hbytes
  exact dataSz_ne _ _ hbytes

theorem describes_iff_of_same_rate {sig out : Signal} {dest : DestInfo}
    {distance : FloatValue} (hsig : AcceptableHeader sig.header)
    (hout : out.header = outgoingHeader (.ofSignal sig) dest distance)
    (hrates : destSrate dest = sig.getSrate) :
    Describes (.ofSignal sig) dest out ↔
      dest.numChannels = sig.header.numberOfChannels ∧
        sig.header.size.toNat = 4 * sig.header.numberOfSamples.toNat *
          sig.header.numberOfChannels.toNat ∧
        sig.header.size.toNat < 2 ^ 32 := by
  have hsame : ¬destSrate dest ≠ (SignalContext.ofSignal sig).sigSrate :=
    not_not_intro hrates
  obtain ⟨hchannels, hsize, hsamples⟩ :=
    outgoingHeader_fields (.ofSignal sig) dest distance
  have hheader : destHeader (.ofSignal sig) dest = sig.header := if_neg hsame
  have hstride : destSzCh (.ofSignal sig) dest = sig.getSizePerBuff :=
    if_neg hsame
  rw [← hout, hheader] at hchannels hsize hsamples
  have hpos : 0 < sig.getNumberOfChannels := hsig.channels_pos
  have hper := Signal.getSizePerBuff_eq hpos
  have hcut : sig.getSize = sig.header.size.toNat % 2 ^ 32 := rfl
  have hcount : sig.getNumberOfChannels =
      sig.header.numberOfChannels.toNat := rfl
  constructor
  · intro h
    have hfull := h.size
    have hfour := h.stride
    rw [hsize, hchannels, hstride] at hfull
    rw [hsamples, hstride] at hfour
    refine ⟨h.channels.symm.trans hchannels, ?_, ?_⟩
    · rw [hfull, hfour, Nat.mul_comm]
    · -- the stride is computed from 32 bits of the size
      have hle : sig.header.numberOfChannels.toNat * sig.getSizePerBuff ≤
          sig.getSize := by
        rw [hper, hcount]
        exact Nat.mul_div_le _ _
      have hlt := sig.getSize_lt
      omega
  · rintro ⟨hdest, hfour, hlt⟩
    have hfull : sig.getSize = sig.header.size.toNat := by
      rw [hcut, Nat.mod_eq_of_lt hlt]
    have hsz : sig.getSizePerBuff = 4 * sig.header.numberOfSamples.toNat := by
      rw [hper, hfull, hfour, hcount]
      exact Nat.mul_div_cancel _ hsig.channels_pos
    have houtSz : out.getSizePerBuff = sig.getSizePerBuff := by
      unfold Signal.getSizePerBuff Signal.getSize Signal.getNumberOfChannels
      rw [hsize, hchannels]
    refine ⟨hchannels.trans hdest.symm, ?_, ?_, ?_⟩
    · rw [hsize, hchannels, hstride, hsz, hfour]
      ring
    · rw [hstride, hsamples, hsz]
    · intro c hc
      have hexists : ¬out.getNumberOfChannels ≤ c := by
        rw [Signal.getNumberOfChannels, hchannels, ← hdest]
        omega
      rw [Signal.getData, if_neg hexists, outputPtr, hstride, houtSz]

/-- A destination with a ratio other than zero gets a signal. -/
theorem processDestinationSignal_of_ratio_ne (pools : IqPools n)
    {ctx : WorkerContext n} {k : ℕ} {dest : DestInfo} {buffer : DArray}
    (hk : ctx.pending[k]? = some (dest, buffer))
    (hratio : sampleRatio ctx.sigCtx dest ≠ .finite 0)
    (distance : FloatValue) (samples : Mem) :
    ctx.processDestinationSignal pools k distance samples =
      .ok (pools, { ctx with
        pending := ctx.pending.eraseIdx k
        outgoing := ctx.outgoing ++ [(dest.transmitter,
          Signal.create (some { buffer with mem := samples })
            (outgoingHeader ctx.sigCtx dest distance))] }) := by
  unfold processDestinationSignal
  rw [hk]
  exact if_neg hratio

/-- A signal with an accepted header that is handed to a transmitter describes
its buffer exactly when the rates and the channel counts of source and
destination agree and the incoming size is four bytes for every sample. -/
theorem handed_header_describes_iff {pools pools' : IqPools n}
    {ctx ctx' : WorkerContext n} {sig out : Signal} {dest : DestInfo}
    {buffer : DArray} {k transmitter : ℕ} {distance : FloatValue}
    {samples : Mem} (hsig : AcceptableHeader sig.header)
    (hctx : ctx.sigCtx = .ofSignal sig)
    (hk : ctx.pending[k]? = some (dest, buffer))
    (h : ctx.processDestinationSignal pools k distance samples =
      .ok (pools', ctx'))
    (hout : ctx'.outgoing = ctx.outgoing ++ [(transmitter, out)]) :
    Describes ctx.sigCtx dest out ↔
      destSrate dest = sig.getSrate ∧
        dest.numChannels = sig.header.numberOfChannels ∧
        sig.header.size.toNat = 4 * sig.header.numberOfSamples.toNat *
          sig.header.numberOfChannels.toNat ∧
        sig.header.size.toNat < 2 ^ 32 := by
  have hheader : out.header = outgoingHeader (.ofSignal sig) dest distance := by
    by_cases hratio : sampleRatio ctx.sigCtx dest = .finite 0
    · unfold processDestinationSignal at h
      rw [hk] at h
      obtain ⟨pools₁, -, hrest⟩ :=
        Outcome.exists_of_bind_eq_ok ((if_pos hratio).symm.trans h)
      cases hrest
      simp at hout
    · rw [processDestinationSignal_of_ratio_ne pools hk hratio] at h
      cases h
      cases List.append_cancel_left hout
      rw [← hctx]
      rfl
  rw [hctx]
  by_cases hrates : destSrate dest = sig.getSrate
  · rw [describes_iff_of_same_rate hsig hheader hrates]
    exact (and_iff_right hrates).symm
  · refine ⟨fun hdescribes => ?_, fun hall => absurd hall.1 hrates⟩
    exact absurd hdescribes (not_describes_of_resampled hheader hrates)

/-- A burst of 100 samples on each of two channels, at 1 MHz. -/
def plainSignal : Signal where
  header := ⟨800, 0, 0, 0, 1000000, 100, 1, 2⟩
  iqData := some ⟨0, fun _ => 0⟩

/-- A worker that has one destination left for `plainSignal`. -/
def plainContext (dest : DestInfo) : WorkerContext 0 :=
  { create "A" 0 with
    sigCtx := .ofSignal plainSignal
    pending := [(dest, ⟨1, fun _ => 0⟩)] }

theorem acceptableHeader_plainSignal : AcceptableHeader plainSignal.header :=
  ⟨by decide, by decide, by decide⟩

theorem two_channels_same_rate :
    ∃ (pools' : IqPools 0) (ctx' : WorkerContext 0) (out : Signal),
      (plainContext ⟨0, 1000000, 2⟩).processDestinationSignal
        (fun _ => .filled 1 iqSize "IQ" false 2) 0 (.finite 0) (fun _ => 0) =
          .ok (pools', ctx') ∧
      ctx'.outgoing = [(0, out)] ∧
      Describes (.ofSignal plainSignal) ⟨0, 1000000, 2⟩ out := by
  have hstep := processDestinationSignal_of_ratio_ne
    (fun _ : Fin 1 => .filled 1 iqSize "IQ" false 2)
    (show (plainContext ⟨0, 1000000, 2⟩).pending[0]? = _ from rfl)
    (by decide +kernel) (.finite 0) fun _ => 0
  refine ⟨_, _, _, hstep, rfl, ?_⟩
  exact (handed_header_describes_iff acceptableHeader_plainSignal rfl rfl hstep
    rfl).mpr ⟨by decide +kernel, by decide, by decide, by decide⟩

/-- At twice the rate the header announces 1648 bytes, where 1600 were
written. -/
theorem resampled_header_counts_itself :
    ∃ (pools' : IqPools 0) (ctx' : WorkerContext 0) (out : Signal),
      (plainContext ⟨0, 2000000, 2⟩).processDestinationSignal
        (fun _ => .filled 1 iqSize "IQ" false 2) 0 (.finite 0) (fun _ => 0) =
          .ok (pools', ctx') ∧
      ctx'.outgoing = [(0, out)] ∧
      out.header.size = 1648 ∧
      destSzCh (.ofSignal plainSignal) ⟨0, 2000000, 2⟩ = 800 ∧
      ¬Describes (.ofSignal plainSignal) ⟨0, 2000000, 2⟩ out := by
  have hstep := processDestinationSignal_of_ratio_ne
    (fun _ : Fin 1 => .filled 1 iqSize "IQ" false 2)
    (show (plainContext ⟨0, 2000000, 2⟩).pending[0]? = _ from rfl)
    (by decide +kernel) (.finite 0) fun _ => 0
  refine ⟨_, _, _, hstep, rfl, ?_, ?_, ?_⟩
  · decide +kernel
  · decide +kernel
  · intro h
    have hbytes := h.size
    revert hbytes
    decide +kernel

end WorkerContext

end Pipeline
end Chem
