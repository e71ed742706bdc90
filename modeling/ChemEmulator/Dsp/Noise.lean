import ChemEmulator.Support.FloatValue
import ChemEmulator.Support.PartialRuns

/-!
# Noise

`get_noise` in `src/chem/dsp/channel.cpp`.  A thread keeps one buffer of
samples.  It draws them anew when the parameters or the size change, and
otherwise only shuffles them.  The same buffer is filled with zeros for a link
without noise, and nothing makes the thread draw again afterwards.

The generator, the standard deviation for a bandwidth and a noise figure, and
the type of samples are parameters.  Two fields of the state are not in the
source: they say for which parameters the deviation was computed and where the
samples in the buffer come from.
-/

namespace Chem
namespace Dsp

open PartialRuns

inductive NoiseType where
  | none
  | awgn
deriving DecidableEq

/-- What `get_noise` takes from the random numbers of the library. -/
structure RandomSource (γ α : Type*) where
  /-- `cached_sigma`, from a safe bandwidth and a finite noise figure. -/
  sigma : FloatValue → FloatValue → FloatValue
  zero : α
  /-- One sample: two numbers of a normal distribution. -/
  draw : FloatValue → γ → α × γ
  /-- `std::shuffle`. -/
  shuffle : List α → γ → List α × γ
  shuffle_perm : ∀ samples gen, (shuffle samples gen).1.Perm samples

/-- `NOISE_FIGURE_RX`. -/
def noiseFigureRx : FloatValue := .finite 6

/-- `safe_noise_bw`. -/
def safeNoiseBw : FloatValue → FloatValue
  | .finite bandwidth => if bandwidth ≤ 0 then .finite 1 else .finite bandwidth
  | _ => .finite 1

/-- `std::abs(a - b) > 1e-6`, in double arithmetic. -/
def differs : FloatValue → FloatValue → Bool
  | .finite a, .finite b =>
      decide (FloatValue.roundBinary 53 (1 / 1000000) <
        |FloatValue.roundBinary 53 (a - b)|)
  | .infinite neg, .infinite neg' => decide (neg ≠ neg')
  | .finite _, .infinite _ => true
  | .infinite _, .finite _ => true
  | .nan, _ => false
  | _, .nan => false

/-- The parameters of a call.  The noise figure is finite. -/
structure NoiseParams where
  bandwidth : FloatValue
  noiseFigure : FloatValue
deriving DecidableEq

/-- Two bandwidths or noise figures that the tolerance takes for the same. -/
def Near (a b : FloatValue) : Prop :=
  a = b ∨ (differs a b = false ∧ a ≠ .nan ∧ b ≠ .nan)

def NoiseParams.Near (p q : NoiseParams) : Prop :=
  Dsp.Near p.bandwidth q.bandwidth ∧ Dsp.Near p.noiseFigure q.noiseFigure

/-- The thread-local variables. -/
structure NoiseState (γ α : Type*) where
  /-- `_noise`. -/
  buffer : Option (List α)
  gen : γ
  /-- `cached_bw` and `cached_nf`. -/
  cached : NoiseParams
  cachedSigma : FloatValue
  needsRegen : Bool
  /-- The deviation has been computed, for the cached parameters. -/
  computed : Bool
  /-- The generator and the parameters with which the samples in the buffer
  were drawn.  Zeros have none, and neither have samples that were drawn before
  the deviation was computed. -/
  origin : Option (γ × NoiseParams)

/-- A call of `get_noise`. -/
structure NoiseCall where
  size : ℕ
  bandwidth : FloatValue
  type : NoiseType
  noiseFigureDb : FloatValue

def NoiseCall.params (call : NoiseCall) : NoiseParams where
  bandwidth := call.bandwidth
  noiseFigure :=
    if call.noiseFigureDb.isfinite then call.noiseFigureDb else noiseFigureRx

namespace NoiseState

variable {γ α : Type*} (R : RandomSource γ α)

/-- The state of a new thread. -/
def create (gen : γ) : NoiseState γ α where
  buffer := none
  gen := gen
  cached := ⟨.finite 0, .finite 0⟩
  cachedSigma := .finite 0
  needsRegen := true
  computed := false
  origin := none

/-- The loop that fills the buffer. -/
def drawMany (sigma : FloatValue) : ℕ → γ → List α × γ
  | 0, gen => ([], gen)
  | size + 1, gen =>
      let (sample, gen) := R.draw sigma gen
      let (samples, gen) := drawMany sigma size gen
      (sample :: samples, gen)

/-- The standard deviation for given parameters. -/
def sigmaOf (p : NoiseParams) : FloatValue :=
  R.sigma (safeNoiseBw p.bandwidth) p.noiseFigure

/-- The bandwidth or the noise figure changes. -/
def changes (S : NoiseState γ α) (p : NoiseParams) : Bool :=
  differs p.bandwidth S.cached.bandwidth ||
    differs p.noiseFigure S.cached.noiseFigure

def setParams (S : NoiseState γ α) (p : NoiseParams) : NoiseState γ α :=
  if S.changes p then
    { S with
      cached := p
      cachedSigma := sigmaOf R p
      needsRegen := true
      computed := true }
  else S

/-- There is no buffer of the size. -/
def resizes (S : NoiseState γ α) (size : ℕ) : Bool :=
  S.buffer.all fun samples => decide (samples.length ≠ size)

def resize (S : NoiseState γ α) (size : ℕ) : NoiseState γ α :=
  if S.resizes size then
    { S with
      buffer := some (List.replicate size R.zero)
      needsRegen := true
      origin := none }
  else S

/-- The rest of the function, with a buffer of the right size. -/
def fill (S : NoiseState γ α) (size : ℕ) :
    NoiseType → List α × NoiseState γ α
  | .none =>
      let samples := List.replicate size R.zero
      (samples, { S with buffer := some samples, origin := none })
  | .awgn =>
      if S.needsRegen then
        let (samples, gen) := drawMany R S.cachedSigma size S.gen
        (samples, { S with
          buffer := some samples
          gen := gen
          needsRegen := false
          origin := if S.computed then some (S.gen, S.cached) else none })
      else
        let (samples, gen) := R.shuffle (S.buffer.getD []) S.gen
        (samples, { S with buffer := some samples, gen := gen })

def getNoise (S : NoiseState γ α) (call : NoiseCall) :
    List α × NoiseState γ α :=
  ((S.setParams R call.params).resize R call.size).fill R call.size call.type

/-- The thread after a call. -/
def step (S : NoiseState γ α) (call : NoiseCall) : Option (NoiseState γ α) :=
  some (S.getNoise R call).2

/-! ## What a call has to return -/

/-- Zeros without noise; else a permutation of samples that were drawn with the
deviation for the size and the parameters of the call. -/
def Answers (call : NoiseCall) (result : List α × NoiseState γ α) : Prop :=
  match call.type with
  | .none => result.1 = List.replicate call.size R.zero
  | .awgn =>
      result.1.length = call.size ∧
      ∃ gen p, result.2.origin = some (gen, p) ∧ call.params.Near p ∧
        result.1.Perm (drawMany R (sigmaOf R p) call.size gen).1

/-- The call computes the deviation.  Or it has been computed for these
parameters, and the samples are drawn now or nothing has cleared them. -/
def Genuine (S : NoiseState γ α) (call : NoiseCall) : Prop :=
  call.type = .awgn →
    S.changes call.params = true ∨
    (S.computed = true ∧ call.params.Near S.cached ∧
      (S.needsRegen = true ∨ S.resizes call.size = true ∨
        S.origin.isSome = true))

/-- The deviation belongs to the cached parameters, and the samples to their
origin. -/
structure Sound (S : NoiseState γ α) : Prop where
  sigma : S.computed = true → S.cachedSigma = sigmaOf R S.cached
  origin : ∀ gen p, S.origin = some (gen, p) →
    S.computed = true ∧ (S.needsRegen = false → p = S.cached) ∧
      ∃ samples, S.buffer = some samples ∧
        samples.Perm (drawMany R (sigmaOf R p) samples.length gen).1

variable {R}

theorem sound_create (gen : γ) : (create gen : NoiseState γ α).Sound R where
  sigma h := by cases h
  origin _ _ h := by cases h

theorem length_drawMany (sigma : FloatValue) (size : ℕ) (gen : γ) :
    (drawMany R sigma size gen).1.length = size := by
  induction size generalizing gen with
  | zero => rfl
  | succ size ih => rw [drawMany, List.length_cons, ih]

theorem near_refl (p : NoiseParams) : p.Near p :=
  ⟨Or.inl rfl, Or.inl rfl⟩

theorem Sound.setParams {S : NoiseState γ α} (hS : S.Sound R)
    (p : NoiseParams) : (S.setParams R p).Sound R := by
  unfold NoiseState.setParams
  split_ifs
  · refine ⟨fun _ => rfl, ?_⟩
    intro gen q horigin
    obtain ⟨-, -, hdrawn⟩ := hS.origin gen q horigin
    exact ⟨rfl, fun h => absurd h (by simp), hdrawn⟩
  · exact hS

theorem Sound.resize {S : NoiseState γ α} (hS : S.Sound R) (size : ℕ) :
    (S.resize R size).Sound R := by
  unfold NoiseState.resize
  split_ifs
  · exact ⟨hS.sigma, fun gen p h => by cases h⟩
  · exact hS

theorem fill_of_regen {S : NoiseState γ α} (h : S.needsRegen = true)
    (size : ℕ) :
    S.fill R size .awgn = ((drawMany R S.cachedSigma size S.gen).1,
      { S with
        buffer := some (drawMany R S.cachedSigma size S.gen).1
        gen := (drawMany R S.cachedSigma size S.gen).2
        needsRegen := false
        origin := if S.computed then some (S.gen, S.cached) else none }) :=
  if_pos h

theorem fill_of_shuffle {S : NoiseState γ α} (h : S.needsRegen = false)
    (size : ℕ) :
    S.fill R size .awgn = ((R.shuffle (S.buffer.getD []) S.gen).1,
      { S with
        buffer := some (R.shuffle (S.buffer.getD []) S.gen).1
        gen := (R.shuffle (S.buffer.getD []) S.gen).2 }) :=
  if_neg (by simp [h])

theorem Sound.fill {S : NoiseState γ α} (hS : S.Sound R) (size : ℕ)
    (type : NoiseType) : (S.fill R size type).2.Sound R := by
  cases type with
  | none => exact ⟨hS.sigma, fun gen p h => by cases h⟩
  | awgn =>
      cases hregen : S.needsRegen with
      | true =>
          rw [fill_of_regen hregen]
          refine ⟨hS.sigma, ?_⟩
          intro gen p horigin
          dsimp only at horigin
          split_ifs at horigin with hcomputed
          obtain ⟨rfl, rfl⟩ := Prod.mk.inj (Option.some.inj horigin)
          refine ⟨hcomputed, fun _ => rfl, _, rfl, ?_⟩
          rw [length_drawMany, hS.sigma hcomputed]
      | false =>
          rw [fill_of_shuffle hregen]
          refine ⟨hS.sigma, ?_⟩
          intro gen p horigin
          obtain ⟨hcomputed, hcached, samples, hbuffer, hperm⟩ :=
            hS.origin gen p horigin
          refine ⟨hcomputed, hcached, _, rfl, ?_⟩
          have hshuffled := R.shuffle_perm samples S.gen
          rw [hbuffer, Option.getD_some, hshuffled.length_eq]
          exact hshuffled.trans hperm

theorem Sound.getNoise {S : NoiseState γ α} (hS : S.Sound R)
    (call : NoiseCall) : (S.getNoise R call).2.Sound R :=
  ((hS.setParams call.params).resize call.size).fill call.size call.type

/-! ## When a call returns it -/

/-- After the first two steps there is a buffer of the size. -/
theorem exists_buffer_resize (S : NoiseState γ α) (size : ℕ) :
    ∃ samples, (S.resize R size).buffer = some samples ∧
      samples.length = size := by
  unfold resize
  by_cases h : S.resizes size = true
  · rw [if_pos h]
    exact ⟨_, rfl, List.length_replicate⟩
  · rw [if_neg h]
    cases hbuffer : S.buffer with
    | none => simp [resizes, hbuffer] at h
    | some samples => exact ⟨samples, rfl, by simpa [resizes, hbuffer] using h⟩

/-- Noise from a buffer of the right size is genuine exactly when the deviation
is that of the cached parameters and the samples are drawn or have been. -/
theorem answers_fill_iff {S : NoiseState γ α} (hS : S.Sound R)
    {call : NoiseCall} (htype : call.type = .awgn) {samples : List α}
    (hbuffer : S.buffer = some samples) (hsize : samples.length = call.size) :
    Answers R call (S.fill R call.size call.type) ↔
      S.computed = true ∧ call.params.Near S.cached ∧
        (S.needsRegen = true ∨ S.origin.isSome = true) := by
  simp only [Answers, htype]
  cases hregen : S.needsRegen with
  | true =>
      rw [fill_of_regen hregen]
      cases hcomputed : S.computed with
      | true =>
          simp only [length_drawMany, hS.sigma hcomputed, if_true, true_and,
            Option.some.injEq, Prod.mk.injEq, true_or, and_true]
          constructor
          · rintro ⟨gen, p, ⟨rfl, rfl⟩, hnear, -⟩
            exact hnear
          · intro hnear
            exact ⟨_, _, ⟨rfl, rfl⟩, hnear, List.Perm.refl _⟩
      | false => simp
  | false =>
      rw [fill_of_shuffle hregen]
      have hshuffled := R.shuffle_perm samples S.gen
      constructor
      · rintro ⟨-, gen, p, horigin, hnear, -⟩
        obtain ⟨hcomputed, hcached, -⟩ := hS.origin gen p horigin
        have horigin' : S.origin = some (gen, p) := horigin
        rw [hcached hregen] at hnear
        exact ⟨hcomputed, hnear, Or.inr (by rw [horigin']; rfl)⟩
      · rintro ⟨-, hnear, hdrawn⟩
        obtain ⟨⟨gen, p⟩, horigin⟩ :=
          Option.isSome_iff_exists.mp (hdrawn.resolve_left (by simp))
        obtain ⟨-, hcached, l, hl, hperm⟩ := hS.origin gen p horigin
        cases hbuffer.symm.trans hl
        rw [hbuffer, Option.getD_some]
        refine ⟨hshuffled.length_eq.trans hsize, gen, p, horigin, ?_, ?_⟩
        · rw [hcached hregen]
          exact hnear
        · rw [← hsize]
          exact hshuffled.trans hperm

theorem answers_getNoise_iff {S : NoiseState γ α} (hS : S.Sound R)
    (call : NoiseCall) :
    Answers R call (S.getNoise R call) ↔ S.Genuine call := by
  cases htype : call.type with
  | none =>
      refine iff_of_true ?_ fun h => absurd (htype.symm.trans h) (by decide)
      simp [Answers, getNoise, fill, htype]
  | awgn =>
      obtain ⟨samples, hbuffer, hsize⟩ :=
        exists_buffer_resize (R := R) (S.setParams R call.params) call.size
      have hready := (hS.setParams call.params).resize call.size
      rw [getNoise, answers_fill_iff hready htype hbuffer hsize]
      simp only [Genuine, htype, true_implies]
      cases hchanges : S.changes call.params with
      | true =>
          refine iff_of_true ?_ (Or.inl rfl)
          have hparams : S.setParams R call.params = { S with
              cached := call.params
              cachedSigma := sigmaOf R call.params
              needsRegen := true
              computed := true } := if_pos hchanges
          rw [hparams, NoiseState.resize]
          split_ifs
          · exact ⟨rfl, near_refl _, Or.inl rfl⟩
          · exact ⟨rfl, near_refl _, Or.inl rfl⟩
      | false =>
          have hparams : S.setParams R call.params = S :=
            if_neg (by simp [hchanges])
          rw [hparams, NoiseState.resize]
          cases hresizes : S.resizes call.size with
          | true => simp
          | false => simp

/-- A thread answers every call as it should exactly when every call with noise
finds the deviation of its parameters, and no zeros. -/
theorem answers_iff_genuine (R : RandomSource γ α) (gen : γ)
    (calls : List NoiseCall) :
    EveryStep (step R) (fun S call => Answers R call (S.getNoise R call))
        (create gen) calls ↔
      EveryStep (step R) Genuine (create gen) calls := by
  have hsound : ∀ (S : NoiseState γ α) (call : NoiseCall) (T : NoiseState γ α),
      S.Sound R → step R S call = some T → T.Sound R := by
    intro S call T hS hstep
    cases hstep
    exact hS.getNoise call
  exact everyStep_congr (fun S call T hS _ => hsound S call T hS)
    (fun _ call hS => answers_getNoise_iff hS call) (sound_create gen) calls

/-- A source whose samples are all 1. -/
def onesSource : RandomSource Unit ℕ where
  sigma _ _ := .finite 1
  zero := 0
  draw _ gen := (1, gen)
  shuffle samples gen := (samples, gen)
  shuffle_perm _ _ := List.Perm.refl _

/-- A link without noise leaves its zeros to the next link. -/
theorem awgn_after_none_returns_zeros :
    ¬EveryStep (step onesSource)
      (fun S call => Answers onesSource call (S.getNoise onesSource call))
      (create ())
      [⟨2, .finite 1000000, .awgn, .finite 6⟩,
        ⟨2, .finite 1000000, .none, .finite 6⟩,
        ⟨2, .finite 1000000, .awgn, .finite 6⟩] := by
  rintro ⟨-, hsecond⟩
  obtain ⟨-, gen, p, -, -, hperm⟩ := ((hsecond _ rfl).2 _ rfl).1
  have hdrawn : (drawMany onesSource (sigmaOf onesSource p) 2 gen).1 =
      [1, 1] := rfl
  rw [hdrawn] at hperm
  have hmem := hperm.mem_iff (a := 0)
  revert hmem
  decide +kernel

end NoiseState

end Dsp
end Chem
