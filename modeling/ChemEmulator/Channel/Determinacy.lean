import ChemEmulator.Channel.Processing

/-!
# What a call depends on

Two calls of `processChannel` with the same link, parameters and draws, on
vectors that differ.  Source vectors agree on the samples of the burst; what
lies behind them, and everything that the destination vectors and `cir_out`
hold, is left over from earlier bursts.  The results agree where every sample
is computed from the burst: the resampler must not read past it, must produce
as many samples as are asked for, and the taps must not reach the end of the
vector.
-/

namespace Chem

open RawVector

namespace Dsp

variable {R K : Type}

/-! ## Resampling -/

/-- The number of source samples that `resample` reads. -/
def sourceNeed (ratio : FloatValue) (size : ℕ) : ℕ :=
  if upFactor ratio = 1 then upsampledCount size ratio else size

/-- The number of destination samples that `resample` makes of a burst of `n`
samples. -/
def resampledYield (ratio : FloatValue) (size n srcSize : ℕ) : ℕ :=
  if (computeResamplingFactors ratio).2 = 1 then
    if upFactor ratio = 1 then min n srcSize else upsampledCount size ratio
  else upsampledCount size ratio / (computeResamplingFactors ratio).2

section

variable [Zero K] [Add K] [SMul R K] {src₁ src₂ : SignalV K} {n : ℕ}

theorem agree_firFilter {s₁ s₂ f₁ f₂ : SignalV K} {m size : ℕ}
    (hsignal : Agree size s₁ s₂) (hfiltered : Agree m f₁ f₂)
    (coeffs : List R) :
    Agree m (firFilter s₁ coeffs f₁ size) (firFilter s₂ coeffs f₂ size) := by
  unfold firFilter
  split_ifs with hempty
  · exact hfiltered
  · have hpos : 0 < size := Nat.pos_of_ne_zero fun h => hempty (Or.inr h)
    apply Agree.fill hfiltered
    intro i hi
    congr 1
    rw [List.mapIdx_eq_mapIdx_iff]
    intro k hk
    dsimp only
    split_ifs
    · rw [hsignal 0 hpos]
    · rw [hsignal _ (by omega)]
    · rw [hsignal _ (by omega)]

/-- With samples inserted, everything comes from the samples that are read. -/
theorem filteredUp_congr (hsrc : Agree n src₁ src₂) (A : Arithmetic R K)
    {ratio : FloatValue} {size : ℕ} (hup : upFactor ratio ≠ 1)
    (hsize : size ≤ n) :
    filteredUp A src₁ ratio size = filteredUp A src₂ ratio size := by
  have hupsample : upsample src₁ (.replicate (upsampledCount size ratio) 0)
      (upFactor ratio) size =
        upsample src₂ (.replicate (upsampledCount size ratio) 0)
          (upFactor ratio) size := by
    unfold upsample
    rw [if_neg hup, if_neg hup]
    apply List.foldl_ext
    intro v i hi
    rw [hsrc i (Nat.lt_of_lt_of_le (List.mem_range.mp hi) hsize)]
  unfold filteredUp
  dsimp only
  rw [hupsample]

/-- Without samples inserted, the source vector is copied as a whole and
filtered as far as the upsampled burst reaches. -/
theorem agree_filteredUp_of_copy (hsrc : Agree n src₁ src₂)
    (hsizes : src₁.size = src₂.size) (A : Arithmetic R K) {ratio : FloatValue}
    {size : ℕ} (hup : upFactor ratio = 1)
    (hcount : upsampledCount size ratio ≤ n) :
    Agree n (filteredUp A src₁ ratio size) (filteredUp A src₂ ratio size) := by
  have hcopy : Agree n
      (upsample src₁ (.replicate (upsampledCount size ratio) 0)
        (upFactor ratio) size)
      (upsample src₂ (.replicate (upsampledCount size ratio) 0)
        (upFactor ratio) size) := by
    unfold upsample
    rw [if_pos hup, if_pos hup]
    intro i hi
    simp only [RawVector.assign]
    rw [hsizes, hsrc i hi]
  exact agree_firFilter (hcopy.mono hcount) hcopy _

theorem agree_filteredUp (hsrc : Agree n src₁ src₂)
    (hsizes : src₁.size = src₂.size) (A : Arithmetic R K) {ratio : FloatValue}
    {size : ℕ} (hneed : sourceNeed ratio size ≤ n) :
    Agree (upsampledCount size ratio) (filteredUp A src₁ ratio size)
      (filteredUp A src₂ ratio size) := by
  unfold sourceNeed at hneed
  by_cases hup : upFactor ratio = 1
  · rw [if_pos hup] at hneed
    exact (agree_filteredUp_of_copy hsrc hsizes A hup hneed).mono hneed
  · rw [if_neg hup] at hneed
    rw [filteredUp_congr hsrc A hup hneed]
    exact fun _ _ => rfl

theorem agree_resample (hsrc : Agree n src₁ src₂)
    (hsizes : src₁.size = src₂.size) (A : Arithmetic R K) {ratio : FloatValue}
    {size : ℕ} (hneed : sourceNeed ratio size ≤ n) (dest₁ dest₂ : SignalV K) :
    Agree (resampledYield ratio size n src₁.size)
      (resample A src₁ dest₁ ratio size) (resample A src₂ dest₂ ratio size) := by
  have hfiltered := agree_filteredUp hsrc hsizes A hneed
  have hcount₁ := size_filteredUp A src₁ ratio size
  have hcount₂ := size_filteredUp A src₂ ratio size
  rw [← hsizes, ← hcount₁] at hcount₂
  unfold resample downsample resampledYield
  by_cases hdown : (computeResamplingFactors ratio).2 = 1
  · rw [if_pos hdown, if_pos hdown, if_pos hdown]
    unfold sourceNeed at hneed
    by_cases hup : upFactor ratio = 1
    · rw [if_pos hup] at hneed hcount₁
      rw [if_pos hup]
      refine Agree.assign ?_ hcount₂.symm ?_ dest₁ dest₂
      · exact (agree_filteredUp_of_copy hsrc hsizes A hup hneed).mono
          (Nat.min_le_left _ _)
      · rw [hcount₁]
        exact Nat.min_le_right _ _
    · rw [if_neg hup] at hcount₁
      rw [if_neg hup]
      exact Agree.assign hfiltered hcount₂.symm (Nat.le_of_eq hcount₁.symm)
        dest₁ dest₂
  · rw [if_neg hdown, if_neg hdown, if_neg hdown]
    apply agree_fill
    intro i hi
    apply hfiltered
    calc
      i * (computeResamplingFactors ratio).2 <
          upsampledCount size ratio / (computeResamplingFactors ratio).2 *
            (computeResamplingFactors ratio).2 := by
        refine Nat.mul_lt_mul_of_pos_right hi (Nat.pos_of_ne_zero ?_)
        intro hzero
        rw [hzero, Nat.div_zero] at hi
        exact Nat.not_lt_zero i hi
      _ ≤ upsampledCount size ratio := Nat.div_mul_le_self _ _

end

/-! ## Impulse responses -/

section

variable [Zero K] [Add K] [Mul K] {in₁ in₂ : SignalV K} {m n : ℕ}

/-- Samples behind the last one that the taps look at. -/
def tapReach (taps : List K) : ℕ := taps.length - 1 - (taps.length - 1) / 2

theorem agree_applyCirFirCausal (hin : Agree n in₁ in₂) (h₁ : n ≤ in₁.size)
    (h₂ : n ≤ in₂.size) (taps : List K) :
    Agree n (applyCirFirCausal in₁ in₁ taps n)
      (applyCirFirCausal in₂ in₂ taps n) := by
  unfold applyCirFirCausal
  rw [Nat.min_eq_left h₁, Nat.min_eq_left h₂]
  dsimp only
  split
  · exact agree_fill _ _ hin
  · apply agree_fill
    intro i hi
    rw [hin i hi]
  · apply agree_fill
    intro i hi
    congr 1
    rw [List.mapIdx_eq_mapIdx_iff]
    intro k hk
    rw [List.length_reverse] at hk
    split_ifs
    · rfl
    · rw [hin _ (by omega)]

theorem agree_applyCirDirectConv (hin : Agree n in₁ in₂) (h₁ : n ≤ in₁.size)
    (h₂ : n ≤ in₂.size) (out₁ out₂ : SignalV K) (taps : List K) :
    Agree n (applyCirDirectConv in₁ out₁ taps n)
      (applyCirDirectConv in₂ out₂ taps n) := by
  unfold applyCirDirectConv
  rw [Nat.min_eq_left h₁, Nat.min_eq_left h₂]
  apply agree_fill
  intro i hi
  split_ifs
  · exact hin i hi
  · congr 1
    rw [List.mapIdx_eq_mapIdx_iff]
    intro k hk
    rw [hin _ (by omega)]

/-- The centred filter looks ahead.  Either there is room for it, or both
vectors end at the same place and agree up to there. -/
theorem agree_firFilterTaps (hin : Agree m in₁ in₂) (hn : n ≤ m)
    (taps : List K)
    (hroom : n + tapReach taps ≤ in₁.size ∧ n + tapReach taps ≤ in₂.size ∨
      in₁.size = in₂.size ∧ n ≤ in₁.size ∧ in₁.size ≤ m) :
    Agree n (firFilterTaps in₁ taps in₁ n) (firFilterTaps in₂ taps in₂ n) := by
  intro i hi
  have hsize₁ : i < in₁.size := by omega
  have hsize₂ : i < in₂.size := by omega
  unfold firFilterTaps
  by_cases htaps : taps.isEmpty
  · rw [if_pos (Or.inl htaps), if_pos (Or.inl htaps)]
    exact hin i (Nat.lt_of_lt_of_le hi hn)
  · rw [if_neg (by simp [htaps]; omega), if_neg (by simp [htaps]; omega)]
    dsimp only
    rw [data_fill_of_lt _ hsize₁, data_fill_of_lt _ hsize₂]
    congr 1
    rw [List.mapIdx_eq_mapIdx_iff]
    intro k hk
    congr 1
    unfold tapReach at hroom
    obtain ⟨hroom₁, hroom₂⟩ | ⟨hsame, hfit, hknown⟩ := hroom
    · split_ifs
      · exact hin _ (by omega)
      · exact hin _ (by omega)
      · rfl
      · omega
      · omega
      · omega
    · rw [hsame]
      split_ifs
      · exact hin _ (by omega)
      · exact hin _ (by omega)
      · rfl
      · exact hin _ (by omega)

end

theorem agree_applyFrequencyOffset [Zero R] [Add R] [Mul R] [DecidableEq R]
    [Mul K] (A : Arithmetic R K) {s₁ s₂ : SignalV K} {n : ℕ}
    (h : Agree n s₁ s₂) (rate : FloatValue) (offset phase : R) :
    Agree n (applyFrequencyOffset A s₁ n rate offset phase).1
        (applyFrequencyOffset A s₂ n rate offset phase).1 ∧
      (applyFrequencyOffset A s₁ n rate offset phase).2 =
        (applyFrequencyOffset A s₂ n rate offset phase).2 := by
  unfold applyFrequencyOffset
  split
  · split_ifs
    · exact ⟨h, rfl⟩
    · refine ⟨agree_fill _ _ ?_, rfl⟩
      intro i hi
      rw [h i hi]
  · exact ⟨h, rfl⟩

end Dsp

/-! ## One call -/

open Dsp

variable {R K : Type}

theorem LinkState.agree_applyFrequencyOffset [Zero R] [Add R] [Mul R]
    [DecidableEq R] [Mul K] (A : Arithmetic R K) (link : LinkState R K)
    {s₁ s₂ : SignalV K} (p : ChannelProcessParams R)
    (h : Agree p.sPerBuff s₁ s₂) :
    Agree p.sPerBuff (link.applyFrequencyOffset A s₁ p).1
        (link.applyFrequencyOffset A s₂ p).1 ∧
      (link.applyFrequencyOffset A s₁ p).2 =
        (link.applyFrequencyOffset A s₂ p).2 := by
  unfold LinkState.applyFrequencyOffset
  dsimp only
  generalize link.freqOffsetHz + _ = total
  split_ifs
  · exact ⟨h, rfl⟩
  · cases link.freqOffsetPhase[p.destChannelIndex]? with
    | none => exact ⟨h, rfl⟩
    | some phase =>
        obtain ⟨hsignal, hphase⟩ := Dsp.agree_applyFrequencyOffset A h
          p.sampleRateHz total phase
        refine ⟨hsignal, ?_⟩
        dsimp only
        rw [hphase]

/-- Calls change neither the taps nor how they are applied. -/
def LinkState.SameTaps (link link' : LinkState R K) : Prop :=
  link'.chTaps = link.chTaps ∧ link'.cirApplyMethod = link.cirApplyMethod

theorem LinkState.sameTaps_sigPower [Zero R] [Add R] [Div R] [LE R]
    [DecidableLE R] (A : Arithmetic R K) (link : LinkState R K)
    (budget : LinkBudget R) (samples : List K) :
    link.SameTaps (link.sigPower A budget samples).2 := by
  unfold LinkState.sigPower
  dsimp only
  split_ifs
  · exact ⟨rfl, rfl⟩
  · exact ⟨rfl, rfl⟩
  · exact ⟨rfl, rfl⟩

theorem LinkState.sameTaps_applyFrequencyOffset [Zero R] [Add R] [Mul R]
    [DecidableEq R] [Mul K] (A : Arithmetic R K) (link : LinkState R K)
    (signal : SignalV K) (p : ChannelProcessParams R) :
    link.SameTaps (link.applyFrequencyOffset A signal p).2 := by
  unfold LinkState.applyFrequencyOffset
  dsimp only
  generalize link.freqOffsetHz + _ = total
  split_ifs
  · exact ⟨rfl, rfl⟩
  · split
    · exact ⟨rfl, rfl⟩
    · exact ⟨rfl, rfl⟩

namespace Channel

/-- The number of source samples that a call reads. -/
def gainNeed (p : ChannelProcessParams R) : ℕ :=
  if p.sampleRatio ≠ .finite 1 then
    sourceNeed p.sampleRatio (sourceCount p.sPerBuff p.sampleRatio)
  else p.sPerBuff

/-- The number of destination samples that a call makes of a burst of `n`
samples. -/
def gainYield (p : ChannelProcessParams R) (n srcSize : ℕ) : ℕ :=
  if p.sampleRatio ≠ .finite 1 then
    resampledYield p.sampleRatio (sourceCount p.sPerBuff p.sampleRatio) n
      srcSize
  else p.sPerBuff

/-- The taps of the link look at samples of the burst and at nothing behind
them, in vectors of the given sizes of which the first `m` elements are known:
there is room for the filter, or the vectors end at the same known place. -/
def TapsFit (link : LinkState R K) (p : ChannelProcessParams R)
    (m size₁ size₂ : ℕ) : Prop :=
  let look := if link.cirApplyMethod = .firCentered then
    tapReach (link.tapsOf p) else 0
  p.sPerBuff + look ≤ size₁ ∧ p.sPerBuff + look ≤ size₂ ∨
    size₁ = size₂ ∧ p.sPerBuff ≤ size₁ ∧ size₁ ≤ m

theorem TapsFit.of_sameTaps {link link' : LinkState R K}
    {p : ChannelProcessParams R} {m size₁ size₂ : ℕ}
    (h : TapsFit link p m size₁ size₂) (hsame : link.SameTaps link') :
    TapsFit link' p m size₁ size₂ := by
  unfold TapsFit LinkState.tapsOf at *
  rw [hsame.1, hsame.2]
  exact h

section

variable {src₁ src₂ : SignalV K} {n : ℕ}

theorem agree_applyGain [Zero R] [Zero K] [Add K] [SMul R K]
    (hsrc : Agree n src₁ src₂) (hsizes : src₁.size = src₂.size)
    (A : Arithmetic R K) {p : ChannelProcessParams R} (hneed : gainNeed p ≤ n)
    (dest₁ dest₂ : SignalV K) :
    Agree (gainYield p n src₁.size) (applyGain A src₁ dest₁ p)
      (applyGain A src₂ dest₂ p) := by
  unfold gainNeed at hneed
  unfold applyGain gainYield
  by_cases hratio : p.sampleRatio ≠ .finite 1
  · rw [if_pos hratio] at hneed
    rw [if_pos hratio, if_pos hratio, if_pos hratio]
    exact (agree_resample hsrc hsizes A hneed dest₁ dest₂).update p.sPerBuff
      fun _ x => (if A.isfinite p.coeff then p.coeff else 0) • x
  · rw [if_neg hratio] at hneed
    rw [if_neg hratio, if_neg hratio, if_neg hratio]
    apply agree_fill
    intro i hi
    rw [hsrc i (Nat.lt_of_lt_of_le hi hneed)]

theorem agree_applyTaps [Zero K] [Add K] [Mul K] (link : LinkState R K)
    (p : ChannelProcessParams R) {dest₁ dest₂ : SignalV K} {m : ℕ}
    (hdest : Agree m dest₁ dest₂) (hm : p.sPerBuff ≤ m)
    (hfit : TapsFit link p m dest₁.size dest₂.size)
    (cirOut₁ cirOut₂ : SignalV K) :
    Agree p.sPerBuff (applyTaps link p dest₁ cirOut₁).1
      (applyTaps link p dest₂ cirOut₂).1 := by
  have hfront := hdest.mono hm
  have hsize₁ : p.sPerBuff ≤ dest₁.size := by
    obtain ⟨h₁, -⟩ | ⟨-, hle, -⟩ := hfit
    · exact Nat.le_of_add_right_le h₁
    · exact hle
  have hsize₂ : p.sPerBuff ≤ dest₂.size := by
    obtain ⟨-, h₂⟩ | ⟨hsame, hle, -⟩ := hfit
    · exact Nat.le_of_add_right_le h₂
    · rw [← hsame]
      exact hle
  unfold applyTaps
  dsimp only
  by_cases hactive : link.cirActive p
  · rw [if_pos hactive, if_pos hactive]
    by_cases hnone : p.sPerBuff = 0
    · intro i hi
      omega
    · unfold TapsFit at hfit
      unfold applyCir
      cases hmethod : link.cirApplyMethod with
      | none => simp [LinkState.cirActive, hmethod] at hactive
      | firCausal =>
          simp only [hnone, if_false, reduceCtorEq]
          exact agree_applyCirFirCausal hfront hsize₁ hsize₂ _
      | firCentered =>
          simp only [hnone, if_false, reduceCtorEq, Nat.min_eq_left hsize₁,
            Nat.min_eq_left hsize₂]
          simp only [hmethod, if_true] at hfit
          exact agree_firFilterTaps hdest hm _ hfit
      | directConv =>
          simp only [hnone, if_false, if_true]
          apply agree_fill
          exact agree_applyCirDirectConv hfront hsize₁ hsize₂ _ _ _
  · rw [if_neg hactive, if_neg hactive]
    exact hfront

end

section

variable [Zero R] [Add R] [Sub R] [Mul R] [Div R]
variable [LT R] [DecidableLT R] [LE R] [DecidableLE R] [DecidableEq R]
variable [Zero K] [Add K] [Mul K] [SMul R K]

theorem sameTaps_processChannel (A : Arithmetic R K) (link : LinkState R K)
    (src dest cirOut : SignalV K) (p : ChannelProcessParams R)
    (draw : ChannelDraw R K) :
    link.SameTaps (processChannel A link src dest cirOut p draw).link := by
  have hpower := link.sameTaps_sigPower A p.budget
    ((applyGain A src dest p).take p.sPerBuff)
  unfold processChannel
  dsimp only
  have hoffset := fun signal => LinkState.sameTaps_applyFrequencyOffset A
    (link.sigPower A p.budget
      ((applyGain A src dest p).take p.sPerBuff)).2 signal p
  exact ⟨(hoffset _).1.trans hpower.1, (hoffset _).2.trans hpower.2⟩

/-- Calls that differ in what earlier bursts have left behind agree on their
samples and on the link. -/
theorem agree_processChannel (A : Arithmetic R K) (link : LinkState R K)
    {src₁ src₂ : SignalV K} {n : ℕ} (hsrc : Agree n src₁ src₂)
    (hsizes : src₁.size = src₂.size) {p : ChannelProcessParams R}
    (hneed : gainNeed p ≤ n) (hyield : p.sPerBuff ≤ gainYield p n src₁.size)
    {dest₁ dest₂ : SignalV K}
    (hfit : TapsFit link p (gainYield p n src₁.size)
      (callSize p src₁.size dest₁.size) (callSize p src₂.size dest₂.size))
    (cirOut₁ cirOut₂ : SignalV K) (draw : ChannelDraw R K) :
    Agree p.sPerBuff (processChannel A link src₁ dest₁ cirOut₁ p draw).dest
        (processChannel A link src₂ dest₂ cirOut₂ p draw).dest ∧
      (processChannel A link src₁ dest₁ cirOut₁ p draw).link =
        (processChannel A link src₂ dest₂ cirOut₂ p draw).link := by
  have hgain := agree_applyGain hsrc hsizes A hneed dest₁ dest₂
  have hpower : (applyGain A src₁ dest₁ p).take p.sPerBuff =
      (applyGain A src₂ dest₂ p).take p.sPerBuff := (hgain.mono hyield).take_eq
  rw [← size_applyGain A, ← size_applyGain A] at hfit
  have hspread := agree_applyTaps link p hgain hyield hfit cirOut₁ cirOut₂
  unfold processChannel
  dsimp only
  rw [hpower]
  apply LinkState.agree_applyFrequencyOffset
  split_ifs
  · exact (hspread.update _ fun i x => _ • x + noise link draw i).update _
      fun _ x => A.literal (2 ^ 4) • x
  · exact hspread.update _ fun i x => _ • x + noise link draw i

end

end Channel
end Chem
