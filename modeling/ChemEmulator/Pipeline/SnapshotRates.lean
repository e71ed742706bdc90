import ChemEmulator.Pipeline.DestinationSnapshot
import ChemEmulator.Pipeline.Worker

/-!
# Sample rates in the snapshot

The list that a worker keeps also holds a copy of every sample rate.
`Transmitter::setSampleRate` does not touch the intermediate, so the version of
the destinations stays and the copies with it: a new rate reaches a worker only
if the worker has to compute its list anew.

A rate is used as a `float`, so that rates with the same `float` are the same.
-/

namespace Chem

open PartialRuns Intermediate Pipeline.WorkerContext

/-- What `ProcessDestinationSignal` reads of an entry. -/
def DestInfo.read (e : DestInfo) : Pipeline.DestInfo :=
  ⟨e.transmitter, e.sampleRate, e.numChannels⟩

/-- A sample rate as it is stored in the list. -/
def floatRate (rate : UInt32) : FloatValue := .ofInt 24 rate.toNat

/-- The resampling, the header and the threshold of the propagation delay all
come from the given rate. -/
structure ProcessedAt (dest : Pipeline.DestInfo) (rate : UInt32) : Prop where
  destSrate : destSrate dest = floatRate rate
  sampleRatio : ∀ sigCtx,
    sampleRatio sigCtx dest = sampleRatio sigCtx { dest with sampleRate := rate }
  destHeader : ∀ sigCtx,
    destHeader sigCtx dest = destHeader sigCtx { dest with sampleRate := rate }
  propagationDelay : ∀ distance,
    propagationDelay (Pipeline.WorkerContext.destSrate dest) distance =
      propagationDelay (floatRate rate) distance

theorem processedAt_iff {dest : Pipeline.DestInfo} {rate : UInt32} :
    ProcessedAt dest rate ↔ floatRate dest.sampleRate = floatRate rate := by
  refine ⟨fun h => h.destSrate, fun h => ?_⟩
  have hrate : destSrate dest = destSrate { dest with sampleRate := rate } := h
  refine ⟨h, fun sigCtx => ?_, fun sigCtx => ?_, fun distance => ?_⟩
  · simp only [sampleRatio, hrate]
  · simp only [destHeader, sampleRatio, hrate]
  · rw [hrate]
    rfl

namespace DataPath

/-- Every worker processes its next signal with the current rates. -/
def RatesInUse (S : DataPath) : Prop :=
  ∀ receiverId ctx, S.intermediate.workers.lookup receiverId = some ctx →
    ∀ e ∈ S.destinations ctx, ProcessedAt e.read (S.rates e.transmitter)

/-- The entry has the current rate of its transmitter. -/
def UpToDate (S : DataPath) (e : DestInfo) : Prop :=
  floatRate e.sampleRate = floatRate (S.rates e.transmitter)

/-- No call fails on a null pointer. -/
def Survives (I : Intermediate) : SettingOp → Prop
  | .membership op => I.SandboxAttached op
  | _ => True

/-- A changed rate belongs to a transmitter that is in no list in use, and a
call does not bring the version back to that of a list with an old rate. -/
def RatesReach (S : DataPath) : Event → Prop
  | .setSampleRate transmitter rate =>
      floatRate rate = floatRate (S.rates transmitter) ∨
        ∀ receiverId, S.FastPath receiverId →
          ∀ e ∈ (S.caches receiverId).value, e.transmitter ≠ transmitter
  | .operate op =>
      Survives S.intermediate op → MovesVersion S.intermediate op →
        ∀ receiverId, resetsWorker S.intermediate receiverId op = false →
          (S.caches receiverId).Valid 0 (S.intermediate.destVersion + 1) →
          ∀ e ∈ (S.caches receiverId).value, S.UpToDate e
  | _ => True

/-! ## The invariant -/

structure Working (S : DataPath) : Prop where
  ordered : Ordered S.intermediate
  idle : ∀ id, id ∉ S.intermediate.workers → S.caches id = emptyCache

theorem working_start (freq : ℚ) (rates : ℕ → UInt32) :
    (start freq rates).Working where
  ordered := ⟨tended_create freq, FiniteMap.all_empty⟩
  idle _ _ := rfl

theorem not_valid_emptyCache (version : UInt64) :
    ¬emptyCache.Valid 0 version :=
  fun h => h.2 h.1.symm

/-- Only lists in use can be out of date. -/
def CachesUpToDate (S : DataPath) : Prop :=
  ∀ receiverId, S.FastPath receiverId →
    ∀ e ∈ (S.caches receiverId).value, S.UpToDate e

theorem upToDate_of_mem_slowPath {S : DataPath} {srcId : NodeId}
    {e : DestInfo} (he : e ∈ S.slowPath srcId) : S.UpToDate e := by
  obtain ⟨dest, -, hinfo⟩ := List.mem_filterMap.mp he
  obtain ⟨-, -, rfl⟩ := destInfo_eq_some hinfo
  rfl

theorem Working.ratesInUse_iff {S : DataPath} (hS : S.Working) :
    S.RatesInUse ↔ S.CachesUpToDate := by
  simp only [RatesInUse, processedAt_iff]
  constructor
  · intro h receiverId hfast e he
    -- a list in use belongs to a worker
    have hmem : receiverId ∈ S.intermediate.workers := by
      by_contra hnone
      rw [FastPath, hS.idle receiverId hnone] at hfast
      exact not_valid_emptyCache _ hfast
    obtain ⟨ctx, hctx⟩ := FiniteMap.mem_iff_lookup.mp hmem
    obtain ⟨rfl, -⟩ := hS.ordered.workers receiverId ctx hctx
    refine h ctx.receiverId ctx hctx e ?_
    rwa [destinations, if_pos hfast]
  · intro h receiverId ctx hctx e he
    rw [destinations] at he
    split_ifs at he with hfast
    · exact h ctx.receiverId hfast e he
    · exact upToDate_of_mem_slowPath he

/-- A call leaves the workers that it does not create or destroy. -/
theorem mem_workers_performSetting {I I' : Intermediate} {op : SettingOp}
    {id : NodeId} (hI : I.Tended) (h : I.performSetting op = some I')
    (hreset : resetsWorker I id op = false) :
    id ∈ I'.workers ↔ id ∈ I.workers := by
  rcases performSetting_cases h with ⟨call, rfl, hcall⟩ | ⟨-, hretuned, -⟩
  · rw [(hI.perform hcall).workers, hI.workers]
    have hadds := onlyAdds_perform hcall
    cases call with
    | attachSource receiver =>
        simp only [resetsWorker, decide_eq_false_iff_not, not_and,
          not_not] at hreset
        rw [hadds.1, FiniteMap.mem_insertIfMissing]
        refine or_iff_left_of_imp ?_
        rintro rfl
        exact hreset rfl
    | attachDestination transmitter => rw [hadds.1]
    | addSandboxNode nodeId numChannels =>
        cases hcall
        exact Iff.rfl
    | removeSandboxNode nodeId =>
        cases hcall
        exact Iff.rfl
    | detachSource receiver =>
        simp only [resetsWorker, decide_eq_false_iff_not, not_and] at hreset
        cases hcall
        by_cases hmem : receiver.id ∈ I.sourceMap
        · have hne : id ≠ receiver.id := by
            rintro rfl
            exact hreset rfl hmem
          simp [detachSource, hmem, removeChannel, hne]
        · simp [detachSource, hmem]
    | detachDestination transmitter =>
        cases hcall
        by_cases hmem : transmitter.id ∈ I.destinationMap
        · simp [detachDestination, hmem, removeChannel]
        · simp [detachDestination, hmem]
  · rw [hretuned.workers]

theorem Working.operate {S T : DataPath} {op : SettingOp} (hS : S.Working)
    (h : S.operate op = some T) : T.Working := by
  obtain ⟨I, hI, rfl⟩ := Option.map_eq_some_iff.mp h
  refine ⟨hS.ordered.performSetting hI, ?_⟩
  intro id hid
  dsimp only at hid ⊢
  split_ifs with hreset
  · rfl
  · have hkept := mem_workers_performSetting hS.ordered.tended hI
      (Bool.not_eq_true _ ▸ hreset)
    exact hS.idle id fun hmem => hid (hkept.mpr hmem)

theorem Working.processSignal {S : DataPath} (hS : S.Working)
    {receiverId : NodeId} {ctx : WorkerContext}
    (hctx : S.intermediate.workers.lookup receiverId = some ctx) :
    (S.processSignal ctx).Working := by
  obtain ⟨rfl, -⟩ := hS.ordered.workers receiverId ctx hctx
  unfold DataPath.processSignal
  split_ifs
  · exact hS
  · refine ⟨hS.ordered, fun id hid => ?_⟩
    have hne : id ≠ ctx.receiverId := by
      rintro rfl
      exact hid (FiniteMap.mem_iff_lookup.mpr ⟨ctx, hctx⟩)
    exact (Function.update_of_ne hne _ _).trans (hS.idle id hid)

theorem Working.step {S T : DataPath} {event : Event} (hS : S.Working)
    (h : S.step event = some T) : T.Working := by
  cases event with
  | operate op => exact hS.operate h
  | setShadowingSTD std =>
      cases h
      exact ⟨hS.ordered.retuned (S.intermediate.retuned_setShadowingSTD std),
        hS.idle⟩
  | setSampleRate transmitter rate =>
      cases h
      exact ⟨hS.ordered, hS.idle⟩
  | processSignal receiverId =>
      cases hctx : S.intermediate.workers.lookup receiverId with
      | none =>
          simp only [DataPath.step, hctx, Option.some.injEq] at h
          exact h ▸ hS
      | some ctx =>
          simp only [DataPath.step, hctx, Option.some.injEq] at h
          exact h ▸ hS.processSignal hctx

/-! ## What each event does to the rates in use -/

theorem movesVersion_of_resetsWorker {I : Intermediate} {op : SettingOp}
    {id : NodeId} (h : resetsWorker I id op = true) : MovesVersion I op := by
  cases op with
  | membership call =>
      cases call with
      | attachSource receiver => exact (of_decide_eq_true h).2
      | detachSource receiver => exact (of_decide_eq_true h).2
      | _ => cases h
  | _ => cases h

/-- A call that succeeds has found the sandbox nodes attached. -/
theorem survives_iff {I : Intermediate} (hI : I.Tended) (op : SettingOp) :
    (∃ I', I.performSetting op = some I') ↔ Survives I op := by
  cases op with
  | membership call =>
      rw [Survives, ← hI.harmless_iff, harmless_iff_exists_perform]
      exact Iff.rfl
  | _ => exact iff_of_true ⟨_, rfl⟩ trivial

theorem cachesUpToDate_operate_iff {S T : DataPath} {op : SettingOp}
    (hS : S.Working) (hrates : S.CachesUpToDate) (h : S.operate op = some T) :
    T.CachesUpToDate ↔ S.RatesReach (.operate op) := by
  obtain ⟨I, hI, rfl⟩ := Option.map_eq_some_iff.mp h
  have hsurvives : Survives S.intermediate op :=
    (survives_iff hS.ordered.tended op).mp ⟨I, hI⟩
  simp only [RatesReach, hsurvives, forall_const, CachesUpToDate, FastPath]
  rcases performSetting_destinations hI with
    ⟨hmoves, hversion⟩ | ⟨hstays, hsame⟩
  · simp only [hmoves, forall_const, hversion]
    refine forall_congr' fun id => ?_
    by_cases hreset : resetsWorker S.intermediate id op = true
    · simp [hreset, not_valid_emptyCache]
    · simp only [hreset]
      exact ⟨fun hafter _ => hafter, fun hbefore => hbefore trivial⟩
  · refine iff_of_true ?_ fun hmoves => absurd hmoves hstays
    intro id hfast e he
    have hreset : ¬resetsWorker S.intermediate id op = true :=
      fun hreset => hstays (movesVersion_of_resetsWorker hreset)
    simp only [hreset, hsame.destVersion] at hfast he
    exact hrates id hfast e he

theorem cachesUpToDate_setSampleRate_iff {S : DataPath}
    (hrates : S.CachesUpToDate) (transmitter : ℕ) (rate : UInt32) :
    ({ S with rates := Function.update S.rates transmitter rate } :
        DataPath).CachesUpToDate ↔
      S.RatesReach (.setSampleRate transmitter rate) := by
  constructor
  · intro h
    by_contra hreach
    simp only [RatesReach, not_or, not_forall, not_not] at hreach
    obtain ⟨hnew, receiverId, hfast, e, he, rfl⟩ := hreach
    -- the list has the old rate, and has to have the new one
    have hold := hrates receiverId hfast e he
    have hafter := h receiverId hfast e he
    simp only [UpToDate, Function.update_self] at hafter
    exact hnew (hafter.symm.trans hold)
  · intro hreach receiverId hfast e he
    have hold := hrates receiverId hfast e he
    by_cases htransmitter : e.transmitter = transmitter
    · subst htransmitter
      rcases hreach with hsame | hnone
      · simp only [UpToDate, Function.update_self]
        exact hold.trans hsame.symm
      · exact absurd rfl (hnone receiverId hfast e he)
    · simp only [UpToDate, Function.update_of_ne htransmitter]
      exact hold

theorem CachesUpToDate.processSignal {S : DataPath}
    (hrates : S.CachesUpToDate) (ctx : WorkerContext) :
    (S.processSignal ctx).CachesUpToDate := by
  unfold DataPath.processSignal
  split_ifs
  · exact hrates
  · intro receiverId hfast e he
    by_cases hid : receiverId = ctx.receiverId
    · subst hid
      simp only [Function.update_self] at he
      exact upToDate_of_mem_slowPath he
    · simp only [FastPath, Function.update_of_ne hid] at hfast he
      exact hrates receiverId hfast e he

theorem cachesUpToDate_step_iff {S T : DataPath} {event : Event}
    (hS : S.Working) (hrates : S.CachesUpToDate) (h : S.step event = some T) :
    T.CachesUpToDate ↔ S.RatesReach event := by
  cases event with
  | operate op => exact cachesUpToDate_operate_iff hS hrates h
  | setShadowingSTD std =>
      cases h
      exact iff_of_true hrates trivial
  | setSampleRate transmitter rate =>
      cases h
      exact cachesUpToDate_setSampleRate_iff hrates transmitter rate
  | processSignal receiverId =>
      refine iff_of_true ?_ trivial
      cases hctx : S.intermediate.workers.lookup receiverId with
      | none =>
          simp only [DataPath.step, hctx, Option.some.injEq] at h
          exact h ▸ hrates
      | some ctx =>
          simp only [DataPath.step, hctx, Option.some.injEq] at h
          exact h ▸ hrates.processSignal ctx

theorem ratesReach_of_fail {S : DataPath} {event : Event} (hS : S.Working)
    (h : S.step event = none) : S.RatesReach event := by
  cases event with
  | operate op =>
      intro hsurvives
      obtain ⟨I, hI⟩ := (survives_iff hS.ordered.tended op).mpr hsurvives
      simp only [DataPath.step, DataPath.operate, hI, Option.map_some] at h
      cases h
  | setSampleRate transmitter rate => cases h
  | setShadowingSTD std => trivial
  | processSignal receiverId => trivial

/-- In every state all workers use the current rates, exactly when every event
meets its condition. -/
theorem ratesInUse_iff_ratesReach (freq : ℚ) (rates : ℕ → UInt32)
    (events : List Event) :
    EveryState step RatesInUse (start freq rates) events ↔
      EveryStep step RatesReach (start freq rates) events := by
  have hstart : (start freq rates).RatesInUse := by
    rw [(working_start freq rates).ratesInUse_iff]
    intro receiverId hfast
    exact absurd hfast (not_valid_emptyCache _)
  have hworking : ∀ (S : DataPath) (event : Event) (T : DataPath),
      S.Working → S.step event = some T → T.Working :=
    fun _ _ _ hS h => hS.step h
  refine everyState_iff_everyStep hworking ?_ (fun _ _ => ratesReach_of_fail)
    (working_start freq rates) hstart events
  intro S event T hS hrates h
  rw [(hS.step h).ratesInUse_iff]
  exact cachesUpToDate_step_iff hS (hS.ratesInUse_iff.mp hrates) h

/-- A worker that has its list goes on with the rate that a transmitter had
before. -/
theorem cached_list_keeps_rate :
    ¬EveryState step RatesInUse (start 2400000000 fun _ => 1000000)
      [.operate (.membership (.attachSource (plainEndpoint 0 "x"))),
        .operate (.membership (.attachDestination (plainEndpoint 1 "y"))),
        .processSignal "x", .setSampleRate 1 2000000] := by
  intro h
  have hfinal : (run step (start 2400000000 fun _ => 1000000)
      [.operate (.membership (.attachSource (plainEndpoint 0 "x"))),
        .operate (.membership (.attachDestination (plainEndpoint 1 "y"))),
        .processSignal "x", .setSampleRate 1 2000000]).any
      (fun S => decide (∃ ctx, S.intermediate.workers.lookup "x" = some ctx ∧
        ∃ e ∈ S.destinations ctx,
          e.sampleRate = 1000000 ∧ S.rates e.transmitter = 2000000)) =
        true := by
    decide
  obtain ⟨S, hrun, hS⟩ := (Option.any_eq_true _ _).mp hfinal
  obtain ⟨ctx, hctx, e, he, hold, hnew⟩ := of_decide_eq_true hS
  have hrate := processedAt_iff.mp (h.of_run hrun "x" ctx hctx e he)
  have hdiffer : floatRate 1000000 ≠ floatRate 2000000 := by decide +kernel
  rw [hnew, DestInfo.read, hold] at hrate
  exact hdiffer hrate

end DataPath

end Chem
