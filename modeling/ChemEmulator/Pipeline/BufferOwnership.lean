import ChemEmulator.Net.ReceiveBounds
import ChemEmulator.Pipeline.BufferConservation
import Mathlib.Algebra.BigOperators.Fin

/-!
# Every IQ buffer is in one place

The steps of the whole pipeline conserve the buffers, hence so does every run.
A place is a pool, a queue, or the variables of a step that is under way.
Counting a single buffer shows that it is always in exactly one of them;
counting all of them gives the capacity of the pools.
-/

namespace Chem
namespace Pipeline

open Holder Outcome Tally PartialRuns

variable {n : ℕ}

namespace State

variable {s : State n}

/-! ## Operations on one component -/

theorem atReceiver_conserves (extra : (ℕ → ℕ) → ℕ) (r : ℕ)
    {op : DataArrayPool → Receiver n → Except Halt (DataArrayPool × Receiver n)}
    (hs : Loaded s)
    (hop : ∀ pool rx, Loaded rx → Conserves NotThrown
      (fun w => weight w pool + weight w rx + extra w) (op pool rx)) :
    Conserves NotThrown (fun w => weight w s + extra w)
      (s.atReceiver r op) := by
  obtain ⟨hreceivers, hworkers, htransmitters⟩ := hs
  unfold atReceiver
  split
  · exact rfl
  next rx hrx =>
    apply (hop (s.pools rx.iqPool) rx (loaded_getElem hreceivers hrx)).bind
    rintro ⟨pool, rx'⟩ ⟨-, hrx'⟩ hw
    refine conserves_ok
      ⟨loaded_set r hreceivers hrx', hworkers, htransmitters⟩ ?_
    intro w
    have hpair := hw w
    have hpool := weight_update w s.pools rx.iqPool pool
    have hlist := weight_set w hrx rx'
    simp only [weight_pair] at hpair
    simp only [State.weight_eq]
    omega

theorem atWorker_conserves (extra : (ℕ → ℕ) → ℕ) (k : ℕ)
    {op : IqPools n → WorkerContext n →
      Except Halt (IqPools n × WorkerContext n)}
    (hs : Loaded s)
    (hop : ∀ pools ctx, Loaded ctx → Conserves NotThrown
      (fun w => weight w pools + weight w ctx + extra w) (op pools ctx)) :
    Conserves NotThrown (fun w => weight w s + extra w)
      (s.atWorker k op) := by
  obtain ⟨hreceivers, hworkers, htransmitters⟩ := hs
  unfold atWorker
  split
  · exact rfl
  next ctx hctx =>
    apply (hop s.pools ctx (loaded_getElem hworkers hctx)).bind
    rintro ⟨pools, ctx'⟩ ⟨-, hctx'⟩ hw
    refine conserves_ok
      ⟨hreceivers, loaded_set k hworkers hctx', htransmitters⟩ ?_
    intro w
    have hpair := hw w
    have hlist := weight_set w hctx ctx'
    simp only [weight_pair] at hpair
    simp only [State.weight_eq]
    omega

theorem onFirstPool_conserves {extra : (ℕ → ℕ) → ℕ}
    {op : DataArrayPool → WorkerContext n →
      Except Halt (DataArrayPool × WorkerContext n)}
    (hop : ∀ pool ctx, Loaded ctx → Conserves NotThrown
      (fun w => weight w pool + weight w ctx + extra w) (op pool ctx))
    (pools : IqPools n) (ctx : WorkerContext n) (hctx : Loaded ctx) :
    Conserves NotThrown
      (fun w => weight w pools + weight w ctx + extra w)
      (onFirstPool op pools ctx) := by
  apply (hop (pools 0) ctx hctx).bind
  rintro ⟨pool, ctx'⟩ ⟨-, hctx'⟩ hw
  refine conserves_ok ⟨fun _ => trivial, hctx'⟩ ?_
  intro w
  have hpair := hw w
  have hpool := weight_update w pools 0 pool
  simp only [weight_pair] at hpair ⊢
  omega

theorem atTransmitter_conserves (extra : (ℕ → ℕ) → ℕ) (t : ℕ)
    {op : DataArrayPool → Transmitter n →
      Except Halt (DataArrayPool × Transmitter n)}
    (hs : Loaded s)
    (hop : ∀ pool tx, Loaded tx → Conserves NotThrown
      (fun w => weight w pool + weight w tx + extra w) (op pool tx)) :
    Conserves NotThrown (fun w => weight w s + extra w)
      (s.atTransmitter t op) := by
  obtain ⟨hreceivers, hworkers, htransmitters⟩ := hs
  unfold atTransmitter
  split
  · exact rfl
  next tx htx =>
    apply (hop (s.pools tx.iqPool) tx (loaded_getElem htransmitters htx)).bind
    rintro ⟨pool, tx'⟩ ⟨-, htx'⟩ hw
    refine conserves_ok
      ⟨hreceivers, hworkers, loaded_set t htransmitters htx'⟩ ?_
    intro w
    have hpair := hw w
    have hpool := weight_update w s.pools tx.iqPool pool
    have hlist := weight_set w htx tx'
    simp only [weight_pair] at hpair
    simp only [State.weight_eq]
    omega

/-! ## Handing a signal on -/

theorem handOver_conserves (r : ℕ) (callback : Callback) {sig : Signal}
    {enqueue : DataArrayPool → Receiver n → Signal →
      Except Halt (DataArrayPool × Receiver n)}
    (hs : Loaded s) (hsig : Loaded sig)
    (henqueue : ∀ pool rx, Loaded rx → Conserves NotThrown
      (fun w => weight w pool + weight w rx + weight w sig)
      (enqueue pool rx sig)) :
    Conserves NotThrown (fun w => weight w s + weight w sig)
      (s.handOver r callback sig enqueue) := by
  cases callback with
  | unset => exact atReceiver_conserves _ r hs henqueue
  | worker k =>
      exact atWorker_conserves _ k hs (onFirstPool_conserves
        fun _ _ hctx => WorkerContext.callback_conserves hctx hsig)
  | discard =>
      apply (s.pools.giveBack_conserves 0 hsig).bind
      intro pools _ hw
      refine conserves_ok hs ?_
      intro w
      have hback := hw w
      simp only [State.weight_eq]
      omega

theorem takeReceived_conserves (r : ℕ) (hs : Loaded s) :
    Ends NotThrown
      (fun x => Loaded x.2.1 ∧ Loaded x.2.2 ∧
        ∀ w, weight w x.2.2 + weight w x.2.1 = weight w s)
      (s.takeReceived r) := by
  obtain ⟨hreceivers, hworkers, htransmitters⟩ := hs
  unfold takeReceived
  split
  · exact rfl
  next rx hrx =>
    have hloaded := loaded_getElem hreceivers hrx
    split
    · exact rfl
    next hdr data hreceived =>
      obtain ⟨hsize, hdata⟩ := hloaded.2 hdr data hreceived
      obtain ⟨a, rfl⟩ := Option.isSome_iff_exists.mp hdata
      obtain ⟨hsig, hsame⟩ := Signal.loaded_create a hsize
      refine ⟨hsig, ⟨loaded_set r hreceivers ?_, hworkers, htransmitters⟩, ?_⟩
      · exact ⟨hloaded.1, fun _ _ hnone => by cases hnone⟩
      · intro w
        have hlist := weight_set w hrx { rx with received := none }
        have hheld : weight w rx =
            weight w { rx with received := none } + weight w a := by
          simp only [Receiver.weight_eq, hreceived]
          rfl
        simp only [State.weight_eq, hsame w]
        omega

theorem deliver_conserves (r : ℕ) (hs : Loaded s) :
    Conserves NotThrown (fun w => weight w s) (s.deliver r) := by
  have hroom : Conserves NotThrown (fun w => weight w s)
      (s.atReceiver r Receiver.makeRoom) :=
    atReceiver_conserves (fun _ => 0) r hs
      fun _ _ hrx => Receiver.makeRoom_conserves hrx
  apply hroom.bind
  intro s' hs' hw
  apply (takeReceived_conserves r hs').bind
  rintro ⟨callback, sig, s''⟩ ⟨hsig, hs'', hw'⟩
  apply (handOver_conserves r callback hs'' hsig
    fun _ _ hrx => Receiver.enqueue_conserves hrx hsig).of_total
  intro w
  exact (hw' w).trans (hw w)

theorem add2Local_conserves (r : ℕ) (hs : Loaded s) :
    Conserves NotThrown (fun w => weight w s) (s.add2Local r) := by
  apply (takeReceived_conserves r hs).bind
  rintro ⟨callback, sig, s'⟩ ⟨hsig, hs', hw⟩
  exact (handOver_conserves r callback hs' hsig
    fun _ _ hrx => Receiver.add2Buff_conserves hrx hsig).of_total hw

theorem add2Buff_conserves (k j : ℕ) (hs : Loaded s) :
    Conserves NotThrown (fun w => weight w s) (s.add2Buff k j) := by
  obtain ⟨hreceivers, hworkers, htransmitters⟩ := hs
  unfold add2Buff
  split
  · exact rfl
  next ctx hctx =>
    have hloaded := loaded_getElem hworkers hctx
    split
    · exact rfl
    next t sig hj =>
      have hsnd : (ctx.outgoing.map Prod.snd)[j]? = some sig := by
        rw [List.getElem?_map, hj]
        rfl
      have hsig : Loaded sig := loaded_getElem hloaded.2.1 hsnd
      have hctx' : Loaded
          { ctx with outgoing := ctx.outgoing.eraseIdx j } := by
        refine ⟨hloaded.1, ?_, hloaded.2.2⟩
        simp only [← List.eraseIdx_map]
        exact loaded_eraseIdx j hloaded.2.1
      have hs' : Loaded { s with
          workers := s.workers.set k
            { ctx with outgoing := ctx.outgoing.eraseIdx j } } :=
        ⟨hreceivers, loaded_set k hworkers hctx', htransmitters⟩
      apply (atTransmitter_conserves _ t hs'
        fun _ _ htx => Transmitter.add2Buff_conserves htx hsig).of_total
      intro w
      have hlist := weight_set w hctx
        { ctx with outgoing := ctx.outgoing.eraseIdx j }
      have herase := weight_eraseIdx w hsnd
      rw [List.eraseIdx_map] at herase
      simp only [WorkerContext.weight_eq] at hlist
      simp only [State.weight_eq]
      omega

/-! ## Attaching and detaching -/

theorem attachSource_conserves (i r : ℕ) (node : ℤ) (hs : Loaded s) :
    Conserves NotThrown (fun w => weight w s) (s.attachSource i r node) := by
  unfold attachSource
  split
  · exact rfl
  next rx hrx =>
    split
    · exact conserves_ok hs fun _ => rfl
    · obtain ⟨hreceivers, hworkers, htransmitters⟩ := hs
      have hloaded := loaded_getElem hreceivers hrx
      have hrx' : Loaded { rx with add2Queue := .worker s.workers.length } :=
        hloaded
      refine conserves_ok ⟨loaded_set r hreceivers hrx', ?_, htransmitters⟩ ?_
      · refine loaded_append.mpr ⟨hworkers, loaded_cons.mpr ⟨?_, loaded_nil⟩⟩
        exact ⟨loaded_nil, loaded_nil, fun h => absurd rfl h⟩
      · intro w
        have hlist := weight_set w hrx
          { rx with add2Queue := .worker s.workers.length }
        have hfresh : weight w (WorkerContext.create (n := n) rx.nodeId node) = 0 :=
          rfl
        have hsame : weight w
            { rx with add2Queue := .worker s.workers.length } = weight w rx :=
          rfl
        simp only [State.weight_eq, weight_append, weight_cons, weight_nil]
        omega

theorem detachSource_conserves (i r : ℕ) (hs : Loaded s) :
    Conserves NotThrown (fun w => weight w s) (s.detachSource i r) := by
  unfold detachSource
  split
  · exact rfl
  next rx hrx =>
    split
    · exact conserves_ok hs fun _ => rfl
    next k hk =>
      obtain ⟨hreceivers, hworkers, htransmitters⟩ := hs
      have hloaded := loaded_getElem hreceivers hrx
      have hrx' : Loaded { rx with add2Queue := .discard } := hloaded
      have hs' : Loaded { s with
          receivers := s.receivers.set r { rx with add2Queue := .discard }
          sources := s.sources.erase (i, rx.nodeId) } :=
        ⟨loaded_set r hreceivers hrx', hworkers, htransmitters⟩
      apply (atWorker_conserves (fun _ => 0) k hs'
        (onFirstPool_conserves
          fun _ _ hctx => WorkerContext.shutdown_conserves hctx)).of_total
      intro w
      have hlist := weight_set w hrx { rx with add2Queue := .discard }
      have hsame : weight w { rx with add2Queue := .discard } = weight w rx :=
        rfl
      simp only [State.weight_eq]
      omega

/-- No step loses or duplicates a buffer, and none ends in an exception. -/
theorem perform_conserves (a : Step) (hs : Loaded s) :
    Conserves NotThrown (fun w => weight w s) (s.perform a) := by
  cases a with
  | recv r hdr os =>
      exact atReceiver_conserves (fun _ => 0) r hs
        fun _ _ hrx => Receiver.recv_conserves hdr os hrx
  | deliver r => exact deliver_conserves r hs
  | add2Local r => exact add2Local_conserves r hs
  | workerLoop k now maxLatencyNs destinations =>
      exact atWorker_conserves (fun _ => 0) k hs
        fun _ _ hctx => WorkerContext.workerLoop_conserves now maxLatencyNs
          destinations hctx
  | processDestinationSignal k j distance samples =>
      exact atWorker_conserves (fun _ => 0) k hs
        fun _ _ hctx => WorkerContext.processDestinationSignal_conserves j
          distance samples hctx
  | add2Buff k j => exact add2Buff_conserves k j hs
  | transmit t sendTime env =>
      exact atTransmitter_conserves (fun _ => 0) t hs
        fun _ _ htx => Transmitter.transmit_conserves sendTime env htx
  | attachSource i r node => exact attachSource_conserves i r node hs
  | detachSource i r => exact detachSource_conserves i r hs

end State

/-! ## Places -/

/-- Where a buffer can be: in a pool, in a queue, or in the hands of a step
that is under way (a burst that `Recv` returned, a buffer acquired for a
destination, a signal on its way to a transmitter). -/
inductive Place (n : ℕ) where
  | pool (i : Fin (n + 1))
  | received (r : ℕ)
  | localQueue (r : ℕ)
  | workerQueue (k : ℕ)
  | pending (k : ℕ)
  | outgoing (k : ℕ)
  | transmitterQueue (t : ℕ)

/-- The buffers behind a pointer. -/
def arrayIdents : Option DArray → List ℕ
  | none => []
  | some a => [a.ident]

def queueIdents (queue : List Signal) : List ℕ :=
  queue.flatMap fun sig => arrayIdents sig.iqData

def receivedIdents : Option (Header × Option DArray) → List ℕ
  | none => []
  | some (_, data) => arrayIdents data

/-- What the `i`-th component holds, if there is one. -/
def heldAt {α : Type} (l : List α) (i : ℕ) (held : α → List ℕ) : List ℕ :=
  (l[i]?.map held).getD []

namespace State

/-- The buffers that are in a place. -/
def contents (s : State n) : Place n → List ℕ
  | .pool i => (s.pools i).pool.map DArray.ident
  | .received r => heldAt s.receivers r fun rx => receivedIdents rx.received
  | .localQueue r => heldAt s.receivers r fun rx => queueIdents rx.queue
  | .workerQueue k => heldAt s.workers k fun ctx => queueIdents ctx.queue
  | .pending k =>
      heldAt s.workers k fun ctx => ctx.pending.map fun x => x.2.ident
  | .outgoing k =>
      heldAt s.workers k fun ctx => queueIdents (ctx.outgoing.map Prod.snd)
  | .transmitterQueue t => heldAt s.transmitters t fun tx => queueIdents tx.queue

/-- The places that exist in a state. -/
def places (s : State n) : List (Place n) :=
  (List.finRange (n + 1)).map .pool ++
    ((List.range s.receivers.length).flatMap fun r =>
      [.received r, .localQueue r]) ++
    ((List.range s.workers.length).flatMap fun k =>
      [.workerQueue k, .pending k, .outgoing k]) ++
    (List.range s.transmitters.length).map .transmitterQueue

/-- All buffers, place by place. -/
def buffers (s : State n) : List ℕ := s.places.flatMap s.contents

end State

/-- The buffers that the pools are created with. -/
def Config.buffers (c : Config n) : List ℕ :=
  (List.finRange (n + 1)).flatMap fun i =>
    (List.range (c.capacity i)).map (c.before i + ·)

/-! ## Counting by places -/

theorem tally_arrayIdents (w : ℕ → ℕ) (item : Option DArray) :
    tally w (arrayIdents item) = arrayWeight w item := by
  cases item with
  | none => rfl
  | some a => exact Nat.add_zero _

theorem tally_queueIdents (w : ℕ → ℕ) (queue : List Signal) :
    tally w (queueIdents queue) = weight w queue := by
  rw [queueIdents, tally_flatMap]
  simp only [tally_arrayIdents]
  rfl

theorem tally_receivedIdents (w : ℕ → ℕ)
    (received : Option (Header × Option DArray)) :
    tally w (receivedIdents received) = receivedWeight w received := by
  cases received with
  | none => rfl
  | some x => exact tally_arrayIdents w x.2

theorem heldAt_of_some {α : Type} {l : List α} {i : ℕ} {a : α}
    (h : l[i]? = some a) (held : α → List ℕ) : heldAt l i held = held a := by
  rw [heldAt, h]
  rfl

theorem lt_of_mem_heldAt {α : Type} {l : List α} {i b : ℕ}
    {held : α → List ℕ} (h : b ∈ heldAt l i held) : i < l.length := by
  by_contra hge
  rw [heldAt, List.getElem?_eq_none (Nat.le_of_not_lt hge)] at h
  cases h

namespace State

/-- The places of a state account for its whole weight. -/
theorem tally_buffers (w : ℕ → ℕ) (s : State n) :
    tally w s.buffers = weight w s := by
  have hpools : tally w
      (((List.finRange (n + 1)).map Place.pool).flatMap s.contents) =
        weight w s.pools := by
    rw [List.flatMap_map, tally_flatMap]
    simp only [contents, tally_map]
    exact (Fin.sum_univ_def fun i => weight w (s.pools i)).symm
  have hreceivers : tally w
      (((List.range s.receivers.length).flatMap fun r =>
        [Place.received r, .localQueue r]).flatMap s.contents) =
        weight w s.receivers := by
    rw [List.flatMap_assoc, tally_flatMap]
    apply tally_range
    intro r rx hrx
    simp only [List.flatMap_cons, List.flatMap_nil, contents,
      heldAt_of_some hrx, List.append_nil, tally_append,
      tally_receivedIdents, tally_queueIdents]
    rw [Receiver.weight_eq, Nat.add_comm]
  have hworkers : tally w
      (((List.range s.workers.length).flatMap fun k =>
        [Place.workerQueue k, .pending k, .outgoing k]).flatMap s.contents) =
        weight w s.workers := by
    rw [List.flatMap_assoc, tally_flatMap]
    apply tally_range
    intro k ctx hctx
    have hpending : tally w (ctx.pending.map fun x => x.2.ident) =
        weight w (ctx.pending.map Prod.snd) := by
      rw [weight_list, tally_map, tally_map]
      rfl
    simp only [List.flatMap_cons, List.flatMap_nil, contents,
      heldAt_of_some hctx, List.append_nil, tally_append, tally_queueIdents,
      hpending]
    rw [WorkerContext.weight_eq, Nat.add_assoc]
  have htransmitters : tally w
      (((List.range s.transmitters.length).map
        Place.transmitterQueue).flatMap s.contents) =
        weight w s.transmitters := by
    rw [List.flatMap_map, tally_flatMap]
    apply tally_range
    intro t tx htx
    simp only [contents, heldAt_of_some htx, tally_queueIdents]
    rfl
  rw [buffers, places]
  simp only [List.flatMap_append, tally_append, hpools, hreceivers, hworkers,
    htransmitters]
  rfl

/-- A place with a buffer in it exists. -/
theorem mem_places {s : State n} {p : Place n} {b : ℕ}
    (h : b ∈ s.contents p) : p ∈ s.places := by
  cases p with
  | pool i => simp [places]
  | received r => simp [places, lt_of_mem_heldAt h]
  | localQueue r => simp [places, lt_of_mem_heldAt h]
  | workerQueue k => simp [places, lt_of_mem_heldAt h]
  | pending k => simp [places, lt_of_mem_heldAt h]
  | outgoing k => simp [places, lt_of_mem_heldAt h]
  | transmitterQueue t => simp [places, lt_of_mem_heldAt h]

end State

/-! ## The start -/

theorem Config.before_add_capacity_le (c : Config n) {i j : Fin (n + 1)}
    (h : i < j) : c.before i + c.capacity i ≤ c.before j := by
  have hnotin : i ∉ Finset.univ.filter (· < i) := by simp
  rw [Config.before, Config.before, Nat.add_comm,
    ← Finset.sum_insert hnotin]
  apply Finset.sum_le_sum_of_subset
  intro k hk
  rcases Finset.mem_insert.mp hk with rfl | hk
  · exact Finset.mem_filter.mpr ⟨Finset.mem_univ k, h⟩
  · have hlt := (Finset.mem_filter.mp hk).2
    exact Finset.mem_filter.mpr ⟨Finset.mem_univ k, hlt.trans h⟩

/-- The pools are numbered without overlap. -/
theorem Config.nodup_buffers (c : Config n) : c.buffers.Nodup := by
  rw [Config.buffers, List.nodup_flatMap]
  constructor
  · intro i _
    exact List.nodup_range.map (add_right_injective (c.before i))
  · apply (List.pairwise_lt_finRange (n + 1)).imp
    intro i j hij b hi hj
    obtain ⟨x, hx, rfl⟩ := List.mem_map.mp hi
    obtain ⟨y, hy, heq⟩ := List.mem_map.mp hj
    have hlt := List.mem_range.mp hx
    have hle := c.before_add_capacity_le hij
    omega

theorem Config.length_buffers (c : Config n) :
    c.buffers.length = ∑ i, c.capacity i := by
  rw [Config.buffers, List.length_flatMap, Fin.sum_univ_def]
  simp only [List.length_map, List.length_range]

namespace State

theorem loaded_initial (c : Config n) : Loaded (initial c) := by
  refine ⟨?_, loaded_nil, ?_⟩
  · intro rx hrx
    obtain ⟨x, _, rfl⟩ := List.mem_map.mp hrx
    exact ⟨loaded_nil, fun _ _ hnone => by cases hnone⟩
  · intro tx htx
    obtain ⟨x, _, rfl⟩ := List.mem_map.mp htx
    exact loaded_nil

theorem weight_initial (c : Config n) (w : ℕ → ℕ) :
    weight w (initial c) = tally w c.buffers := by
  have hpools : weight w (initial c).pools = tally w c.buffers := by
    rw [Config.buffers, tally_flatMap]
    refine (Fin.sum_univ_def fun i => weight w ((initial c).pools i)).trans ?_
    apply congrArg List.sum
    apply List.map_congr_left
    intro i _
    rw [tally_map]
    exact tally_map _ _ _
  have hreceivers : weight w (initial c).receivers = 0 := by
    apply tally_eq_zero
    intro rx hrx
    obtain ⟨x, _, rfl⟩ := List.mem_map.mp hrx
    rfl
  have htransmitters : weight w (initial c).transmitters = 0 := by
    apply tally_eq_zero
    intro tx htx
    obtain ⟨x, _, rfl⟩ := List.mem_map.mp htx
    rfl
  have hworkers : weight w (initial c).workers = 0 := rfl
  rw [State.weight_eq, hpools, hreceivers, hworkers, htransmitters]
  rfl

/-! ## Runs -/

/-- What the emulator keeps of its buffers in a state. -/
structure Conserved (c : Config n) (s : State n) : Prop where
  /-- Every buffer is in exactly one place. -/
  one_place : ∀ b ∈ c.buffers, ∃! p, b ∈ s.contents p
  /-- It is there once. -/
  once : ∀ p, (s.contents p).Nodup
  /-- No place holds anything else. -/
  known : ∀ p, ∀ b ∈ s.contents p, b ∈ c.buffers
  /-- Over all places there are as many buffers as the pools were created
  with. -/
  total : (s.places.map fun p => (s.contents p).length).sum =
    ∑ i, c.capacity i
  /-- A batch that cannot be acquired leaves its pool as it was. -/
  failed_batch : ∀ i count msg pool,
    (s.pools i).acquireBatch count = (.error msg, pool) →
      pool.idents = (s.pools i).idents
  /-- No step ends in an exception. -/
  no_exception : ∀ a msg, s.perform a ≠ .error (.threw msg)

theorem Conserved.of_weight {c : Config n} {s : State n} (hs : Loaded s)
    (hw : ∀ w, weight w s = tally w c.buffers) : Conserved c s := by
  have hperm : s.buffers.Perm c.buffers := by
    apply perm_of_tally
    intro w
    rw [tally_buffers, hw]
  have hnodup : s.buffers.Nodup := hperm.nodup_iff.mpr c.nodup_buffers
  obtain ⟨honce, hdisjoint⟩ := List.nodup_flatMap.mp hnodup
  have hmem : ∀ {p b}, b ∈ s.contents p → b ∈ s.buffers :=
    fun hb => List.mem_flatMap.mpr ⟨_, mem_places hb, hb⟩
  refine ⟨?_, ?_, ?_, ?_, ?_, ?_⟩
  · intro b hb
    obtain ⟨p, hp, hbp⟩ := List.mem_flatMap.mp (hperm.mem_iff.mpr hb)
    refine ⟨p, hbp, ?_⟩
    intro q hbq
    by_contra hne
    have hsymm : Std.Symm (Function.onFun List.Disjoint s.contents) :=
      ⟨fun _ _ h => h.symm⟩
    exact hdisjoint.forall (mem_places hbq) hp hne hbq hbp
  · intro p
    by_cases hp : p ∈ s.places
    · exact honce p hp
    · have hempty : s.contents p = [] := by
        apply List.eq_nil_iff_forall_not_mem.mpr
        exact fun b hb => hp (mem_places hb)
      rw [hempty]
      exact List.nodup_nil
  · intro p b hb
    exact hperm.mem_iff.mp (hmem hb)
  · rw [← c.length_buffers, ← hperm.length_eq, buffers, List.length_flatMap]
  · intro i count msg pool hbatch
    rw [DataArrayPool.acquireBatch_error hbatch]
  · intro a msg hthrew
    have hblocked : Halt.threw msg = .blocked :=
      (perform_conserves a hs).of_error hthrew
    cases hblocked

theorem perform_of_step {s t : State n} {a : Step} (h : s.step a = some t) :
    s.perform a = .ok t := by
  unfold step at h
  cases hperform : s.perform a with
  | error e =>
      rw [hperform] at h
      cases h
  | ok u =>
      rw [hperform] at h
      cases h
      rfl

theorem step_keeps_weight {s t : State n} {a : Step} (hs : Loaded s)
    (h : s.step a = some t) :
    Loaded t ∧ ∀ w, weight w t = weight w s :=
  (perform_conserves a hs).of_ok (perform_of_step h)

/-- In every run of receiving, delivering, processing, transmitting, attaching
and detaching, with any number of pools of any capacity, every IQ buffer is
always in exactly one place and none is lost. -/
theorem buffers_conserved (c : Config n) (steps : List Step) :
    EveryState step (Conserved c) (initial c) steps := by
  have hrun : EveryState step
      (fun s => Loaded s ∧ ∀ w, weight w s = tally w c.buffers)
      (initial c) steps := by
    apply everyState_of_invariant
    · rintro s a t ⟨hs, hw⟩ hstep
      obtain ⟨ht, hsame⟩ := step_keeps_weight hs hstep
      exact ⟨ht, fun w => (hsame w).trans (hw w)⟩
    · exact ⟨loaded_initial c, weight_initial c⟩
  apply hrun.imp
  rintro s ⟨hs, hw⟩
  exact Conserved.of_weight hs hw

-- One burst on its way from the socket to a transmitter, with two pools: the
-- worker runs on the second node, so the buffer that was received into ends in
-- the second pool and the one that was sent comes back to the first.
example :
    (run step (initial ⟨fun _ : Fin 2 => 2, [("A", 0)], [(0, 5000)]⟩)
      [.attachSource 0 0 1,
        .recv 0 Header.zero [.packets [UDPServer.twoByteStart 5 2]],
        .deliver 0,
        .workerLoop 0 0 10 [⟨0, 0, 1⟩],
        .processDestinationSignal 0 0 (.finite 0) fun _ => 0,
        .add2Buff 0 0,
        .transmit 0 0 ⟨fun _ => 0, ⟨0, 0, 0, 0, 0⟩, 0⟩]).map
      (fun s => (s.contents (.pool 0), s.contents (.pool 1))) =
        some ([1, 2], [3, 0]) := by
  decide +kernel

end State

end Pipeline
end Chem
