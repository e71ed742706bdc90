import ChemEmulator.Channel.Geometry
import ChemEmulator.Support.PartialRuns

/-!
# The devices of a Sionna scene

`extensions/sionna/src/sionna_client.cpp`, `syncPositions`: every node with a
location is registered once as a transmitter and once as a receiver, and its
position is sent again when it has changed.

The server keeps two lists.  A registration appends a device, unless its name is
taken; then the answer is an error status.  The client does not look at the
status: any answer counts as a success, and only an exception as a failure.  It
mirrors the lists by the order of its registrations (`m_txOrder`, `m_rxOrder`)
and remembers the last position of a node whatever became of the two requests
(`m_lastPositions`).
-/

namespace Chem
namespace SionnaExtension

open Chem.Geometry PartialRuns

variable {R : Type}

/-! ## The server -/

/-- How a request ends: with an exception before it has had an effect, with an
error status of its own, or in the hands of the server. -/
inductive Reply where
  | threw
  | refused
  | processed
deriving DecidableEq

/-- A transmitter or a receiver, and the node that it was registered for. -/
structure Device (R : Type) where
  owner : NodeId
  name : String
  position : Geometry.Location R

/-- `POST`: a new device. -/
def post (taken : String → Bool) (reply : Reply) (device : Device R)
    (devices : List (Device R)) : List (Device R) :=
  if reply = .processed ∧ taken device.name = false then devices ++ [device]
  else devices

/-- `PUT`: a new position of the device with the name. -/
def put (reply : Reply) (name : String) (position : Geometry.Location R)
    (devices : List (Device R)) : List (Device R) :=
  if reply = .processed then
    devices.map fun d =>
      if d.name = name then { d with position := position } else d
  else devices

/-! ## The client -/

/-- What there is of the devices of one kind: `m_txMap` and `m_txOrder`, or
`m_rxMap` and `m_rxOrder`, and the list of the server. -/
structure Endpoint (R : Type) where
  map : FiniteMap NodeId String
  order : List String
  devices : List (Device R)

structure Registry (R : Type) where
  tx : Endpoint R
  rx : Endpoint R
  lastPositions : FiniteMap NodeId (Geometry.Location R)

/-- A node of the map, and how the requests end that a pass makes for it. -/
structure Visit (R : Type) where
  id : NodeId
  node : LocatedNode R
  txReply : Reply
  rxReply : Reply

namespace Endpoint

def empty : Endpoint R := ⟨∅, [], []⟩

def names (e : Endpoint R) : List String := e.devices.map Device.name

/-- The registration or the update of one node. -/
def sync (taken : String → Bool) (e : Endpoint R) (id : NodeId) (name : String)
    (position : Geometry.Location R) (reply : Reply) : Endpoint R :=
  match e.map.lookup id with
  | none =>
      let devices := post taken reply ⟨id, name, position⟩ e.devices
      if reply = .threw then { e with devices := devices }
      else
        { map := e.map.insert id name
          order := e.order ++ [name]
          devices := devices }
  | some registered =>
      { e with devices := put reply registered position e.devices }

end Endpoint

namespace Registry

/-- After `createScene`. -/
def start : Registry R := ⟨.empty, .empty, ∅⟩

/-- Names are unique across both lists. -/
def taken (s : Registry R) (name : String) : Bool :=
  decide (name ∈ s.tx.names ++ s.rx.names)

/-- `m_lastPositions` has the position already. -/
def cached [BEq R] (s : Registry R) (id : NodeId)
    (loc : Geometry.Location R) : Bool :=
  match s.lastPositions.lookup id with
  | none => false
  | some c => c.lat == loc.lat && c.lon == loc.lon && c.alt == loc.alt

end Registry

namespace Visit

/-- `nodeName`. -/
def nodeName (v : Visit R) : String :=
  if v.node.name.isEmpty then v.id else v.node.name

def txName (v : Visit R) : String := v.nodeName ++ "-tx"

def rxName (v : Visit R) : String := v.nodeName ++ "-rx"

/-- The location that is sent: there is one, and it is not the last one. -/
def moved [BEq R] (s : Registry R) (v : Visit R) :
    Option (Geometry.Location R) :=
  (v.node.location.map NodeLocation.position).filter fun loc =>
    !s.cached v.id loc

end Visit

/-- `posObj`: heights are above the ellipsoid. -/
def posObj [Add R] (refAlt : R) (loc : Geometry.Location R) :
    Geometry.Location R :=
  { loc with alt := loc.alt + refAlt }

namespace Registry

variable [BEq R] [Add R]

/-- One pass of the loop of `syncPositions`. -/
def visit (refAlt : R) (s : Registry R) (v : Visit R) : Registry R :=
  match v.moved s with
  | none => s
  | some loc =>
      let tx := s.tx.sync s.taken v.id v.txName (posObj refAlt loc) v.txReply
      let s := { s with tx := tx }
      let rx := s.rx.sync s.taken v.id v.rxName (posObj refAlt loc) v.rxReply
      { s with rx := rx, lastPositions := s.lastPositions.insert v.id loc }

/-- `syncPositions`. -/
def syncPositions (refAlt : R) (sceneId : String) (s : Registry R)
    (nodes : List (Visit R)) : Registry R :=
  if sceneId.isEmpty then s else nodes.foldl (visit refAlt) s

/-- The visits of all passes, one after the other. -/
def step (refAlt : R) (s : Registry R) (v : Visit R) : Option (Registry R) :=
  some (s.visit refAlt v)

theorem run_step (refAlt : R) (s : Registry R) (vs : List (Visit R)) :
    run (step refAlt) s vs = some (vs.foldl (visit refAlt) s) := by
  induction vs generalizing s with
  | nil => rfl
  | cons v vs ih => exact ih (s.visit refAlt v)

/-- A sequence of passes is a run over the visits of all of them. -/
theorem run_passes (refAlt : R) {sceneId : String}
    (hscene : sceneId.isEmpty = false) (s : Registry R)
    (passes : List (List (Visit R))) :
    run (step refAlt) s passes.flatten =
      some (passes.foldl (syncPositions refAlt sceneId) s) := by
  have hpass : syncPositions refAlt sceneId = fun s (nodes : List (Visit R)) =>
      nodes.foldl (visit refAlt) s := by
    funext s nodes
    rw [syncPositions, hscene]
    rfl
  rw [run_step, List.foldl_flatten, hpass]

end Registry

/-! ## One endpoint -/

/-- A registration that is answered with an error status, by the server or for
a name that is taken. -/
def ErrorStatus (taken : String → Bool) (e : Endpoint R) (id : NodeId)
    (name : String) (reply : Reply) : Prop :=
  e.map.lookup id = none ∧
    (reply = .refused ∨ reply = .processed ∧ taken name = true)

namespace Endpoint

variable {taken : String → Bool} {e : Endpoint R} {id : NodeId}
  {name : String} {position : Geometry.Location R} {reply : Reply}

/-- The order of the registrations is the order of the server. -/
def Mirrored (e : Endpoint R) : Prop := e.order = e.names

/-- Every device was registered for a node that knows its name, and the names
are different. -/
structure Registered (e : Endpoint R) : Prop where
  mirrored : e.Mirrored
  nodup : e.names.Nodup
  map_iff : ∀ id name, e.map.lookup id = some name ↔
    ∃ d ∈ e.devices, d.owner = id ∧ d.name = name

/-- There is a device of the node at the position. -/
def At (e : Endpoint R) (id : NodeId) (position : Geometry.Location R) : Prop :=
  ∃ d ∈ e.devices, d.owner = id ∧ d.position = position

theorem registered_empty : (empty : Endpoint R).Registered where
  mirrored := rfl
  nodup := List.nodup_nil
  map_iff id name := by
    constructor
    · intro h
      cases h
    · rintro ⟨d, hd, -⟩
      cases hd

theorem names_put (devices : List (Device R)) :
    (put reply name position devices).map Device.name =
      devices.map Device.name := by
  unfold put
  split_ifs
  · rw [List.map_map]
    apply List.map_congr_left
    intro d _
    rw [Function.comp_apply]
    split_ifs <;> rfl
  · rfl

/-- Devices keep their names and owners. -/
theorem exists_mem_put (devices : List (Device R)) (id : NodeId)
    (name' : String) :
    (∃ d ∈ put reply name position devices, d.owner = id ∧ d.name = name') ↔
      ∃ d ∈ devices, d.owner = id ∧ d.name = name' := by
  unfold put
  split_ifs
  · simp only [List.mem_map, exists_exists_and_eq_and]
    refine exists_congr fun d => and_congr_right fun _ => ?_
    split_ifs <;> rfl
  · rfl

/-- What a registration leaves. -/
theorem sync_of_none (h : e.map.lookup id = none) :
    e.sync taken id name position reply =
      if reply = .threw then e
      else
        { map := e.map.insert id name
          order := e.order ++ [name]
          devices := post taken reply ⟨id, name, position⟩ e.devices } := by
  rw [sync, h]
  dsimp only
  split_ifs with hthrew
  · rw [hthrew, post, if_neg (by simp)]
  · rfl

theorem sync_of_some {registered : String}
    (h : e.map.lookup id = some registered) :
    e.sync taken id name position reply =
      { e with devices := put reply registered position e.devices } := by
  rw [sync, h]

/-- The lists part exactly at an error status. -/
theorem mirrored_sync_iff (h : e.Mirrored) :
    (e.sync taken id name position reply).Mirrored ↔
      ¬ErrorStatus taken e id name reply := by
  have hgrown : e.order ++ [name] ≠ e.names := by
    intro hsame
    rw [← show e.order = e.names from h] at hsame
    exact List.cons_ne_nil _ _ (List.append_right_eq_self.mp hsame)
  unfold ErrorStatus
  cases hlookup : e.map.lookup id with
  | some registered =>
      rw [sync_of_some hlookup]
      refine iff_of_true ?_ (by simp)
      exact Eq.trans h (names_put e.devices).symm
  | none =>
      rw [sync_of_none hlookup]
      simp only [true_and]
      cases reply with
      | threw => exact iff_of_true h (by simp)
      | refused =>
          rw [if_neg (by decide)]
          exact iff_of_false hgrown (by simp)
      | processed =>
          simp only [reduceCtorEq, false_or, true_and, if_false]
          cases htaken : taken name with
          | true =>
              refine iff_of_false ?_ (by simp)
              rw [Mirrored, names, post, if_neg (by simp [htaken])]
              exact hgrown
          | false =>
              refine iff_of_true ?_ (by simp)
              rw [Mirrored, names, post, if_pos ⟨rfl, htaken⟩, List.map_append,
                show e.order = e.names from h]
              rfl

theorem Registered.nodup_append (h : e.Registered) {d : Device R}
    (hfresh : d.name ∉ e.names) :
    ((e.devices ++ [d]).map Device.name).Nodup := by
  rw [List.map_append]
  refine List.nodup_append.mpr ⟨h.nodup, List.nodup_singleton _, ?_⟩
  intro old hold new hnew hsame
  rw [hsame, List.mem_singleton.mp hnew] at hold
  exact hfresh hold

theorem Registered.lookup_insert_iff (h : e.Registered)
    (hlookup : e.map.lookup id = none) (id' : NodeId) (name' : String) :
    (e.map.insert id name).lookup id' = some name' ↔
      ∃ d ∈ e.devices ++ [⟨id, name, position⟩],
        d.owner = id' ∧ d.name = name' := by
  by_cases hid : id' = id
  · subst hid
    have hnone : ∀ d ∈ e.devices, d.owner ≠ id' := by
      intro d hd howner
      have hsome := (h.map_iff id' d.name).mpr ⟨d, hd, howner, rfl⟩
      rw [hlookup] at hsome
      cases hsome
    rw [AList.lookup_insert, Option.some.injEq]
    constructor
    · rintro rfl
      exact ⟨_, List.mem_append_right _ List.mem_cons_self, rfl, rfl⟩
    · rintro ⟨d, hd, howner, hname⟩
      rcases List.mem_append.mp hd with hold | hnew
      · exact absurd howner (hnone d hold)
      · rw [List.mem_singleton.mp hnew] at hname
        exact hname
  · rw [AList.lookup_insert_ne hid, h.map_iff id' name']
    constructor
    · rintro ⟨d, hd, hboth⟩
      exact ⟨d, List.mem_append_left _ hd, hboth⟩
    · rintro ⟨d, hd, howner, hname⟩
      rcases List.mem_append.mp hd with hold | hnew
      · exact ⟨d, hold, howner, hname⟩
      · rw [List.mem_singleton.mp hnew] at howner
        exact absurd howner.symm hid

/-- Without an error status the client knows the devices of the server. -/
theorem Registered.sync (h : e.Registered)
    (htaken : ∀ name ∈ e.names, taken name = true)
    (hstatus : ¬ErrorStatus taken e id name reply) :
    (e.sync taken id name position reply).Registered := by
  have hmirrored : (e.sync taken id name position reply).Mirrored :=
    (mirrored_sync_iff h.mirrored).mpr hstatus
  cases hlookup : e.map.lookup id with
  | some registered =>
      rw [sync_of_some hlookup] at hmirrored ⊢
      refine ⟨hmirrored, ?_, ?_⟩
      · rw [names, names_put]
        exact h.nodup
      · intro id' name'
        rw [h.map_iff id' name']
        exact (exists_mem_put e.devices id' name').symm
  | none =>
      rw [sync_of_none hlookup] at hmirrored ⊢
      by_cases hthrew : reply = .threw
      · rw [if_pos hthrew]
        exact h
      · rw [if_neg hthrew] at hmirrored ⊢
        have haccepted : reply = .processed ∧ taken name = false := by
          unfold ErrorStatus at hstatus
          rw [hlookup] at hstatus
          cases reply with
          | threw => exact absurd rfl hthrew
          | refused => simp at hstatus
          | processed => simpa using hstatus
        have hpost : post taken reply ⟨id, name, position⟩ e.devices =
            e.devices ++ [⟨id, name, position⟩] := if_pos haccepted
        have hfresh : name ∉ e.names := by
          intro hmem
          rw [htaken name hmem] at haccepted
          cases haccepted.2
        refine ⟨hmirrored, ?_, ?_⟩
        · rw [names, hpost]
          exact h.nodup_append hfresh
        · intro id' name'
          rw [hpost]
          exact h.lookup_insert_iff hlookup id' name'

theorem mem_names_sync {name' : String} (hne : name' ≠ name) :
    name' ∈ (e.sync taken id name position reply).names ↔ name' ∈ e.names := by
  cases hlookup : e.map.lookup id with
  | some registered =>
      rw [sync_of_some hlookup, names, names_put]
      rfl
  | none =>
      rw [sync_of_none hlookup]
      split_ifs
      · rfl
      · unfold names post
        split_ifs
        · simp [hne]
        · rfl

theorem mem_map_sync {id' : NodeId} (hne : id' ≠ id) :
    id' ∈ (e.sync taken id name position reply).map ↔ id' ∈ e.map := by
  cases hlookup : e.map.lookup id with
  | some registered =>
      rw [sync_of_some hlookup]
  | none =>
      rw [sync_of_none hlookup]
      split_ifs
      · rfl
      · rw [AList.mem_insert, or_iff_right hne]

/-- Only the name itself is asked for. -/
theorem sync_congr {taken' : String → Bool} (h : taken name = taken' name) :
    e.sync taken id name position reply =
      e.sync taken' id name position reply := by
  unfold sync post
  rw [h]

/-! ### Positions -/

/-- The requests do what they are for: the server processes them, and a new name
is free. -/
def TakesEffect (taken : String → Bool) (e : Endpoint R) (id : NodeId)
    (name : String) (reply : Reply) : Prop :=
  reply = .processed ∧ (e.map.lookup id = none → taken name = false)

instance (taken : String → Bool) (e : Endpoint R) (id : NodeId) (name : String)
    (reply : Reply) : Decidable (ErrorStatus taken e id name reply) :=
  inferInstanceAs (Decidable (_ ∧ _))

instance (taken : String → Bool) (e : Endpoint R) (id : NodeId) (name : String)
    (reply : Reply) : Decidable (TakesEffect taken e id name reply) :=
  inferInstanceAs (Decidable (_ ∧ _))

theorem TakesEffect.not_errorStatus (h : TakesEffect taken e id name reply) :
    ¬ErrorStatus taken e id name reply := by
  obtain ⟨rfl, hfree⟩ := h
  rintro ⟨hlookup, hrefused | ⟨-, htaken⟩⟩
  · cases hrefused
  · rw [hfree hlookup] at htaken
    cases htaken

/-- A node has one device. -/
theorem Registered.eq_of_owner (h : e.Registered) {d d' : Device R}
    (hd : d ∈ e.devices) (hd' : d' ∈ e.devices) (howner : d.owner = d'.owner) :
    d = d' := by
  have hname := (h.map_iff d.owner d.name).mpr ⟨d, hd, rfl, rfl⟩
  have hname' := (h.map_iff d.owner d'.name).mpr ⟨d', hd', howner.symm, rfl⟩
  rw [hname, Option.some.injEq] at hname'
  exact List.inj_on_of_nodup_map h.nodup hd hd' hname'

/-- A device is known by its name. -/
theorem Registered.eq_of_name (h : e.Registered) {d d' : Device R}
    (hd : d ∈ e.devices) (hd' : d' ∈ e.devices) (hname : d.name = d'.name) :
    d = d' :=
  List.inj_on_of_nodup_map h.nodup hd hd' hname

theorem at_sync (h : e.Registered)
    (heffect : TakesEffect taken e id name reply) :
    (e.sync taken id name position reply).At id position := by
  obtain ⟨rfl, hfree⟩ := heffect
  cases hlookup : e.map.lookup id with
  | some registered =>
      obtain ⟨d, hd, howner, hname⟩ := (h.map_iff id registered).mp hlookup
      rw [sync_of_some hlookup]
      refine ⟨{ d with position := position }, ?_, howner, rfl⟩
      dsimp only
      rw [put, if_pos rfl]
      exact List.mem_map.mpr ⟨d, hd, if_pos hname⟩
  | none =>
      rw [sync_of_none hlookup, if_neg (by decide)]
      refine ⟨⟨id, name, position⟩, ?_, rfl, rfl⟩
      change _ ∈ post _ _ _ _
      rw [post, if_pos ⟨rfl, hfree hlookup⟩]
      exact List.mem_append_right _ List.mem_cons_self

/-- The devices of other nodes stay where they are. -/
theorem At.sync_of_ne (h : e.Registered) {id' : NodeId}
    {position' : Geometry.Location R} (hne : id' ≠ id)
    (hat : e.At id' position') :
    (e.sync taken id name position reply).At id' position' := by
  obtain ⟨d, hd, howner, hposition⟩ := hat
  cases hlookup : e.map.lookup id with
  | some registered =>
      obtain ⟨d', hd', howner', hname'⟩ := (h.map_iff id registered).mp hlookup
      have hname : d.name ≠ registered := by
        intro hname
        have hsame := h.eq_of_name hd hd' (hname.trans hname'.symm)
        rw [← howner, hsame] at hne
        exact hne howner'
      rw [sync_of_some hlookup]
      refine ⟨d, ?_, howner, hposition⟩
      change _ ∈ put _ _ _ _
      unfold put
      split_ifs
      · exact List.mem_map.mpr ⟨d, hd, if_neg hname⟩
      · exact hd
  | none =>
      rw [sync_of_none hlookup]
      refine ⟨d, ?_, howner, hposition⟩
      split_ifs
      · exact hd
      · change _ ∈ post _ _ _ _
        unfold post
        split_ifs
        · exact List.mem_append_left _ hd
        · exact hd

/-- A request without an effect leaves the device of the node where it was. -/
theorem At.of_sync
    (heffect : ¬TakesEffect taken e id name reply)
    {position' : Geometry.Location R}
    (hat : (e.sync taken id name position reply).At id position') :
    e.At id position' := by
  obtain ⟨d, hd, howner, hposition⟩ := hat
  refine ⟨d, ?_, howner, hposition⟩
  cases hlookup : e.map.lookup id with
  | some registered =>
      have hreply : reply ≠ .processed := by
        rintro rfl
        refine heffect ⟨rfl, fun hnone => ?_⟩
        rw [hlookup] at hnone
        cases hnone
      rw [sync_of_some hlookup] at hd
      change d ∈ put _ _ _ _ at hd
      rwa [put, if_neg hreply] at hd
  | none =>
      have hreply : ¬(reply = .processed ∧ taken name = false) :=
        fun hboth => heffect ⟨hboth.1, fun _ => hboth.2⟩
      rw [sync_of_none hlookup] at hd
      split_ifs at hd
      · exact hd
      · change d ∈ post _ _ _ _ at hd
        rwa [post, if_neg hreply] at hd

end Endpoint

/-! ## Both endpoints -/

theorem Visit.rxName_ne_txName (v : Visit R) : v.rxName ≠ v.txName := by
  intro hsame
  have hsuffix := (String.append_right_inj v.nodeName).mp hsame
  exact absurd hsuffix (by decide)

namespace Registry

open Chem.SionnaExtension.Endpoint

variable {s : Registry R} {v : Visit R} {loc : Geometry.Location R}

/-- `m_txOrder` and `m_rxOrder` are the lists of the server. -/
def Mirrored (s : Registry R) : Prop := s.tx.Mirrored ∧ s.rx.Mirrored

def Registered (s : Registry R) : Prop := s.tx.Registered ∧ s.rx.Registered

theorem Registered.mirrored (h : s.Registered) : s.Mirrored :=
  ⟨h.1.mirrored, h.2.mirrored⟩

theorem registered_start : (start : Registry R).Registered :=
  ⟨registered_empty, registered_empty⟩

/-- The registration of the transmitter does not take the receiver's name. -/
theorem taken_rxName (s : Registry R) (v : Visit R)
    (position : Geometry.Location R) :
    taken { s with tx := s.tx.sync s.taken v.id v.txName position v.txReply }
      v.rxName = s.taken v.rxName := by
  have hnames : v.rxName ∈
        (s.tx.sync s.taken v.id v.txName position v.txReply).names ↔
      v.rxName ∈ s.tx.names := mem_names_sync v.rxName_ne_txName
  rw [taken, taken, decide_eq_decide, List.mem_append, List.mem_append]
  exact or_congr_left hnames

variable [BEq R]

/-- No registration of the visit is answered with an error status. -/
def NoErrorStatus (s : Registry R) (v : Visit R) : Prop :=
  (v.moved s).isSome = true →
    ¬ErrorStatus s.taken s.tx v.id v.txName v.txReply ∧
      ¬ErrorStatus s.taken s.rx v.id v.rxName v.rxReply

/-- Every request of the visit does what it is for. -/
def Effective (s : Registry R) (v : Visit R) : Prop :=
  (v.moved s).isSome = true →
    TakesEffect s.taken s.tx v.id v.txName v.txReply ∧
      TakesEffect s.taken s.rx v.id v.rxName v.rxReply

instance (s : Registry R) (v : Visit R) : Decidable (NoErrorStatus s v) :=
  inferInstanceAs (Decidable (_ → _))

instance (s : Registry R) (v : Visit R) : Decidable (Effective s v) :=
  inferInstanceAs (Decidable (_ → _))

theorem Effective.noErrorStatus (h : Effective s v) : NoErrorStatus s v :=
  fun hmoved => ⟨(h hmoved).1.not_errorStatus, (h hmoved).2.not_errorStatus⟩

variable [Add R] (refAlt : R)

theorem visit_of_none (h : v.moved s = none) : s.visit refAlt v = s := by
  rw [visit, h]

theorem visit_of_some (h : v.moved s = some loc) :
    s.visit refAlt v =
      { tx := s.tx.sync s.taken v.id v.txName (posObj refAlt loc) v.txReply
        rx := s.rx.sync s.taken v.id v.rxName (posObj refAlt loc) v.rxReply
        lastPositions := s.lastPositions.insert v.id loc } := by
  rw [visit, h]
  dsimp only
  rw [sync_congr (s.taken_rxName v (posObj refAlt loc))]

/-! ### The orders -/

theorem mirrored_visit_iff (h : s.Mirrored) :
    (s.visit refAlt v).Mirrored ↔ NoErrorStatus s v := by
  unfold NoErrorStatus
  cases hmoved : v.moved s with
  | none =>
      rw [visit_of_none refAlt hmoved]
      exact iff_of_true h (by simp)
  | some loc =>
      rw [visit_of_some refAlt hmoved]
      simp only [Option.isSome_some, true_imp_iff]
      exact and_congr (mirrored_sync_iff h.1) (mirrored_sync_iff h.2)

theorem Registered.visit (h : s.Registered) (hstatus : NoErrorStatus s v) :
    (s.visit refAlt v).Registered := by
  cases hmoved : v.moved s with
  | none => rwa [visit_of_none refAlt hmoved]
  | some loc =>
      obtain ⟨htx, hrx⟩ := hstatus (by rw [hmoved]; rfl)
      rw [visit_of_some refAlt hmoved]
      refine ⟨h.1.sync ?_ htx, h.2.sync ?_ hrx⟩
      · intro name hname
        exact decide_eq_true (List.mem_append_left _ hname)
      · intro name hname
        exact decide_eq_true (List.mem_append_right _ hname)

/-! ### The cache -/

/-- A cached position is the position of both devices of the node. -/
def CacheSound (s : Registry R) : Prop :=
  ∀ id p, s.lastPositions.lookup id = some p →
    s.tx.At id (posObj refAlt p) ∧ s.rx.At id (posObj refAlt p)

/-- Every node with a device has been cached. -/
def Known (s : Registry R) : Prop :=
  ∀ id, id ∈ s.tx.map ∨ id ∈ s.rx.map → id ∈ s.lastPositions

theorem CacheSound.visit (hregistered : s.Registered) (h : s.CacheSound refAlt)
    (heffective : Effective s v) : (s.visit refAlt v).CacheSound refAlt := by
  cases hmoved : v.moved s with
  | none => rwa [visit_of_none refAlt hmoved]
  | some loc =>
      obtain ⟨htx, hrx⟩ := heffective (by rw [hmoved]; rfl)
      rw [visit_of_some refAlt hmoved]
      intro id p hlookup
      dsimp only at hlookup ⊢
      by_cases hid : id = v.id
      · subst hid
        rw [AList.lookup_insert, Option.some.injEq] at hlookup
        rw [← hlookup]
        exact ⟨at_sync hregistered.1 htx, at_sync hregistered.2 hrx⟩
      · rw [AList.lookup_insert_ne hid] at hlookup
        obtain ⟨hattx, hatrx⟩ := h id p hlookup
        exact ⟨hattx.sync_of_ne hregistered.1 hid,
          hatrx.sync_of_ne hregistered.2 hid⟩

theorem Known.visit (h : s.Known) : (s.visit refAlt v).Known := by
  cases hmoved : v.moved s with
  | none => rwa [visit_of_none refAlt hmoved]
  | some loc =>
      rw [visit_of_some refAlt hmoved]
      intro id hid
      rw [AList.mem_insert]
      by_cases hsame : id = v.id
      · exact .inl hsame
      · refine .inr (h id ?_)
        exact hid.imp (mem_map_sync hsame).mp (mem_map_sync hsame).mp

/-- A request without an effect leaves a position in the cache that is not the
one of the device. -/
theorem takesEffect_of_at [LawfulBEq R] [IsRightCancelAdd R] {e : Endpoint R}
    (he : e.Registered) (hknown : ∀ id, id ∈ e.map → id ∈ s.lastPositions)
    (hsound : ∀ id p, s.lastPositions.lookup id = some p →
      e.At id (posObj refAlt p))
    (hmoved : v.moved s = some loc) {name : String} {reply : Reply}
    (hat : (e.sync s.taken v.id name (posObj refAlt loc) reply).At v.id
      (posObj refAlt loc)) :
    TakesEffect s.taken e v.id name reply := by
  by_contra heffect
  obtain ⟨d, hd, howner, hposition⟩ := hat.of_sync heffect
  have hmap := (he.map_iff v.id d.name).mpr ⟨d, hd, howner, rfl⟩
  obtain ⟨c, hc⟩ := FiniteMap.mem_iff_lookup.mp (hknown v.id
    (FiniteMap.mem_iff_lookup.mpr ⟨d.name, hmap⟩))
  obtain ⟨d', hd', howner', hposition'⟩ := hsound v.id c hc
  have hsame := he.eq_of_owner hd hd' (howner.trans howner'.symm)
  rw [← hsame, hposition] at hposition'
  obtain ⟨-, hnew⟩ := Option.filter_eq_some_iff.mp hmoved
  have hcached : s.cached v.id loc = true := by
    unfold posObj at hposition'
    rw [Geometry.Location.mk.injEq] at hposition'
    obtain ⟨hlat, hlon, halt⟩ := hposition'
    rw [cached, hc]
    simp only [hlat, hlon, add_right_cancel halt, beq_self_eq_true,
      Bool.and_self]
  rw [hcached] at hnew
  cases hnew

theorem Effective.of_cacheSound [LawfulBEq R] [IsRightCancelAdd R]
    (hregistered : s.Registered) (hknown : s.Known) (h : s.CacheSound refAlt)
    (hafter : (s.visit refAlt v).CacheSound refAlt) : Effective s v := by
  intro hsome
  obtain ⟨loc, hmoved⟩ := Option.isSome_iff_exists.mp hsome
  rw [visit_of_some refAlt hmoved] at hafter
  obtain ⟨htx, hrx⟩ := hafter v.id loc (AList.lookup_insert _)
  constructor
  · exact takesEffect_of_at refAlt hregistered.1
      (fun id hid => hknown id (.inl hid)) (fun id p hp => (h id p hp).1)
      hmoved htx
  · exact takesEffect_of_at refAlt hregistered.2
      (fun id hid => hknown id (.inr hid)) (fun id p hp => (h id p hp).2)
      hmoved hrx

/-- What all states of a run have whose requests take effect. -/
structure Sound (s : Registry R) : Prop where
  registered : s.Registered
  known : s.Known
  cacheSound : s.CacheSound refAlt

omit [BEq R] in
theorem sound_start : (start : Registry R).Sound refAlt where
  registered := registered_start
  known id hid := by
    rcases hid with h | h <;> exact absurd h (AList.notMem_empty id)
  cacheSound id p h := by cases h

theorem Sound.visit (h : s.Sound refAlt) (heffective : Effective s v) :
    (s.visit refAlt v).Sound refAlt where
  registered := h.registered.visit refAlt heffective.noErrorStatus
  known := h.known.visit refAlt
  cacheSound := h.cacheSound.visit refAlt h.registered heffective

/-- Along runs whose requests all take effect every cached position is the one
of both devices.  Where positions are compared exactly, a request without an
effect shows. -/
theorem lastPositions_sound (refAlt : R) (vs : List (Visit R)) :
    (EveryStep (step refAlt) Effective start vs →
      EveryState (step refAlt) (CacheSound refAlt) start vs) ∧
    ∀ [LawfulBEq R] [IsRightCancelAdd R],
      EveryState (step refAlt) (CacheSound refAlt) start vs →
        EveryStep (step refAlt) Effective start vs := by
  have hkeep : ∀ (s : Registry R) v t, s.Sound refAlt → Effective s v →
      step refAlt s v = some t → t.Sound refAlt := by
    rintro s v t hs heffective ⟨rfl⟩
    exact hs.visit refAlt heffective
  constructor
  · intro h
    exact (everyState_of_everyStep hkeep (sound_start refAlt) h).imp
      fun t ht => ht.cacheSound
  · intro _ _
    refine (everyState_iff_everyStep_of_strong hkeep (fun t ht => ht.cacheSound)
      ?_ (fun s v h => by cases h) (sound_start refAlt) vs).mp
    rintro s v t hs ⟨rfl⟩ hafter
    exact .of_cacheSound refAlt hs.registered hs.known hs.cacheSound hafter

/-- A node that stays where it is. -/
def hovering (id name : String) (txReply rxReply : Reply) : Visit ℤ where
  id := id
  node := ⟨name, some ⟨⟨35, -78, 30⟩, ⟨0, 0, 0⟩⟩⟩
  txReply := txReply
  rxReply := rxReply

/-- Two passes over one node: it is registered, and not sent again. -/
theorem lastPositions_sound_hovering :
    EveryState (step 112) (CacheSound 112) start
      [hovering "1" "drone" .processed .processed,
        hovering "1" "drone" .threw .threw] :=
  (lastPositions_sound (R := ℤ) 112 _).1 (by decide)

/-- The registration of the transmitter fails; the second pass does not try it
again. -/
theorem not_cacheSound_lost :
    ¬EveryState (step 112) (CacheSound 112) start
      [hovering "1" "drone" .threw .processed,
        hovering "1" "drone" .processed .processed] := by
  intro h
  obtain ⟨⟨d, hd, -⟩, -⟩ := ((h.2 _ rfl).2 _ rfl).head "1" ⟨35, -78, 30⟩ rfl
  cases hd

end Registry

end SionnaExtension
end Chem
