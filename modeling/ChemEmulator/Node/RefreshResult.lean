import ChemEmulator.Node.Refresh

/-!
# What refreshing a node stores

`refreshFromConfig` writes to the node and to the request in turn, and asks the
request again for what it has written before.  Here its result is given as a
function of the original request: node type, characteristics, location and
vehicle address, one definition for each, and what happens to the handlers.
-/

namespace Chem

namespace NodeConfig

/-- The name under which the vehicle handler of a node runs. -/
def handlerKey (n : NodeConfig) : String :=
  if n.name.isEmpty then n.id else n.name

/-- A handler can be added: the name is not empty and not taken. -/
def canConnect (n : NodeConfig) (handlers : VehicleHandlers) : Bool :=
  !n.handlerKey.isEmpty && !decide (n.handlerKey ∈ handlers)

/-- A location other than (0, 0, 0) is reported. -/
def located (n : NodeConfig) : Bool := n.hasLocation && !n.location.isZero

/-- The node type that follows from what is reported. -/
def deducedType (n : NodeConfig) : NodeType :=
  if n.hasVehicleAddress then .vehicleMavproxy
  else if n.hasLocation then
    if n.location.isZero then n.nodeType else .fixed
  else if n.hasAerpawKey then
    if n.isPortable then .aerpawPortable else .aerpawFixed
  else n.nodeType

/-- The characteristics of the node type. -/
def typeProfile (n : NodeConfig) : Option NodeCharacteristics :=
  match n.deducedType with
  | .aerpawFixed => some fixedNodeCharacteristics
  | .aerpawPortable => some portableNodeCharacteristics
  | .vehicleMavproxy =>
      some (n.characteristics.getD portableNodeCharacteristics)
  | _ => none

/-- The characteristics that are stored: a reported location overrides the node
type. -/
def profile (n : NodeConfig) : Option NodeCharacteristics :=
  if n.located then some fixedNodeCharacteristics else n.typeProfile

/-- The logical node that goes with a reported location. -/
def locatedNumber (n : NodeConfig) : UInt8 :=
  if n.hasLogicalNode then UInt8.ofInt n.logicalNode else 0

/-- The location that is stored, with the logical node. -/
def placement (n : NodeConfig) : Option (Location × UInt8) :=
  if n.hasLocation then
    if n.location.isZero then none else some (n.location, n.locatedNumber)
  else if n.hasAerpawKey then
    (resolveAerpawLocation n.aerpawKey).map fun loc =>
      (loc, UInt8.ofInt (Node.resolveLogicalNode n).2)
  else none

/-- The logical node of a portable node, if the request says anything about
it.  A location that has been stored counts. -/
def portableNumber (n : NodeConfig) : Option ℤ :=
  if n.located then some (n.locatedNumber.toNat : ℤ)
  else if n.hasLogicalNode || !n.keyDigits.isEmpty then
    some (Node.resolveLogicalNode n).2
  else none

/-- The address of the vehicle that a portable node gets.  The sum is an `int`
in the source, see `NodeConfig.logicalNode`. -/
def portableAddress (n : NodeConfig) : Option String :=
  if n.isPortable then
    n.portableNumber.map fun number =>
      "tcp://127.0.0.1:" ++ toString (5760 + number)
  else none

/-- The request's own vehicle address gets a handler. -/
def connects (n : NodeConfig) (handlers : VehicleHandlers) : Bool :=
  n.hasVehicleAddress && n.canConnect handlers

/-- The address that is stored when no handler was added for the request's
own: that of the logical node for a portable node. -/
def fallbackAddress (n : NodeConfig) : Option String :=
  match n.portableAddress with
  | some address => some address
  | none => if n.hasVehicleAddress then some n.vehicleAddress else none

/-- The vehicle address that is stored. -/
def storedAddress (n : NodeConfig) (handlers : VehicleHandlers) :
    Option String :=
  if n.connects handlers then some n.vehicleAddress else n.fallbackAddress

/-- The handlers afterwards. -/
def storedHandlers (n : NodeConfig) (handlers : VehicleHandlers) :
    VehicleHandlers :=
  if n.canConnect handlers then
    match n.storedAddress handlers with
    | some address =>
        handlers.insert n.handlerKey ⟨address, n.handlerKey, n.id⟩
    | none => handlers
  else handlers

/-- A stored configuration with the fields of a request taken over. -/
def takeOver (m n : NodeConfig) : NodeConfig :=
  { m with
    id := n.id
    name := n.name
    ipAddress := n.ipAddress
    inputFormat := n.inputFormat
    outputFormat := n.outputFormat
    numChannels := n.numChannels
    nodeType := n.deducedType
    aerpawKey := if n.hasAerpawKey then n.aerpawKey else m.aerpawKey
    deviceTxGain := if n.hasDeviceTxGain then n.deviceTxGain
      else m.deviceTxGain
    hasDeviceTxGain := n.hasDeviceTxGain || m.hasDeviceTxGain
    deviceRxGain := if n.hasDeviceRxGain then n.deviceRxGain
      else m.deviceRxGain
    hasDeviceRxGain := n.hasDeviceRxGain || m.hasDeviceRxGain
    characteristics := n.profile }

/-- A reported address is stored, or another one in its place. -/
theorem storedAddress_ne_none {n : NodeConfig}
    (hvehicle : n.hasVehicleAddress = true) (handlers : VehicleHandlers) :
    n.storedAddress handlers ≠ none := by
  unfold storedAddress fallbackAddress
  rw [if_pos hvehicle]
  split_ifs
  · simp
  · split <;> simp

/-- No site has the key of a portable node. -/
theorem resolveAerpawLocation_of_isPortable {n : NodeConfig}
    (h : n.isPortable = true) : resolveAerpawLocation n.aerpawKey = none := by
  have hother : ∀ site site' : String, site.startsWith "PN" = false →
      site'.startsWith "PN" = false →
      ¬(n.aerpawKey.toUpper = site ∨ n.aerpawKey.toUpper = site') := by
    intro site site' hsite hsite' hkey
    have hstart := (Bool.and_eq_true_iff.mp h).2
    rcases hkey with hkey | hkey
    · rw [hkey, hsite] at hstart
      cases hstart
    · rw [hkey, hsite'] at hstart
      cases hstart
  unfold resolveAerpawLocation
  dsimp only
  rw [if_neg (hother "CC-1" "CC1" (by decide +kernel) (by decide +kernel)),
    if_neg (hother "CC-2" "CC2" (by decide +kernel) (by decide +kernel)),
    if_neg (hother "CC-3" "CC3" (by decide +kernel) (by decide +kernel)),
    if_neg (hother "LW-1" "LW1" (by decide +kernel) (by decide +kernel)),
    if_neg (hother "LW-2" "LW2" (by decide +kernel) (by decide +kernel)),
    if_neg (hother "LW-3" "LW3" (by decide +kernel) (by decide +kernel)),
    if_neg (hother "LW-4" "LW4" (by decide +kernel) (by decide +kernel)),
    if_neg (hother "LW-5" "LW5" (by decide +kernel) (by decide +kernel))]

end NodeConfig

namespace Node
namespace Refresh

/-! ## Adding a vehicle -/

/-- The node and the request agree on what names the handler. -/
structure Named (r : Refresh) : Prop where
  id : r.node.config.id = r.request.id
  name : r.node.config.name = r.request.name

/-- With an address in the request, a handler is added if there is room for
it. -/
theorem addVehicle_of_address {r : Refresh} (hnamed : r.Named)
    (haddress : r.request.hasVehicleAddress = true) :
    r.addVehicle =
      if r.request.canConnect r.handlers then
        { r with
          node := { r.node with config := { r.node.config with
            vehicleAddress := r.request.vehicleAddress } }
          handlers := r.handlers.insert r.request.handlerKey
            ⟨r.request.vehicleAddress, r.request.handlerKey, r.request.id⟩
          vehicleAdded := true }
      else { r with vehicleAdded := false } := by
  have hempty : r.request.vehicleAddress.isEmpty = false := by
    simpa [NodeConfig.hasVehicleAddress] using haddress
  have hkey : (if r.node.config.name.isEmpty then r.node.config.id
      else r.node.config.name) = r.request.handlerKey := by
    rw [hnamed.id, hnamed.name]
    rfl
  unfold addVehicle Node.addVehicle NodeConfig.canConnect
  rw [hkey, hempty]
  by_cases hname : r.request.handlerKey.isEmpty
  · simp [hname]
  · by_cases htaken : r.request.handlerKey ∈ r.handlers
    · simp [hname, htaken]
    · simp [hname, htaken, hempty, hnamed.id]

/-! ## From stage to stage -/

/-- The answer to the question for the logical node. -/
def answer (n : NodeConfig) : ℤ × Bool :=
  ((resolveLogicalNode n).2, n.hasLogicalNode || !n.keyDigits.isEmpty)

theorem resolveLogicalNode_fst (n : NodeConfig) :
    (resolveLogicalNode n).1 =
      { n with logicalNode := (resolveLogicalNode n).2 } := by
  unfold resolveLogicalNode
  by_cases hlogical : n.hasLogicalNode
  · simp [hlogical]
  · by_cases hdigits : n.keyDigits.isEmpty
    · simp [hlogical, hdigits]
    · cases stoi n.keyDigits <;> simp [hlogical, hdigits]

/-- A request without the fields that the first stages write. -/
def unwritten (n : NodeConfig) : NodeConfig :=
  { n with logicalNode := 0, nodeType := .unknown, characteristics := none }

/-- What the request `n` has become: only the fields that the function writes
differ, and the logical node has been asked for only if the node is portable
and nothing else is reported. -/
structure Follows (n : NodeConfig) (r : Refresh) : Prop where
  request : unwritten r.request = unwritten n
  pending : (r.request.logicalNode = n.logicalNode ∧ r.resolved = none) ∨
    (n.isPortable = true ∧ n.hasLocation = false ∧
      r.resolved = some (answer n))

/-- The node type is deduced from a request that has been copied into the
node. -/
theorem deduceNodeType_spec {n : NodeConfig} {node : Node}
    (handlers : VehicleHandlers) (hid : node.config.id = n.id)
    (hname : node.config.name = n.name)
    (haddress : n.hasVehicleAddress = true →
      node.config.vehicleAddress = n.vehicleAddress) {r : Refresh}
    (hr : r = deduceNodeType ⟨node, n, handlers, n.nodeType, false, none⟩) :
    r.node = node ∧ r.nodeType = n.deducedType ∧
      r.vehicleAdded = n.connects handlers ∧
      r.handlers = (if n.connects handlers then handlers.insert n.handlerKey
        ⟨n.vehicleAddress, n.handlerKey, n.id⟩ else handlers) ∧
      r.request.nodeType = n.nodeType ∧
      r.request.characteristics = n.characteristics ∧ Follows n r := by
  have hsame : ∀ node handlers type added,
      Follows n ⟨node, n, handlers, type, added, none⟩ :=
    fun _ _ _ _ => ⟨rfl, Or.inl ⟨rfl, rfl⟩⟩
  unfold deduceNodeType at hr
  unfold NodeConfig.deducedType NodeConfig.connects
  by_cases hvehicle : n.hasVehicleAddress = true
  · have hadded := addVehicle_of_address
      (r := ⟨node, n, handlers, .vehicleMavproxy, false, none⟩) ⟨hid, hname⟩
      hvehicle
    simp only [hvehicle, if_true] at hr
    rw [hadded] at hr
    simp only [hvehicle, if_true, Bool.true_and]
    by_cases hfree : n.canConnect handlers = true
    · simp only [hfree, if_true] at hr ⊢
      subst hr
      refine ⟨?_, rfl, rfl, rfl, rfl, rfl, hsame _ _ _ _⟩
      rw [← haddress hvehicle]
    · simp only [hfree, if_false, Bool.false_eq_true] at hr ⊢
      subst hr
      exact ⟨rfl, rfl, rfl, rfl, rfl, rfl, hsame _ _ _ _⟩
  · simp only [hvehicle, if_false, Bool.false_eq_true, Bool.false_and] at hr ⊢
    by_cases hlocation : n.hasLocation = true
    · simp only [hlocation, if_true] at hr ⊢
      by_cases hzero : n.location.isZero = true
      · simp only [hzero, if_true] at hr ⊢
        subst hr
        exact ⟨rfl, rfl, rfl, rfl, rfl, rfl, hsame _ _ _ _⟩
      · simp only [hzero, if_false, Bool.false_eq_true] at hr ⊢
        subst hr
        exact ⟨rfl, rfl, rfl, rfl, rfl, rfl, hsame _ _ _ _⟩
    · simp only [hlocation, if_false, Bool.false_eq_true] at hr ⊢
      by_cases hkey : n.hasAerpawKey = true
      · simp only [hkey, if_true] at hr ⊢
        by_cases hportable : n.isPortable = true
        · simp only [hportable, if_true] at hr ⊢
          subst hr
          have hasked : (resolve ⟨node, n, handlers, .aerpawPortable, false,
              none⟩).1.request = _ := resolveLogicalNode_fst n
          refine ⟨rfl, rfl, rfl, rfl, ?_, ?_, ?_, Or.inr ?_⟩
          · rw [hasked]
          · rw [hasked]
          · exact (congrArg unwritten hasked).trans rfl
          · exact ⟨hportable, Bool.not_eq_true _ ▸ hlocation, rfl⟩
        · simp only [hportable, if_false, Bool.false_eq_true] at hr ⊢
          subst hr
          exact ⟨rfl, rfl, rfl, rfl, rfl, rfl, hsame _ _ _ _⟩
      · simp only [hkey, if_false, Bool.false_eq_true] at hr ⊢
        subst hr
        exact ⟨rfl, rfl, rfl, rfl, rfl, rfl, hsame _ _ _ _⟩

/-- The type and the characteristics that go with it are stored. -/
theorem assignCharacteristics_spec {n : NodeConfig} {r s : Refresh}
    (htype : r.nodeType = n.deducedType)
    (hprofile : r.request.characteristics = n.characteristics)
    (hfollows : Follows n r)
    (hs : s = r.storeNodeType.assignCharacteristics) :
    s.node = { r.node with
        characteristics := n.typeProfile
        config := { r.node.config with
          nodeType := n.deducedType
          characteristics := n.typeProfile } } ∧
      s.handlers = r.handlers ∧ s.vehicleAdded = r.vehicleAdded ∧
      s.request.nodeType = n.deducedType ∧ Follows n s := by
  unfold assignCharacteristics storeNodeType at hs
  unfold NodeConfig.typeProfile
  rw [htype] at hs
  rw [← hprofile]
  cases hdeduced : n.deducedType with
  | aerpawFixed =>
      rw [hdeduced] at hs
      subst hs
      exact ⟨rfl, rfl, rfl, rfl, hfollows.request, hfollows.pending⟩
  | aerpawPortable =>
      rw [hdeduced] at hs
      subst hs
      exact ⟨rfl, rfl, rfl, rfl, hfollows.request, hfollows.pending⟩
  | vehicleMavproxy =>
      rw [hdeduced] at hs
      cases hown : r.request.characteristics with
      | some c =>
          simp only [hown] at hs
          subst hs
          exact ⟨rfl, rfl, rfl, rfl, hfollows.request, hfollows.pending⟩
      | none =>
          simp only [hown] at hs
          subst hs
          exact ⟨rfl, rfl, rfl, rfl, hfollows.request, hfollows.pending⟩
  | unknown =>
      rw [hdeduced] at hs
      subst hs
      exact ⟨rfl, rfl, rfl, rfl, hfollows.request, hfollows.pending⟩
  | fixed =>
      rw [hdeduced] at hs
      subst hs
      exact ⟨rfl, rfl, rfl, rfl, hfollows.request, hfollows.pending⟩
  | other code =>
      rw [hdeduced] at hs
      subst hs
      exact ⟨rfl, rfl, rfl, rfl, hfollows.request, hfollows.pending⟩

/-- The logical node is found in two fields only. -/
theorem answer_congr {q n : NodeConfig} (hnumber : q.logicalNode = n.logicalNode)
    (hkey : q.aerpawKey = n.aerpawKey) : answer q = answer n := by
  have hlogical : q.hasLogicalNode = n.hasLogicalNode := by
    rw [NodeConfig.hasLogicalNode, NodeConfig.hasLogicalNode, hnumber]
  have hdigits : q.keyDigits = n.keyDigits := by
    rw [NodeConfig.keyDigits, NodeConfig.keyDigits, hkey]
  unfold answer resolveLogicalNode
  rw [hlogical, hdigits, hnumber]
  cases n.hasLogicalNode
  · cases n.keyDigits.isEmpty
    · cases stoi n.keyDigits <;> rfl
    · rfl
  · rfl

theorem resolve_request (r : Refresh) :
    ∃ number, r.resolve.1.request = { r.request with logicalNode := number } := by
  unfold resolve getResolvedLogicalNode
  cases r.resolved with
  | some answer => exact ⟨r.request.logicalNode, rfl⟩
  | none => exact ⟨_, resolveLogicalNode_fst r.request⟩

/-- What later stages read of the request. -/
theorem Follows.fields {n : NodeConfig} {r : Refresh} (h : Follows n r) :
    r.request.id = n.id ∧ r.request.name = n.name ∧
      r.request.hasLocation = n.hasLocation ∧
      r.request.location = n.location ∧ r.request.aerpawKey = n.aerpawKey ∧
      r.request.vehicleAddress = n.vehicleAddress := by
  have hrequest := h.request
  simp only [unwritten, NodeConfig.mk.injEq] at hrequest
  obtain ⟨-, hid, hname, -, -, -, -, -, -, hloc, hhas, hvehicle, hkey, -⟩ :=
    hrequest
  exact ⟨hid, hname, hhas, hloc, hkey, hvehicle⟩

theorem resolve_of_pending {n : NodeConfig} {r : Refresh}
    (h : Follows n r) : r.resolve.2 = answer n := by
  unfold resolve getResolvedLogicalNode
  rcases h.pending with ⟨hnumber, hresolved⟩ | ⟨-, -, hresolved⟩
  · rw [hresolved]
    exact answer_congr hnumber h.fields.2.2.2.2.1
  · rw [hresolved]

/-- A node with a new location, if there is one. -/
def place (node : Node) : Option (Location × UInt8) → Node
  | none => node
  | some (loc, number) => node.setLocation loc number

/-- A request without the fields that the location is stored in. -/
def unplaced (n : NodeConfig) : NodeConfig :=
  { unwritten n with
    location := ⟨.finite 0, .finite 0, .finite 0⟩, hasLocation := false }

/-- A node with new characteristics, or none. -/
def withProfile (node : Node) (c : Option NodeCharacteristics) : Node :=
  { node with
    characteristics := c, config := { node.config with characteristics := c } }

theorem withProfile_self {node : Node} {c : Option NodeCharacteristics}
    (hnode : node.characteristics = c)
    (hconfig : node.config.characteristics = c) :
    withProfile node c = node := by
  cases node with
  | mk config =>
      cases config
      cases hnode
      cases hconfig
      rfl

/-- The question for the logical node is answered from the original request,
unless a location has been stored. -/
theorem asked_of_not_located {n : NodeConfig} {r : Refresh}
    (hfollows : Follows n r) (hnone : n.located = false) :
    r.resolve.2.2 = n.portableNumber.isSome ∧
      ∀ number, n.portableNumber = some number → r.resolve.2.1 = number := by
  rw [resolve_of_pending hfollows]
  unfold NodeConfig.portableNumber answer
  rw [hnone]
  cases hinfo : n.hasLogicalNode || !n.keyDigits.isEmpty with
  | true => exact ⟨rfl, fun number hnumber => Option.some.inj hnumber⟩
  | false => exact ⟨rfl, fun number hnumber => nomatch hnumber⟩

theorem unplaced_storeLocation (r : Refresh) (loc : Location)
    (number : UInt8) :
    unplaced (r.storeLocation loc number).request = unplaced r.request :=
  rfl

theorem Follows.unplaced_eq {n : NodeConfig} {r : Refresh}
    (h : Follows n r) : unplaced r.request = unplaced n := by
  unfold unplaced
  rw [h.request]

/-- What the stage leaves that stores the location, and with it the
characteristics of a fixed node if the request reports it. -/
structure Placed (n : NodeConfig) (r s : Refresh) : Prop where
  node : s.node = place (withProfile r.node n.profile) n.placement
  handlers : s.handlers = r.handlers
  vehicleAdded : s.vehicleAdded = r.vehicleAdded
  nodeType : s.request.nodeType = r.request.nodeType
  rest : unplaced s.request = unplaced n
  asked : n.isPortable = true → s.resolve.2.2 = n.portableNumber.isSome ∧
    ∀ number, n.portableNumber = some number → s.resolve.2.1 = number

/-- The request reports a location. -/
theorem placed_of_located {n : NodeConfig} {r : Refresh}
    (hfollows : Follows n r) (hlocated : n.located = true) :
    Placed n r r.updateLocation := by
  obtain ⟨-, -, hhas, hloc, -, -⟩ := hfollows.fields
  obtain ⟨hlocation, hzero⟩ := Bool.and_eq_true_iff.mp hlocated
  have hnonzero : ¬n.location.isZero = true := by simpa using hzero
  -- the logical node has not been asked for before
  have hfresh : r.request.logicalNode = n.logicalNode ∧ r.resolved = none := by
    refine hfollows.pending.resolve_right ?_
    rintro ⟨-, hnone, -⟩
    rw [hlocation] at hnone
    cases hnone
  have hnumber : (if r.request.hasLogicalNode then
      UInt8.ofInt r.request.logicalNode else 0) = n.locatedNumber := by
    unfold NodeConfig.hasLogicalNode
    rw [hfresh.1]
    rfl
  have hstored : r.updateLocation =
      { r.storeLocation n.location n.locatedNumber with
        node := (r.storeLocation n.location n.locatedNumber
          ).node.setCharacteristics fixedNodeCharacteristics } := by
    unfold updateLocation
    rw [hhas, if_pos hlocation, hloc, if_neg hnonzero]
    simp only [hnumber]
  have hplacement : n.placement = some (n.location, n.locatedNumber) := by
    unfold NodeConfig.placement
    rw [if_pos hlocation, if_neg hnonzero]
  have hprofile : n.profile = some fixedNodeCharacteristics := by
    unfold NodeConfig.profile
    rw [if_pos hlocated]
  rw [hstored]
  refine ⟨?_, rfl, rfl, rfl, ?_, fun _ => ?_⟩
  · rw [hplacement, hprofile]
    rfl
  · exact (unplaced_storeLocation ..).trans hfollows.unplaced_eq
  · -- the number that was stored is the answer
    unfold NodeConfig.portableNumber
    rw [if_pos hlocated]
    simp [resolve, getResolvedLogicalNode, resolveLogicalNode, hfresh.2,
      storeLocation, NodeConfig.hasLogicalNode]

/-- The location of a fixed node is looked up by its key. -/
theorem placed_of_site {n : NodeConfig} {r : Refresh} {loc : Location}
    (hfollows : Follows n r)
    (hsame : withProfile r.node n.profile = r.node)
    (hlocation : ¬n.hasLocation = true) (hhasKey : n.hasAerpawKey = true)
    (hsite : resolveAerpawLocation n.aerpawKey = some loc) :
    Placed n r r.updateLocation := by
  obtain ⟨-, -, hhas, -, hkey, -⟩ := hfollows.fields
  have hplain : n.isPortable ≠ true := by
    intro hportable
    rw [NodeConfig.resolveAerpawLocation_of_isPortable hportable] at hsite
    cases hsite
  have hplacement : n.placement =
      some (loc, UInt8.ofInt (resolveLogicalNode n).2) := by
    unfold NodeConfig.placement
    rw [if_neg hlocation, if_pos hhasKey, hsite, Option.map_some]
  have hkeys : r.request.hasAerpawKey = true := by
    rwa [NodeConfig.hasAerpawKey, hkey]
  have hupdate : r.updateLocation = if r.request.hasLogicalNode then
      r.storeLocation loc (UInt8.ofInt r.request.logicalNode)
      else r.resolve.1.storeLocation loc (UInt8.ofInt r.resolve.2.1) := by
    unfold updateLocation
    rw [hhas, if_neg hlocation, if_pos hkeys, hkey, hsite]
  rw [hupdate]
  by_cases hlogical : r.request.hasLogicalNode = true
  · have hfresh : r.request.logicalNode = n.logicalNode :=
      (hfollows.pending.resolve_right fun h => hplain h.1).1
    have hnumber : (resolveLogicalNode n).2 = r.request.logicalNode := by
      unfold NodeConfig.hasLogicalNode at hlogical
      rw [hfresh] at hlogical ⊢
      unfold resolveLogicalNode
      exact congrArg Prod.snd (if_pos hlogical)
    rw [if_pos hlogical]
    refine ⟨?_, rfl, rfl, rfl, ?_, fun h => absurd h hplain⟩
    · rw [hplacement, hsame, hnumber]
      rfl
    · exact (unplaced_storeLocation ..).trans hfollows.unplaced_eq
  · obtain ⟨number, hrequest⟩ := resolve_request r
    have htype : r.resolve.1.request.nodeType = r.request.nodeType := by
      rw [hrequest]
    have hkept : unplaced r.resolve.1.request = unplaced r.request := by
      rw [hrequest]
      rfl
    rw [if_neg hlogical, resolve_of_pending hfollows]
    refine ⟨?_, rfl, rfl, htype, ?_, fun h => absurd h hplain⟩
    · rw [hplacement, hsame]
      rfl
    · rw [unplaced_storeLocation, hkept, hfollows.unplaced_eq]

/-- No location is stored. -/
theorem placed_self {n : NodeConfig} {r : Refresh} (hfollows : Follows n r)
    (hsame : withProfile r.node n.profile = r.node)
    (hnone : n.located = false) (hplacement : n.placement = none) :
    Placed n r r := by
  refine ⟨?_, rfl, rfl, rfl, hfollows.unplaced_eq,
    fun _ => asked_of_not_located hfollows hnone⟩
  rw [hplacement, hsame]
  rfl

theorem updateLocation_spec {n : NodeConfig} {r : Refresh}
    (hfollows : Follows n r) (hprofile : r.node.characteristics = n.typeProfile)
    (hconfig : r.node.config.characteristics = n.typeProfile) :
    Placed n r r.updateLocation := by
  by_cases hlocated : n.located = true
  · exact placed_of_located hfollows hlocated
  · have hnone : n.located = false := Bool.not_eq_true _ ▸ hlocated
    have hsame : withProfile r.node n.profile = r.node := by
      unfold NodeConfig.profile
      rw [hnone, if_neg Bool.false_ne_true]
      exact withProfile_self hprofile hconfig
    obtain ⟨-, -, hhas, hloc, hkey, -⟩ := hfollows.fields
    have hkeys : r.request.hasAerpawKey = n.hasAerpawKey := by
      rw [NodeConfig.hasAerpawKey, NodeConfig.hasAerpawKey, hkey]
    by_cases hlocation : n.hasLocation = true
    · have hzero : n.location.isZero = true := by
        simpa [NodeConfig.located, hlocation] using hnone
      have hstill : r.updateLocation = r := by
        unfold updateLocation
        rw [hhas, if_pos hlocation, hloc, if_pos hzero]
      rw [hstill]
      refine placed_self hfollows hsame hnone ?_
      unfold NodeConfig.placement
      rw [if_pos hlocation, if_pos hzero]
    · by_cases hhasKey : n.hasAerpawKey = true
      · cases hsite : resolveAerpawLocation n.aerpawKey with
        | some loc =>
            exact placed_of_site hfollows hsame hlocation hhasKey hsite
        | none =>
            have hstill : r.updateLocation = r := by
              unfold updateLocation
              rw [hhas, if_neg hlocation, hkeys, if_pos hhasKey, hkey, hsite]
            rw [hstill]
            refine placed_self hfollows hsame hnone ?_
            unfold NodeConfig.placement
            rw [if_neg hlocation, if_pos hhasKey, hsite, Option.map_none]
      · have hstill : r.updateLocation = r := by
          unfold updateLocation
          rw [hhas, if_neg hlocation, hkeys, if_neg hhasKey]
        rw [hstill]
        refine placed_self hfollows hsame hnone ?_
        unfold NodeConfig.placement
        rw [if_neg hlocation, if_neg hhasKey]

/-- A node with a new vehicle address, if there is one. -/
def withAddress (node : Node) : Option String → Node
  | none => node
  | some address => { node with
      config := { node.config with vehicleAddress := address } }

/-- A request without the fields that are written at all. -/
def unaddressed (n : NodeConfig) : NodeConfig :=
  { unplaced n with vehicleAddress := "" }

theorem canConnect_congr {q n : NodeConfig} (hid : q.id = n.id)
    (hname : q.name = n.name) (handlers : VehicleHandlers) :
    q.handlerKey = n.handlerKey ∧
      q.canConnect handlers = n.canConnect handlers := by
  unfold NodeConfig.canConnect NodeConfig.handlerKey
  rw [hid, hname]
  exact ⟨rfl, rfl⟩

/-- Without a portable address, the request's own one is stored. -/
theorem storeVehicleAddress_spec {n : NodeConfig} {handlers : VehicleHandlers}
    {r : Refresh} (hvehicle : r.request.vehicleAddress = n.vehicleAddress)
    (hnone : n.connects handlers = true ∨ n.portableAddress = none) :
    r.storeVehicleAddress.node = withAddress r.node (n.storedAddress handlers) ∧
      n.storedHandlers handlers = (if n.connects handlers then
        handlers.insert n.handlerKey ⟨n.vehicleAddress, n.handlerKey, n.id⟩
        else handlers) := by
  have hhas : r.request.hasVehicleAddress = n.hasVehicleAddress := by
    rw [NodeConfig.hasVehicleAddress, NodeConfig.hasVehicleAddress, hvehicle]
  unfold storeVehicleAddress NodeConfig.storedHandlers NodeConfig.storedAddress
    NodeConfig.fallbackAddress
  rw [hhas, hvehicle]
  by_cases hconnects : n.connects handlers = true
  · obtain ⟨hown, hfree⟩ := Bool.and_eq_true_iff.mp hconnects
    simp only [hconnects, hown, hfree, if_true]
    exact ⟨rfl, trivial⟩
  · have haddress := hnone.resolve_left hconnects
    simp only [hconnects, haddress, if_false, Bool.false_eq_true]
    by_cases hown : n.hasVehicleAddress = true
    · have htaken : n.canConnect handlers = false := by
        simpa [NodeConfig.connects, hown] using hconnects
      simp only [hown, htaken, if_true, if_false, Bool.false_eq_true]
      exact ⟨rfl, trivial⟩
    · simp only [hown, if_false, Bool.false_eq_true, ite_self]
      exact ⟨rfl, trivial⟩

/-- The address of the vehicle of a logical node is not empty. -/
theorem portableAddress_nonempty (number : ℤ) :
    ("tcp://127.0.0.1:" ++ toString (5760 + number)).isEmpty = false := by
  rw [Bool.eq_false_iff, Ne, String.isEmpty_iff]
  intro h
  have hlength := congrArg String.length h
  simp at hlength

/-- The fields that name the handler are written nowhere. -/
theorem names_of_unplaced {q n : NodeConfig} (h : unplaced q = unplaced n) :
    q.id = n.id ∧ q.name = n.name ∧ q.vehicleAddress = n.vehicleAddress := by
  simp only [unplaced, unwritten, NodeConfig.mk.injEq] at h
  obtain ⟨-, hid, hname, -, -, -, -, -, -, -, -, hvehicle, -⟩ := h
  exact ⟨hid, hname, hvehicle⟩

/-- The vehicle of the logical node takes the place of the request's own
one. -/
theorem addVehicle_portable {n : NodeConfig} {handlers : VehicleHandlers}
    {r t : Refresh} {address : String}
    (hrequest : unplaced r.request = unplaced n)
    (hid : r.node.config.id = n.id) (hname : r.node.config.name = n.name)
    (hfree : n.connects handlers = false) (hhandlers : r.handlers = handlers)
    (haddress : n.portableAddress = some address)
    (hempty : address.isEmpty = false)
    (ht : t = ({ r with request := { r.request with
      vehicleAddress := address } }.addVehicle).storeVehicleAddress) :
    t.node = withAddress r.node (n.storedAddress handlers) ∧
      t.handlers = n.storedHandlers handlers ∧
      t.request = { r.request with vehicleAddress := address } := by
  obtain ⟨hrid, hrname, -⟩ := names_of_unplaced hrequest
  cases r with
  | mk node q handlers' type added resolved =>
      subst hhandlers
      have hhas : { q with vehicleAddress := address }.hasVehicleAddress =
          true := by
        rw [NodeConfig.hasVehicleAddress, hempty]
        rfl
      have hstored : n.storedAddress handlers' = some address := by
        unfold NodeConfig.storedAddress NodeConfig.fallbackAddress
        simp only [hfree, haddress, if_false, Bool.false_eq_true]
      have hnamed : Named ⟨node, { q with vehicleAddress := address },
          handlers', type, added, resolved⟩ :=
        ⟨hid.trans hrid.symm, hname.trans hrname.symm⟩
      obtain ⟨hkey, hconnect⟩ := canConnect_congr
        (q := { q with vehicleAddress := address }) hrid hrname handlers'
      rw [addVehicle_of_address hnamed hhas] at ht
      simp only [hconnect, hkey] at ht
      unfold NodeConfig.storedHandlers
      rw [hstored]
      unfold storeVehicleAddress at ht
      by_cases hroom : n.canConnect handlers' = true
      · simp only [hroom, hhas, if_true] at ht ⊢
        subst ht
        refine ⟨rfl, ?_, rfl⟩
        exact congrArg (fun id => handlers'.insert n.handlerKey
          ⟨address, n.handlerKey, id⟩) hrid
      · simp only [hroom, hhas, if_true, if_false, Bool.false_eq_true] at ht ⊢
        subst ht
        exact ⟨rfl, rfl, rfl⟩

theorem storeVehicleAddress_rest (r : Refresh) :
    r.storeVehicleAddress.handlers = r.handlers ∧
      r.storeVehicleAddress.request = r.request := by
  unfold storeVehicleAddress
  split_ifs <;> exact ⟨rfl, rfl⟩

theorem unaddressed_of_unplaced {q n : NodeConfig} (address : String)
    (h : unplaced q = unplaced n) :
    unaddressed { q with vehicleAddress := address } = unaddressed n :=
  congrArg (fun p : NodeConfig => { p with vehicleAddress := "" }) h

/-- The last stage for a node that has got its vehicle. -/
theorem storeVehicleAddress_settles {n : NodeConfig}
    {handlers : VehicleHandlers} {r : Refresh}
    (hrequest : unplaced r.request = unplaced n)
    (hhandlers : r.handlers =
      if n.connects handlers then handlers.insert n.handlerKey
        ⟨n.vehicleAddress, n.handlerKey, n.id⟩ else handlers)
    (hnone : n.connects handlers = true ∨ n.portableAddress = none) :
    r.storeVehicleAddress.node = withAddress r.node (n.storedAddress handlers) ∧
      r.storeVehicleAddress.handlers = n.storedHandlers handlers ∧
      r.storeVehicleAddress.request.nodeType = r.request.nodeType ∧
      unaddressed r.storeVehicleAddress.request = unaddressed n := by
  obtain ⟨hnode, hafter⟩ := storeVehicleAddress_spec
    (names_of_unplaced hrequest).2.2 hnone
  rw [(storeVehicleAddress_rest r).1, (storeVehicleAddress_rest r).2, hafter]
  exact ⟨hnode, hhandlers, rfl,
    unaddressed_of_unplaced r.request.vehicleAddress hrequest⟩

/-- Asking for the number of a portable node only places the request. -/
theorem resolve_spec {n : NodeConfig} {s : Refresh}
    (hrequest : unplaced s.request = unplaced n) :
    ∃ u : Refresh, s.resolve.1 = u ∧ u.node = s.node ∧
      u.handlers = s.handlers ∧ u.request.nodeType = s.request.nodeType ∧
      unplaced u.request = unplaced n := by
  obtain ⟨number, hwritten⟩ := resolve_request s
  refine ⟨s.resolve.1, rfl, rfl, rfl, ?_, ?_⟩
  · rw [hwritten]
  · rw [hwritten]
    exact hrequest

/-- The last two stages: a portable node gets its vehicle, and the address is
stored. -/
theorem connectPortable_spec {n : NodeConfig} {handlers : VehicleHandlers}
    {s t : Refresh} (hrequest : unplaced s.request = unplaced n)
    (hid : s.node.config.id = n.id) (hname : s.node.config.name = n.name)
    (hadded : s.vehicleAdded = n.connects handlers)
    (hhandlers : s.handlers =
      if n.connects handlers then handlers.insert n.handlerKey
        ⟨n.vehicleAddress, n.handlerKey, n.id⟩ else handlers)
    (hasked : n.isPortable = true →
      s.resolve.2.2 = n.portableNumber.isSome ∧
        ∀ number, n.portableNumber = some number → s.resolve.2.1 = number)
    (ht : t = (s.connectPortable n.isPortable).storeVehicleAddress) :
    t.node = withAddress s.node (n.storedAddress handlers) ∧
      t.handlers = n.storedHandlers handlers ∧
      t.request.nodeType = s.request.nodeType ∧
      unaddressed t.request = unaddressed n := by
  rw [connectPortable, hadded] at ht
  by_cases hplain : (n.isPortable && !n.connects handlers) = true
  · obtain ⟨hportable, hfree⟩ := Bool.and_eq_true_iff.mp hplain
    have hnone : n.connects handlers = false := by simpa using hfree
    obtain ⟨hinfo, hnumber⟩ := hasked hportable
    obtain ⟨u, hu, hunode, huhandlers, hutype, hurequest⟩ :=
      resolve_spec hrequest
    rw [← huhandlers] at hhandlers
    simp only [hplain, if_true, hu] at ht
    rw [← hunode] at hid hname ⊢
    rw [← hutype]
    match hportableNumber : n.portableNumber with
    | some number =>
        rw [hportableNumber] at hinfo
        simp only [hinfo, Option.isSome_some, if_true,
          hnumber number hportableNumber] at ht
        rw [hnone, if_neg Bool.false_ne_true] at hhandlers
        have haddress : n.portableAddress =
            some ("tcp://127.0.0.1:" ++ toString (5760 + number)) := by
          rw [NodeConfig.portableAddress, if_pos hportable, hportableNumber]
          rfl
        obtain ⟨hnode, hafter, hwritten⟩ := addVehicle_portable hurequest hid
          hname hnone hhandlers haddress (portableAddress_nonempty number) ht
        rw [hwritten]
        exact ⟨hnode, hafter, rfl, unaddressed_of_unplaced _ hurequest⟩
    | none =>
        rw [hportableNumber] at hinfo
        simp only [hinfo, Option.isSome_none, if_false, Bool.false_eq_true] at ht
        have haddress : n.portableAddress = none := by
          rw [NodeConfig.portableAddress, hportableNumber]
          exact ite_self none
        rw [ht]
        exact storeVehicleAddress_settles hurequest hhandlers (Or.inr haddress)
  · have hnone : n.connects handlers = true ∨ n.portableAddress = none := by
      rcases hcase : n.connects handlers with _ | _
      · right
        rw [NodeConfig.portableAddress]
        exact if_neg (by simpa [hcase] using hplain)
      · exact Or.inl rfl
    rw [if_neg hplain] at ht
    rw [ht]
    exact storeVehicleAddress_settles hrequest hhandlers hnone

/-- What is copied before anything is deduced. -/
theorem copyFields_node (node : Node) (n : NodeConfig)
    (handlers : VehicleHandlers) :
    (copyFields ⟨node, n, handlers, n.nodeType, false, none⟩).node =
      { node with config := { node.config.takeOver n with
          nodeType := n.nodeType
          characteristics := node.config.characteristics
          vehicleAddress := if n.hasVehicleAddress then n.vehicleAddress
            else node.config.vehicleAddress } } := by
  unfold copyFields NodeConfig.takeOver
  dsimp only
  cases n.hasVehicleAddress <;> cases n.hasAerpawKey <;>
    cases n.hasDeviceTxGain <;> cases n.hasDeviceRxGain <;> rfl

theorem withAddress_place (node : Node) (p : Option (Location × UInt8))
    (address : Option String) :
    withAddress (place node p) address = place (withAddress node address) p := by
  rcases p with _ | ⟨loc, number⟩
  · rfl
  · cases address <;> rfl

end Refresh

/-- The node after a refresh. -/
def refreshed (node : Node) (n : NodeConfig) (handlers : VehicleHandlers) :
    Node :=
  Refresh.withAddress
    (Refresh.place { node with
      characteristics := n.profile
      config := node.config.takeOver n } n.placement)
    (n.storedAddress handlers)

/-- What `refreshFromConfig` does, from the request as it comes in.  Of the
request only the node type is known to change, besides the fields that nothing
reads afterwards. -/
theorem refreshFromConfig_spec {node : Node} {n : NodeConfig}
    {handlers : VehicleHandlers} {r : Refresh}
    (hr : r = node.refreshFromConfig n handlers) :
    r.node = node.refreshed n handlers ∧
      r.handlers = n.storedHandlers handlers ∧
      r.request.nodeType = n.deducedType ∧
      Refresh.unaddressed r.request = Refresh.unaddressed n := by
  unfold refreshFromConfig at hr
  dsimp only at hr
  obtain ⟨r₁, hr₁⟩ : ∃ r₁, r₁ = Refresh.copyFields
      ⟨node, n, handlers, n.nodeType, false, none⟩ := ⟨_, rfl⟩
  have hcopied : r₁ = ⟨r₁.node, n, handlers, n.nodeType, false, none⟩ := by
    rw [hr₁]
    rfl
  have hnode₁ := Refresh.copyFields_node node n handlers
  rw [← hr₁] at hnode₁
  obtain ⟨hnode₂, htype₂, hadded₂, hhandlers₂, -, hprofile₂, hfollows₂⟩ :=
    Refresh.deduceNodeType_spec handlers (by rw [hnode₁]; rfl)
      (by rw [hnode₁]; rfl) (fun h => by rw [hnode₁]; exact if_pos h)
      (congrArg Refresh.deduceNodeType hcopied)
  obtain ⟨hnode₃, hhandlers₃, hadded₃, htype₃, hfollows₃⟩ :=
    Refresh.assignCharacteristics_spec htype₂ hprofile₂ hfollows₂ rfl
  obtain ⟨hnode₄, hhandlers₄, hadded₄, htype₄, hrest₄, hasked₄⟩ :=
    Refresh.updateLocation_spec hfollows₃ (by rw [hnode₃]) (by rw [hnode₃])
  obtain ⟨s, hs⟩ : ∃ s : Refresh, (r₁.deduceNodeType.storeNodeType
    ).assignCharacteristics.updateLocation = s := ⟨_, rfl⟩
  rw [hs] at hnode₄ hhandlers₄ hadded₄ htype₄ hrest₄ hasked₄
  rw [← hr₁, hs] at hr
  have hs₁ : s.node = Refresh.place (Refresh.withProfile { r₁.node with
      characteristics := n.typeProfile
      config := { r₁.node.config with
        nodeType := n.deducedType
        characteristics := n.typeProfile } } n.profile) n.placement := by
    rw [hnode₄, hnode₃, hnode₂]
  have hnames : s.node.config.id = n.id ∧ s.node.config.name = n.name := by
    rw [hs₁, hnode₁]
    rcases n.placement with _ | ⟨loc, number⟩ <;> exact ⟨rfl, rfl⟩
  obtain ⟨hnode₅, hhandlers₅, htype₅, hrest₅⟩ :=
    Refresh.connectPortable_spec hrest₄ hnames.1 hnames.2
      (hadded₄.trans (hadded₃.trans hadded₂))
      (hhandlers₄.trans (hhandlers₃.trans hhandlers₂)) hasked₄ hr
  refine ⟨?_, hhandlers₅, htype₅.trans (htype₄.trans htype₃), hrest₅⟩
  rw [hnode₅, hs₁, hnode₁]
  unfold refreshed
  rw [Refresh.withAddress_place, Refresh.withAddress_place]
  refine congrArg (fun m => Refresh.place m n.placement) ?_
  by_cases hvehicle : n.hasVehicleAddress = true
  · obtain ⟨address, haddress⟩ := Option.ne_none_iff_exists'.mp
      (NodeConfig.storedAddress_ne_none hvehicle handlers)
    rw [haddress]
    rfl
  · simp only [hvehicle, if_false, Bool.false_eq_true]
    rfl

/-- What a refresh leaves alone, and the address. -/
theorem refreshed_kept (node : Node) (n : NodeConfig)
    (handlers : VehicleHandlers) :
    (node.refreshed n handlers).config.sampleRate = node.config.sampleRate ∧
      (node.refreshed n handlers).config.channels = node.config.channels ∧
      (node.refreshed n handlers).receiver = node.receiver ∧
      (node.refreshed n handlers).transmitter = node.transmitter ∧
      (node.refreshed n handlers).lastHeartbeat = node.lastHeartbeat ∧
      (node.refreshed n handlers).config.vehicleAddress =
        (n.storedAddress handlers).getD node.config.vehicleAddress := by
  unfold refreshed
  rcases n.placement with _ | ⟨loc, number⟩ <;>
    cases n.storedAddress handlers <;> exact ⟨rfl, rfl, rfl, rfl, rfl, rfl⟩

/-! ## Requests that report nothing new -/

/-- The fields of the request are stored in the node. -/
@[mk_iff]
structure Carries (node : Node) (n : NodeConfig) : Prop where
  id : node.config.id = n.id
  name : node.config.name = n.name
  ipAddress : node.config.ipAddress = n.ipAddress
  inputFormat : node.config.inputFormat = n.inputFormat
  outputFormat : node.config.outputFormat = n.outputFormat
  numChannels : node.config.numChannels = n.numChannels
  nodeType : node.config.nodeType = n.deducedType
  aerpawKey : n.hasAerpawKey = true → node.config.aerpawKey = n.aerpawKey
  deviceTxGain : n.hasDeviceTxGain = true →
    node.config.hasDeviceTxGain = true ∧
      node.config.deviceTxGain = n.deviceTxGain
  deviceRxGain : n.hasDeviceRxGain = true →
    node.config.hasDeviceRxGain = true ∧
      node.config.deviceRxGain = n.deviceRxGain
  characteristics : node.config.characteristics = n.profile ∧
    node.characteristics = n.profile
  location : ∀ loc number, n.placement = some (loc, number) →
    node.location = some (loc, number) ∧ node.config.location = loc ∧
      node.config.hasLocation = true ∧
      node.config.logicalNode = (number.toNat : ℤ)

theorem carries_refreshed (node : Node) (n : NodeConfig)
    (handlers : VehicleHandlers) : (node.refreshed n handlers).Carries n := by
  unfold refreshed
  rw [Refresh.withAddress_place]
  rcases hplace : n.placement with _ | ⟨loc, number⟩ <;>
    cases n.storedAddress handlers <;>
    constructor <;>
    simp_all [Refresh.place, Refresh.withAddress, NodeConfig.takeOver,
      setLocation, NodeConfig.setLocation]

/-- A gain that is not reported, or stored already, stays. -/
theorem gain_kept {reported stored : Bool} {new old : ℚ}
    (h : reported = true → stored = true ∧ old = new) :
    (if reported then new else old) = old ∧ (reported || stored) = stored := by
  cases reported with
  | false => exact ⟨rfl, rfl⟩
  | true =>
      obtain ⟨hstored, hsame⟩ := h rfl
      rw [hstored, hsame]
      exact ⟨rfl, rfl⟩

theorem Carries.takeOver_eq {node : Node} {n : NodeConfig}
    (h : node.Carries n) : node.config.takeOver n = node.config := by
  have hkey : (if n.hasAerpawKey then n.aerpawKey else node.config.aerpawKey) =
      node.config.aerpawKey := by
    split_ifs with hreported
    · exact (h.aerpawKey hreported).symm
    · rfl
  have htx := gain_kept h.deviceTxGain
  have hrx := gain_kept h.deviceRxGain
  unfold NodeConfig.takeOver
  rw [hkey, htx.1, htx.2, hrx.1, hrx.2, ← h.characteristics.1, ← h.id,
    ← h.name, ← h.ipAddress, ← h.inputFormat, ← h.outputFormat,
    ← h.numChannels, ← h.nodeType]

/-- Of a request that reports nothing new only the address is stored. -/
theorem Carries.refreshed_eq {node : Node} {n : NodeConfig}
    (h : node.Carries n) (handlers : VehicleHandlers) :
    node.refreshed n handlers =
      Refresh.withAddress node (n.storedAddress handlers) := by
  have hsame : { node with
      characteristics := n.profile
      config := node.config.takeOver n } = node := by
    rw [h.takeOver_eq, ← h.characteristics.2]
  have hplace : Refresh.place node n.placement = node := by
    rcases hplacement : n.placement with _ | ⟨loc, number⟩
    · rfl
    · obtain ⟨hlocation, hloc, hhas, hnumber⟩ := h.location loc number hplacement
      unfold Refresh.place setLocation NodeConfig.setLocation
      dsimp only
      rw [← hlocation, ← hloc, ← hnumber, ← hhas]
  unfold refreshed
  rw [hsame, hplace]

/-- A refresh leaves a node as it is exactly when the request's fields and the
address that follows from it are stored already. -/
theorem refreshed_eq_self_iff {node : Node} {n : NodeConfig}
    {handlers : VehicleHandlers} :
    node.refreshed n handlers = node ↔
      node.Carries n ∧ ∀ address, n.storedAddress handlers = some address →
        node.config.vehicleAddress = address := by
  constructor
  · intro h
    have hcarries : node.Carries n := h ▸ carries_refreshed node n handlers
    refine ⟨hcarries, fun address haddress => ?_⟩
    rw [hcarries.refreshed_eq, haddress] at h
    rw [← h]
    rfl
  · rintro ⟨hcarries, haddress⟩
    rw [hcarries.refreshed_eq]
    cases hstored : n.storedAddress handlers with
    | none => rfl
    | some address =>
        unfold Refresh.withAddress
        dsimp only
        rw [← haddress address hstored]

end Node

end Chem
