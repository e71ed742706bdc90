import ChemEmulator.Node.ChannelTable
import ChemEmulator.Support.QuotedText

/-!
# Statements of the database

`src/chem/db/dbHandler.cpp`, `quotesql` and the texts that are handed to
`sqlite3_exec`.  `quotesql` puts quotes around a string and does not double
those inside.  The texts go through `c_str`, so SQLite reads them up to the
first character that is zero.

A text is compared with the statement that is meant: the fixed parts of the
text, and literals with the strings as their values.
-/

namespace Chem
namespace DBHandler

open QuotedText

/-- `quotesql`. -/
def quotesql (s : String) : String := "'" ++ s ++ "'"

/-- `std::to_string` of a number: six decimals. -/
def toStringDouble (q : ℚ) : String :=
  let micros := (FloatValue.roundHalfEven (|q| * 10 ^ 6)).toNat
  (if q < 0 then "-" else "") ++ toString (micros / 10 ^ 6) ++ "." ++
    String.ofList ((Nat.toDigits 10 (micros % 10 ^ 6)).leftpad 6 '0')

/-- `freq / 1000000` as text. -/
def megahertz (freq : ℚ) : String :=
  toStringDouble (FloatValue.roundBinary 53 (freq / 1000000))

/-- `default_antenna`. -/
def defaultAntenna : String := "isotropic"

/-- The numbers in the text of `AddNode`. -/
def nodeNumbers (cfg : NodeConfig) (channel : Usrp.Channel) : String :=
  megahertz channel.txTuneFreq ++ "," ++
    megahertz channel.rxTuneFreq ++ "," ++
    toString cfg.numChannels.toNat ++ "," ++
    toStringDouble cfg.sampleRate.txRate ++ "," ++
    toStringDouble cfg.sampleRate.rxRate ++ "," ++ "1.0,"

/-- The text of `AddNode`.  Without a channel, `at(0)` throws. -/
def addNodeQuery (cfg : NodeConfig) : Option String :=
  cfg.channels.head?.map fun channel =>
    "INSERT INTO nodes (id, name, txFreq, rxFreq, numChannels, " ++
    "txsampleRate, rxsampleRate, " ++
    "chCoeff, vehicleAddress, antennaPattern) VALUES (" ++
    quotesql cfg.id ++ "," ++ quotesql cfg.name ++ "," ++
    nodeNumbers cfg channel ++
    quotesql cfg.vehicleAddress ++ "," ++ quotesql defaultAntenna ++
    ") " ++
    "ON CONFLICT(id) DO UPDATE SET " ++
    "name=excluded.name," ++
    "txFreq=excluded.txFreq," ++
    "rxFreq=excluded.rxFreq," ++
    "numChannels=excluded.numChannels," ++
    "txsampleRate=excluded.txsampleRate," ++
    "rxsampleRate=excluded.rxsampleRate," ++
    "vehicleAddress=excluded.vehicleAddress;"

/-- The text of `DeleteNode`. -/
def deleteNodeQuery (cfg : NodeConfig) : String :=
  "DELETE FROM nodes WHERE id=" ++ quotesql cfg.id

/-- The text of `ChangeAntenna`. -/
def changeAntennaQuery (nodeName pattern : String) : String :=
  "UPDATE nodes SET antennaPattern=" ++ quotesql pattern ++
    " WHERE name=" ++ quotesql nodeName

/-- The text of `AddChannel`. -/
def addChannelQuery (freq : ℚ) (chMode : String) (srate : UInt32) : String :=
  "INSERT INTO channels VALUES (" ++ megahertz freq ++ "," ++
    quotesql chMode ++ "," ++ toString srate.toNat ++ ");"

/-- The text of `DeleteChannel`. -/
def deleteChannelQuery (freq : ℚ) : String :=
  "DELETE FROM channels WHERE freq=" ++ megahertz freq

/-! ## What is meant -/

/-- The literals of SQLite, and what may stand behind a statement. -/
def sqlite : Lexicon Char where
  quote := '\''
  nul := Char.ofNat 0
  separator := ';'
  idle c := c = ';' ∨ c ∈ [' ', '\t', '\n', '\x0b', '\x0c', '\r']
  nul_ne := by decide
  separator_ne := by decide
  separator_ne_nul := by decide
  idle_separator := .inl rfl

/-- The statement with the given text before the first value and behind each
of them. -/
def statement (head : String) (values : List (String × String)) :
    List (Token Char) :=
  assemble head.toList (values.map fun v => (v.1.toList, v.2.toList))

def addNodeStatement (cfg : NodeConfig) (channel : Usrp.Channel) :
    List (Token Char) :=
  statement
    ("INSERT INTO nodes (id, name, txFreq, rxFreq, numChannels, " ++
      "txsampleRate, rxsampleRate, " ++
      "chCoeff, vehicleAddress, antennaPattern) VALUES (")
    [(cfg.id, ","), (cfg.name, "," ++ nodeNumbers cfg channel),
      (cfg.vehicleAddress, ","),
      (defaultAntenna, ") " ++
        "ON CONFLICT(id) DO UPDATE SET " ++
        "name=excluded.name," ++
        "txFreq=excluded.txFreq," ++
        "rxFreq=excluded.rxFreq," ++
        "numChannels=excluded.numChannels," ++
        "txsampleRate=excluded.txsampleRate," ++
        "rxsampleRate=excluded.rxsampleRate," ++
        "vehicleAddress=excluded.vehicleAddress")]

def deleteNodeStatement (cfg : NodeConfig) : List (Token Char) :=
  statement "DELETE FROM nodes WHERE id=" [(cfg.id, "")]

def changeAntennaStatement (nodeName pattern : String) : List (Token Char) :=
  statement "UPDATE nodes SET antennaPattern="
    [(pattern, " WHERE name="), (nodeName, "")]

def addChannelStatement (freq : ℚ) (chMode : String) (srate : UInt32) :
    List (Token Char) :=
  statement ("INSERT INTO channels VALUES (" ++ megahertz freq ++ ",")
    [(chMode, "," ++ toString srate.toNat ++ ")")]

def deleteChannelStatement (freq : ℚ) : List (Token Char) :=
  statement ("DELETE FROM channels WHERE freq=" ++ megahertz freq) []

/-- SQLite reads the text as the statement, and as no other one. -/
def Denotes (text : String) (body : List (Token Char)) : Prop :=
  DenotesSole sqlite text.toList body

/-- A string that `quotesql` turns into a literal for it. -/
def Harmless (s : String) : Prop := Plain sqlite s.toList

instance (s : String) : Decidable (Harmless s) :=
  decidable_of_iff
    (s.toList.all (fun c => c ≠ '\'' && c ≠ Char.ofNat 0) = true) (by
      unfold Harmless Plain
      simp only [List.all_eq_true, Bool.and_eq_true, decide_eq_true_eq]
      grind [sqlite])

/-! ## Fixed text -/

/-- Text that can stand outside the literals. -/
def Unquoted (s : String) : Prop := Neutral sqlite s.toList

instance (s : String) : Decidable (Unquoted s) :=
  decidable_of_iff
    (s.toList.all (fun c => c ≠ '\'' && c ≠ Char.ofNat 0 && c ≠ ';') = true)
    (by
      unfold Unquoted Neutral
      simp only [List.all_eq_true, Bool.and_eq_true, decide_eq_true_eq,
        and_assoc]
      rfl)

@[simp] theorem unquoted_append {s t : String} :
    Unquoted (s ++ t) ↔ Unquoted s ∧ Unquoted t := by
  unfold Unquoted Neutral
  simp only [String.toList_append, List.forall_mem_append]

theorem unquoted_digits {digits : List Char}
    (h : ∀ c ∈ digits, c.isDigit = true) : Unquoted (String.ofList digits) := by
  intro c hc
  rw [String.toList_ofList] at hc
  have hdigit := h c hc
  refine ⟨?_, ?_, ?_⟩
  · rintro rfl
    exact absurd hdigit (by decide)
  · rintro rfl
    exact absurd hdigit (by decide)
  · rintro rfl
    exact absurd hdigit (by decide)

theorem unquoted_toString (n : ℕ) : Unquoted (toString n) := by
  rw [Nat.toString_eq_ofList_toDigits]
  exact unquoted_digits fun c hc =>
    Nat.isDigit_of_mem_toDigits (by decide) (by decide) hc

theorem unquoted_toStringDouble (q : ℚ) : Unquoted (toStringDouble q) := by
  have hsign : Unquoted (if q < 0 then "-" else "") := by
    split_ifs
    · decide
    · decide
  have hdecimals : ∀ n, Unquoted
      (String.ofList ((Nat.toDigits 10 n).leftpad 6 '0')) := by
    intro n
    apply unquoted_digits
    intro c hc
    rw [List.leftpad, List.mem_append, List.mem_replicate] at hc
    rcases hc with ⟨-, rfl⟩ | hc
    · decide
    · exact Nat.isDigit_of_mem_toDigits (by decide) (by decide) hc
  unfold toStringDouble
  simp only [unquoted_append]
  exact ⟨⟨⟨hsign, unquoted_toString _⟩, by decide⟩, hdecimals _⟩

theorem unquoted_megahertz (freq : ℚ) : Unquoted (megahertz freq) :=
  unquoted_toStringDouble _

theorem unquoted_nodeNumbers (cfg : NodeConfig) (channel : Usrp.Channel) :
    Unquoted (nodeNumbers cfg channel) := by
  simp only [nodeNumbers, unquoted_append, unquoted_megahertz,
    unquoted_toString, unquoted_toStringDouble, true_and, and_true]
  decide

/-! ## The texts and the statements -/

theorem toList_quotesql (s : String) :
    (quotesql s).toList = '\'' :: (s.toList ++ ['\'']) := by
  rw [quotesql, String.toList_append, String.toList_append]
  rfl

/-- A statement as the source writes it. -/
theorem printRaw_statement (head : String) (values : List (String × String)) :
    printRaw '\'' (statement head values) =
      head.toList ++ values.flatMap fun v =>
        (quotesql v.1).toList ++ v.2.toList := by
  rw [statement, printRaw_assemble, List.flatMap_map]
  simp only [toList_quotesql, List.cons_append, List.append_assoc,
    List.nil_append]

/-- A text denotes what is meant exactly if the strings in it are harmless. -/
theorem denotes_statement_iff {text head : String}
    {values : List (String × String)} {tail : List Char}
    (htext : text.toList = printRaw '\'' (statement head values) ++ tail)
    (hhead : Unquoted head) (hvalues : ∀ v ∈ values, Unquoted v.2)
    (hsep : Separated (values.map fun v => (v.1.toList, v.2.toList)))
    (htail : tail = [] ∨ tail = [';']) :
    Denotes text (statement head values) ↔
      ∀ v ∈ values, Harmless v.1 := by
  have hholes : ∀ hole ∈ values.map fun v => (v.1.toList, v.2.toList),
      Neutral sqlite hole.2 := by
    intro hole hhole
    obtain ⟨v, hv, rfl⟩ := List.mem_map.mp hhole
    exact hvalues v hv
  rw [Denotes, htext]
  refine (denotesSole_assemble_iff hhead hholes hsep htail).trans ?_
  simp only [List.map_map, List.forall_mem_map]
  rfl

theorem denotes_deleteNode_iff (cfg : NodeConfig) :
    Denotes (deleteNodeQuery cfg) (deleteNodeStatement cfg) ↔
      Harmless cfg.id := by
  unfold deleteNodeStatement
  have htext : (deleteNodeQuery cfg).toList =
      printRaw '\'' (statement "DELETE FROM nodes WHERE id=" [(cfg.id, "")]) ++
        [] := by
    unfold deleteNodeQuery
    rw [printRaw_statement]
    simp only [List.flatMap_cons, List.flatMap_nil, List.append_nil,
      String.toList_append, String.toList_empty]
  rw [denotes_statement_iff htext (by decide) ?_ ?_ (.inl rfl)]
  · simp only [List.mem_singleton, forall_eq]
  · simp only [List.mem_singleton, forall_eq]
    decide
  · exact trivial

theorem denotes_changeAntenna_iff (nodeName pattern : String) :
    Denotes (changeAntennaQuery nodeName pattern)
        (changeAntennaStatement nodeName pattern) ↔
      Harmless pattern ∧ Harmless nodeName := by
  unfold changeAntennaStatement
  have htext : (changeAntennaQuery nodeName pattern).toList =
      printRaw '\'' (statement "UPDATE nodes SET antennaPattern="
        [(pattern, " WHERE name="), (nodeName, "")]) ++ [] := by
    unfold changeAntennaQuery
    rw [printRaw_statement]
    simp only [List.flatMap_cons, List.flatMap_nil, List.append_nil,
      List.append_assoc, String.toList_append, String.toList_empty]
  rw [denotes_statement_iff htext (by decide) ?_ ?_ (.inl rfl)]
  · simp only [List.forall_mem_cons, List.not_mem_nil, false_implies,
      implies_true, and_true]
  · simp only [List.forall_mem_cons, List.not_mem_nil, false_implies,
      implies_true, and_true]
    decide
  · refine ⟨?_, trivial⟩
    dsimp only
    decide

theorem denotes_addNode_iff {cfg : NodeConfig} {channel : Usrp.Channel}
    (hchannel : cfg.channels.head? = some channel) :
    (∃ text, addNodeQuery cfg = some text ∧
        Denotes text (addNodeStatement cfg channel)) ↔
      Harmless cfg.id ∧ Harmless cfg.name ∧ Harmless cfg.vehicleAddress := by
  have hdefault : Harmless defaultAntenna := by decide
  have hlast : "vehicleAddress=excluded.vehicleAddress;".toList =
      "vehicleAddress=excluded.vehicleAddress".toList ++ [';'] := by decide
  unfold addNodeQuery addNodeStatement
  rw [hchannel, Option.map_some]
  simp only [Option.some.injEq, exists_eq_left']
  rw [denotes_statement_iff ?_ ?_ ?_ ?_ (.inr rfl)]
  · simp only [List.forall_mem_cons, List.not_mem_nil, false_implies,
      implies_true, and_true, hdefault]
  · rw [printRaw_statement]
    simp only [List.flatMap_cons, List.flatMap_nil, List.append_nil,
      List.append_assoc, String.toList_append, hlast]
  · simp only [unquoted_append]
    decide
  · simp only [List.forall_mem_cons, List.not_mem_nil, false_implies,
      implies_true, and_true, unquoted_append, unquoted_nodeNumbers]
    decide
  · refine ⟨?_, ?_, ?_, trivial⟩
    · dsimp only
      decide
    · dsimp only
      rw [String.toList_append]
      exact List.append_ne_nil_of_left_ne_nil (by decide) _
    · dsimp only
      decide

/-- The texts denote the statements that are meant exactly if the strings of
the client have no quotes in them and no character that is zero. -/
theorem statements_denote_iff (cfg : NodeConfig) (nodeName pattern : String) :
    (∀ channel, cfg.channels.head? = some channel →
      ((∃ text, addNodeQuery cfg = some text ∧
          Denotes text (addNodeStatement cfg channel)) ↔
        Harmless cfg.id ∧ Harmless cfg.name ∧ Harmless cfg.vehicleAddress)) ∧
    (Denotes (deleteNodeQuery cfg) (deleteNodeStatement cfg) ↔
      Harmless cfg.id) ∧
    (Denotes (changeAntennaQuery nodeName pattern)
        (changeAntennaStatement nodeName pattern) ↔
      Harmless pattern ∧ Harmless nodeName) :=
  ⟨fun _ hchannel => denotes_addNode_iff hchannel, denotes_deleteNode_iff cfg,
    denotes_changeAntenna_iff nodeName pattern⟩

/-- A node with a vehicle. -/
def droneConfig : NodeConfig :=
  { Controller.plainConfig "n1" 2400000000 915000000 with
    name := "drone \"7\""
    vehicleAddress := "tcp://127.0.0.1:5760" }

theorem statements_denote_drone :
    (∃ text, addNodeQuery droneConfig = some text ∧
      Denotes text (addNodeStatement droneConfig
        ⟨2400000000, 915000000, 0, 0, "TX/RX", "RX2"⟩)) ∧
    Denotes (deleteNodeQuery droneConfig) (deleteNodeStatement droneConfig) ∧
    Denotes (changeAntennaQuery "drone \"7\"" "sa-1400-5900")
      (changeAntennaStatement "drone \"7\"" "sa-1400-5900") := by
  obtain ⟨hadd, hdelete, hchange⟩ :=
    statements_denote_iff droneConfig "drone \"7\"" "sa-1400-5900"
  exact ⟨(hadd _ rfl).mpr (by decide), hdelete.mpr (by decide),
    hchange.mpr (by decide)⟩

/-- A node whose id closes the literal.  The condition holds for every row. -/
def injectedConfig : NodeConfig :=
  Controller.plainConfig "x' OR 'a'='a" 2400000000 915000000

theorem deleteNode_injected :
    ¬Denotes (deleteNodeQuery injectedConfig)
        (deleteNodeStatement injectedConfig) ∧
      Denotes (deleteNodeQuery injectedConfig)
        (statement "DELETE FROM nodes WHERE id="
          [("x", " OR "), ("a", "="), ("a", "")]) := by
  constructor
  · rw [denotes_deleteNode_iff]
    decide
  · rw [denotes_statement_iff (by decide) (by decide) (by decide) ?_ (.inl rfl)]
    · decide
    · exact ⟨by decide, by decide, trivial⟩

/-! ## The table of channels

The literals in its statements are names of propagation models. -/

theorem denotes_addChannel_iff (freq : ℚ) (chMode : String) (srate : UInt32) :
    Denotes (addChannelQuery freq chMode srate)
        (addChannelStatement freq chMode srate) ↔ Harmless chMode := by
  have hlast : ");".toList = ")".toList ++ [';'] := by decide
  unfold addChannelStatement
  rw [denotes_statement_iff ?_ ?_ ?_ ?_ (.inr rfl)]
  · simp only [List.mem_singleton, forall_eq]
  · unfold addChannelQuery
    rw [printRaw_statement]
    simp only [List.flatMap_cons, List.flatMap_nil, List.append_nil,
      List.append_assoc, String.toList_append, hlast]
  · simp only [unquoted_append, unquoted_megahertz]
    decide
  · simp only [List.mem_singleton, forall_eq, unquoted_append,
      unquoted_toString]
    decide
  · exact trivial

theorem denotes_deleteChannel (freq : ℚ) :
    Denotes (deleteChannelQuery freq) (deleteChannelStatement freq) := by
  have htext : (deleteChannelQuery freq).toList = printRaw '\''
      (statement ("DELETE FROM channels WHERE freq=" ++ megahertz freq) []) ++
        [] := by
    rw [printRaw_statement, List.flatMap_nil, List.append_nil, List.append_nil]
    rfl
  have hhead :
      Unquoted ("DELETE FROM channels WHERE freq=" ++ megahertz freq) :=
    unquoted_append.mpr ⟨by decide, unquoted_megahertz freq⟩
  refine (denotes_statement_iff htext hhead ?_ trivial (.inl rfl)).mpr ?_
  · exact fun v hv => absurd hv List.not_mem_nil
  · exact fun v hv => absurd hv List.not_mem_nil

theorem harmless_propagationModelToString (model : PropagationModel) :
    Harmless (propagationModelToString model) := by
  cases model <;> decide

/-- The text of a statement of the table. -/
def query : ChannelStatement → String
  | .addChannel freq chMode srate => addChannelQuery freq chMode srate
  | .deleteChannel freq => deleteChannelQuery freq

/-- What is meant by it. -/
def meant : ChannelStatement → List (Token Char)
  | .addChannel freq chMode srate => addChannelStatement freq chMode srate
  | .deleteChannel freq => deleteChannelStatement freq

/-- The literal of the statement, if there is one, is the name of a model. -/
def NamesModel : ChannelStatement → Prop
  | .addChannel _ chMode _ => ∃ model, chMode = propagationModelToString model
  | .deleteChannel _ => True

theorem NamesModel.denotes {s : ChannelStatement} (h : NamesModel s) :
    Denotes (query s) (meant s) := by
  cases s with
  | addChannel freq chMode srate =>
      obtain ⟨model, rfl⟩ := h
      exact (denotes_addChannel_iff freq _ srate).mpr
        (harmless_propagationModelToString model)
  | deleteChannel freq => exact denotes_deleteChannel freq

theorem namesModel_assign (dir : Direction) (C : Controller) (node : Node)
    (newConfig : NodeConfig) :
    ∀ s ∈ Controller.assignStatements dir C node newConfig, NamesModel s := by
  intro s hs
  unfold Controller.assignStatements at hs
  cases hchannels : newConfig.channels with
  | nil =>
      rw [hchannels] at hs
      exact absurd hs List.not_mem_nil
  | cons ch chs =>
      rw [hchannels] at hs
      rcases List.mem_append.mp hs with hs | hs
      · unfold Controller.createStatements at hs
        split_ifs at hs with hknown
        · exact absurd hs List.not_mem_nil
        · obtain rfl := List.mem_singleton.mp hs
          exact ⟨C.defaultModel, rfl⟩
      · obtain ⟨I, -, rfl⟩ := List.mem_map.mp hs
        trivial

theorem namesModel_config (C : Controller) (nodeConfig : NodeConfig)
    (remoteIp : String) (now : ℤ) :
    ∀ s ∈ C.configStatements nodeConfig remoteIp now, NamesModel s := by
  intro s hs
  unfold Controller.configStatements at hs
  dsimp only at hs
  split at hs
  · exact absurd hs List.not_mem_nil
  · rcases List.mem_append.mp hs with hs | hs
    · exact namesModel_assign _ _ _ _ s hs
    · split at hs
      · exact absurd hs List.not_mem_nil
      · exact namesModel_assign _ _ _ _ s hs

/-- Whatever a client sends, SQLite reads the texts of `AddChannel` and
`DeleteChannel` as they are meant: no text of the client is in them. -/
theorem channelStatements_denote (C : Controller) (event : Controller.Event) :
    ∀ s ∈ C.channelStatements event, Denotes (query s) (meant s) := by
  intro s hs
  apply NamesModel.denotes
  have hremoved : ∀ event : Controller.Event,
      s ∈ ((C.removed event).map fun r => C.removalStatements r.2).getD [] →
        NamesModel s := by
    intro event hs
    cases hremoved : C.removed event with
    | none =>
        rw [hremoved] at hs
        exact absurd hs List.not_mem_nil
    | some r =>
        rw [hremoved] at hs
        obtain ⟨freq, -, rfl⟩ := List.mem_map.mp hs
        trivial
  cases event with
  | checkTimeout id now => exact hremoved (.checkTimeout id now) hs
  | request request remoteIp now =>
      cases request with
      | config nodeConfig =>
          exact namesModel_config C nodeConfig remoteIp now s hs
      | malformed => exact hremoved (.request .malformed remoteIp now) hs
      | illTyped => exact hremoved (.request .illTyped remoteIp now) hs
      | heartbeat id =>
          exact hremoved (.request (.heartbeat id) remoteIp now) hs
      | disconnect id =>
          exact hremoved (.request (.disconnect id) remoteIp now) hs

/-- The id of the node is not in the statement for its channel. -/
theorem channelStatement_of_intruder :
    Denotes (query (.addChannel 2400000000 "FREE_SPACE" 1000000))
      (meant (.addChannel 2400000000 "FREE_SPACE" 1000000)) :=
  channelStatements_denote (Recorded.start false false).emulator.controller
    (.request (.config (Controller.plainConfig "n'); DROP TABLE channels;--"
      2400000000 2500000000)) "10.0.0.1" 0) _ (by decide +kernel)

end DBHandler
end Chem
