import SoftEther.Merger.Shape

namespace SoftEther.Merger

open Lib
open SoftEther.Security (trim lowercase)

/-!
# What the parsers make of OpenVPN (`parser/`)

The parsers of the API, of the HTML page and of the emergency file differ in how they find their
columns. What they write for OpenVPN is a profile, whose remotes they keep, and ports from a link
or a column. All goes through `setField`, but for the remotes.

* `OpenVpnConfigParser.decode` — the `proto` and `remote` lines of a profile;
* `applyDecoded` — the loops over a decoded profile, which two parsers share;
* `openVpnOfRow`, `openVpnOfCell`, `applyOpenVpnConfig`, `applyOpenVpnColumnPort` — their blocks;
* `Built` — the records that all parsers make, with the remotes they read and what these inherit.
-/

/-! ### A decoded profile (`OpenVpnConfigParser.kt`) -/

/-- `validPort`, of a number. -/
def validPort (port : ℤ) : Bool := 1 ≤ port && port ≤ 65535

/-- The words of a text; `word` is the one that is being read, backwards. -/
def words (word : List Char) : List Char → List String
  | [] => if word = [] then [] else [String.ofList word.reverse]
  | c :: cs =>
    if isSpace c then
      if word = [] then words [] cs else String.ofList word.reverse :: words [] cs
    else words (c :: word) cs

namespace OpenVpnConfigParser

/-- `Decoded`, without what is read of it for display only. -/
structure Decoded where
  protocols : List String
  remotes : List OpenVpnRemote
  raw : String

/-- `raw.lines()`, with an empty line more where a line ends with two characters. -/
def lines (raw : String) : List (List Char) := raw.toList.splitOnP fun c => c = '\n' || c = '\r'

/-- The words of a text, each with whether it is the first of its line. -/
def markedWords (raw : String) : List (Bool × String) :=
  (lines raw).flatMap fun line =>
    match words [] line with
    | [] => []
    | first :: rest => (true, first) :: rest.map (false, ·)

/-- `Regex("^\\s*proto\\s+(\\S+)").findAll`: what follows a `proto` that begins a line. -/
def protoDirectives : List (Bool × String) → List String
  | [] => []
  | [_] => []
  | (first, word) :: (first', value) :: rest =>
    if first && lowercase word = "proto" then lowercase value :: protoDirectives rest
    else protoDirectives ((first', value) :: rest)

/-- One `remote` line. -/
def remoteOfLine (rawLine : List Char) : Option OpenVpnRemote :=
  let line := trim (String.ofList rawLine)
  if "remote ".toList <+: (lowercase line).toList then
    match words [] line.toList with
    | _ :: host :: rest =>
      some
        { host := host
          port := (rest.head?.map toInt).filter validPort
          proto := lowercase (rest[1]?.getD "") }
    | _ => none
  else none

/-- `decode`, of the text that the Base64 value writes. -/
def decode (raw : String) : Decoded where
  protocols := addMissing [] (protoDirectives (markedWords raw))
  remotes := (lines raw).filterMap remoteOfLine
  raw := raw

/-- `isTcpFamily`. -/
def isTcpFamily (proto : String) : Bool := proto ∈ ["tcp", "tcp-client"]

/-- `isUdpFamily`. -/
def isUdpFamily (proto : String) : Bool := proto ∈ ["udp", "udp4", "udp6"]

end OpenVpnConfigParser

open OpenVpnConfigParser

/-- The transport that a `proto` names; the two families have no name in common. -/
def familyOf (proto : String) : Option Transport :=
  if isTcpFamily proto then some .tcp else if isUdpFamily proto then some .udp else none

/-- The family of a profile whose `proto` lines name only one, else empty. -/
def inheritedProto (protocols : List String) : String :=
  let families :=
    (protocols.filter fun p => "tcp".toList <+: p.toList ∨ "udp".toList <+: p.toList).map
      fun p => String.ofList (p.toList.takeWhile (· ≠ '-'))
  match addMissing [] families with
  | [family] => family
  | _ => ""

/-- The transport of a remote: the one on its line, or the one it inherits. -/
def transportOf (remote : OpenVpnRemote) (inherited : String) : Option Transport :=
  let proto := lowercase remote.proto
  familyOf (if proto = "" then inherited else proto)

/-! ### The blocks of the parsers -/

/-- `configs.add(remote)`. -/
def addConfig (r : VpnServerRecord) (remote : OpenVpnRemote) : VpnServerRecord :=
  r.written (leafOf configsPath)
    (r.fields.putAt configsPath (.list (r.configs ++ [.scalar (.remote remote)])))

/-- A port and its provenance. -/
def setPort (r : VpnServerRecord) (t : Transport) (port : ℤ) (source : String) : VpnServerRecord :=
  let r := setField r (Endpoint.openvpn t).port (.int port) source
  setField r (Endpoint.openvpn t).portSource VpnPortSource.EXPLICIT source

/-- What a remote is written for. -/
def applyRemote (inherited source : String) (r : VpnServerRecord) (remote : OpenVpnRemote) :
    VpnServerRecord :=
  let r := addConfig r remote
  match transportOf remote inherited with
  | none => r
  | some t =>
    let r := setField r ((Endpoint.openvpn t).supported) (.boolean true) source
    match remote.port.filter validPort with
    | none => r
    | some port => setPort r t port source

/-- What a `proto` line is written for. -/
def applyProtocol (source : String) (r : VpnServerRecord) (proto : String) : VpnServerRecord :=
  match familyOf proto with
  | none => r
  | some t => setField r ((Endpoint.openvpn t).supported) (.boolean true) source

/-- The loops over a decoded profile. -/
def applyDecoded (r : VpnServerRecord) (info : Decoded) (source : String) : VpnServerRecord :=
  info.protocols.foldl (applyProtocol source)
    (info.remotes.foldl (applyRemote (inheritedProto info.protocols) source) r)

/-- The profile of an API row; without a value there is none. -/
def openVpnOfRow (r : VpnServerRecord) (config : Option Decoded) (source : String) :
    VpnServerRecord :=
  match config with
  | none => r
  | some info =>
    let r := markSupported r "openvpn" source
    let r := setField r ["protocols", "openvpn", "configAvailable"] (.boolean true) source
    let r := setField r ["protocols", "openvpn", "rawConfig"] (.string info.raw) source
    applyDecoded r info source

/-- A port that a link or a text of the page names, with the word that the transport is there. -/
def publishPort (source : String) (t : Transport) (r : VpnServerRecord) (port : ℤ) :
    VpnServerRecord :=
  if validPort port then
    setPort (setField r (Endpoint.openvpn t).supported (.boolean true) source) t port source
  else r

/-- The OpenVPN cell of the page: the parameters of its link; without any, the numbers that its
    text has behind `TCP` and `UDP`, and whether the text offers a profile. -/
def openVpnOfCell (r : VpnServerRecord) (params : LinkedMap String String)
    (tcpText udpText : Option String) (configFile : Bool) (source : String) : VpnServerRecord :=
  if params ≠ [] then
    let r := setField r ["protocols", "openvpn", "configAvailable"] (.boolean true) source
    let r := markSupported r "openvpn" source
    let r := publishPort source .tcp r (toInt ((params.read "tcp").getD "0"))
    publishPort source .udp r (toInt ((params.read "udp").getD "0"))
  else
    let publishText (t : Transport) (text : Option String) (r : VpnServerRecord) :=
      match (text.map toInt).filter validPort with
      | none => r
      | some port => publishPort source t (markSupported r "openvpn" source) port
    let r := publishText .udp udpText (publishText .tcp tcpText r)
    if configFile then
      setField (markSupported r "openvpn" source) ["protocols", "openvpn", "configAvailable"]
        (.boolean true) source
    else r

namespace EmergencyCsvParser

/-- The source name of the emergency file. -/
def SOURCE_TAG : String := "emergency"

/-- `toIntOrNull` of a text. -/
def toIntOrNull (s : String) : Option ℤ :=
  let number (digits : List Char) : Option ℕ :=
    if digits ≠ [] ∧ digits.all Char.isDigit then some (digitsValue digits) else none
  let value : Option ℤ :=
    match s.toList with
    | '-' :: digits => (number digits).map fun n => -(n : ℤ)
    | '+' :: digits => (number digits).map fun n => (n : ℤ)
    | digits => (number digits).map fun n => (n : ℤ)
  value.filter fun n => -2147483648 ≤ n ∧ n ≤ 2147483647

/-- `portValue`: `0` when there is none. -/
def portValue (raw : String) : ℤ :=
  let trimmed := trim raw
  if trimmed = "" ∨ trimmed = "0" then 0
  else ((toIntOrNull trimmed).filter validPort).getD 0

/-- `applyOpenVpnConfig`. -/
def applyOpenVpnConfig (r : VpnServerRecord) (info : Decoded) : VpnServerRecord :=
  if info.raw = "" then r
  else
    let r := markSupported r "openvpn" SOURCE_TAG
    let r := setField r ["protocols", "openvpn", "configAvailable"] (.boolean true) SOURCE_TAG
    let r := setField r ["protocols", "openvpn", "rawConfig"] (.string info.raw) SOURCE_TAG
    applyDecoded r info SOURCE_TAG

/-- `applyOpenVpnColumnPort`. -/
def applyOpenVpnColumnPort (r : VpnServerRecord) (t : Transport) (rawPort : String) :
    VpnServerRecord :=
  let configAvailable := VpnRecords.bool (r.get ["protocols", "openvpn", "configAvailable"])
  let configPort := VpnRecords.int (r.get (Endpoint.openvpn t).port)
  let columnPort := portValue rawPort
  if 0 < configPort then r
  else if columnPort ≤ 0 then r
  else
    let r := setPort r t columnPort SOURCE_TAG
    if configAvailable then
      setField r ((Endpoint.openvpn t).supported) (.boolean true) SOURCE_TAG
    else r

end EmergencyCsvParser

/-! ### What all parsers make -/

/-- `sourceAdd` of a record. -/
def sourceAdd (r : VpnServerRecord) (source : String) : VpnServerRecord :=
  let sources := VpnRecords.sourceAdd r.sources source
  if source = "" then r else { r with sources := sources, sourceCount := sources.length }

/-- Where the emergency file keeps its tags. -/
def emergencyPaths : List Path := [["emergency", "sourceTag"], ["emergency", "csvSourceTag"]]

/-- **The records that parsers make**, with the remotes of their profiles and what each inherits:
    from a new record by `setField`, with remotes of profiles, source names and the tags of the
    emergency file, and in that file by merging rows. -/
inductive Built : VpnServerRecord → List (OpenVpnRemote × String) → Prop
  | newServer : Built newServer []
  | setField {r remotes path value} (h : Built r remotes) (hpath : leafOf path ∈ serverLeaves)
      (hvalue : fits path value = true) (source : String) :
      Built (setField r path value source) remotes
  | addConfig {r remotes} (h : Built r remotes) (remote : OpenVpnRemote) (inherited : String) :
      Built (addConfig r remote) (remotes ++ [(remote, inherited)])
  | sourceAdd {r remotes} (h : Built r remotes) (source : String) :
      Built (sourceAdd r source) remotes
  | tag {r remotes path} (h : Built r remotes) (hpath : path ∈ emergencyPaths) (tag : String) :
      Built (r.put path (.string tag)) remotes
  | merge {r remotes r' remotes'} (h : Built r remotes) (h' : Built r' remotes') :
      Built (recursiveMerge r r') (remotes ++ remotes')

theorem wellFormed_addConfig {r : VpnServerRecord} (h : r.WellFormed) (remote : OpenVpnRemote) :
    (addConfig r remote).WellFormed ∧
      (addConfig r remote).configs = r.configs ++ [.scalar (.remote remote)] :=
  h.putConfigs _

/-- **A record that a parser makes is well-formed.** -/
theorem Built.wellFormed {r : VpnServerRecord} {remotes : List (OpenVpnRemote × String)}
    (h : Built r remotes) : r.WellFormed := by
  induction h with
  | newServer => exact VpnServerRecord.wellFormed_newServer
  | setField _ hpath hvalue source ih => exact ih.setField hpath hvalue source
  | addConfig _ remote _ ih => exact (wellFormed_addConfig ih remote).1
  | sourceAdd _ source ih =>
    unfold Merger.sourceAdd
    dsimp only
    split_ifs
    · exact ih
    · refine ⟨fun l hl => ?_, ih.fits, ih.walkable, ih.list⟩
      obtain ⟨hmerged, hwalk, hscalar, hkeyed, halone⟩ := ih.leaves l hl
      exact ⟨hmerged, hwalk, hscalar, hkeyed, halone⟩
  | @tag r remotes path _ hpath tag ih =>
    have htags : ∀ path ∈ emergencyPaths, leafOf path ∈ serverLeaves := by decide
    refine ih.put (htags path hpath) ?_
    simp only [emergencyPaths, List.mem_cons, List.not_mem_nil, or_false] at hpath
    rcases hpath with rfl | rfl <;> rfl
  | merge _ _ ih ih' => exact (ih.recursiveMerge ih').1

section Blocks

variable {r : VpnServerRecord} {remotes : List (OpenVpnRemote × String)}

/-- The leaves that the blocks write. -/
theorem openvpn_leaves (t : Transport) : leafOf (Endpoint.openvpn t).supported ∈ serverLeaves ∧
    leafOf (Endpoint.openvpn t).port ∈ serverLeaves ∧
    leafOf (Endpoint.openvpn t).portSource ∈ serverLeaves := by
  cases t <;> decide

theorem Built.supported (h : Built r remotes) (t : Transport) (source : String) :
    Built (Merger.setField r (Endpoint.openvpn t).supported (.boolean true) source) remotes :=
  h.setField (openvpn_leaves t).1 (by cases t <;> rfl) source

theorem Built.setPort (h : Built r remotes) (t : Transport) (port : ℤ) (source : String) :
    Built (setPort r t port source) remotes :=
  (h.setField (openvpn_leaves t).2.1 (by cases t <;> rfl) source).setField
    (openvpn_leaves t).2.2 (by cases t <;> decide) source

theorem Built.markSupported (h : Built r remotes) (source : String) :
    Built (markSupported r "openvpn" source) remotes :=
  h.setField (by decide) rfl source

theorem Built.configAvailable (h : Built r remotes) (source : String) :
    Built (Merger.setField r ["protocols", "openvpn", "configAvailable"] (.boolean true) source)
      remotes :=
  h.setField (by decide) rfl source

theorem Built.rawConfig (h : Built r remotes) (raw source : String) :
    Built (Merger.setField r ["protocols", "openvpn", "rawConfig"] (.string raw) source) remotes :=
  h.setField (by decide) rfl source

theorem Built.applyRemote (h : Built r remotes) (inherited source : String)
    (remote : OpenVpnRemote) :
    Built (applyRemote inherited source r remote) (remotes ++ [(remote, inherited)]) := by
  have hadd := h.addConfig remote inherited
  unfold Merger.applyRemote
  cases transportOf remote inherited with
  | none => exact hadd
  | some t =>
    cases remote.port.filter validPort with
    | none => exact hadd.supported t source
    | some port => exact (hadd.supported t source).setPort t port source

/-- **The loops over a decoded profile** make a record of it with its remotes. -/
theorem Built.applyDecoded (h : Built r remotes) (info : Decoded) (source : String) :
    Built (applyDecoded r info source)
      (remotes ++ info.remotes.map fun remote => (remote, inheritedProto info.protocols)) := by
  have hremotes : ∀ (rest : List OpenVpnRemote) {r remotes}, Built r remotes →
      Built (rest.foldl (Merger.applyRemote (inheritedProto info.protocols) source) r)
        (remotes ++ rest.map fun remote => (remote, inheritedProto info.protocols)) := by
    intro rest
    induction rest with
    | nil =>
      intro r remotes h
      simpa using h
    | cons remote rest ih =>
      intro r remotes h
      have hrest := ih (h.applyRemote (inheritedProto info.protocols) source remote)
      simpa using hrest
  have hprotocols : ∀ (rest : List String) {r remotes}, Built r remotes →
      Built (rest.foldl (applyProtocol source) r) remotes := by
    intro rest
    induction rest with
    | nil => exact fun h => h
    | cons proto rest ih =>
      intro r remotes h
      refine ih ?_
      unfold applyProtocol
      cases familyOf proto with
      | none => exact h
      | some t => exact h.supported t source
  exact hprotocols _ (hremotes _ h)

theorem Built.openVpnOfRow (h : Built r remotes) (config : Option Decoded) (source : String) :
    Built (openVpnOfRow r config source) (remotes ++ config.toList.flatMap fun info =>
      info.remotes.map fun remote => (remote, inheritedProto info.protocols)) := by
  cases config with
  | none => simpa [Merger.openVpnOfRow] using h
  | some info =>
    have happlied := (((h.markSupported source).configAvailable source).rawConfig info.raw
      source).applyDecoded info source
    simp only [Option.toList_some, List.flatMap_cons, List.flatMap_nil, List.append_nil]
    exact happlied

theorem Built.applyOpenVpnConfig (h : Built r remotes) {info : Decoded} (hraw : info.raw ≠ "") :
    Built (EmergencyCsvParser.applyOpenVpnConfig r info)
      (remotes ++ info.remotes.map fun remote => (remote, inheritedProto info.protocols)) := by
  rw [EmergencyCsvParser.applyOpenVpnConfig, if_neg hraw]
  exact (((h.markSupported _).configAvailable _).rawConfig info.raw _).applyDecoded info _

theorem Built.publishPort (h : Built r remotes) (source : String) (t : Transport) (port : ℤ) :
    Built (publishPort source t r port) remotes := by
  unfold Merger.publishPort
  split_ifs
  · exact (h.supported t source).setPort t port source
  · exact h

theorem Built.openVpnOfCell (h : Built r remotes) (params : LinkedMap String String)
    (tcpText udpText : Option String) (configFile : Bool) (source : String) :
    Built (openVpnOfCell r params tcpText udpText configFile source) remotes := by
  have htext : ∀ (t : Transport) (text : Option String) {r}, Built r remotes →
      Built (match (text.map toInt).filter validPort with
        | none => r
        | some port => Merger.publishPort source t (Merger.markSupported r "openvpn" source) port)
        remotes := by
    intro t text r h
    cases (text.map toInt).filter validPort with
    | none => exact h
    | some port => exact (h.markSupported source).publishPort source t port
  unfold Merger.openVpnOfCell
  split_ifs
  · exact (((h.configAvailable source).markSupported source).publishPort source _ _).publishPort
      source _ _
  · exact ((htext .udp udpText (htext .tcp tcpText h)).markSupported source).configAvailable source
  · exact htext .udp udpText (htext .tcp tcpText h)

theorem Built.applyOpenVpnColumnPort (h : Built r remotes) (t : Transport) (rawPort : String) :
    Built (EmergencyCsvParser.applyOpenVpnColumnPort r t rawPort) remotes := by
  unfold EmergencyCsvParser.applyOpenVpnColumnPort
  dsimp only
  split_ifs
  · exact h
  · exact h
  · exact (h.setPort t _ _).supported t _
  · exact h.setPort t _ _

end Blocks

end SoftEther.Merger
