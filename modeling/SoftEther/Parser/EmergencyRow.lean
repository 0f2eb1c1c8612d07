import SoftEther.Merger.Parsers
import SoftEther.Parser.Text

namespace SoftEther.Parser

open Lib
open SoftEther.Merger

/-!
# One row of the emergency file (`EmergencyCsvParser.buildRecord`)

A row is rejected for its host name or its address. All else that is wrong with it costs a field
and is noted. The host names of a row go through `normalizeHost`, so a row can throw.

* `Issue`, `Draft` — what is noted, and a record that is being read;
* `portValue`, `applyInt`, …, `applySstpEndpoint` — the typed readers;
* `buildRecord` — the function of the source;
* `FieldsOverflow`, `built`, `buildRecord_returns` — the rows at which it throws, and what it
  makes of all others;
* `Draft.Carries`, `record_identity` — no reader rejects the row or overwrites what was set, so the
  record keeps the address of its row.
-/

/-! ### What is noted -/

/-- `Issue`. -/
inductive Issue
  | emptyHostname
  | invalidIpv4
  | unresolvableIdentity
  | wrongColumnCount
  | unknownSourceTag
  | countryShortNotIso
  | invalidPort
  | nonNumericValue
  | udpPortWithoutDeclaredSupport
  | openvpnConfigUndecodable
  | openvpnPortConflictConfigWins
  | openvpnPortWithoutConfig
  | nonBooleanToken
  | unknownColumn
  deriving DecidableEq, Repr

def Issue.rejectsRecord : Issue → Bool
  | emptyHostname | invalidIpv4 | unresolvableIdentity | wrongColumnCount => true
  | _ => false

/-- A `server` that is being read, and what was added to `issues` meanwhile. -/
structure Draft where
  server : VpnServerRecord
  issues : List Issue

namespace Draft

/-- `issues.add(issue)`, for each of them. -/
def note (d : Draft) (issues : List Issue) : Draft := { d with issues := d.issues ++ issues }

/-- `VpnRecords.setField(server, path, value, SOURCE_TAG)`. -/
def set (d : Draft) (path : Path) (value : Scalar) : Draft :=
  { d with server := setField d.server path value Merger.EmergencyCsvParser.SOURCE_TAG }

@[simp] theorem note_server (d : Draft) (issues : List Issue) :
    (d.note issues).server = d.server := rfl

@[simp] theorem set_server (d : Draft) (path : Path) (value : Scalar) : (d.set path value).server =
    setField d.server path value Merger.EmergencyCsvParser.SOURCE_TAG := rfl

end Draft

/-! ### OpenVPN -/

namespace OpenVpnConfigParser

def ALPHABET : List Char :=
  "ABCDEFGHIJKLMNOPQRSTUVWXYZabcdefghijklmnopqrstuvwxyz0123456789+/".toList

/-- The loop of `decodeBase64`. -/
def decodeBase64 (buffer : BitVec 32) (bits : ℕ) : List Char → List UInt8
  | [] => []
  | c :: cs =>
    let buffer := (buffer <<< 6) ||| BitVec.ofNat 32 (ALPHABET.idxOf c)
    if 8 ≤ bits + 6 then
      UInt8.ofBitVec ((buffer.sshiftRight (bits + 6 - 8)).setWidth 8) ::
        decodeBase64 buffer (bits + 6 - 8) cs
    else decodeBase64 buffer (bits + 6) cs

/-- `chars.length * 3 / 4`. -/
def capacity (length : ℕ) : ℤ := (Int.bmod (length * 3) (2 ^ 32)).tdiv 4

/-- `decodeBase64`: `ArrayList` throws at a negative capacity, and the `catch` makes it `null`. -/
def decodeBase64OrNull (input : List Char) : Option (List UInt8) :=
  let chars := input.filter (· ∈ ALPHABET)
  if capacity chars.length < 0 then none else some (decodeBase64 0 0 chars)

/-- `decode`, of the value of a column. -/
def decode (p : Platform) (value : String) : Merger.OpenVpnConfigParser.Decoded :=
  if value = "" then ⟨[], [], ""⟩
  else
    match decodeBase64OrNull value.toList with
    | none => ⟨[], [], ""⟩
    | some bytes => Merger.OpenVpnConfigParser.decode (p.utf8 bytes)

end OpenVpnConfigParser

/-! ### The typed readers -/

namespace EmergencyCsvParser

export Merger.EmergencyCsvParser (SOURCE_TAG)

/-- The tags that the file may have. -/
def SOURCE_TAG_ENUM : List String := ["api_iphone", "html_parse", "merged"]

/-- The tag of a row without one. -/
def DEFAULT_SOURCE_TAG : String := "html_parse"

/-- The last column of a name. -/
def indexByName (columns : List String) (name : String) : Option ℕ :=
  (columns.zipIdx.filter (·.1 = name)).getLast?.map Prod.snd

variable (p : Platform)

/-- `field`; a row has as many fields as there are columns. -/
def field (columns row : List String) (name : String) : String :=
  match indexByName columns name with
  | none => ""
  | some index => p.clean (row.getD index "")

/-- `portValue`, with what it notes. -/
def portValue (raw : String) : ℤ × List Issue :=
  let trimmed := p.trim raw
  if trimmed = "" ∨ trimmed = "0" then (0, [])
  else
    match (p.toIntOrNull trimmed).filter validPort with
    | none => (0, [.invalidPort])
    | some parsed => (parsed, [])

/-- A port column: it is written when it is there. -/
def applyPort (raw : String) (write : ℤ → Draft → Draft) (d : Draft) : Draft :=
  let (port, issues) := portValue p raw
  if 0 < port then write port (d.note issues) else d.note issues

/-- A column of integers. -/
def applyInt (raw : String) (path : Path) (d : Draft) : Draft :=
  let trimmed := p.trim raw
  if trimmed = "" then d
  else
    match p.toIntOrNull trimmed with
    | none => d.note [.nonNumericValue]
    | some parsed => d.set path (.int parsed)

/-- A column of fractions. -/
def applyDouble (raw : String) (path : Path) (d : Draft) : Draft :=
  let trimmed := p.trim raw
  if trimmed = "" then d
  else
    match p.toDoubleOrNull trimmed with
    | none => d.note [.nonNumericValue]
    | some parsed => d.set path (.double parsed)

/-- `x > 0` of a double: neither a zero, nor with the sign set, nor beyond infinity. -/
def isPositive (bits : BitVec 64) : Bool := 0 < bits.toNat && bits.toNat ≤ 0x7FF0000000000000

/-- `Speed`, `Uptime` and `TotalTraffic`: a positive number, in other units. -/
def applyScaled (raw : String) (divisor : BitVec 64) (path : Path) (d : Draft) : Draft :=
  let value := p.toFloat raw
  if isPositive value then d.set path (.double (p.divide value divisor)) else d

def boolOrNull (raw : String) : Option Bool :=
  let token := p.lowercase (p.trim raw)
  if token = "true" then some true else if token = "false" then some false else none

/-- A column of flags; anything else than a flag is noted. -/
def applyBool (raw : String) (write : Bool → Draft → Draft) (d : Draft) : Draft :=
  let value := boolOrNull p raw
  write (value = some true)
    (if raw ≠ "" ∧ value = none then d.note [.nonBooleanToken] else d)

/-- `length` counts the units of a text. -/
def utf16Length (s : String) : ℕ := (s.toList.map fun c => if 0xFFFF < c.toNat then 2 else 1).sum

/-- `CountryShort`. -/
def applyCountry (countryShort : String) (d : Draft) : Draft :=
  if countryShort = "" then d
  else if utf16Length countryShort = 2 ∧ countryShort.toList.all p.isLetter then
    d.set ["identity", "country"] (.string (p.uppercase countryShort))
  else d.note [.countryShortNotIso]

/-- The descriptive columns. -/
def applyDescription (field : String → String) (d : Draft) : Draft :=
  let d := applyInt p (field "Score") ["performance", "score"] d
  let d := applyDouble p (field "Ping") ["performance", "pingMs"] d
  -- 1_000_000.0, 86_400_000.0 and 1024.0 * 1024.0 * 1024.0
  let d := applyScaled p (field "Speed") 0x412E848000000000 ["performance", "speedMbps"] d
  let d := d.set ["identity", "countryLong"] (.string (field "CountryLong"))
  let d := applyCountry p (field "CountryShort") d
  let d := applyInt p (field "NumVpnSessions") ["performance", "sessions"] d
  let d := applyScaled p (field "Uptime") 0x4194997000000000 ["performance", "uptimeDays"] d
  let d := applyInt p (field "TotalUsers") ["performance", "totalUsers"] d
  let d := applyScaled p (field "TotalTraffic") 0x41D0000000000000
    ["performance", "totalTrafficGB"] d
  let d := d.set ["logging", "policy"] (.string (field "LogType"))
  let d := d.set ["operator", "name"] (.string (field "Operator"))
  d.set ["operator", "message"] (.string (field "Message"))

/-- `applyOpenVpnConfig`. -/
def applyOpenVpnConfig (configB64 : String) (d : Draft) : Draft :=
  if configB64 = "" then d
  else
    let configInfo := OpenVpnConfigParser.decode p configB64
    if configInfo.raw = "" then d.note [.openvpnConfigUndecodable]
    else { d with server := Merger.EmergencyCsvParser.applyOpenVpnConfig d.server configInfo }

/-- A port that is published, and that it is. -/
def writePort (e : Endpoint) (port : ℤ) (d : Draft) : Draft :=
  (d.set e.port (.int port)).set e.portSource VpnPortSource.EXPLICIT

/-- The columns of SoftEther. -/
def applySoftEther (field : String → String) (d : Draft) : Draft :=
  let d := applyPort p (field "SE_TCP_Port")
    (fun port d => writePort (.softether .tcp) port
      (d.set (Endpoint.softether .tcp).supported (.boolean true))) d
  let udpDeclared := boolOrNull p (field "SE_UDP_Supported")
  let d := if field "SE_UDP_Supported" ≠ "" ∧ udpDeclared = none then d.note [.nonBooleanToken]
    else d
  if udpDeclared = some true then
    applyPort p (field "SE_UDP_Port") (writePort (.softether .udp))
      (d.set (Endpoint.softether .udp).supported (.boolean true))
  else if 0 < p.toInt (field "SE_UDP_Port") then d.note [.udpPortWithoutDeclaredSupport]
  else d

/-- `applyOpenVpnColumnPort`. -/
def applyOpenVpnColumnPort (t : Transport) (rawPort : String) (d : Draft) : Draft :=
  let configAvailable := VpnRecords.bool (d.server.get ["protocols", "openvpn", "configAvailable"])
  let configPort := VpnRecords.int (d.server.get (Endpoint.openvpn t).port)
  let (columnPort, issues) := portValue p rawPort
  let d := d.note issues
  if 0 < configPort then
    if 0 < columnPort ∧ columnPort ≠ configPort then d.note [.openvpnPortConflictConfigWins] else d
  else if columnPort ≤ 0 then d
  else
    let d := writePort (.openvpn t) columnPort d
    if configAvailable then d.set (Endpoint.openvpn t).supported (.boolean true)
    else d.note [.openvpnPortWithoutConfig]

/-- `markSupported`, when a column says so. -/
def applySupported (protocol raw : String) (d : Draft) : Draft :=
  applyBool p raw (fun supported d =>
    if supported then d.set ["protocols", protocol, "supported"] (.boolean true) else d) d

/-- The port behind the host name, `0` when there is none. -/
def suffixPort (rawHost : String) : Except NumberFormatException ℤ :=
  if rawHost.toList.count ':' = 1 then
    p.validIp rawHost >>= fun valid =>
      .ok (if valid then 0
        else p.toInt (String.ofList (rawHost.toList.dropWhile (· ≠ ':')).tail))
  else .ok 0

/-- What is written for SSTP. -/
def writeSstp (rawHost rawPort host : String) (suffixPort : ℤ) (d : Draft) : Draft :=
  let host := if host = "" then p.trim rawHost else host
  if host = "" then d
  else
    let d := d.set ["protocols", "sstp", "hostname"] (.string host)
    let (declaredPort, issues) := portValue p rawPort
    let effectivePort := if 0 < declaredPort then declaredPort else suffixPort
    if validPort effectivePort then writePort .sstp effectivePort (d.note issues)
    else d.note issues

/-- `applySstpEndpoint`. -/
def applySstpEndpoint (rawHost rawPort : String) (d : Draft) :
    Except NumberFormatException Draft :=
  if rawHost = "" then .ok d
  else
    p.normalizeHost rawHost >>= fun host =>
      suffixPort p rawHost >>= fun suffixPort =>
        .ok (writeSstp p rawHost rawPort host suffixPort d)

/-- The `emergency` entry of the record. -/
def applySourceTag (declaredTag : String) (d : Draft) : Draft :=
  let (csvSourceTag, issues) : String × List Issue :=
    if declaredTag = "" then (DEFAULT_SOURCE_TAG, [])
    else if declaredTag ∈ SOURCE_TAG_ENUM then (declaredTag, [])
    else (DEFAULT_SOURCE_TAG, [.unknownSourceTag])
  let server := d.server.put ["emergency", "sourceTag"] (.string SOURCE_TAG)
  { server := server.put ["emergency", "csvSourceTag"] (.string csvSourceTag)
    issues := d.issues ++ issues }

/-- A new record with the identity of a row. -/
def identity (hostname ip : String) : Draft :=
  (Draft.set ⟨newServer, []⟩ ["identity", "hostname"] (.string hostname)).set
    ["identity", "ip"] (.string ip)

/-- All columns up to `SSTP_Hostname`. -/
def describe (field : String → String) (d : Draft) : Draft :=
  let d := applyDescription p field d
  let d := applyOpenVpnConfig p (field "OpenVPN_ConfigData_Base64") d
  let d := applySoftEther p field d
  let d := applyOpenVpnColumnPort p .tcp (field "OpenVPN_TCP_Port") d
  let d := applyOpenVpnColumnPort p .udp (field "OpenVPN_UDP_Port") d
  let d := applySupported p "l2tpIpsec" (field "L2TP_Supported") d
  applySupported p "sstp" (field "SSTP_Supported") d

/-- `buildRecord` from `newServer()` on: what was added to `issues`, and the record. -/
def buildServer (field : String → String) (hostname ip : String) :
    Except NumberFormatException (List Issue × Option VpnServerRecord) :=
  applySstpEndpoint p (field "SSTP_Hostname") (field "SSTP_Port")
    (describe p field (identity hostname ip)) >>= fun d =>
      .ok ((applySourceTag (field "SourceTag") d).issues,
        some (applySourceTag (field "SourceTag") d).server)

/-- `buildRecord`: what is added to `issues`, and the record unless the row is rejected. -/
def buildRecord (columns row : List String) :
    Except NumberFormatException (List Issue × Option VpnServerRecord) :=
  let field := field p columns row
  p.normalizeHost (field "HostName") >>= fun hostname =>
    if hostname = "" then .ok ([.emptyHostname], none)
    else
      p.normalizeIp (field "IP") >>= fun ip =>
        p.validIp ip >>= fun valid =>
          if valid = false then .ok ([.invalidIpv4], none) else buildServer p field hostname ip

/-! ### When a row throws -/

/-- **The texts at which `applySstpEndpoint` throws.** -/
def SstpOverflows (rawHost : String) : Prop :=
  rawHost ≠ "" ∧
    (p.HostOverflows rawHost ∨ (rawHost.toList.count ':' = 1 ∧ p.Overflows rawHost))

instance (rawHost : String) : Decidable (SstpOverflows p rawHost) := by
  unfold SstpOverflows
  infer_instance

/-- What `suffixPort` returns when it does not throw. -/
def suffixPortOf (rawHost : String) : ℤ :=
  if rawHost.toList.count ':' = 1 then
    if p.isValidIp rawHost then 0
    else p.toInt (String.ofList (rawHost.toList.dropWhile (· ≠ ':')).tail)
  else 0

/-- What `applySstpEndpoint` returns when it does not throw. -/
def sstpEndpoint (rawHost rawPort : String) (d : Draft) : Draft :=
  if rawHost = "" then d
  else writeSstp p rawHost rawPort (p.hostOf rawHost) (suffixPortOf p rawHost) d

/-- **The fields at which `buildRecord` throws**: the host name, or in a row that is not rejected
    the host name of SSTP. -/
def FieldsOverflow (columns row : List String) : Prop :=
  p.HostOverflows (field p columns row "HostName") ∨
    (p.hostOf (field p columns row "HostName") ≠ "" ∧
      (p.ipOf (field p columns row "IP")).isSome ∧
        SstpOverflows p (field p columns row "SSTP_Hostname"))

/-- The record of a row that is not rejected. -/
def record (field : String → String) (hostname ip : String) : Draft :=
  applySourceTag (field "SourceTag")
    (sstpEndpoint p (field "SSTP_Hostname") (field "SSTP_Port")
      (describe p field (identity hostname ip)))

/-- What `buildRecord` returns when it does not throw. -/
def built (columns row : List String) : List Issue × Option VpnServerRecord :=
  let hostname := p.hostOf (field p columns row "HostName")
  if hostname = "" then ([.emptyHostname], none)
  else
    match p.ipOf (field p columns row "IP") with
    | none => ([.invalidIpv4], none)
    | some ip =>
      let d := record p (field p columns row) hostname ip
      (d.issues, some d.server)

variable {p}

theorem suffixPort_returns (rawHost : String) :
    Returns (suffixPort p rawHost) (rawHost.toList.count ':' = 1 ∧ p.Overflows rawHost)
      (suffixPortOf p rawHost) := by
  unfold suffixPort suffixPortOf
  by_cases hport : rawHost.toList.count ':' = 1
  · rw [if_pos hport, if_pos hport]
    exact ((Platform.validIp_returns rawHost).map _ rfl).mono (and_iff_right hport)
  · rw [if_neg hport, if_neg hport]
    exact (Returns.ok 0).mono (iff_false_intro fun h => hport h.1)

theorem applySstpEndpoint_returns (rawHost rawPort : String) (d : Draft) :
    Returns (applySstpEndpoint p rawHost rawPort d) (SstpOverflows p rawHost)
      (sstpEndpoint p rawHost rawPort d) := by
  unfold applySstpEndpoint sstpEndpoint SstpOverflows
  by_cases hempty : rawHost = ""
  · rw [if_pos hempty, if_pos hempty]
    exact (Returns.ok d).mono (iff_false_intro fun h => h.1 hempty)
  · rw [if_neg hempty, if_neg hempty]
    have hport := (suffixPort_returns (p := p) rawHost).map
      (fun suffixPort => writeSstp p rawHost rawPort (p.hostOf rawHost) suffixPort d) rfl
    exact ((Platform.normalizeHost_returns rawHost).bind hport).mono (and_iff_right hempty)

theorem buildServer_returns (field : String → String) (hostname ip : String) :
    Returns (buildServer p field hostname ip) (SstpOverflows p (field "SSTP_Hostname"))
      ((record p field hostname ip).issues, some (record p field hostname ip).server) :=
  (applySstpEndpoint_returns _ _ _).map
    (fun d => ((applySourceTag (field "SourceTag") d).issues,
      some (applySourceTag (field "SourceTag") d).server)) rfl

/-- **`buildRecord`**: when it throws, and what it returns else. -/
theorem buildRecord_returns (columns row : List String) :
    Returns (buildRecord p columns row) (FieldsOverflow p columns row) (built p columns row) := by
  unfold buildRecord FieldsOverflow built
  dsimp only
  refine (Platform.normalizeHost_returns _).bind ?_
  by_cases hhost : p.hostOf (field p columns row "HostName") = ""
  · rw [if_pos hhost, if_pos hhost]
    exact (Returns.ok _).mono (iff_false_intro fun h => h.1 hhost)
  · -- the address is checked without an exception
    rw [if_neg hhost, if_neg hhost,
      (Platform.normalizeIp_returns (field p columns row "IP")).bind_eq id,
      (Platform.validIp_normalized (field p columns row "IP")).bind_eq id]
    cases p.ipOf (field p columns row "IP") with
    | none =>
      rw [Option.isSome_none, if_pos rfl]
      exact (Returns.ok _).mono (by simp)
    | some ip =>
      rw [Option.isSome_some, if_neg (by simp), Option.getD_some]
      exact (buildServer_returns _ _ _).mono (by simp [hhost])

end EmergencyCsvParser

/-! ### What is set stays -/

/-- **What is read after `setField`.** -/
theorem get_setField {r : VpnServerRecord} (h : r.WellFormed) {path path' : Path}
    (hpath : leafOf path ∈ serverLeaves) (hpath' : path' ∈ VpnServerRecord.fieldPaths)
    (value : Scalar) (source : String) :
    (setField r path value source).get path' =
      if path' = path ∧ isUnset path value = false ∧ isUnset path (r.get path') = true then value
      else r.get path' := by
  obtain ⟨hleaf, hlate⟩ := VpnServerRecord.fieldPaths_leaf path' hpath'
  have hclaim := (h.leaves.setField hpath value source).2 _ hleaf
  have hget : ∀ r : VpnServerRecord, (r.claimAt (leafOf path')).value = r.get path' :=
    fun r => r.claimAt_value hlate
  rw [← hget, ← hget, hclaim]
  by_cases hsame : path' = path
  · rw [if_pos (show (leafOf path').path = path from hsame), Claim.set]
    cases hvalue : isUnset path value with
    | true => simp
    | false => simp [hsame]
  · rw [if_neg (show (leafOf path').path ≠ path from hsame), if_neg fun hn => hsame hn.1]

/-- A remote is added beside the leaves. -/
theorem get_addConfig {r : VpnServerRecord} (h : r.WellFormed) {path : Path}
    (hpath : path ∈ VpnServerRecord.fieldPaths) (remote : OpenVpnRemote) :
    (addConfig r remote).get path = r.get path := by
  obtain ⟨hleaf, hlate⟩ := VpnServerRecord.fieldPaths_leaf path hpath
  have hwalk := (h.leaves _ hleaf).walkable
  rw [VpnServerRecord.part, hlate] at hwalk
  obtain ⟨⟨hbelow, habove⟩, -⟩ := VpnServerRecord.serverLeaves_apart_configs _ hleaf
  have hvalue := (hwalk.putAt_of_ne h.walkable hbelow habove
    (.list (r.configs ++ [.scalar (.remote remote)]))).2
  have hfields : (addConfig r remote).fields =
      r.fields.putAt configsPath (.list (r.configs ++ [.scalar (.remote remote)])) := by
    unfold addConfig VpnServerRecord.written
    rw [VpnServerRecord.leafOf_configsPath]
    rfl
  rw [VpnServerRecord.get, VpnServerRecord.get, hfields]
  exact congrArg scalarOf hvalue

/-- **A record is carried on**: it stays one that parsers make, and what was set in it stays. -/
def Carried (r r' : VpnServerRecord) : Prop :=
  ∀ remotes, Built r remotes → (∃ remotes', Built r' remotes') ∧
    ∀ path ∈ VpnServerRecord.fieldPaths, isUnset path (r.get path) = false →
      r'.get path = r.get path

namespace Carried

variable {r r' r'' : VpnServerRecord}

theorem refl (r : VpnServerRecord) : Carried r r :=
  fun remotes h => ⟨⟨remotes, h⟩, fun _ _ _ => rfl⟩

theorem trans (h : Carried r r') (h' : Carried r' r'') : Carried r r'' := by
  intro remotes hbuilt
  obtain ⟨⟨remotes', hbuilt'⟩, hstays⟩ := h remotes hbuilt
  obtain ⟨hbuilt'', hstays'⟩ := h' remotes' hbuilt'
  refine ⟨hbuilt'', fun path hpath hset => ?_⟩
  have hget := hstays path hpath hset
  rw [hstays' path hpath (by rw [hget]; exact hset), hget]

theorem foldl {α : Type*} {f : VpnServerRecord → α → VpnServerRecord}
    (h : ∀ r a, Carried r (f r a)) (xs : List α) (r : VpnServerRecord) :
    Carried r (xs.foldl f r) := by
  induction xs generalizing r with
  | nil => exact refl r
  | cons a xs ih => exact (h r a).trans (ih (f r a))

/-- **`setField` does not overwrite.** -/
theorem setField (r : VpnServerRecord) {path : Path} (hpath : leafOf path ∈ serverLeaves)
    {value : Scalar} (hvalue : fits path value = true) (source : String) :
    Carried r (setField r path value source) := by
  intro remotes hbuilt
  refine ⟨⟨remotes, hbuilt.setField hpath hvalue source⟩, fun path' hpath' hset => ?_⟩
  rw [get_setField hbuilt.wellFormed hpath hpath', if_neg]
  rintro ⟨rfl, -, hunset⟩
  rw [hset] at hunset
  cases hunset

theorem addConfig (r : VpnServerRecord) (remote : OpenVpnRemote) :
    Carried r (addConfig r remote) := by
  intro remotes hbuilt
  exact ⟨⟨_, hbuilt.addConfig remote ""⟩,
    fun path hpath _ => get_addConfig hbuilt.wellFormed hpath remote⟩

/-- The tags of the emergency file stand behind the provenance. -/
theorem tag (r : VpnServerRecord) {path : Path} (hpath : path ∈ emergencyPaths) (tag : String) :
    Carried r (r.put path (.string tag)) := by
  have hlate : ∀ path ∈ emergencyPaths, (leafOf path).late = true := by decide
  intro remotes hbuilt
  refine ⟨⟨remotes, hbuilt.tag hpath tag⟩, fun path' _ _ => ?_⟩
  rw [VpnServerRecord.get, VpnServerRecord.get, VpnServerRecord.put, VpnServerRecord.written,
    hlate path hpath]
  rfl

theorem supported (r : VpnServerRecord) (t : Transport) (source : String) :
    Carried r (Merger.setField r (Endpoint.openvpn t).supported (.boolean true) source) :=
  setField r (openvpn_leaves t).1 (by cases t <;> rfl) source

theorem setPort (r : VpnServerRecord) (t : Transport) (port : ℤ) (source : String) :
    Carried r (Merger.setPort r t port source) :=
  (setField r (openvpn_leaves t).2.1 (by cases t <;> rfl) source).trans
    (setField _ (openvpn_leaves t).2.2 (by cases t <;> decide) source)

/-- **The loops over a decoded profile.** -/
theorem applyDecoded (r : VpnServerRecord) (info : Merger.OpenVpnConfigParser.Decoded)
    (source : String) : Carried r (applyDecoded r info source) := by
  have hremote : ∀ r remote,
      Carried r (applyRemote (inheritedProto info.protocols) source r remote) := by
    intro r remote
    unfold applyRemote
    cases transportOf remote (inheritedProto info.protocols) with
    | none => exact addConfig r remote
    | some t =>
      have hsupported := (addConfig r remote).trans (supported _ t source)
      cases remote.port.filter validPort with
      | none => exact hsupported
      | some port => exact hsupported.trans (setPort _ t port source)
  have hprotocol : ∀ r proto, Carried r (applyProtocol source r proto) := by
    intro r proto
    unfold applyProtocol
    cases familyOf proto with
    | none => exact refl r
    | some t => exact supported r t source
  exact (foldl hremote info.remotes r).trans (foldl hprotocol info.protocols _)

end Carried

/-- **A draft is carried on**: its record is, and no issue that is added rejects the row. -/
structure Draft.Carries (d d' : Draft) : Prop where
  server : Carried d.server d'.server
  notes : (∀ issue ∈ d.issues, issue.rejectsRecord = false) →
    ∀ issue ∈ d'.issues, issue.rejectsRecord = false

namespace Draft.Carries

variable {d d' d'' : Draft}

theorem refl (d : Draft) : d.Carries d := ⟨.refl _, id⟩

theorem trans (h : d.Carries d') (h' : d'.Carries d'') : d.Carries d'' :=
  ⟨h.server.trans h'.server, fun hd => h'.notes (h.notes hd)⟩

theorem note (d : Draft) {issues : List Issue}
    (h : ∀ issue ∈ issues, issue.rejectsRecord = false) : d.Carries (d.note issues) where
  server := .refl _
  notes hd issue hissue := (List.mem_append.mp hissue).elim (hd issue) (h issue)

theorem set (d : Draft) {path : Path} (hpath : leafOf path ∈ serverLeaves) {value : Scalar}
    (hvalue : fits path value = true) : d.Carries (d.set path value) :=
  ⟨.setField _ hpath hvalue _, id⟩

end Draft.Carries

namespace EmergencyCsvParser

open Draft (Carries)

variable {p : Platform}

/-- The leaves of an endpoint. -/
theorem endpoint_leaves (e : Endpoint) : leafOf e.port ∈ serverLeaves ∧
    leafOf e.portSource ∈ serverLeaves := by
  cases e with
  | softether t => cases t <;> decide
  | openvpn t => cases t <;> decide
  | l2tpIpsec => decide
  | sstp => decide

theorem carries_writePort (e : Endpoint) (port : ℤ) (d : Draft) :
    d.Carries (writePort e port d) := by
  have hfits : fits e.port (.int port) = true ∧
      fits e.portSource VpnPortSource.EXPLICIT = true := by
    cases e with
    | softether t => cases t <;> exact ⟨rfl, by decide⟩
    | openvpn t => cases t <;> exact ⟨rfl, by decide⟩
    | l2tpIpsec => exact ⟨rfl, by decide⟩
    | sstp => exact ⟨rfl, by decide⟩
  exact (Carries.set d (endpoint_leaves e).1 hfits.1).trans
    (Carries.set _ (endpoint_leaves e).2 hfits.2)

theorem carries_portIssues (raw : String) (d : Draft) : d.Carries (d.note (portValue p raw).2) := by
  refine Carries.note d ?_
  unfold portValue
  dsimp only
  split_ifs
  · simp
  · cases (p.toIntOrNull (p.trim raw)).filter validPort with
    | none => simp [Issue.rejectsRecord]
    | some port => simp

theorem carries_applyPort (raw : String) {write : ℤ → Draft → Draft}
    (hwrite : ∀ port (d : Draft), d.Carries (write port d)) (d : Draft) :
    d.Carries (applyPort p raw write d) := by
  unfold applyPort
  dsimp only
  split_ifs
  · exact (carries_portIssues raw d).trans (hwrite _ _)
  · exact carries_portIssues raw d

theorem carries_applyInt (raw : String) {path : Path} (hpath : leafOf path ∈ serverLeaves)
    (hfits : ∀ n, fits path (.int n) = true) (d : Draft) : d.Carries (applyInt p raw path d) := by
  unfold applyInt
  dsimp only
  split_ifs
  · exact Carries.refl d
  · cases p.toIntOrNull (p.trim raw) with
    | none => exact Carries.note d (by simp [Issue.rejectsRecord])
    | some n => exact Carries.set d hpath (hfits n)

theorem carries_applyDouble (raw : String) {path : Path} (hpath : leafOf path ∈ serverLeaves)
    (hfits : ∀ x, fits path (.double x) = true) (d : Draft) :
    d.Carries (applyDouble p raw path d) := by
  unfold applyDouble
  dsimp only
  split_ifs
  · exact Carries.refl d
  · cases p.toDoubleOrNull (p.trim raw) with
    | none => exact Carries.note d (by simp [Issue.rejectsRecord])
    | some x => exact Carries.set d hpath (hfits x)

theorem carries_applyScaled (raw : String) (divisor : BitVec 64) {path : Path}
    (hpath : leafOf path ∈ serverLeaves) (hfits : ∀ x, fits path (.double x) = true) (d : Draft) :
    d.Carries (applyScaled p raw divisor path d) := by
  unfold applyScaled
  dsimp only
  split_ifs
  · exact Carries.set d hpath (hfits _)
  · exact Carries.refl d

theorem carries_applyCountry (countryShort : String) (d : Draft) :
    d.Carries (applyCountry p countryShort d) := by
  unfold applyCountry
  split_ifs
  · exact Carries.refl d
  · exact Carries.set d (by decide) rfl
  · exact Carries.note d (by simp [Issue.rejectsRecord])

theorem carries_applyDescription (field : String → String) (d : Draft) :
    d.Carries (applyDescription p field d) := by
  unfold applyDescription
  dsimp only
  refine Carries.trans ?_ (Carries.set _ (by decide) rfl)
  refine Carries.trans ?_ (Carries.set _ (by decide) rfl)
  refine Carries.trans ?_ (Carries.set _ (by decide) rfl)
  refine Carries.trans ?_ (carries_applyScaled _ _ (by decide) (fun _ => rfl) _)
  refine Carries.trans ?_ (carries_applyInt _ (by decide) (fun _ => rfl) _)
  refine Carries.trans ?_ (carries_applyScaled _ _ (by decide) (fun _ => rfl) _)
  refine Carries.trans ?_ (carries_applyInt _ (by decide) (fun _ => rfl) _)
  refine Carries.trans ?_ (carries_applyCountry _ _)
  refine Carries.trans ?_ (Carries.set _ (by decide) rfl)
  refine Carries.trans ?_ (carries_applyScaled _ _ (by decide) (fun _ => rfl) _)
  refine Carries.trans ?_ (carries_applyDouble _ (by decide) (fun _ => rfl) _)
  exact carries_applyInt _ (by decide) (fun _ => rfl) _

theorem carries_applyOpenVpnConfig (configB64 : String) (d : Draft) :
    d.Carries (applyOpenVpnConfig p configB64 d) := by
  unfold applyOpenVpnConfig
  dsimp only
  split_ifs with hempty hraw
  · exact Carries.refl d
  · exact Carries.note d (by simp [Issue.rejectsRecord])
  · refine ⟨?_, id⟩
    unfold Merger.EmergencyCsvParser.applyOpenVpnConfig
    rw [if_neg hraw]
    refine Carried.trans ?_ (Carried.applyDecoded _ _ _)
    refine Carried.trans ?_ (Carried.setField _ (by decide) rfl _)
    refine Carried.trans ?_ (Carried.setField _ (by decide) rfl _)
    exact Carried.setField _ (by decide) rfl _

theorem carries_applySoftEther (field : String → String) (d : Draft) :
    d.Carries (applySoftEther p field d) := by
  have hsupported : ∀ t (d : Draft),
      d.Carries (d.set (Endpoint.softether t).supported (.boolean true)) := by
    intro t d
    cases t with
    | tcp => exact Carries.set d (by decide) rfl
    | udp => exact Carries.set d (by decide) rfl
  have htcp : d.Carries (applyPort p (field "SE_TCP_Port")
      (fun port d => writePort (.softether .tcp) port
        (d.set (Endpoint.softether .tcp).supported (.boolean true))) d) :=
    carries_applyPort _ (fun port d => (hsupported .tcp d).trans (carries_writePort _ port _)) d
  unfold applySoftEther
  dsimp only
  refine htcp.trans ?_
  generalize applyPort p (field "SE_TCP_Port") _ d = d
  have htoken : d.Carries (if field "SE_UDP_Supported" ≠ "" ∧
      boolOrNull p (field "SE_UDP_Supported") = none then d.note [.nonBooleanToken] else d) := by
    split_ifs
    · exact Carries.note d (by simp [Issue.rejectsRecord])
    · exact Carries.refl d
  refine htoken.trans ?_
  generalize (if field "SE_UDP_Supported" ≠ "" ∧
    boolOrNull p (field "SE_UDP_Supported") = none then d.note [.nonBooleanToken] else d) = d
  split_ifs
  · exact (hsupported .udp d).trans (carries_applyPort _ (carries_writePort _) _)
  · exact Carries.note d (by simp [Issue.rejectsRecord])
  · exact Carries.refl d

theorem carries_applyOpenVpnColumnPort (t : Transport) (rawPort : String) (d : Draft) :
    d.Carries (applyOpenVpnColumnPort p t rawPort d) := by
  have hissues := carries_portIssues (p := p) rawPort d
  unfold applyOpenVpnColumnPort
  dsimp only
  split_ifs
  · exact hissues.trans (Carries.note _ (by simp [Issue.rejectsRecord]))
  · exact hissues
  · exact hissues
  · exact (hissues.trans (carries_writePort _ _ _)).trans
      (Carries.set _ (openvpn_leaves t).1 (by cases t <;> rfl))
  · exact (hissues.trans (carries_writePort _ _ _)).trans
      (Carries.note _ (by simp [Issue.rejectsRecord]))

theorem carries_applySupported {protocol : String}
    (hpath : leafOf ["protocols", protocol, "supported"] ∈ serverLeaves) (raw : String)
    (d : Draft) : d.Carries (applySupported p protocol raw d) := by
  have hwrite : ∀ (supported : Bool) (d : Draft), d.Carries
      (if supported then d.set ["protocols", protocol, "supported"] (.boolean true) else d) := by
    intro supported d
    split_ifs
    · exact Carries.set d hpath rfl
    · exact Carries.refl d
  unfold applySupported applyBool
  dsimp only
  refine Carries.trans ?_ (hwrite _ _)
  split_ifs
  · exact Carries.note d (by simp [Issue.rejectsRecord])
  · exact Carries.refl d

theorem carries_describe (field : String → String) (d : Draft) :
    d.Carries (describe p field d) := by
  unfold describe
  dsimp only
  refine Carries.trans ?_ (carries_applySupported (by decide) _ _)
  refine Carries.trans ?_ (carries_applySupported (by decide) _ _)
  refine Carries.trans ?_ (carries_applyOpenVpnColumnPort _ _ _)
  refine Carries.trans ?_ (carries_applyOpenVpnColumnPort _ _ _)
  refine Carries.trans ?_ (carries_applySoftEther _ _)
  exact (carries_applyDescription _ _).trans (carries_applyOpenVpnConfig _ _)

theorem carries_writeSstp (rawHost rawPort host : String) (suffixPort : ℤ) (d : Draft) :
    d.Carries (writeSstp p rawHost rawPort host suffixPort d) := by
  unfold writeSstp
  dsimp only
  generalize (if host = "" then p.trim rawHost else host) = host
  generalize (if 0 < (portValue p rawPort).1 then _ else suffixPort) = port
  by_cases hhost : host = ""
  · rw [if_pos hhost]
    exact Carries.refl d
  · rw [if_neg hhost]
    have hissues : d.Carries ((d.set ["protocols", "sstp", "hostname"] (.string host)).note
        (portValue p rawPort).2) :=
      (Carries.set d (by decide) rfl).trans (carries_portIssues _ _)
    split_ifs
    · exact hissues.trans (carries_writePort _ _ _)
    · exact hissues

theorem carries_sstpEndpoint (rawHost rawPort : String) (d : Draft) :
    d.Carries (sstpEndpoint p rawHost rawPort d) := by
  unfold sstpEndpoint
  split_ifs
  · exact Carries.refl d
  · exact carries_writeSstp _ _ _ _ d

theorem carries_applySourceTag (declaredTag : String) (d : Draft) :
    d.Carries (applySourceTag declaredTag d) := by
  have hissues : ∀ issue ∈ (if declaredTag = "" then (DEFAULT_SOURCE_TAG, [])
      else if declaredTag ∈ SOURCE_TAG_ENUM then (declaredTag, [])
      else (DEFAULT_SOURCE_TAG, [Issue.unknownSourceTag]) : String × List Issue).2,
      issue.rejectsRecord = false := by
    split_ifs <;> simp [Issue.rejectsRecord]
  unfold applySourceTag
  exact ⟨(Carried.tag _ (by decide) _).trans (Carried.tag _ (by decide) _),
    (Carries.note d hissues).notes⟩

/-- The readers of a row, all together. -/
theorem carries_record (field : String → String) (hostname ip : String) :
    (identity hostname ip).Carries (record p field hostname ip) :=
  ((carries_describe _ _).trans (carries_sstpEndpoint _ _ _)).trans (carries_applySourceTag _ _)

/-- **The record of a row keeps its identity**, and nothing that is noted for it rejects it. -/
theorem record_identity (field : String → String) {hostname ip : String} (hhostname : hostname ≠ "")
    (hip : ip ≠ "") :
    (∃ remotes, Built (record p field hostname ip).server remotes) ∧
      (record p field hostname ip).server.get ["identity", "hostname"] = .string hostname ∧
      (record p field hostname ip).server.get ["identity", "ip"] = .string ip ∧
      ∀ issue ∈ (record p field hostname ip).issues, issue.rejectsRecord = false := by
  have hset : ∀ (key : String), key ∈ ["hostname", "ip"] → ∀ s : String,
      isUnset ["identity", key] (.string s) = decide (s = "") := by
    intro key hkey s
    simp only [List.mem_cons, List.not_mem_nil, or_false] at hkey
    rcases hkey with rfl | rfl <;> simp [isUnset]
  have hnew : newServer.get ["identity", "hostname"] = .string "" ∧
      newServer.get ["identity", "ip"] = .string "" := by decide
  -- the two fields that a new record gets first
  have hleafHost : leafOf ["identity", "hostname"] ∈ serverLeaves := by decide
  have hleafIp : leafOf ["identity", "ip"] ∈ serverLeaves := by decide
  have hpathHost : ["identity", "hostname"] ∈ VpnServerRecord.fieldPaths := by decide
  have hpathIp : ["identity", "ip"] ∈ VpnServerRecord.fieldPaths := by decide
  have hfirst : Built (setField newServer ["identity", "hostname"] (.string hostname) SOURCE_TAG)
      [] := Built.newServer.setField hleafHost rfl _
  have hboth : Built (identity hostname ip).server [] := hfirst.setField hleafIp rfl _
  have hgetHost : (identity hostname ip).server.get ["identity", "hostname"] =
      .string hostname := by
    unfold identity Draft.set
    rw [get_setField hfirst.wellFormed hleafIp hpathHost, if_neg (by simp),
      get_setField Built.newServer.wellFormed hleafHost hpathHost, if_pos]
    simp [hset "hostname", hnew.1, hhostname]
  have hgetIp : (identity hostname ip).server.get ["identity", "ip"] = .string ip := by
    unfold identity Draft.set
    rw [get_setField hfirst.wellFormed hleafIp hpathIp, if_pos]
    rw [get_setField Built.newServer.wellFormed hleafHost hpathIp, if_neg (by simp)]
    simp [hset "ip", hnew.2, hip]
  have hcarries := carries_record (p := p) field hostname ip
  obtain ⟨hbuilt, hstays⟩ := hcarries.server [] hboth
  refine ⟨hbuilt, ?_, ?_, hcarries.notes (by simp [identity, Draft.set])⟩
  · rw [← hgetHost]
    exact hstays _ hpathHost (by simp [hgetHost, hset "hostname", hhostname])
  · rw [← hgetIp]
    exact hstays _ hpathIp (by simp [hgetIp, hset "ip", hip])

end EmergencyCsvParser

end SoftEther.Parser
