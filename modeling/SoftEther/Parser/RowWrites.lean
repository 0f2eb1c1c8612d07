import SoftEther.Lib.WriteOnce
import SoftEther.Merger.Normalize
import SoftEther.Parser.EmergencyRow

namespace SoftEther.Parser

open Lib
open SoftEther.Merger
open VpnServerRecord (fieldPaths fieldPaths_leaf)
open Merger.EmergencyCsvParser (SOURCE_TAG)

/-!
# What a row writes

A leaf keeps the first value that is written to it, so the list of the writes of a row tells what
its record holds.

* `valueOf`, `Written` — what a new record holds after writes;
* `profileWrites` — the writes of a profile;
* `rowWrites`, `record_written` — the writes of a row, and that its record holds them.
-/

/-- What a new record holds at a path after writes. -/
def valueOf (ws : List (Path × Scalar)) (path : Path) : Scalar :=
  slot isUnset newServer.get ws path

/-- **A record after writes** to its described leaves. -/
structure Written (ws : List (Path × Scalar)) (r : VpnServerRecord) : Prop where
  wellFormed : r.WellFormed
  get : ∀ path ∈ fieldPaths, r.get path = valueOf ws path

theorem isUnset_newServer : ∀ path ∈ fieldPaths, isUnset path (newServer.get path) = true := by
  decide

namespace Written

variable {ws : List (Path × Scalar)} {r : VpnServerRecord} {path : Path} {value : Scalar}

theorem newServer : Written [] newServer := ⟨VpnServerRecord.wellFormed_newServer, fun _ _ => rfl⟩

/-- **One more write.** -/
theorem setField (h : Written ws r) (hpath : path ∈ fieldPaths) (hvalue : fits path value = true)
    (source : String) : Written (ws ++ [(path, value)]) (setField r path value source) := by
  have hleaf := (fieldPaths_leaf path hpath).1
  refine ⟨h.wellFormed.setField hleaf hvalue source, fun path' hpath' => ?_⟩
  rw [get_setField h.wellFormed hleaf hpath', h.get path' hpath', valueOf, valueOf,
    slot_concat (isUnset_newServer path' hpath')]

/-- What is no value is not written. -/
theorem skip (h : Written ws r) (hunset : isUnset path value = true) :
    Written (ws ++ [(path, value)]) r := by
  refine ⟨h.wellFormed, fun path' hpath' => ?_⟩
  rw [h.get path' hpath', valueOf, valueOf, slot_concat (isUnset_newServer path' hpath'), if_neg]
  rintro ⟨-, hset, -⟩
  rw [hunset] at hset
  cases hset

theorem addConfig (h : Written ws r) (remote : OpenVpnRemote) : Written ws (addConfig r remote) :=
  ⟨(wellFormed_addConfig h.wellFormed remote).1, fun path hpath => by
    rw [get_addConfig h.wellFormed hpath, h.get path hpath]⟩

/-- A run of steps. -/
theorem foldl {α : Type*} {f : α → List (Path × Scalar)}
    {g : VpnServerRecord → α → VpnServerRecord}
    (hstep : ∀ ws r a, Written ws r → Written (ws ++ f a) (g r a)) (xs : List α)
    (h : Written ws r) : Written (ws ++ xs.flatMap f) (xs.foldl g r) := by
  induction xs generalizing ws r with
  | nil => simpa using h
  | cons a xs ih =>
    have hrest := ih (hstep ws r a h)
    rwa [List.append_assoc, ← List.flatMap_cons] at hrest

end Written

/-! ### The writes of a profile -/

/-- A port that is there, and that it is; `0` stands for none. -/
def portWrites (e : Endpoint) (port : ℤ) : List (Path × Scalar) :=
  [(e.port, if 0 < port then .int port else .null),
    (e.portSource, if 0 < port then VpnPortSource.EXPLICIT else VpnPortSource.UNKNOWN)]

/-- The writes of a remote. -/
def remoteWrites (inherited : String) (remote : OpenVpnRemote) : List (Path × Scalar) :=
  match transportOf remote inherited with
  | none => []
  | some t => ((Endpoint.openvpn t).supported, .boolean true) ::
      portWrites (.openvpn t) ((remote.port.filter validPort).getD 0)

/-- The writes of a line that names a protocol. -/
def protocolWrites (proto : String) : List (Path × Scalar) :=
  match familyOf proto with
  | none => []
  | some t => [((Endpoint.openvpn t).supported, .boolean true)]

/-- The writes of a profile. -/
def openVpnWrites (info : Merger.OpenVpnConfigParser.Decoded) : List (Path × Scalar) :=
  [(["protocols", "openvpn", "supported"], .boolean true),
    (["protocols", "openvpn", "configAvailable"], .boolean true),
    (["protocols", "openvpn", "rawConfig"], .string info.raw)] ++
  info.remotes.flatMap (remoteWrites (inheritedProto info.protocols)) ++
  info.protocols.flatMap protocolWrites

/-- The writes of `applyOpenVpnConfig`. -/
def profileWrites (info : Merger.OpenVpnConfigParser.Decoded) : List (Path × Scalar) :=
  if info.raw = "" then []
  else
    [(["protocols", "openvpn", "supported"], .boolean true),
      (["protocols", "openvpn", "configAvailable"], .boolean true),
      (["protocols", "openvpn", "rawConfig"], .string info.raw)] ++
    info.remotes.flatMap (remoteWrites (inheritedProto info.protocols)) ++
    info.protocols.flatMap protocolWrites

namespace Written

variable {ws : List (Path × Scalar)} {r : VpnServerRecord}

/-- The writes of an endpoint fit. -/
theorem endpoint_fits (e : Endpoint) : (∀ b, fits e.supported (.boolean b) = true) ∧
    (∀ n, fits e.port (.int n) = true) ∧ fits e.portSource VpnPortSource.EXPLICIT = true := by
  cases e with
  | softether t => cases t <;> exact ⟨fun _ => rfl, fun _ => rfl, by decide⟩
  | openvpn t => cases t <;> exact ⟨fun _ => rfl, fun _ => rfl, by decide⟩
  | l2tpIpsec => exact ⟨fun _ => rfl, fun _ => rfl, by decide⟩
  | sstp => exact ⟨fun _ => rfl, fun _ => rfl, by decide⟩

theorem supported (h : Written ws r) (e : Endpoint) (b : Bool) (source : String) :
    Written (ws ++ [(e.supported, .boolean b)])
      (Merger.setField r e.supported (.boolean b) source) :=
  h.setField e.leaves.2.2 ((endpoint_fits e).1 b) source

theorem notSupported (h : Written ws r) (e : Endpoint) :
    Written (ws ++ [(e.supported, .boolean false)]) r := h.skip rfl

/-- A port that is set. -/
theorem port (h : Written ws r) (e : Endpoint) {port : ℤ} (hport : 0 < port) (source : String) :
    Written (ws ++ portWrites e port)
      (Merger.setField (Merger.setField r e.port (.int port) source) e.portSource
        VpnPortSource.EXPLICIT source) := by
  have hboth := (h.setField e.leaves.1 ((endpoint_fits e).2.1 port) source).setField e.leaves.2.1
    (endpoint_fits e).2.2 source
  rw [List.append_assoc] at hboth
  rwa [portWrites, if_pos hport, if_pos hport]

/-- A port that is not. -/
theorem noPort (h : Written ws r) (e : Endpoint) {port : ℤ} (hport : ¬ 0 < port) :
    Written (ws ++ portWrites e port) r := by
  have hsource : isUnset e.portSource VpnPortSource.UNKNOWN = true := by
    cases e with
    | softether t => cases t <;> decide
    | openvpn t => cases t <;> decide
    | l2tpIpsec => decide
    | sstp => decide
  have hnull : Written (ws ++ [(e.port, .null)]) r := h.skip rfl
  have hboth := hnull.skip hsource
  rw [List.append_assoc] at hboth
  rwa [portWrites, if_neg hport, if_neg hport]

theorem applyRemote (h : Written ws r) (inherited source : String) (remote : OpenVpnRemote) :
    Written (ws ++ remoteWrites inherited remote) (applyRemote inherited source r remote) := by
  unfold remoteWrites Merger.applyRemote
  cases transportOf remote inherited with
  | none => simpa using h.addConfig remote
  | some t =>
    have hsupported := (h.addConfig remote).supported (.openvpn t) true source
    dsimp only
    rw [← List.singleton_append, ← List.append_assoc]
    cases hport : remote.port.filter validPort with
    | none => exact hsupported.noPort (.openvpn t) (by simp)
    | some port =>
      have hvalid := (Option.filter_eq_some_iff.mp hport).2
      have hpos : 0 < port := by
        unfold validPort at hvalid
        simp at hvalid
        omega
      exact hsupported.port (.openvpn t) hpos source

/-- **A profile**, as a row of the feed writes it. -/
theorem openVpnOfRow (h : Written ws r) (info : Merger.OpenVpnConfigParser.Decoded)
    (source : String) :
    Written (ws ++ openVpnWrites info) (Merger.openVpnOfRow r (some info) source) := by
  have hsupported : Written (ws ++ [(["protocols", "openvpn", "supported"], .boolean true)])
      (markSupported r "openvpn" source) := h.setField (by decide) rfl _
  have havailable : Written (_ ++ [(["protocols", "openvpn", "configAvailable"], .boolean true)])
      (Merger.setField _ _ _ source) := hsupported.setField (by decide) rfl _
  have hplain : Written (_ ++ [(["protocols", "openvpn", "rawConfig"], .string info.raw)])
      (Merger.setField _ _ _ source) := havailable.setField (by decide) rfl _
  have hremotes := hplain.foldl
    (fun ws r remote h => h.applyRemote (inheritedProto info.protocols) source remote)
    info.remotes
  have hprotocols := hremotes.foldl (f := protocolWrites) (g := applyProtocol source)
    (fun ws r proto h => by
      unfold protocolWrites applyProtocol
      cases familyOf proto with
      | none => simpa using h
      | some t => exact h.supported (.openvpn t) true source) info.protocols
  simpa [Merger.openVpnOfRow, applyDecoded, openVpnWrites, List.append_assoc] using hprotocols

/-- **The profile** of the emergency file. -/
theorem applyOpenVpnConfig (h : Written ws r) (info : Merger.OpenVpnConfigParser.Decoded) :
    Written (ws ++ profileWrites info) (Merger.EmergencyCsvParser.applyOpenVpnConfig r info) := by
  unfold profileWrites Merger.EmergencyCsvParser.applyOpenVpnConfig
  split_ifs with hraw
  · simpa using h
  · exact h.openVpnOfRow info SOURCE_TAG

end Written

/-! ### The values of the columns -/

namespace EmergencyCsvParser

variable (p : Platform)

/-- The number that `applyInt` writes, `0` when there is none. -/
def intValue (raw : String) : ℤ :=
  if p.trim raw = "" then 0 else (p.toIntOrNull (p.trim raw)).getD 0

/-- The double that `applyDouble` writes. -/
def doubleValue (raw : String) : BitVec 64 :=
  if p.trim raw = "" then 0 else (p.toDoubleOrNull (p.trim raw)).getD 0

/-- The double that `applyScaled` writes. -/
def scaledValue (raw : String) (divisor : BitVec 64) : BitVec 64 :=
  if isPositive (p.toFloat raw) then p.divide (p.toFloat raw) divisor else 0

/-- The country that is kept. -/
def countryValue (countryShort : String) : String :=
  if utf16Length countryShort = 2 ∧ countryShort.toList.all p.isLetter then
    p.uppercase countryShort
  else ""

/-- The host name that `writeSstp` writes. -/
def sstpHost (rawHost : String) : String :=
  if p.hostOf rawHost = "" then p.trim rawHost else p.hostOf rawHost

/-- The port of the column, else the one behind the host name. -/
def effectivePort (rawHost rawPort : String) : ℤ :=
  if 0 < (portValue p rawPort).1 then (portValue p rawPort).1 else suffixPortOf p rawHost

/-- The port that `writeSstp` writes. -/
def sstpPort (rawHost rawPort : String) : ℤ :=
  if validPort (effectivePort p rawHost rawPort) then effectivePort p rawHost rawPort else 0

/-! ### The writes of a row -/

/-- The writes of `applyDescription`. -/
def descriptionWrites (field : String → String) : List (Path × Scalar) :=
  [(["performance", "score"], .int (intValue p (field "Score"))),
    (["performance", "pingMs"], .double (doubleValue p (field "Ping"))),
    (["performance", "speedMbps"], .double (scaledValue p (field "Speed") 0x412E848000000000)),
    (["identity", "countryLong"], .string (field "CountryLong")),
    (["identity", "country"], .string (countryValue p (field "CountryShort"))),
    (["performance", "sessions"], .int (intValue p (field "NumVpnSessions"))),
    (["performance", "uptimeDays"], .double (scaledValue p (field "Uptime") 0x4194997000000000)),
    (["performance", "totalUsers"], .int (intValue p (field "TotalUsers"))),
    (["performance", "totalTrafficGB"],
      .double (scaledValue p (field "TotalTraffic") 0x41D0000000000000)),
    (["logging", "policy"], .string (field "LogType")),
    (["operator", "name"], .string (field "Operator")),
    (["operator", "message"], .string (field "Message"))]

/-- The writes of `applySoftEther`: a port for UDP only where a row declares it. -/
def softEtherWrites (field : String → String) : List (Path × Scalar) :=
  let tcpPort := (portValue p (field "SE_TCP_Port")).1
  let udpDeclared := boolOrNull p (field "SE_UDP_Supported") = some true
  ((Endpoint.softether .tcp).supported, .boolean (0 < tcpPort)) ::
    portWrites (.softether .tcp) tcpPort ++
  ((Endpoint.softether .udp).supported, .boolean udpDeclared) ::
    portWrites (.softether .udp) (if udpDeclared then (portValue p (field "SE_UDP_Port")).1 else 0)

/-- The writes of `applyOpenVpnColumnPort`, after others. -/
def columnWrites (t : Transport) (rawPort : String) (ws : List (Path × Scalar)) :
    List (Path × Scalar) :=
  let configAvailable := VpnRecords.bool (valueOf ws ["protocols", "openvpn", "configAvailable"])
  let configPort := VpnRecords.int (valueOf ws (Endpoint.openvpn t).port)
  let port := if 0 < configPort then 0 else (portValue p rawPort).1
  portWrites (.openvpn t) port ++
    [((Endpoint.openvpn t).supported, .boolean (decide (0 < port) && configAvailable))]

/-- The writes of `applySstpEndpoint`. -/
def sstpWrites (rawHost rawPort : String) : List (Path × Scalar) :=
  (["protocols", "sstp", "hostname"], .string (if rawHost = "" then "" else sstpHost p rawHost)) ::
    portWrites .sstp (if rawHost = "" ∨ sstpHost p rawHost = "" then 0
      else sstpPort p rawHost rawPort)

/-- The writes up to the profile. -/
def identityWrites (field : String → String) (hostname ip : String) : List (Path × Scalar) :=
  [(["identity", "hostname"], .string hostname), (["identity", "ip"], .string ip)] ++
    descriptionWrites p field

/-- The writes behind the columns of OpenVPN. -/
def offerWrites (field : String → String) : List (Path × Scalar) :=
  [(Endpoint.l2tpIpsec.supported, .boolean (boolOrNull p (field "L2TP_Supported") = some true)),
    (Endpoint.sstp.supported, .boolean (boolOrNull p (field "SSTP_Supported") = some true))] ++
    sstpWrites p (field "SSTP_Hostname") (field "SSTP_Port")

/-- The profile of a row. -/
def profileOf (field : String → String) : Merger.OpenVpnConfigParser.Decoded :=
  OpenVpnConfigParser.decode p (field "OpenVPN_ConfigData_Base64")

/-- **The writes of a row.** -/
def rowWrites (field : String → String) (hostname ip : String) : List (Path × Scalar) :=
  let described := identityWrites p field hostname ip ++ profileWrites (profileOf p field) ++
    softEtherWrites p field
  let tcp := described ++ columnWrites p .tcp (field "OpenVPN_TCP_Port") described
  tcp ++ columnWrites p .udp (field "OpenVPN_UDP_Port") tcp ++ offerWrites p field

/-! ### The readers write so -/

variable {ws : List (Path × Scalar)} {d : Draft}

theorem written_applyInt (h : Written ws d.server)
    (raw : String) {path : Path} (hpath : path ∈ fieldPaths)
    (hfits : ∀ n, fits path (.int n) = true) :
    Written (ws ++ [(path, .int (intValue p raw))]) (applyInt p raw path d).server := by
  unfold applyInt intValue
  dsimp only
  split_ifs with hempty
  · exact h.skip rfl
  · cases p.toIntOrNull (p.trim raw) with
    | none => exact h.skip rfl
    | some n => exact h.setField hpath (hfits n) _

theorem written_applyDouble (h : Written ws d.server)
    (raw : String) {path : Path} (hpath : path ∈ fieldPaths)
    (hfits : ∀ bits, fits path (.double bits) = true) :
    Written (ws ++ [(path, .double (doubleValue p raw))]) (applyDouble p raw path d).server := by
  unfold applyDouble doubleValue
  dsimp only
  split_ifs with hempty
  · exact h.skip rfl
  · cases p.toDoubleOrNull (p.trim raw) with
    | none => exact h.skip rfl
    | some bits => exact h.setField hpath (hfits bits) _

theorem written_applyScaled (h : Written ws d.server)
    (raw : String) (divisor : BitVec 64) {path : Path} (hpath : path ∈ fieldPaths)
    (hfits : ∀ bits, fits path (.double bits) = true) :
    Written (ws ++ [(path, .double (scaledValue p raw divisor))])
      (applyScaled p raw divisor path d).server := by
  unfold applyScaled scaledValue
  dsimp only
  split_ifs
  · exact h.setField hpath (hfits _) _
  · exact h.skip rfl

theorem written_applyCountry (h : Written ws d.server)
    (countryShort : String) :
    Written (ws ++ [(["identity", "country"], .string (countryValue p countryShort))])
      (applyCountry p countryShort d).server := by
  unfold applyCountry countryValue
  by_cases hempty : countryShort = ""
  · -- an empty text has no two letters
    subst hempty
    rw [if_pos rfl, if_neg fun hletters => absurd hletters.1 (by decide)]
    exact h.skip rfl
  · rw [if_neg hempty]
    split_ifs
    · exact h.setField (by decide) rfl _
    · exact h.skip rfl

theorem written_applyDescription (h : Written ws d.server)
    (field : String → String) :
    Written (ws ++ descriptionWrites p field) (applyDescription p field d).server := by
  unfold applyDescription
  dsimp only
  have hscore : Written (ws ++ [(["performance", "score"], _)]) _ :=
    written_applyInt p h (field "Score") (by decide) fun _ => rfl
  have hping : Written (_ ++ [(["performance", "pingMs"], _)]) _ :=
    written_applyDouble p hscore (field "Ping") (by decide) fun _ => rfl
  have hspeed : Written (_ ++ [(["performance", "speedMbps"], _)]) _ :=
    written_applyScaled p hping (field "Speed") 0x412E848000000000 (by decide) fun _ => rfl
  have hlong : Written (_ ++ [(["identity", "countryLong"], .string (field "CountryLong"))])
    (Draft.set _ _ _).server := hspeed.setField (by decide) rfl _
  have hcountry := written_applyCountry p hlong (field "CountryShort")
  have hsessions : Written (_ ++ [(["performance", "sessions"], _)]) _ :=
    written_applyInt p hcountry (field "NumVpnSessions") (by decide) fun _ => rfl
  have huptime : Written (_ ++ [(["performance", "uptimeDays"], _)]) _ :=
    written_applyScaled p hsessions (field "Uptime") 0x4194997000000000 (by decide) fun _ => rfl
  have husers : Written (_ ++ [(["performance", "totalUsers"], _)]) _ :=
    written_applyInt p huptime (field "TotalUsers") (by decide) fun _ => rfl
  have htraffic : Written (_ ++ [(["performance", "totalTrafficGB"], _)]) _ :=
    written_applyScaled p husers (field "TotalTraffic") 0x41D0000000000000 (by decide) fun _ => rfl
  have hpolicy : Written (_ ++ [(["logging", "policy"], .string (field "LogType"))])
    (Draft.set _ _ _).server := htraffic.setField (by decide) rfl _
  have hname : Written (_ ++ [(["operator", "name"], .string (field "Operator"))])
    (Draft.set _ _ _).server := hpolicy.setField (by decide) rfl _
  have hmessage : Written (_ ++ [(["operator", "message"], .string (field "Message"))])
    (Draft.set _ _ _).server := hname.setField (by decide) rfl _
  simp only [List.append_assoc, List.singleton_append] at hmessage
  exact hmessage

theorem written_applyOpenVpnConfig (h : Written ws d.server) (configB64 : String) :
    Written (ws ++ profileWrites (OpenVpnConfigParser.decode p configB64))
      (applyOpenVpnConfig p configB64 d).server := by
  unfold applyOpenVpnConfig
  by_cases hempty : configB64 = ""
  · subst hempty
    simpa [OpenVpnConfigParser.decode, profileWrites] using h
  · rw [if_neg hempty]
    dsimp only
    split_ifs with hraw
    · simpa [profileWrites, hraw] using h
    · exact h.applyOpenVpnConfig _

theorem server_writePort (e : Endpoint) (port : ℤ) (d : Draft) :
    (writePort e port d).server = Merger.setField
      (Merger.setField d.server e.port (.int port) SOURCE_TAG) e.portSource VpnPortSource.EXPLICIT
        SOURCE_TAG := rfl

/-- A port of a column. -/
theorem written_applyPort (h : Written ws d.server) (raw : String) (e : Endpoint) :
    Written (ws ++ portWrites e (portValue p raw).1) (applyPort p raw (writePort e) d).server := by
  unfold applyPort
  dsimp only
  split_ifs with hport
  · rw [server_writePort, Draft.note_server]
    exact h.port e hport SOURCE_TAG
  · exact h.noPort e hport

theorem written_applySoftEther (h : Written ws d.server) (field : String → String) :
    Written (ws ++ softEtherWrites p field) (applySoftEther p field d).server := by
  have htcp : Written (ws ++ ((Endpoint.softether .tcp).supported,
        .boolean (0 < (portValue p (field "SE_TCP_Port")).1)) ::
          portWrites (.softether .tcp) (portValue p (field "SE_TCP_Port")).1)
      (applyPort p (field "SE_TCP_Port") (fun port d => writePort (.softether .tcp) port
        (d.set (Endpoint.softether .tcp).supported (.boolean true))) d).server := by
    rw [← List.singleton_append, ← List.append_assoc]
    unfold applyPort
    dsimp only
    split_ifs with hport
    · rw [decide_eq_true hport, server_writePort, Draft.set_server, Draft.note_server]
      exact (h.supported (.softether .tcp) true _).port (.softether .tcp) hport SOURCE_TAG
    · rw [decide_eq_false hport]
      exact (h.notSupported (.softether .tcp)).noPort (.softether .tcp) hport
  unfold applySoftEther softEtherWrites
  dsimp only
  generalize applyPort p (field "SE_TCP_Port") _ d = d' at htcp
  have hnote : (if field "SE_UDP_Supported" ≠ "" ∧ boolOrNull p (field "SE_UDP_Supported") = none
      then d'.note [.nonBooleanToken] else d').server = d'.server := by
    split_ifs <;> rfl
  generalize (if field "SE_UDP_Supported" ≠ "" ∧ boolOrNull p (field "SE_UDP_Supported") = none
      then d'.note [.nonBooleanToken] else d') = d'' at hnote
  rw [← hnote] at htcp
  rw [← List.append_assoc]
  by_cases hdeclared : boolOrNull p (field "SE_UDP_Supported") = some true
  · rw [if_pos hdeclared, if_pos hdeclared, decide_eq_true hdeclared]
    have hsupported : Written (_ ++ [((Endpoint.softether .udp).supported, .boolean true)])
        (d''.set (Endpoint.softether .udp).supported (.boolean true)).server :=
      htcp.supported (.softether .udp) true _
    have hport := written_applyPort p hsupported (field "SE_UDP_Port") (.softether .udp)
    rw [List.append_assoc] at hport
    exact hport
  · -- a port without the declaration is noted, not written
    rw [if_neg hdeclared, if_neg hdeclared, decide_eq_false hdeclared]
    have hport := (htcp.notSupported (.softether .udp)).noPort (.softether .udp) (lt_irrefl 0)
    rw [List.append_assoc] at hport
    split_ifs
    · exact hport
    · exact hport

theorem openvpn_paths (t : Transport) : (Endpoint.openvpn t).port ∈ fieldPaths ∧
    ["protocols", "openvpn", "configAvailable"] ∈ fieldPaths := by
  cases t <;> decide

/-- A column of OpenVPN: it fills a port that the writes before it left open. -/
theorem written_applyOpenVpnColumnPort (h : Written ws d.server) (t : Transport)
    (rawPort : String) :
    Written (ws ++ columnWrites p t rawPort ws) (applyOpenVpnColumnPort p t rawPort d).server := by
  obtain ⟨hport, havailable⟩ := openvpn_paths t
  unfold applyOpenVpnColumnPort columnWrites
  dsimp only
  rw [h.get _ hport, h.get _ havailable, ← List.append_assoc]
  generalize VpnRecords.int (valueOf ws (Endpoint.openvpn t).port) = configPort
  generalize VpnRecords.bool (valueOf ws ["protocols", "openvpn", "configAvailable"]) = available
  generalize (portValue p rawPort).1 = columnPort
  by_cases hconfig : 0 < configPort
  · have hsame := (h.noPort (.openvpn t) (lt_irrefl 0)).notSupported (.openvpn t)
    rw [if_pos hconfig, if_pos hconfig, decide_eq_false (lt_irrefl 0), Bool.false_and]
    split_ifs
    · exact hsame
    · exact hsame
  · rw [if_neg hconfig, if_neg hconfig]
    by_cases hcolumn : columnPort ≤ 0
    · have hsame := (h.noPort (.openvpn t) (not_lt.mpr hcolumn)).notSupported (.openvpn t)
      rw [if_pos hcolumn, decide_eq_false (not_lt.mpr hcolumn), Bool.false_and]
      exact hsame
    · have hwritten := h.port (.openvpn t) (not_le.mp hcolumn) SOURCE_TAG
      rw [if_neg hcolumn, decide_eq_true (not_le.mp hcolumn), Bool.true_and]
      cases available with
      | true =>
        rw [if_pos rfl, Draft.set_server, server_writePort, Draft.note_server]
        exact hwritten.supported (.openvpn t) true SOURCE_TAG
      | false =>
        rw [if_neg (by simp), Draft.note_server, server_writePort, Draft.note_server]
        exact hwritten.notSupported (.openvpn t)

theorem written_applySupported (h : Written ws d.server) (e : Endpoint) {protocol : String}
    (he : e.supported = ["protocols", protocol, "supported"]) (raw : String) :
    Written (ws ++ [(e.supported, .boolean (boolOrNull p raw = some true))])
      (applySupported p protocol raw d).server := by
  have hnote : (if raw ≠ "" ∧ boolOrNull p raw = none then d.note [.nonBooleanToken]
      else d).server = d.server := by
    split_ifs <;> rfl
  unfold applySupported applyBool
  dsimp only
  rw [← hnote] at h
  generalize (if raw ≠ "" ∧ boolOrNull p raw = none then d.note [.nonBooleanToken] else d) = d' at h
  by_cases hdeclared : boolOrNull p raw = some true
  · rw [decide_eq_true hdeclared, if_pos rfl, ← he]
    exact h.supported e true _
  · rw [decide_eq_false hdeclared, if_neg (by simp)]
    exact h.notSupported e

theorem written_sstpEndpoint (h : Written ws d.server) (rawHost rawPort : String) :
    Written (ws ++ sstpWrites p rawHost rawPort) (sstpEndpoint p rawHost rawPort d).server := by
  have hpath : ["protocols", "sstp", "hostname"] ∈ fieldPaths := by decide
  unfold sstpEndpoint sstpWrites
  rw [← List.singleton_append, ← List.append_assoc]
  by_cases hraw : rawHost = ""
  · rw [if_pos hraw, if_pos hraw, if_pos (.inl hraw)]
    exact (h.skip rfl).noPort .sstp (lt_irrefl 0)
  · rw [if_neg hraw, if_neg hraw]
    have hhost : (if p.hostOf rawHost = "" then p.trim rawHost else p.hostOf rawHost) =
        sstpHost p rawHost := rfl
    have heffective : (if 0 < (portValue p rawPort).1 then (portValue p rawPort).1
        else suffixPortOf p rawHost) = effectivePort p rawHost rawPort := rfl
    unfold writeSstp
    dsimp only
    rw [hhost, heffective]
    by_cases hempty : sstpHost p rawHost = ""
    · rw [if_pos hempty, if_pos (.inr hempty), hempty]
      exact (h.skip rfl).noPort .sstp (lt_irrefl 0)
    · rw [if_neg hempty, if_neg (by simp [hraw, hempty]), sstpPort]
      have hset := h.setField hpath (show fits _ (.string (sstpHost p rawHost)) = true from rfl)
        SOURCE_TAG
      by_cases hvalid : validPort (effectivePort p rawHost rawPort) = true
      · have hpos : 0 < effectivePort p rawHost rawPort := by
          simp only [validPort, Bool.and_eq_true, decide_eq_true_eq] at hvalid
          omega
        rw [if_pos hvalid, if_pos hvalid, server_writePort, Draft.note_server, Draft.set_server]
        exact hset.port .sstp hpos _
      · rw [if_neg hvalid, if_neg hvalid, Draft.note_server, Draft.set_server]
        exact hset.noPort .sstp (lt_irrefl 0)

theorem written_identity (hostname ip : String) :
    Written [(["identity", "hostname"], .string hostname), (["identity", "ip"], .string ip)]
      (identity hostname ip).server :=
  (Written.newServer.setField (by decide) rfl SOURCE_TAG).setField (by decide) rfl SOURCE_TAG

/-- The tags of the emergency file stand elsewhere. -/
theorem get_applySourceTag (declaredTag : String) (d : Draft) (path : Path) :
    (applySourceTag declaredTag d).server.get path = d.server.get path := by
  have hlate : ∀ path ∈ emergencyPaths, (leafOf path).late = true := by decide
  have hput : ∀ (r : VpnServerRecord) (tag : String), ∀ path' ∈ emergencyPaths,
      (r.put path' (.string tag)).get path = r.get path := by
    intro r tag path' hpath'
    rw [VpnServerRecord.get, VpnServerRecord.get, VpnServerRecord.put, VpnServerRecord.written,
      hlate path' hpath']
    rfl
  unfold applySourceTag
  dsimp only
  rw [hput _ _ _ (by decide), hput _ _ _ (by decide)]

/-- **The record of a row** holds what its columns write. -/
theorem record_written (field : String → String) (hostname ip : String) {path : Path}
    (hpath : path ∈ fieldPaths) :
    (record p field hostname ip).server.get path =
      valueOf (rowWrites p field hostname ip) path := by
  have hdescribed := written_applySoftEther p
    (written_applyOpenVpnConfig p
      (written_applyDescription p (written_identity hostname ip) field)
      (field "OpenVPN_ConfigData_Base64")) field
  have htcp := written_applyOpenVpnColumnPort p hdescribed .tcp (field "OpenVPN_TCP_Port")
  have hudp := written_applyOpenVpnColumnPort p htcp .udp (field "OpenVPN_UDP_Port")
  have hl2tp := written_applySupported p hudp .l2tpIpsec rfl (field "L2TP_Supported")
  have hsstp := written_applySupported p hl2tp .sstp rfl (field "SSTP_Supported")
  have hend := written_sstpEndpoint p hsstp (field "SSTP_Hostname") (field "SSTP_Port")
  have hget := hend.get path hpath
  rw [record, get_applySourceTag]
  refine hget.trans ?_
  unfold rowWrites identityWrites offerWrites profileOf
  simp only [List.append_assoc, List.cons_append, List.nil_append]

end EmergencyCsvParser

end SoftEther.Parser
