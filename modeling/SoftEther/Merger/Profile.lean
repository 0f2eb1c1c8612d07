import SoftEther.Merger.Ports

namespace SoftEther.Merger

open Lib VpnServerRecord OpenVpnConfigParser

/-!
# The profile and the port that is dialled

The app dials what a profile says, so the port of a transport is to be that of the first remote of
the profiles that has the transport. The parsers let a remote inherit the transport of a single
`proto` line, but the validation reads what is on the line of the remote only, and the merge knows
nothing of profiles.

* `Parsed` — a record with the remotes of its profiles and what they inherit;
* `dialledPort` — the port of the first remote that has a transport;
* `dials_iff` — when it is the port of the server.
-/

/-- A record that a parser made, with the remotes of its profiles and what each inherits. -/
structure Parsed where
  record : VpnServerRecord
  remotes : List (OpenVpnRemote × String)
  built : Built record remotes

/-- The records of a list. -/
def recordsParsed (parsed : List Parsed) : List VpnServerRecord := parsed.map fun p => p.record

/-- The records of a key. -/
def parsedOf (key : String) (parsed : List Parsed) : List Parsed :=
  parsed.filter fun p => identityKey p.record = some key

/-- A remote has a transport: in some profile with it the transport is on its line or inherited. -/
def HasTransport (parsed : List Parsed) (t : Transport) (remote : Value) : Prop :=
  ∃ p ∈ parsed, ∃ r ∈ p.remotes, remote = .scalar (.remote r.1) ∧ transportOf r.1 r.2 = some t

instance (parsed : List Parsed) (t : Transport) (remote : Value) :
    Decidable (HasTransport parsed t remote) := by
  unfold HasTransport
  infer_instance

/-- The port of a remote that has a transport, when it is valid. -/
def portFor (parsed : List Parsed) (t : Transport) (remote : Value) : Option ℤ :=
  if HasTransport parsed t remote ∧ validPort (remotePort remote) then some (remotePort remote)
  else none

/-- The port of the first remote that has a transport and a valid port. -/
def dialledPort (parsed : List Parsed) (t : Transport) (configs : List Value) : Option ℤ :=
  configs.findSome? (portFor parsed t)

/-- **The port of a transport is the one that is dialled**, when the profiles of the server have a
    remote for the transport at all. -/
def Dials (parsed : List Parsed) (t : Transport) (server : VpnServerRecord) : Prop :=
  ∀ port ∈ dialledPort parsed t server.configs,
    VpnRecords.int (server.get (Endpoint.openvpn t).port) = port

/-- The port that is dialled of a list of records, before it is merged. -/
def dialledOf (key : String) (t : Transport) (parsed : List Parsed) : Option ℤ :=
  dialledPort (parsedOf key parsed) t (remotesOf (recordsParsed (parsedOf key parsed)))

/-- The port that the profiles of a list of records name on a line. -/
def namedOf (key : String) (t : Transport) (parsed : List Parsed) : Option ℤ :=
  configPort t (remotesOf (recordsParsed (parsedOf key parsed)))

/-- **The records agree on what is dialled**: of the remotes in the order of the records, the first
    that names the transport on its line has the port of the first that has the transport at all;
    and where none names it on its line, that port stands at the leaf. -/
structure ProfileAgrees (key : String) (t : Transport) (parsed : List Parsed) : Prop where
  named : ∀ port ∈ dialledOf key t parsed, ∀ named ∈ namedOf key t parsed, named = port
  stands : ∀ port ∈ dialledOf key t parsed, namedOf key t parsed = none →
    ∃ value, StandsAt key (Endpoint.openvpn t).port (recordsParsed parsed) value ∧
      VpnRecords.int value = port

theorem validPort_of_dialledPort {parsed : List Parsed} {t : Transport} {configs : List Value}
    {port : ℤ} (h : dialledPort parsed t configs = some port) : validPort port = true := by
  obtain ⟨-, remote, -, -, hremote, -⟩ := List.findSome?_eq_some_iff.mp h
  unfold portFor at hremote
  split_ifs at hremote with hport
  rw [← Option.some.inj hremote]
  exact hport.2

theorem recordsOf_recordsParsed (key : String) (parsed : List Parsed) :
    recordsOf key (recordsParsed parsed) = recordsParsed (parsedOf key parsed) := by
  rw [recordsOf, recordsParsed, List.filter_map]
  rfl

/-- **When the profile is dialled**: the port of a transport of a validated server is that of the
    first remote for it exactly if the records agree so. -/
theorem dials_iff {parsed : List Parsed} {key : String} {m server : VpnServerRecord} {t : Transport}
    (hm : (key, m) ∈ database (recordsParsed parsed)) (hserver : normalizeServer m = some server) :
    Dials (parsedOf key parsed) t server ↔ ProfileAgrees key t parsed := by
  have h : ∀ r ∈ recordsParsed parsed, r.WellFormed := by
    intro r hr
    obtain ⟨p, -, rfl⟩ := List.mem_map.mp hr
    exact p.built.wellFormed
  have he : Endpoint.openvpn t ≠ .l2tpIpsec := by simp
  obtain ⟨hmerged, hconfigs⟩ := wellFormed_of_mem_database h hm
  have hdialled : dialledPort (parsedOf key parsed) t server.configs = dialledOf key t parsed := by
    rw [recordsOf_recordsParsed] at hconfigs
    rw [(endpointAt_normalizeServer hmerged hserver he).1]
    exact hconfigs (portFor (parsedOf key parsed) t)
  have hnamed : namedFor (.openvpn t) (remotesOf (recordsOf key (recordsParsed parsed))) =
      namedOf key t parsed := by
    rw [recordsOf_recordsParsed]
    rfl
  rw [Dials, hdialled]
  cases hname : namedOf key t parsed with
  | some named =>
    rw [port_of_named h hm hserver he (hnamed.trans hname)]
    constructor
    · intro hdials
      refine ⟨?_, ?_⟩
      · intro port hfirst named' hname'
        obtain rfl : named = named' := Option.some.inj (hname.symm.trans hname')
        exact hdials port hfirst
      · intro port _ hnone
        simp [hname] at hnone
    · intro hagree port hfirst
      exact hagree.named port hfirst named hname
  | none =>
    -- the port of the server is the one that stands, when that is valid
    have hkept : endpointAt server (.openvpn t) = validated (endpointAt m (.openvpn t)) := by
      rw [endpointAt_kept h hm hserver he (by simp [hnamed, hname])]
      exact if_neg (by simp)
    have hport : server.get (Endpoint.openvpn t).port = (validated (endpointAt m (.openvpn t))).1 :=
      congrArg Prod.fst hkept
    rw [hport]
    constructor
    · intro hdials
      refine ⟨by simp [hname], ?_⟩
      intro port hfirst _
      have hdialled := hdials port hfirst
      by_cases hp : validPort (VpnRecords.int (m.get (Endpoint.openvpn t).port))
      · have hat : validated (endpointAt m (.openvpn t)) = endpointAt m (.openvpn t) :=
          validated_of_valid hp
        rw [hat] at hdialled
        exact ⟨_, (standsAt_of_validPort h hm hp).2, hdialled⟩
      · -- an empty port is not a valid one
        have hat : validated (endpointAt m (.openvpn t)) = (.null, VpnPortSource.UNKNOWN) :=
          validated_of_not hp
        rw [hat] at hdialled
        have hvalid := validPort_of_dialledPort hfirst
        rw [← hdialled] at hvalid
        simp [validPort, VpnRecords.int] at hvalid
    · intro hagree port hfirst
      obtain ⟨value, hstands, hvalue⟩ := hagree.stands port hfirst hname
      rw [get_of_standsAt h hm (Endpoint.openvpn t).leaves.1 hstands] at hvalue
      have hvalid : validPort (VpnRecords.int (endpointAt m (.openvpn t)).1) = true := by
        rw [show VpnRecords.int (endpointAt m (.openvpn t)).1 = port from hvalue]
        exact validPort_of_dialledPort hfirst
      rw [validated_of_valid hvalid]
      exact hvalue

/-! ### A transport that is inherited -/

/-- A profile that names its transport once, for all its remotes. -/
def profile : Decoded := decode "proto tcp\nremote vpn1.opengw.net 1194\n"

/-- A row of the page whose link has a port of OpenVPN. -/
def linkedRow : Parsed where
  record := openVpnOfCell (identified "html") [("tcp", "443")] none none false "html"
  remotes := []
  built := (built_identified "html").openVpnOfCell [("tcp", "443")] none none false "html"

/-- A row of the emergency file with the profile. -/
def profiledRow : Parsed where
  record := EmergencyCsvParser.applyOpenVpnConfig (identified "emergency") profile
  remotes := profile.remotes.map fun remote => (remote, inheritedProto profile.protocols)
  built := (built_identified "emergency").applyOpenVpnConfig (by decide)

/-- A row of the mirror whose profile names the transport on the line of its remote. -/
def namedProfile : Decoded := decode "client\nremote vpn2.opengw.net 1194 tcp\n"

/-- A row of a mirror with that profile. -/
def namedRow : Parsed where
  record := EmergencyCsvParser.applyOpenVpnConfig (identified "mirrors") namedProfile
  remotes := namedProfile.remotes.map fun r => (r, inheritedProto namedProfile.protocols)
  built := (built_identified "mirrors").applyOpenVpnConfig (by decide)

theorem parsedOf_rows : parsedOf "1.2.3.4" [linkedRow, profiledRow] = [linkedRow, profiledRow] :=
  List.filter_eq_self.mpr (by decide)

/-- With a third row that names the transport on its line, the 1194 of the profile wins over the 443
    of the link. -/
theorem dials_iff_sample :
    ∃ server ∈ validateServers (mergeRecords (recordsParsed [linkedRow, profiledRow, namedRow])),
      VpnRecords.int (server.get (Endpoint.openvpn .tcp).port) = 1194 ∧
        Dials (parsedOf "1.2.3.4" [linkedRow, profiledRow, namedRow]) .tcp server := by
  have hmerged : ("1.2.3.4", [profiledRow.record, namedRow.record].foldl recursiveMerge
      linkedRow.record) ∈ database (recordsParsed [linkedRow, profiledRow, namedRow]) := by
    refine mem_database.mpr ⟨linkedRow.record, [profiledRow.record, namedRow.record], ?_, rfl⟩
    rw [recordsOf_recordsParsed]
    exact congrArg recordsParsed (List.filter_eq_self.mpr (by decide))
  have hend : (normalizeServer ([profiledRow.record, namedRow.record].foldl recursiveMerge
      linkedRow.record)).map (fun server =>
        VpnRecords.int (server.get (Endpoint.openvpn .tcp).port)) = some 1194 := by decide +kernel
  obtain ⟨server, hserver, hport⟩ := Option.map_eq_some_iff.mp hend
  have hagrees : ProfileAgrees "1.2.3.4" .tcp [linkedRow, profiledRow, namedRow] := by
    have hnamed : namedOf "1.2.3.4" .tcp [linkedRow, profiledRow, namedRow] = some 1194 := by
      decide +kernel
    have hdialled : dialledOf "1.2.3.4" .tcp [linkedRow, profiledRow, namedRow] = some 1194 := by
      decide +kernel
    constructor <;> simp [hnamed, hdialled]
  refine ⟨server, ?_, hport, (dials_iff hmerged hserver).mpr hagrees⟩
  rw [validateServers, List.mem_filterMap]
  exact ⟨_, List.mem_map_of_mem hmerged, hserver⟩

/-- The link of the page says 443 and the profile 1194, for a transport that its remote inherits.
    The line of the remote names none, so the merge keeps the port of the link. -/
theorem port_of_link_is_dialled :
    ∃ server ∈ validateServers (mergeRecords (recordsParsed [linkedRow, profiledRow])),
      server.configs = [.scalar (.remote ⟨"vpn1.opengw.net", some 1194, ""⟩)] ∧
        VpnRecords.int (server.get (Endpoint.openvpn .tcp).port) = 443 ∧
        ¬ Dials [linkedRow, profiledRow] .tcp server := by
  have hmerged : ("1.2.3.4", recursiveMerge linkedRow.record profiledRow.record) ∈
      database (recordsParsed [linkedRow, profiledRow]) := by
    refine mem_database.mpr ⟨linkedRow.record, [profiledRow.record], ?_, rfl⟩
    rw [recordsOf_recordsParsed, parsedOf_rows]
    rfl
  have hend : (normalizeServer (recursiveMerge linkedRow.record profiledRow.record)).map
      (fun server => (server.configs, VpnRecords.int (server.get (Endpoint.openvpn .tcp).port))) =
        some ([.scalar (.remote ⟨"vpn1.opengw.net", some 1194, ""⟩)], 443) := by decide +kernel
  obtain ⟨server, hserver, hat⟩ := Option.map_eq_some_iff.mp hend
  have hconfigs : server.configs = [.scalar (.remote ⟨"vpn1.opengw.net", some 1194, ""⟩)] :=
    congrArg Prod.fst hat
  have hport : VpnRecords.int (server.get (Endpoint.openvpn .tcp).port) = 443 :=
    congrArg Prod.snd hat
  refine ⟨server, ?_, hconfigs, hport, fun hdials => ?_⟩
  · rw [validateServers, List.mem_filterMap]
    exact ⟨_, List.mem_map_of_mem hmerged, hserver⟩
  · have hfirst : dialledPort [linkedRow, profiledRow] .tcp
        [.scalar (.remote ⟨"vpn1.opengw.net", some 1194, ""⟩)] = some 1194 := by decide +kernel
    rw [← hconfigs] at hfirst
    have hwrong := hdials 1194 hfirst
    rw [hport] at hwrong
    simp at hwrong

end SoftEther.Merger
