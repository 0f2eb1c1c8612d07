import SoftEther.Merger.Parsers

namespace SoftEther.Merger

open Lib
open SoftEther.Security (trim lowercase)
open VpnServerRecord OpenVpnConfigParser

/-!
# The validation of merged records (`normalizeServer`)

After the merge every record is put right in one pass over its leaves, in the order of the source:
the identity, the flags that follow from others, the port that the profile dials, the ports that
are none, and the defaults of L2TP and SSTP. A record without an address is dropped.

* `enforceConfigAuthoritativePorts`, `validatePort`, …, `normalizeServer` — the source;
* `Changes` — a step that writes some leaves and leaves the others;
* `endpointAt_normalizeServer` — what becomes of a port and of its provenance.
-/

/-! ### The functions of the source -/

/-- `VpnPortSource.normalized`. -/
def normalizedPortSource : Scalar → Scalar
  | .string s =>
    let upper := String.ofList ((trim s).toList.map Char.toUpper)
    if upper = "EXPLICIT" then VpnPortSource.EXPLICIT
    else if upper = "DEFAULT" then VpnPortSource.DEFAULT
    else VpnPortSource.UNKNOWN
  | _ => VpnPortSource.UNKNOWN

/-- The text of an identity field. -/
def text : Scalar → String
  | .string s => s
  | _ => ""

/-- The host name and the address. -/
def normalizeIdentity (r : VpnServerRecord) : VpnServerRecord :=
  let r := r.put ["identity", "hostname"]
    (.string (normalizeHost (text (r.get ["identity", "hostname"]))))
  r.put ["identity", "ip"] (.string (normalizeIp (text (r.get ["identity", "ip"]))))

/-- The flags of SoftEther and OpenVPN follow from those of their transports. -/
def normalizeSupported (r : VpnServerRecord) : VpnServerRecord :=
  let supported (e : Endpoint) : Bool := VpnRecords.bool (r.get e.supported)
  let se := supported (.softether .tcp) || supported (.softether .udp)
  let ov := supported (.openvpn .tcp) || supported (.openvpn .udp) ||
    VpnRecords.bool (r.get ["protocols", "openvpn", "configAvailable"])
  (r.put ["protocols", "softether", "supported"] (.boolean se)).put
    ["protocols", "openvpn", "supported"] (.boolean ov)

/-- `remoteField(remote, "proto")`, in lower case; a remote may be a map when it was stored. -/
def remoteProto : Value → String
  | .scalar (.remote remote) => lowercase remote.proto
  | .map fields => lowercase (VpnRecords.str (LinkedMap.read fields "proto"))
  | _ => ""

/-- `toInt(remoteField(remote, "port"))`: the text of a number is that number again. -/
def remotePort : Value → ℤ
  | .scalar (.remote remote) => remote.port.getD 0
  | .map fields => VpnRecords.int (scalarOf (LinkedMap.read fields "port"))
  | _ => 0

/-- The port that a remote names on its line for a transport. -/
def namedPort (t : Transport) (remote : Value) : Option ℤ :=
  let familyMatches :=
    match t with
    | .tcp => isTcpFamily (remoteProto remote)
    | .udp => isUdpFamily (remoteProto remote)
  if familyMatches && validPort (remotePort remote) then some (remotePort remote) else none

/-- The port that the profiles name for a transport: that of the first remote that names one. -/
def configPort (t : Transport) (configs : List Value) : Option ℤ := configs.findSome? (namedPort t)

/-- One transport of `enforceConfigAuthoritativePorts`. -/
def enforceTransport (configs : List Value) (r : VpnServerRecord) (t : Transport) :
    VpnServerRecord :=
  match configPort t configs with
  | none => r
  | some port =>
    let path := (Endpoint.openvpn t).port
    let current := VpnRecords.int (r.get path)
    if current = port then r
    else
      let conflicts :=
        if validPort current then
          recordConflict r.conflicts
            ⟨path, .scalar (.int current), .scalar (.int port), "column-or-link", "config"⟩
        else r.conflicts
      let r := r.put path (.int port)
      let r := r.put (Endpoint.openvpn t).portSource VpnPortSource.EXPLICIT
      { r.put (Endpoint.openvpn t).supported (.boolean true) with conflicts := conflicts }

/-- `enforceConfigAuthoritativePorts`. -/
def enforceConfigAuthoritativePorts (r : VpnServerRecord) : VpnServerRecord :=
  [.tcp, .udp].foldl (enforceTransport r.configs) r

/-- The places of ports, in the order in which they are validated. -/
def endpoints : List Endpoint :=
  [.softether .tcp, .softether .udp, .openvpn .tcp, .openvpn .udp, .l2tpIpsec, .sstp]

/-- A port that is none loses its provenance. -/
def validatePort (r : VpnServerRecord) (e : Endpoint) : VpnServerRecord :=
  if validPort (VpnRecords.int (r.get e.port)) then r
  else (r.put e.port .null).put e.portSource VpnPortSource.UNKNOWN

/-- A host name is enough for SSTP. -/
def normalizeSstp (r : VpnServerRecord) : VpnServerRecord :=
  r.put Endpoint.sstp.supported (.boolean (VpnRecords.bool (r.get Endpoint.sstp.supported) ||
    text (r.get ["protocols", "sstp", "hostname"]) ≠ ""))

/-- L2TP has one port. -/
def defaultL2tp (r : VpnServerRecord) : VpnServerRecord :=
  if VpnRecords.bool (r.get Endpoint.l2tpIpsec.supported) then
    (r.put Endpoint.l2tpIpsec.port (.int 1701)).put Endpoint.l2tpIpsec.portSource
      VpnPortSource.DEFAULT
  else r

/-- SSTP that is there, with a port of unknown provenance, is at its default port. -/
def defaultSstp (r : VpnServerRecord) : VpnServerRecord :=
  if VpnRecords.bool (r.get Endpoint.sstp.supported) ∧
      normalizedPortSource (r.get Endpoint.sstp.portSource) = VpnPortSource.UNKNOWN then
    r.put Endpoint.sstp.portSource VpnPortSource.DEFAULT
  else r

/-- `num(value) < 0`, of a number. -/
def isNegative : Scalar → Bool
  | .int n => n < 0
  | .double bits =>
    -- the sign is set, and the rest is neither zero nor more than infinity
    bits.msb && bits ≠ 0x8000000000000000#64 && bits.toNat ≤ 0xFFF0000000000000
  | _ => false

/-- A figure is not negative. -/
def clampPerformance (r : VpnServerRecord) (field : String) : VpnServerRecord :=
  if isNegative (r.get ["performance", field]) then r.put ["performance", field] (.double 0) else r

/-- `normalizeServer`; nothing when the record must be dropped. -/
def normalizeServer (server : VpnServerRecord) : Option VpnServerRecord :=
  let r := normalizeIdentity server
  if validIp (text (r.get ["identity", "ip"])) then
    let r := enforceConfigAuthoritativePorts (normalizeSupported r)
    let r := defaultSstp (defaultL2tp (normalizeSstp (endpoints.foldl validatePort r)))
    some (["uptimeDays", "speedMbps"].foldl clampPerformance r)
  else none

/-- `validateServers`. -/
def validateServers (servers : List VpnServerRecord) : List VpnServerRecord :=
  servers.filterMap normalizeServer

/-! ### What a step changes -/

/-- **A step that writes some leaves**: the others stay, and the remotes. -/
structure Changes (paths : List Path) (r r' : VpnServerRecord) : Prop where
  wellFormed : r'.WellFormed
  same : ∀ path ∈ fieldPaths, path ∉ paths → r'.get path = r.get path
  configs : r'.configs = r.configs

variable {r r' r'' : VpnServerRecord} {paths paths' : List Path} {path : Path}

theorem Changes.refl (h : r.WellFormed) (paths : List Path) : Changes paths r r :=
  ⟨h, fun _ _ _ => rfl, rfl⟩

theorem Changes.put (h : r.WellFormed) (hpath : path ∈ fieldPaths) (value : Scalar)
    (hvalue : fits path value = true) : Changes [path] r (r.put path value) where
  wellFormed := h.put (fieldPaths_leaf path hpath).1 hvalue
  same := by
    intro path' hpath' hne
    rw [h.get_put hpath hpath', if_neg (by simpa using hne)]
  configs := by
    rw [VpnServerRecord.configs, (h.configs_put (fieldPaths_leaf path hpath).1 value).2]
    rfl

theorem Changes.trans (h : Changes paths r r') (h' : Changes paths' r' r'') :
    Changes (paths ++ paths') r r'' where
  wellFormed := h'.wellFormed
  same := by
    intro path hpath hne
    rw [List.mem_append, not_or] at hne
    rw [h'.same path hpath hne.2, h.same path hpath hne.1]
  configs := h'.configs.trans h.configs

/-- Conflicts are no leaves. -/
theorem Changes.conflicts (h : Changes paths r r') (conflicts : List Conflict) :
    Changes paths r { r' with conflicts := conflicts } where
  wellFormed := by
    refine ⟨fun l hl => ?_, h.wellFormed.fits, h.wellFormed.walkable, h.wellFormed.list⟩
    obtain ⟨hmerged, hwalk, hscalar, hkeyed, halone⟩ := h.wellFormed.leaves l hl
    exact ⟨hmerged, hwalk, hscalar, hkeyed, halone⟩
  same := h.same
  configs := h.configs

/-! #### The leaves of the endpoints -/

theorem Endpoint.leaves (e : Endpoint) :
    e.port ∈ fieldPaths ∧ e.portSource ∈ fieldPaths ∧ e.supported ∈ fieldPaths := by
  cases e with
  | softether t => cases t <;> decide
  | openvpn t => cases t <;> decide
  | l2tpIpsec => decide
  | sstp => decide

theorem Endpoint.fits (e : Endpoint) (port : ℤ) (b : Bool) :
    fits e.port .null = true ∧ fits e.port (.int port) = true ∧
      fits e.portSource VpnPortSource.EXPLICIT = true ∧
      fits e.portSource VpnPortSource.DEFAULT = true ∧
      fits e.portSource VpnPortSource.UNKNOWN = true ∧ fits e.supported (.boolean b) = true := by
  have hlast : e.port.getLast? = some "port" ∧ e.portSource.getLast? = some "portSource" ∧
      e.supported.getLast? = some "supported" := by
    simp [Endpoint.port, Endpoint.portSource, Endpoint.supported]
  obtain ⟨hport, hsource, hsupported⟩ := hlast
  unfold Merger.fits
  rw [hport, hsource, hsupported]
  simp

/-- Endpoints are at different paths. -/
theorem Endpoint.path_inj {e e' : Endpoint} (h : e.path = e'.path) : e = e' := by
  cases e <;> cases e' <;> simp_all [Endpoint.path]
  all_goals
    rename_i t t'
    cases t <;> cases t' <;> simp_all [Transport.name]

theorem Endpoint.port_inj {e e' : Endpoint} (h : e.port = e'.port) : e = e' :=
  Endpoint.path_inj (List.append_cancel_right h)

theorem Endpoint.portSource_inj {e e' : Endpoint} (h : e.portSource = e'.portSource) : e = e' :=
  Endpoint.path_inj (List.append_cancel_right h)

/-- The three leaves of endpoints are told apart by their last key. -/
theorem Endpoint.leaves_ne (e e' : Endpoint) :
    e.port ≠ e'.portSource ∧ e.port ≠ e'.supported ∧ e.portSource ≠ e'.supported := by
  refine ⟨?_, ?_, ?_⟩ <;>
  · intro h
    have hlast := congrArg List.getLast? h
    simp [Endpoint.port, Endpoint.portSource, Endpoint.supported] at hlast

/-! ### What becomes of a port -/

/-- The port of an endpoint, with its provenance. -/
def endpointAt (r : VpnServerRecord) (e : Endpoint) : Scalar × Scalar :=
  (r.get e.port, r.get e.portSource)

/-- A step that does not write the leaves of an endpoint leaves it. -/
theorem Changes.endpointAt (h : Changes paths r r') {e : Endpoint} (hport : e.port ∉ paths)
    (hsource : e.portSource ∉ paths) : Merger.endpointAt r' e = Merger.endpointAt r e := by
  unfold Merger.endpointAt
  rw [h.same _ e.leaves.1 hport, h.same _ e.leaves.2.1 hsource]

/-- Both leaves of an endpoint are written. -/
theorem putEndpoint (h : r.WellFormed) (e e' : Endpoint) {port portSource : Scalar}
    (hport : fits e.port port = true) (hsource : fits e.portSource portSource = true) :
    Changes [e.port, e.portSource] r ((r.put e.port port).put e.portSource portSource) ∧
      endpointAt ((r.put e.port port).put e.portSource portSource) e' =
        if e' = e then (port, portSource) else endpointAt r e' := by
  have hfirst := Changes.put h e.leaves.1 port hport
  have hsecond := Changes.put hfirst.wellFormed e.leaves.2.1 portSource hsource
  refine ⟨hfirst.trans hsecond, ?_⟩
  by_cases hsame : e' = e
  · subst hsame
    rw [if_pos rfl, endpointAt, hfirst.wellFormed.get_put e'.leaves.2.1 e'.leaves.1,
      if_neg (e'.leaves_ne e').1, h.get_put e'.leaves.1 e'.leaves.1, if_pos rfl,
      hfirst.wellFormed.get_put e'.leaves.2.1 e'.leaves.2.1, if_pos rfl]
  · rw [if_neg hsame]
    refine (hfirst.trans hsecond).endpointAt ?_ ?_
    · simp [mt Endpoint.port_inj hsame, (e'.leaves_ne e).1]
    · simp [mt Endpoint.portSource_inj hsame, Ne.symm (e.leaves_ne e').1]

/-- What the profiles make of the port of an endpoint and of its provenance. -/
def enforced (configs : List Value) : Endpoint → Scalar × Scalar → Scalar × Scalar
  | .openvpn t, at' =>
    match configPort t configs with
    | none => at'
    | some port => if VpnRecords.int at'.1 = port then at' else (.int port, VpnPortSource.EXPLICIT)
  | _, at' => at'

/-- One transport takes the port that the profiles name. -/
theorem endpointAt_enforceTransport (h : r.WellFormed) (configs : List Value) (t : Transport)
    (e : Endpoint) :
    Changes [(Endpoint.openvpn t).port, (Endpoint.openvpn t).portSource,
        (Endpoint.openvpn t).supported] r (enforceTransport configs r t) ∧
      endpointAt (enforceTransport configs r t) e =
        if e = .openvpn t then enforced configs e (endpointAt r e) else endpointAt r e := by
  unfold enforceTransport
  cases hport : configPort t configs with
  | none =>
    refine ⟨.refl h _, ?_⟩
    split_ifs with he
    · rw [he, enforced, hport]
    · rfl
  | some port =>
    dsimp only
    by_cases hcurrent : VpnRecords.int (r.get (Endpoint.openvpn t).port) = port
    · rw [if_pos hcurrent]
      refine ⟨.refl h _, ?_⟩
      split_ifs with he
      · rw [he, enforced, hport]
        exact (if_pos hcurrent).symm
      · rfl
    · rw [if_neg hcurrent]
      have hfits := (Endpoint.openvpn t).fits port true
      obtain ⟨hboth, hread⟩ := putEndpoint h (.openvpn t) e hfits.2.1 hfits.2.2.1
      have hsupported := Changes.put hboth.wellFormed (Endpoint.openvpn t).leaves.2.2
        (.boolean true) hfits.2.2.2.2.2
      refine ⟨(hboth.trans hsupported).conflicts _, ?_⟩
      have hlast : endpointAt (((r.put (Endpoint.openvpn t).port (.int port)).put
          (Endpoint.openvpn t).portSource VpnPortSource.EXPLICIT).put
            (Endpoint.openvpn t).supported (.boolean true)) e =
          if e = .openvpn t then (.int port, VpnPortSource.EXPLICIT) else endpointAt r e := by
        rw [hsupported.endpointAt, hread]
        · simp [(e.leaves_ne (.openvpn t)).2.1]
        · simp [(e.leaves_ne (.openvpn t)).2.2]
      refine hlast.trans ?_
      split_ifs with he
      · rw [he, enforced, hport]
        exact (if_neg hcurrent).symm
      · rfl

/-- The leaves that the profiles may change. -/
def enforcedPaths : List Path :=
  [.tcp, .udp].flatMap fun t =>
    [(Endpoint.openvpn t).port, (Endpoint.openvpn t).portSource, (Endpoint.openvpn t).supported]

/-- **Both transports take the ports that the profiles name.** -/
theorem endpointAt_enforce (h : r.WellFormed) (e : Endpoint) :
    Changes enforcedPaths r (enforceConfigAuthoritativePorts r) ∧
      endpointAt (enforceConfigAuthoritativePorts r) e = enforced r.configs e (endpointAt r e) := by
  obtain ⟨hfirst, hreadFirst⟩ := endpointAt_enforceTransport h r.configs .tcp e
  obtain ⟨hsecond, hreadSecond⟩ :=
    endpointAt_enforceTransport hfirst.wellFormed r.configs .udp e
  refine ⟨hfirst.trans hsecond, hreadSecond.trans ?_⟩
  rw [hreadFirst]
  match e with
  | .openvpn .tcp => rfl
  | .openvpn .udp => rfl
  | .softether _ => rfl
  | .l2tpIpsec => rfl
  | .sstp => rfl

/-- What the validation makes of a port and its provenance. -/
def validated (at' : Scalar × Scalar) : Scalar × Scalar :=
  if validPort (VpnRecords.int at'.1) then at' else (.null, VpnPortSource.UNKNOWN)

theorem validated_of_valid {at' : Scalar × Scalar} (h : validPort (VpnRecords.int at'.1) = true) :
    validated at' = at' :=
  if_pos h

theorem validated_of_not {at' : Scalar × Scalar} (h : ¬ validPort (VpnRecords.int at'.1) = true) :
    validated at' = (.null, VpnPortSource.UNKNOWN) :=
  if_neg h

@[simp] theorem validated_validated (at' : Scalar × Scalar) :
    validated (validated at') = validated at' := by
  by_cases h : validPort (VpnRecords.int at'.1)
  · rw [validated_of_valid h, validated_of_valid h]
  · rw [validated_of_not h]
    rfl

theorem endpointAt_validatePort (h : r.WellFormed) (e e' : Endpoint) :
    Changes [e.port, e.portSource] r (validatePort r e) ∧
      endpointAt (validatePort r e) e' =
        if e' = e then validated (endpointAt r e') else endpointAt r e' := by
  unfold validatePort
  by_cases hvalid : validPort (VpnRecords.int (r.get e.port))
  · rw [if_pos hvalid]
    refine ⟨.refl h _, ?_⟩
    split_ifs with he
    · rw [he]
      exact (validated_of_valid hvalid).symm
    · rfl
  · rw [if_neg hvalid]
    have hfits := e.fits 0 true
    obtain ⟨hboth, hread⟩ := putEndpoint h e e' hfits.1 hfits.2.2.2.2.1
    refine ⟨hboth, hread.trans ?_⟩
    split_ifs with he
    · rw [he]
      exact (validated_of_not hvalid).symm
    · rfl

/-- **Every endpoint is validated**, and nothing else changes. -/
theorem endpointAt_foldl_validatePort (h : r.WellFormed) (es : List Endpoint) (e : Endpoint) :
    Changes (es.flatMap fun e => [e.port, e.portSource]) r (es.foldl validatePort r) ∧
      endpointAt (es.foldl validatePort r) e =
        if e ∈ es then validated (endpointAt r e) else endpointAt r e := by
  induction es generalizing r with
  | nil => exact ⟨.refl h _, rfl⟩
  | cons e' es ih =>
    obtain ⟨hfirst, hread⟩ := endpointAt_validatePort h e' e
    obtain ⟨hrest, hreadRest⟩ := ih hfirst.wellFormed
    refine ⟨hfirst.trans hrest, hreadRest.trans ?_⟩
    rw [hread]
    by_cases he : e = e'
    · simp [he]
    · simp [he]

/-! ### The other steps -/

theorem identity_changes (h : r.WellFormed) :
    Changes [["identity", "hostname"], ["identity", "ip"]] r (normalizeIdentity r) := by
  have hhost := Changes.put h (by decide : ["identity", "hostname"] ∈ fieldPaths)
    (.string (normalizeHost (text (r.get ["identity", "hostname"])))) rfl
  exact hhost.trans (Changes.put hhost.wellFormed (by decide) (.string _) rfl)

theorem supported_changes (h : r.WellFormed) :
    Changes [["protocols", "softether", "supported"], ["protocols", "openvpn", "supported"]] r
      (normalizeSupported r) := by
  have hse := Changes.put h
    (by decide : ["protocols", "softether", "supported"] ∈ fieldPaths)
    (.boolean (VpnRecords.bool (r.get (Endpoint.softether .tcp).supported) ||
      VpnRecords.bool (r.get (Endpoint.softether .udp).supported))) rfl
  exact hse.trans (Changes.put hse.wellFormed (by decide) (.boolean _) rfl)

/-- The flag of SSTP follows from the host name. -/
theorem sstp_changes (h : r.WellFormed) :
    Changes [Endpoint.sstp.supported] r (normalizeSstp r) ∧
      (normalizeSstp r).get Endpoint.sstp.supported = .boolean
        (VpnRecords.bool (r.get Endpoint.sstp.supported) ||
          text (r.get ["protocols", "sstp", "hostname"]) ≠ "") := by
  refine ⟨Changes.put h Endpoint.sstp.leaves.2.2 _ rfl, ?_⟩
  rw [normalizeSstp, h.get_put Endpoint.sstp.leaves.2.2 Endpoint.sstp.leaves.2.2, if_pos rfl]

theorem l2tp_changes (h : r.WellFormed) :
    Changes [Endpoint.l2tpIpsec.port, Endpoint.l2tpIpsec.portSource] r (defaultL2tp r) := by
  unfold defaultL2tp
  split_ifs
  · exact (putEndpoint h .l2tpIpsec .l2tpIpsec rfl rfl).1
  · exact .refl h _

/-- The default of SSTP is for a provenance that is not known. -/
theorem endpointAt_defaultSstp (h : r.WellFormed) (e : Endpoint) :
    Changes [Endpoint.sstp.portSource] r (defaultSstp r) ∧
      endpointAt (defaultSstp r) e =
        if e = .sstp ∧ VpnRecords.bool (r.get Endpoint.sstp.supported) ∧
            normalizedPortSource (endpointAt r e).2 = VpnPortSource.UNKNOWN then
          ((endpointAt r e).1, VpnPortSource.DEFAULT)
        else endpointAt r e := by
  unfold defaultSstp
  by_cases hdefault : VpnRecords.bool (r.get Endpoint.sstp.supported) ∧
      normalizedPortSource (r.get Endpoint.sstp.portSource) = VpnPortSource.UNKNOWN
  · rw [if_pos hdefault]
    have hput := Changes.put h Endpoint.sstp.leaves.2.1 VpnPortSource.DEFAULT rfl
    refine ⟨hput, ?_⟩
    by_cases he : e = .sstp
    · subst he
      rw [if_pos ⟨rfl, hdefault⟩, endpointAt, hput.same _ Endpoint.sstp.leaves.1 (by decide),
        h.get_put Endpoint.sstp.leaves.2.1 Endpoint.sstp.leaves.2.1, if_pos rfl]
      rfl
    · rw [if_neg fun hboth => he hboth.1]
      refine hput.endpointAt ?_ ?_
      · simp [(e.leaves_ne .sstp).1]
      · simp [mt Endpoint.portSource_inj he]
  · rw [if_neg hdefault]
    refine ⟨.refl h _, ?_⟩
    by_cases he : e = .sstp
    · subst he
      exact (if_neg fun hboth => hdefault hboth.2).symm
    · exact (if_neg fun hboth => he hboth.1).symm

theorem performance_changes (h : r.WellFormed) :
    Changes [["performance", "uptimeDays"], ["performance", "speedMbps"]] r
      (["uptimeDays", "speedMbps"].foldl clampPerformance r) := by
  have hone : ∀ {r : VpnServerRecord} (field : String), r.WellFormed →
      ["performance", field] ∈ fieldPaths → fits ["performance", field] (.double 0) = true →
      Changes [["performance", field]] r (clampPerformance r field) := by
    intro r field h hfield hfits
    unfold clampPerformance
    split_ifs
    · exact Changes.put h hfield _ hfits
    · exact .refl h _
  have huptime := hone "uptimeDays" h (by decide) rfl
  exact huptime.trans (hone "speedMbps" huptime.wellFormed (by decide) rfl)

/-! ### The whole validation -/

/-- The record offers SSTP: it says so, or names a host for it. -/
def offersSstp (r : VpnServerRecord) : Bool :=
  VpnRecords.bool (r.get Endpoint.sstp.supported) ||
    text (r.get ["protocols", "sstp", "hostname"]) ≠ ""

/-- The default provenance of an endpoint. -/
def defaulted (offered : Bool) (e : Endpoint) (at' : Scalar × Scalar) : Scalar × Scalar :=
  if e = .sstp ∧ offered ∧ normalizedPortSource at'.2 = VpnPortSource.UNKNOWN then
    (at'.1, VpnPortSource.DEFAULT)
  else at'

/-- The leaves that belong to no endpoint, as they are written. -/
def plainPaths : List Path :=
  [["identity", "hostname"], ["identity", "ip"]] ++
    [["protocols", "softether", "supported"], ["protocols", "openvpn", "supported"]] ++
    [["performance", "uptimeDays"], ["performance", "speedMbps"]]

theorem Endpoint.notMem_plainPaths (e : Endpoint) :
    e.port ∉ plainPaths ∧ e.portSource ∉ plainPaths := by
  cases e with
  | softether t => cases t <;> decide
  | openvpn t => cases t <;> decide
  | l2tpIpsec => decide
  | sstp => decide

/-- **A port and its provenance after the validation**: those that the merge left, or that the
    profiles name instead, if this is a port; and for SSTP the default provenance. -/
theorem endpointAt_normalizeServer (h : r.WellFormed) (hnormal : normalizeServer r = some r')
    {e : Endpoint} (he : e ≠ .l2tpIpsec) :
    r'.configs = r.configs ∧ endpointAt r' e =
      defaulted (offersSstp r) e (validated (enforced r.configs e (endpointAt r e))) := by
  unfold normalizeServer at hnormal
  dsimp only at hnormal
  split_ifs at hnormal
  obtain rfl := Option.some.inj hnormal
  have hidentity := identity_changes h
  have hsupported := supported_changes hidentity.wellFormed
  have hbefore := hidentity.trans hsupported
  obtain ⟨henforced, hreadEnforced⟩ := endpointAt_enforce hsupported.wellFormed e
  obtain ⟨hvalid, hreadValid⟩ := endpointAt_foldl_validatePort henforced.wellFormed endpoints e
  obtain ⟨hsstp, hflag⟩ := sstp_changes hvalid.wellFormed
  have hl2tp := l2tp_changes hsstp.wellFormed
  obtain ⟨hdefault, hreadDefault⟩ := endpointAt_defaultSstp hl2tp.wellFormed e
  have hperformance := performance_changes hdefault.wellFormed
  have hall := ((((hbefore.trans henforced).trans hvalid).trans hsstp).trans hl2tp).trans
    (hdefault.trans hperformance)
  refine ⟨hall.configs, ?_⟩
  have hflags : ∀ path ∈ [Endpoint.sstp.supported, ["protocols", "sstp", "hostname"]],
      path ∈ fieldPaths ∧ path ∉ [["identity", "hostname"], ["identity", "ip"]] ++
        [["protocols", "softether", "supported"], ["protocols", "openvpn", "supported"]] ∧
      path ∉ enforcedPaths ∧ path ∉ endpoints.flatMap fun e => [e.port, e.portSource] := by
    decide
  -- what SSTP says of itself is untouched until its flag is written
  have hkept : ∀ path ∈ [Endpoint.sstp.supported, ["protocols", "sstp", "hostname"]],
      (endpoints.foldl validatePort (enforceConfigAuthoritativePorts
        (normalizeSupported (normalizeIdentity r)))).get path = r.get path := by
    intro path hpath
    obtain ⟨hfield, hplain, hdialled, hports⟩ := hflags path hpath
    rw [hvalid.same path hfield hports, henforced.same path hfield hdialled,
      hbefore.same path hfield hplain]
  have hoffers : VpnRecords.bool ((defaultL2tp (normalizeSstp (endpoints.foldl validatePort
      (enforceConfigAuthoritativePorts (normalizeSupported (normalizeIdentity r)))))).get
        Endpoint.sstp.supported) = offersSstp r := by
    rw [hl2tp.same _ Endpoint.sstp.leaves.2.2 (by decide), hflag,
      hkept _ (by simp), hkept _ (by simp)]
    rfl
  have hmem : e ∈ endpoints := by
    cases e with
    | softether t => cases t <;> decide
    | openvpn t => cases t <;> decide
    | l2tpIpsec => decide
    | sstp => decide
  obtain ⟨hport, hsource⟩ := e.notMem_plainPaths
  simp only [plainPaths, List.mem_append, not_or] at hport hsource
  have hstart : endpointAt (enforceConfigAuthoritativePorts (normalizeSupported
      (normalizeIdentity r))) e = enforced r.configs e (endpointAt r e) := by
    rw [hreadEnforced, hsupported.configs, hidentity.configs,
      hsupported.endpointAt hport.1.2 hsource.1.2, hidentity.endpointAt hport.1.1 hsource.1.1]
  have hend : endpointAt (defaultL2tp (normalizeSstp (endpoints.foldl validatePort
      (enforceConfigAuthoritativePorts (normalizeSupported (normalizeIdentity r)))))) e =
        validated (enforced r.configs e (endpointAt r e)) := by
    rw [hl2tp.endpointAt (by simp [mt Endpoint.port_inj he, (e.leaves_ne .l2tpIpsec).1])
        (by simp [mt Endpoint.portSource_inj he, Ne.symm (Endpoint.l2tpIpsec.leaves_ne e).1]),
      hsstp.endpointAt (by simp [(e.leaves_ne .sstp).2.1]) (by simp [(e.leaves_ne .sstp).2.2]),
      hreadValid, if_pos hmem, hstart]
  rw [hperformance.endpointAt hport.2 hsource.2, hreadDefault, hoffers, hend]
  rfl

end SoftEther.Merger
