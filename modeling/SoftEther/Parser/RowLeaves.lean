import SoftEther.Parser.RowWrites

namespace SoftEther.Parser

open Lib
open SoftEther.Merger
open VpnServerRecord (fieldPaths)

/-!
# The leaves of a row's record

Outside OpenVPN every leaf of a record is decided by one column.  The profile and the columns of
OpenVPN write to the same ports, and the first one that names a port decides it.

* `rowTable`, `get_rowTable` — the leaves that one column decides;
* `profilePort` — the port that a profile names first;
* `get_openvpnPort`, `get_profile` — the ports of OpenVPN, and the profile that is kept.
-/

namespace EmergencyCsvParser

variable (p : Platform)

/-! ### What one column decides -/

/-- The leaves of OpenVPN. -/
def ofOpenvpn (path : Path) : Bool := path.take 2 = ["protocols", "openvpn"]

/-- The writes to the other leaves. -/
def rowTable (field : String → String) (hostname ip : String) : List (Path × Scalar) :=
  identityWrites p field hostname ip ++ softEtherWrites p field ++ offerWrites p field

/-- The leaves that one column each writes. -/
def tableKeys : List Path :=
  [["identity", "hostname"], ["identity", "ip"], ["performance", "score"],
    ["performance", "pingMs"], ["performance", "speedMbps"], ["identity", "countryLong"],
    ["identity", "country"], ["performance", "sessions"], ["performance", "uptimeDays"],
    ["performance", "totalUsers"], ["performance", "totalTrafficGB"], ["logging", "policy"],
    ["operator", "name"], ["operator", "message"], (Endpoint.softether .tcp).supported,
    (Endpoint.softether .tcp).port, (Endpoint.softether .tcp).portSource,
    (Endpoint.softether .udp).supported, (Endpoint.softether .udp).port,
    (Endpoint.softether .udp).portSource, Endpoint.l2tpIpsec.supported, Endpoint.sstp.supported,
    ["protocols", "sstp", "hostname"], Endpoint.sstp.port, Endpoint.sstp.portSource]

theorem rowTable_keys (field : String → String) (hostname ip : String) :
    (rowTable p field hostname ip).map Prod.fst = tableKeys := rfl

/-- Each leaf is in the table once. -/
theorem tableKeys_spec : tableKeys.Nodup ∧
    ∀ path ∈ tableKeys, path ∈ fieldPaths ∧ ofOpenvpn path = false := by
  decide

theorem ofOpenvpn_endpoint (t : Transport) : ofOpenvpn (Endpoint.openvpn t).supported = true ∧
    ∀ port, ∀ w ∈ portWrites (.openvpn t) port, ofOpenvpn w.1 = true := by
  have hleaves : ofOpenvpn (Endpoint.openvpn t).supported = true ∧
      ofOpenvpn (Endpoint.openvpn t).port = true ∧
        ofOpenvpn (Endpoint.openvpn t).portSource = true := by
    cases t <;> decide
  refine ⟨hleaves.1, fun port w hw => ?_⟩
  unfold portWrites at hw
  simp only [List.mem_cons, List.not_mem_nil, or_false] at hw
  rcases hw with rfl | rfl
  · exact hleaves.2.1
  · exact hleaves.2.2

theorem profileWrites_ofOpenvpn (info : Merger.OpenVpnConfigParser.Decoded) :
    ∀ w ∈ profileWrites info, ofOpenvpn w.1 = true := by
  intro w hw
  unfold profileWrites at hw
  split_ifs at hw
  · cases hw
  · rw [List.mem_append, List.mem_append, List.mem_flatMap, List.mem_flatMap] at hw
    rcases hw with (hw | ⟨remote, -, hw⟩) | ⟨proto, -, hw⟩
    · simp only [List.mem_cons, List.not_mem_nil, or_false] at hw
      rcases hw with rfl | rfl | rfl <;> rfl
    · unfold remoteWrites at hw
      cases htransport : transportOf remote (inheritedProto info.protocols) with
      | none =>
        rw [htransport] at hw
        cases hw
      | some t =>
        rw [htransport] at hw
        rcases List.mem_cons.mp hw with rfl | hw
        · exact (ofOpenvpn_endpoint t).1
        · exact (ofOpenvpn_endpoint t).2 _ w hw
    · unfold protocolWrites at hw
      cases hfamily : familyOf proto with
      | none =>
        rw [hfamily] at hw
        cases hw
      | some t =>
        rw [hfamily] at hw
        rw [List.mem_singleton.mp hw]
        exact (ofOpenvpn_endpoint t).1

theorem columnWrites_ofOpenvpn (t : Transport) (rawPort : String) (ws : List (Path × Scalar)) :
    ∀ w ∈ columnWrites p t rawPort ws, ofOpenvpn w.1 = true := by
  intro w hw
  unfold columnWrites at hw
  rcases List.mem_append.mp hw with hw | hw
  · exact (ofOpenvpn_endpoint t).2 _ w hw
  · rw [List.mem_singleton.mp hw]
    exact (ofOpenvpn_endpoint t).1

/-- Without the leaves of OpenVPN the writes are the table. -/
theorem filter_rowWrites (field : String → String) (hostname ip : String) :
    (rowWrites p field hostname ip).filter (fun w => !ofOpenvpn w.1) =
      rowTable p field hostname ip := by
  have hnone : ∀ ws : List (Path × Scalar), (∀ w ∈ ws, ofOpenvpn w.1 = true) →
      ws.filter (fun w => !ofOpenvpn w.1) = [] := by
    intro ws hws
    rw [List.filter_eq_nil_iff]
    intro w hw
    simp [hws w hw]
  have hall : ∀ ws : List (Path × Scalar), (∀ w ∈ ws, w ∈ rowTable p field hostname ip) →
      ws.filter (fun w => !ofOpenvpn w.1) = ws := by
    intro ws hws
    rw [List.filter_eq_self]
    intro w hw
    have hmem := List.mem_map_of_mem (f := Prod.fst) (hws w hw)
    rw [rowTable_keys] at hmem
    simp [(tableKeys_spec.2 _ hmem).2]
  unfold rowWrites rowTable
  simp only [List.filter_append]
  rw [hnone _ (profileWrites_ofOpenvpn _), hnone _ (columnWrites_ofOpenvpn p .tcp _ _),
    hnone _ (columnWrites_ofOpenvpn p .udp _ _), hall (identityWrites p field hostname ip),
    hall (softEtherWrites p field), hall (offerWrites p field)]
  · simp only [List.append_nil]
  · intro w hw
    exact List.mem_append_right _ hw
  · intro w hw
    exact List.mem_append_left _ (List.mem_append_right _ hw)
  · intro w hw
    exact List.mem_append_left _ (List.mem_append_left _ hw)

/-- **A leaf that one column decides.** -/
theorem get_rowTable {field : String → String} {hostname ip : String} {path : Path} {value : Scalar}
    (h : (path, value) ∈ rowTable p field hostname ip) :
    (record p field hostname ip).server.get path =
      if isUnset path value then Merger.newServer.get path else value := by
  have hmem := List.mem_map_of_mem (f := Prod.fst) h
  rw [rowTable_keys] at hmem
  obtain ⟨hpath, hother⟩ := tableKeys_spec.2 _ hmem
  have hnodup : ((rowTable p field hostname ip).map Prod.fst).Nodup := by
    rw [rowTable_keys]
    exact tableKeys_spec.1
  have hwritten : written isUnset
      ((rowWrites p field hostname ip).filter fun w => !ofOpenvpn w.1) path =
        written isUnset (rowWrites p field hostname ip) path :=
    written_filter (fun path => !ofOpenvpn path) _ (by simp [hother])
  rw [filter_rowWrites, written_of_mem hnodup h] at hwritten
  rw [record_written p field hostname ip hpath, valueOf, slot, ← hwritten]
  split_ifs <;> rfl

/-! ### The ports of OpenVPN -/

/-- The valid port of a remote that uses a transport. -/
def remotePort (inherited : String) (t : Transport) (remote : OpenVpnRemote) : Option ℤ :=
  if transportOf remote inherited = some t then remote.port.filter validPort else none

/-- The port that a profile names for a transport, `0` for none. -/
def profilePort (info : Merger.OpenVpnConfigParser.Decoded) (t : Transport) : ℤ :=
  if info.raw = "" then 0
  else (info.remotes.findSome? (remotePort (inheritedProto info.protocols) t)).getD 0

/-- The leaf of a port. -/
def portOf (port : ℤ) : Scalar := if 0 < port then .int port else .null

theorem validPort_pos {port : ℤ} (h : validPort port = true) : 0 < port := by
  simp only [validPort, Bool.and_eq_true, decide_eq_true_eq] at h
  omega

/-- The leaves of one transport are not those of another. -/
theorem openvpn_apart (t t' : Transport) :
    (Endpoint.openvpn t).supported ≠ (Endpoint.openvpn t').port ∧
      (Endpoint.openvpn t).portSource ≠ (Endpoint.openvpn t').port ∧
        ((Endpoint.openvpn t).port = (Endpoint.openvpn t').port ↔ t = t') := by
  cases t <;> cases t' <;> decide

theorem isUnset_openvpnPort (t : Transport) (port : ℤ) :
    isUnset (Endpoint.openvpn t).port (portOf port) = decide (port ≤ 0) := by
  unfold portOf
  split_ifs with hport
  · have hne : port ≠ 0 := by omega
    simp [isUnset, isFalsyScalar, hne, hport]
  · simp [isUnset, isFalsyScalar, not_lt.mp hport]

theorem written_portWrites (t t' : Transport) (port : ℤ) :
    written isUnset (portWrites (.openvpn t) port) (Endpoint.openvpn t').port =
      if t = t' ∧ 0 < port then some (.int port) else none := by
  obtain ⟨-, hsource, hport⟩ := openvpn_apart t t'
  have hunset := isUnset_openvpnPort t' port
  unfold portOf at hunset
  rw [portWrites, written_cons, written_cons, written_nil]
  simp only [hport, hunset, hsource, false_and, if_false, decide_eq_false_iff_not, not_le]
  by_cases hwritten : t = t' ∧ 0 < port
  · rw [if_pos hwritten, if_pos hwritten, if_pos hwritten.2]
  · rw [if_neg hwritten, if_neg hwritten]

theorem written_remoteWrites (inherited : String) (remote : OpenVpnRemote) (t : Transport) :
    written isUnset (remoteWrites inherited remote) (Endpoint.openvpn t).port =
      (remotePort inherited t remote).map .int := by
  unfold remoteWrites remotePort
  cases htransport : transportOf remote inherited with
  | none => rfl
  | some t' =>
    dsimp only
    rw [written_cons, if_neg (fun h => (openvpn_apart t' t).1 h.1), written_portWrites]
    by_cases hsame : t' = t
    · subst hsame
      cases hport : remote.port.filter validPort with
      | none => simp
      | some port =>
        have hpos := validPort_pos (Option.filter_eq_some_iff.mp hport).2
        simp [hpos]
    · rw [if_neg fun h => hsame h.1, if_neg fun h => hsame (Option.some.inj h)]
      rfl

/-- The port of a profile is the first write to its leaf. -/
theorem written_profileWrites (info : Merger.OpenVpnConfigParser.Decoded) (t : Transport) :
    written isUnset (profileWrites info) (Endpoint.openvpn t).port =
      if 0 < profilePort info t then some (.int (profilePort info t)) else none := by
  unfold profileWrites profilePort
  by_cases hraw : info.raw = ""
  · rw [if_pos hraw, if_pos hraw, if_neg (lt_irrefl 0)]
    rfl
  · have hfirst : ∀ w ∈ [((["protocols", "openvpn", "supported"] : Path), Scalar.boolean true),
        (["protocols", "openvpn", "configAvailable"], .boolean true),
        (["protocols", "openvpn", "rawConfig"], .string info.raw)],
        w.1 ≠ (Endpoint.openvpn t).port := by
      intro w hw
      simp only [List.mem_cons, List.not_mem_nil, or_false] at hw
      rcases hw with rfl | rfl | rfl <;> cases t <;> simp [Endpoint.port, Endpoint.path]
    have hprotocols : ∀ w ∈ info.protocols.flatMap protocolWrites,
        w.1 ≠ (Endpoint.openvpn t).port := by
      intro w hw
      obtain ⟨proto, -, hw⟩ := List.mem_flatMap.mp hw
      unfold protocolWrites at hw
      cases hfamily : familyOf proto with
      | none =>
        rw [hfamily] at hw
        cases hw
      | some t' =>
        rw [hfamily] at hw
        rw [List.mem_singleton.mp hw]
        exact (openvpn_apart t' t).1
    rw [if_neg hraw, if_neg hraw, written_append, written_append, written_of_ne hfirst,
      written_of_ne hprotocols, written_flatMap]
    have hmap : (info.remotes.findSome? fun remote =>
          (remotePort (inheritedProto info.protocols) t remote).map Scalar.int) =
        (info.remotes.findSome? (remotePort (inheritedProto info.protocols) t)).map .int :=
      List.map_findSome?.symm
    simp only [written_remoteWrites, Option.none_or, Option.or_none, hmap]
    cases hfound : info.remotes.findSome? (remotePort (inheritedProto info.protocols) t) with
    | none => rfl
    | some port =>
      obtain ⟨remote, -, hremote⟩ := List.exists_of_findSome?_eq_some hfound
      have hpos : 0 < port := by
        unfold remotePort at hremote
        split_ifs at hremote
        exact validPort_pos (Option.filter_eq_some_iff.mp hremote).2
      simp [hpos]

/-- A column writes its port when the writes before it left the port open. -/
theorem written_columnWrites (t t' : Transport) (rawPort : String) (ws : List (Path × Scalar)) :
    written isUnset (columnWrites p t rawPort ws) (Endpoint.openvpn t').port =
      if t = t' ∧ ¬ 0 < VpnRecords.int (valueOf ws (Endpoint.openvpn t).port) ∧
          0 < (portValue p rawPort).1 then
        some (.int (portValue p rawPort).1)
      else none := by
  have hsupported : ∀ value : Scalar, written isUnset [((Endpoint.openvpn t).supported, value)]
      (Endpoint.openvpn t').port = none := by
    intro value
    refine written_of_ne fun w hw => ?_
    rw [List.mem_singleton.mp hw]
    exact (openvpn_apart t t').1
  unfold columnWrites
  dsimp only
  rw [written_append, written_portWrites, hsupported, Option.or_none]
  by_cases hconfig : 0 < VpnRecords.int (valueOf ws (Endpoint.openvpn t).port)
  · simp [hconfig]
  · simp only [hconfig, if_false, not_false_eq_true, true_and]

/-- The table has no leaf of OpenVPN. -/
theorem written_rowTable_none {ws : List (Path × Scalar)} {field : String → String}
    {hostname ip : String} (hws : ∀ w ∈ ws, w ∈ rowTable p field hostname ip) {path : Path}
    (hpath : ofOpenvpn path = true) : written isUnset ws path = none := by
  refine written_of_ne fun w hw => ?_
  rintro rfl
  have hmem := List.mem_map_of_mem (f := Prod.fst) (hws w hw)
  rw [rowTable_keys] at hmem
  rw [(tableKeys_spec.2 _ hmem).2] at hpath
  cases hpath

/-- What the writes before the columns leave of a leaf of OpenVPN is what the profile wrote. -/
theorem written_described (field : String → String) (hostname ip : String) {path : Path}
    (hpath : ofOpenvpn path = true) :
    written isUnset (identityWrites p field hostname ip ++ profileWrites (profileOf p field) ++
      softEtherWrites p field) path = written isUnset (profileWrites (profileOf p field)) path := by
  have hidentity : ∀ w ∈ identityWrites p field hostname ip, w ∈ rowTable p field hostname ip :=
    fun w hw => List.mem_append_left _ (List.mem_append_left _ hw)
  have hsoftether : ∀ w ∈ softEtherWrites p field, w ∈ rowTable p field hostname ip :=
    fun w hw => List.mem_append_left _ (List.mem_append_right _ hw)
  rw [written_append, written_append, written_rowTable_none p hidentity hpath,
    written_rowTable_none p hsoftether hpath, Option.none_or, Option.or_none]

/-- The column of a transport. -/
def openvpnColumn : Transport → String
  | .tcp => "OpenVPN_TCP_Port"
  | .udp => "OpenVPN_UDP_Port"

theorem int_portOf (port : ℤ) : 0 < VpnRecords.int (portOf port) ↔ 0 < port := by
  unfold portOf
  split_ifs with hport
  · exact Iff.rfl
  · exact iff_of_false (lt_irrefl 0) hport

/-- The writes of both columns to the port of a transport. -/
theorem written_columns (field : String → String) {ws : List (Path × Scalar)} (t : Transport)
    {port : ℤ} (hws : valueOf ws (Endpoint.openvpn t).port = portOf port) :
    written isUnset (columnWrites p .tcp (field "OpenVPN_TCP_Port") ws ++
        columnWrites p .udp (field "OpenVPN_UDP_Port")
          (ws ++ columnWrites p .tcp (field "OpenVPN_TCP_Port") ws)) (Endpoint.openvpn t).port =
      if ¬ 0 < port ∧ 0 < (portValue p (field (openvpnColumn t))).1 then
        some (.int (portValue p (field (openvpnColumn t))).1)
      else none := by
  rw [written_append, written_columnWrites, written_columnWrites]
  cases t with
  | tcp =>
    rw [if_neg (fun h => absurd h.1 (by decide) : ¬ (Transport.udp = .tcp ∧ _)), Option.or_none,
      hws]
    exact if_congr (by simp [int_portOf, openvpnColumn]) rfl rfl
  | udp =>
    -- the column of the other transport leaves the port as it was
    have hsame : valueOf (ws ++ columnWrites p .tcp (field "OpenVPN_TCP_Port") ws)
        (Endpoint.openvpn .udp).port = portOf port := by
      rw [← hws, valueOf, valueOf, slot, slot, written_append, written_columnWrites,
        if_neg (fun h => absurd h.1 (by decide)), Option.or_none]
    rw [if_neg (fun h => absurd h.1 (by decide) : ¬ (Transport.tcp = .udp ∧ _)), Option.none_or,
      hsame]
    exact if_congr (by simp [int_portOf, openvpnColumn]) rfl rfl

/-- **The port of a transport**: the one its profile names, else the one of its column. -/
theorem get_openvpnPort (field : String → String) (hostname ip : String) (t : Transport) :
    (record p field hostname ip).server.get (Endpoint.openvpn t).port =
      portOf (if 0 < profilePort (profileOf p field) t then profilePort (profileOf p field) t
        else (portValue p (field (openvpnColumn t))).1) := by
  have hnew : Merger.newServer.get (Endpoint.openvpn t).port = .null := by cases t <;> rfl
  have hof : ofOpenvpn (Endpoint.openvpn t).port = true := by cases t <;> decide
  have hdescribed := written_described p field hostname ip hof
  rw [written_profileWrites] at hdescribed
  have hvalue : valueOf (identityWrites p field hostname ip ++ profileWrites (profileOf p field) ++
      softEtherWrites p field) (Endpoint.openvpn t).port =
        portOf (profilePort (profileOf p field) t) := by
    rw [valueOf, slot, hdescribed, hnew, portOf]
    split_ifs <;> rfl
  have hoffer : ∀ w ∈ offerWrites p field, w ∈ rowTable p field hostname ip :=
    fun w hw => List.mem_append_right _ hw
  rw [record_written p field hostname ip (openvpn_paths t).1, valueOf, slot, rowWrites,
    written_append, written_rowTable_none p hoffer hof, Option.or_none, List.append_assoc,
    written_append, hdescribed, written_columns p field t hvalue, hnew]
  by_cases hprofile : 0 < profilePort (profileOf p field) t
  · simp [hprofile, portOf]
  · simp only [hprofile, if_false, not_false_eq_true, true_and, Option.none_or, portOf]
    split_ifs <;> rfl

/-- The columns write to the leaves of their transport only. -/
theorem written_columnWrites_none (t : Transport) (rawPort : String) (ws : List (Path × Scalar))
    {path : Path} (hpath : path ∈ [(["protocols", "openvpn", "configAvailable"] : Path),
      ["protocols", "openvpn", "rawConfig"]]) :
    written isUnset (columnWrites p t rawPort ws) path = none := by
  have hleaves : ∀ t : Transport, ∀ path ∈ [(["protocols", "openvpn", "configAvailable"] : Path),
      ["protocols", "openvpn", "rawConfig"]], (Endpoint.openvpn t).port ≠ path ∧
        (Endpoint.openvpn t).portSource ≠ path ∧ (Endpoint.openvpn t).supported ≠ path := by
    intro t
    cases t <;> decide
  obtain ⟨hport, hsource, hsupported⟩ := hleaves t path hpath
  refine written_of_ne fun w hw => ?_
  unfold columnWrites portWrites at hw
  simp only [List.cons_append, List.nil_append, List.mem_cons, List.not_mem_nil, or_false] at hw
  rcases hw with rfl | rfl | rfl
  · exact hport
  · exact hsource
  · exact hsupported

/-- **The profile** that a record keeps. -/
theorem get_profile (field : String → String) (hostname ip : String) :
    (record p field hostname ip).server.get ["protocols", "openvpn", "configAvailable"] =
        .boolean ((profileOf p field).raw ≠ "") ∧
      (record p field hostname ip).server.get ["protocols", "openvpn", "rawConfig"] =
        if (profileOf p field).raw = "" then .null else .string (profileOf p field).raw := by
  have hoffer : ∀ w ∈ offerWrites p field, w ∈ rowTable p field hostname ip :=
    fun w hw => List.mem_append_right _ hw
  have hget : ∀ path ∈ [(["protocols", "openvpn", "configAvailable"] : Path),
      ["protocols", "openvpn", "rawConfig"]], (record p field hostname ip).server.get path =
        (written isUnset (profileWrites (profileOf p field)) path).getD
          (Merger.newServer.get path) := by
    intro path hpath
    have hleaf : ∀ path ∈ [(["protocols", "openvpn", "configAvailable"] : Path),
        ["protocols", "openvpn", "rawConfig"]], path ∈ fieldPaths ∧ ofOpenvpn path = true := by
      decide
    obtain ⟨hfield, hof⟩ := hleaf path hpath
    rw [record_written p field hostname ip hfield, valueOf, slot, rowWrites, written_append,
      written_rowTable_none p hoffer hof, Option.or_none, written_append,
      written_columnWrites_none p .udp _ _ hpath, Option.or_none, written_append,
      written_columnWrites_none p .tcp _ _ hpath, Option.or_none, written_described p _ _ _ hof]
  rw [hget _ (by simp), hget _ (by simp)]
  generalize profileOf p field = info
  unfold profileWrites
  by_cases hraw : info.raw = ""
  · rw [if_pos hraw, hraw]
    exact ⟨rfl, rfl⟩
  · rw [if_neg hraw, written_append, written_append, written_append, written_append]
    have havailable : written isUnset [(["protocols", "openvpn", "supported"], .boolean true),
        (["protocols", "openvpn", "configAvailable"], .boolean true),
        (["protocols", "openvpn", "rawConfig"], .string info.raw)]
          ["protocols", "openvpn", "configAvailable"] = some (.boolean true) := rfl
    have hkept : written isUnset [(["protocols", "openvpn", "supported"], .boolean true),
        (["protocols", "openvpn", "configAvailable"], .boolean true),
        (["protocols", "openvpn", "rawConfig"], .string info.raw)]
          ["protocols", "openvpn", "rawConfig"] = some (.string info.raw) := by
      simp [written_cons, isUnset, hraw, VpnPortSource.UNKNOWN]
    rw [havailable, hkept]
    simp [hraw]

end EmergencyCsvParser

end SoftEther.Parser
