import SoftEther.Publisher.File
import SoftEther.Publisher.Merge

namespace SoftEther.Publisher

open Std SoftEther.Lib

/-!
# Stages 1 to 4 of a run

What the run hands to `prune`. The files and the servers of the network are what they answer: the
previous file, the rows of the two sources, and for each endpoint that is probed whether it
accepts. In stage 2 two rows may have one endpoint, so its outcomes are by position; in stage 4
the addresses are distinct.

* `isPublicIpv4`, `tcpEndpoint`, `checkEntry` — what decides about a row;
* `Input`, `loadPrevious`, `merged`, `handed`, `run` — the run;
* `Reachable` — a public address and a healthy endpoint;
* `mem_handed` — the rows handed over are the reachable ones that the collapse keeps;
* `run_keepsNames_iff` — when a name with a reachable row keeps a healthy row.
-/

/-! ### Addresses and endpoints -/

/-- The octet of `ipaddress.IPv4Address`, without leading zeros. -/
def octet (part : Text) : Option ℕ :=
  let n := Nat.ofDigitChars 10 part 0
  if 1 ≤ part.length ∧ part.length ≤ 3 ∧ part.all Char.isDigit ∧
      (part.length = 1 ∨ part.head? ≠ some '0') ∧ n ≤ 255 then some n
  else none

/-- `ipaddress.IPv4Address`. -/
def ipv4Number (ip : Text) : Option ℕ :=
  match (ip.splitOn '.').map octet with
  | [some a, some b, some c, some d] => some (((a * 256 + b) * 256 + c) * 256 + d)
  | _ => none

/-- A network: four octets and the length of its prefix. -/
structure Network where
  octets : ℕ × ℕ × ℕ × ℕ
  bits : ℕ

/-- An address of the network. -/
def Network.contains (n : Network) (address : ℕ) : Bool :=
  let (a, b, c, d) := n.octets
  address / 2 ^ (32 - n.bits) = (((a * 256 + b) * 256 + c) * 256 + d) / 2 ^ (32 - n.bits)

/-- The networks of `is_private`. -/
def PRIVATE_NETWORKS : List Network :=
  [⟨(0, 0, 0, 0), 8⟩, ⟨(10, 0, 0, 0), 8⟩, ⟨(127, 0, 0, 0), 8⟩, ⟨(169, 254, 0, 0), 16⟩,
    ⟨(172, 16, 0, 0), 12⟩, ⟨(192, 0, 0, 0), 24⟩, ⟨(192, 0, 0, 170), 31⟩, ⟨(192, 0, 2, 0), 24⟩,
    ⟨(192, 168, 0, 0), 16⟩, ⟨(198, 18, 0, 0), 15⟩, ⟨(198, 51, 100, 0), 24⟩,
    ⟨(203, 0, 113, 0), 24⟩, ⟨(240, 0, 0, 0), 4⟩, ⟨(255, 255, 255, 255), 32⟩]

/-- The addresses among them that `is_private` leaves out. -/
def PRIVATE_EXCEPTIONS : List Network := [⟨(192, 0, 0, 9), 32⟩, ⟨(192, 0, 0, 10), 32⟩]

/-- `is_public_ipv4`: multicast and reserved space, the unspecified address, and what is
link-local, loopback, private or shared is not public. -/
def isPublicIpv4 (ip : Text) : Bool :=
  match ipv4Number ip with
  | none => false
  | some n =>
    let isPrivate := PRIVATE_NETWORKS.any (·.contains n) && !PRIVATE_EXCEPTIONS.any (·.contains n)
    !(Network.contains ⟨(224, 0, 0, 0), 4⟩ n || Network.contains ⟨(240, 0, 0, 0), 4⟩ n || n = 0 ||
      Network.contains ⟨(169, 254, 0, 0), 16⟩ n || Network.contains ⟨(127, 0, 0, 0), 8⟩ n ||
      isPrivate) && !(Network.contains ⟨(100, 64, 0, 0), 10⟩ n)

/-- `tcp_endpoint`. -/
def tcpEndpoint (row : Row) : Option Endpoint :=
  match [PortColumn.SE_TCP_Port, .OpenVPN_TCP_Port, .SSTP_Port].find? (0 < row.port ·) with
  | some c => some (row.text .IP, row.port c)
  | none => if row.flag .SSTP_Supported then some (row.text .IP, 443) else none

/-- `health_check`, of a row; `answers` when a probe of its endpoint would succeed. -/
def checkEntry (skipHealthCheck : Bool) (answers : Endpoint → Bool) (e : Entry) : Entry :=
  match tcpEndpoint e.row with
  | none => { e with healthy := some false, reason := some "no_tcp_endpoint" }
  | some ep =>
    if e.probed = some ep ∧ e.healthy.isSome then e
    else if skipHealthCheck then
      { e with healthy := some true, reason := some "skipped", probed := some ep }
    else
      { e with
        healthy := some (answers ep)
        reason := some (if answers ep then "ok" else "tcp_connect_failed")
        probed := some ep }

/-- `r["LastSeenAt"] = started` for a healthy row. -/
def stamp (started : ℤ) (e : Entry) : Entry :=
  if e.healthy = some true then
    { e with row := { e.row with int := Function.update e.row.int .LastSeenAt (some started) } }
  else e

/-! ### The run -/

/-- The arguments that stages 1 to 4 read. -/
structure Args where
  skipHealthCheck : Bool
  minPreviousForRatio : ℕ
  /-- `previous_healthy / len(previous) < min_healthy_ratio`. -/
  belowRatio : ℕ → ℕ → Bool
  force : Bool

/-- **What a run finds**: the previous file, what the two sources have, and the servers. -/
structure Input where
  args : Args
  started : ℤ
  previousFile : Option Text
  apiRows : List Row
  htmlRows : List Row
  /-- Whether the endpoint of a previous row answers in stage 2. -/
  answersFirst : ℕ → Bool
  /-- Whether an endpoint answers in stage 4. -/
  answersSecond : Endpoint → Bool

/-- How a run ends early. -/
inductive Failure
  | csvError
  | publisherError (message : String)

variable (py : Python)

/-- `load_previous`, of the decoded body. -/
def loadPrevious (body : Option Text) : Except Failure (List Row) :=
  match body with
  | none => .ok []
  | some text =>
    match parseEmergencyCsv py text with
    | none => .error .csvError
    | some result => .ok (if result.malformedReason = none then result.rows else [])

namespace Input

variable (input : Input)

/-- Stage 2: the previous rows, probed. -/
def probed (previous : List Row) : List Entry :=
  (previous.map (Entry.ofRow false)).mapIdx fun i e =>
    checkEntry input.args.skipHealthCheck (fun _ => input.answersFirst i) e

/-- Stage 3. -/
def fresh : List Entry :=
  mergeFresh (input.apiRows.map (Entry.ofRow false)) (input.htmlRows.map (Entry.ofRow true))

/-- The first line of stage 4. -/
def merged (previous : List Row) : List Entry :=
  mergeWithPrevious ((input.probed previous).map (stamp input.started)) input.fresh

/-- The health check of stage 4. -/
def check (e : Entry) : Entry := checkEntry input.args.skipHealthCheck input.answersSecond e

/-- The rest of stage 4: the healthy rows, which go to `prune`. -/
def handed (previous : List Row) : List Entry :=
  let rows := ((input.merged previous).filter (·.isAccepted py)).map (·.prepare py)
  let rows := (dedupeHostnames py rows).filter (isPublicIpv4 ·.ip)
  ((rows.map input.check).map (stamp input.started)).filter (·.healthy = some true)

/-- `run`, up to the call of `prune`. -/
def run : Except Failure (List Entry) := do
  let previous ← loadPrevious py input.previousFile
  let healthy := (input.probed previous).countP (·.healthy = some true)
  if input.args.minPreviousForRatio ≤ previous.length ∧ !input.args.skipHealthCheck ∧
      input.args.belowRatio healthy previous.length ∧ !input.args.force then
    .error (.publisherError ("Only " ++ toString healthy ++ "/" ++ toString previous.length ++
      " previous servers passed the health check - this runner's network is probably the " ++
      "problem. Nothing was changed. Re-run elsewhere or pass --force."))
  else if input.fresh = [] ∧ previous = [] then
    .error (.publisherError
      "No data from any source and no previous file: nothing to publish.")
  else .ok (input.handed py previous)

end Input

/-! ### What a probe leaves as it is -/

variable {py}

@[simp] theorem checkEntry_row (skip : Bool) (answers : Endpoint → Bool) (e : Entry) :
    (checkEntry skip answers e).row = e.row := by
  unfold checkEntry
  split
  · rfl
  · split_ifs <;> rfl

@[simp] theorem stamp_text (started : ℤ) (e : Entry) : (stamp started e).row.text = e.row.text := by
  unfold stamp
  split_ifs <;> rfl

@[simp] theorem stamp_healthy (started : ℤ) (e : Entry) :
    (stamp started e).healthy = e.healthy := by
  unfold stamp
  split_ifs <;> rfl

/-- The texts of a row decide its names. -/
theorem hostKey_congr {a b : Entry} (h : a.row.text = b.row.text) :
    a.hostKey py = b.hostKey py := by
  rw [Entry.hostKey, Entry.hostKey, Entry.hostName, Entry.hostName, h]

theorem named_congr {a b : Entry} (h : a.row.text = b.row.text) : a.Named py ↔ b.Named py := by
  rw [Entry.Named, Entry.Named, Entry.ip, Entry.ip, Entry.hostName, Entry.hostName, h]

/-! ### The rows of a run -/

/-- The rows of a file are rows of `sanitize_row`. -/
theorem loadPrevious_sanitized {body : Option Text} {previous : List Row}
    (h : loadPrevious py body = .ok previous) : ∀ row ∈ previous, Sanitized py row := by
  intro row hrow
  unfold loadPrevious at h
  cases body with
  | none =>
    cases h
    exact absurd hrow List.not_mem_nil
  | some text =>
    dsimp only at h
    cases hparse : parseEmergencyCsv py text with
    | none =>
      rw [hparse] at h
      cases h
    | some result =>
      rw [hparse] at h
      cases h
      split_ifs at hrow
      · obtain ⟨raw, hraw⟩ := parseEmergencyCsv_sanitized hparse hrow
        exact sanitizeRow_sanitized hraw
      · exact absurd hrow List.not_mem_nil

namespace Input

variable {input : Input}

variable (input py) in
/-- The rows of the sources are rows of `sanitize_row`. -/
def Sanitary : Prop :=
  (∀ row ∈ input.apiRows, ∃ raw, sanitizeRow py raw = some row) ∧
    ∀ row ∈ input.htmlRows, ∃ raw, sanitizeRow py raw = some row

theorem probed_named {previous : List Row} (h : ∀ row ∈ previous, Sanitized py row) :
    ∀ e ∈ (input.probed previous).map (stamp input.started), e.Named py := by
  intro e he
  obtain ⟨p, hp, rfl⟩ := List.mem_map.mp he
  obtain ⟨i, hi, rfl⟩ := List.mem_mapIdx.mp hp
  rw [named_congr (stamp_text _ _), named_congr (congrArg Row.text (checkEntry_row _ _ _))]
  obtain ⟨row, hrow, heq⟩ := List.mem_map.mp (List.getElem_mem hi)
  rw [← heq]
  exact named_of_sanitized (h row hrow) false

theorem fresh_named (h : input.Sanitary py) : ∀ e ∈ input.fresh, e.Named py := by
  refine mergeFresh_named (fun e he => ?_) fun e he => ?_
  · obtain ⟨row, hrow, rfl⟩ := List.mem_map.mp he
    obtain ⟨raw, hraw⟩ := h.1 row hrow
    exact named_of_sanitized (sanitizeRow_sanitized hraw) false
  · obtain ⟨row, hrow, rfl⟩ := List.mem_map.mp he
    obtain ⟨raw, hraw⟩ := h.2 row hrow
    exact named_of_sanitized (sanitizeRow_sanitized hraw) true

variable (input py) in
/-- **A public address and a healthy endpoint.** -/
def Reachable (e : Entry) : Prop :=
  isPublicIpv4 e.ip = true ∧ (input.check (e.prepare py)).healthy = some true

/-- The texts of a row are not changed on the way to `prune`. -/
theorem handed_hostKey (e : Entry) :
    (stamp input.started (input.check (e.prepare py))).hostKey py = e.hostKey py := by
  have hcheck : (input.check (e.prepare py)).row = (e.prepare py).row := checkEntry_row _ _ _
  rw [hostKey_congr (stamp_text _ _), hostKey_congr (congrArg Row.text hcheck), prepare_hostKey]

/-- What goes to `prune` when no row is rejected again. -/
theorem mem_handed {previous : List Row} (h : ∀ e ∈ input.merged previous, e.Named py)
    {r : Entry} : r ∈ input.handed py previous ↔
      ∃ e ∈ input.merged previous,
        e.prepare py ∈ dedupeHostnames py ((input.merged previous).map (·.prepare py)) ∧
        input.Reachable py e ∧ r = stamp input.started (input.check (e.prepare py)) := by
  have haccepted : (input.merged previous).filter (·.isAccepted py) = input.merged previous :=
    List.filter_eq_self.mpr fun e he => e.isAccepted_iff.mpr (h e he)
  unfold handed
  dsimp only
  rw [haccepted, List.mem_filter, List.map_map, List.mem_map]
  constructor
  · rintro ⟨⟨kept, hkept, rfl⟩, hhealthy⟩
    obtain ⟨hmem, hpublic⟩ := List.mem_filter.mp hkept
    obtain ⟨e, he, rfl⟩ := List.mem_map.mp (dedupeHostnames_strongest hmem).1
    rw [prepare_ip] at hpublic
    rw [Function.comp_apply, stamp_healthy, decide_eq_true_eq] at hhealthy
    exact ⟨e, he, hmem, ⟨hpublic, hhealthy⟩, rfl⟩
  · rintro ⟨e, he, hmem, ⟨hpublic, hhealthy⟩, rfl⟩
    refine ⟨⟨e.prepare py, List.mem_filter.mpr ⟨hmem, ?_⟩, rfl⟩, ?_⟩
    · rw [prepare_ip]
      exact hpublic
    · rw [stamp_healthy, decide_eq_true_eq]
      exact hhealthy

/-- A run that does not end early hands over its healthy rows. -/
theorem run_ok {previous : List Row} {rows : List Entry}
    (hprevious : loadPrevious py input.previousFile = .ok previous)
    (hrun : input.run py = .ok rows) : rows = input.handed py previous := by
  unfold run at hrun
  rw [hprevious] at hrun
  simp only [bind, Except.bind] at hrun
  split_ifs at hrun
  exact (Except.ok.inj hrun).symm

/-! ### Names that keep a healthy row -/

variable (input py) in
/-- **No name is lost**: where a merged row is reachable, a healthy row of its name is among
`rows`. -/
def KeepsNames (previous : List Row) (rows : List Entry) : Prop :=
  ∀ e ∈ input.merged previous, input.Reachable py e →
    ∃ r ∈ rows, r.healthy = some true ∧ r.hostKey py = e.hostKey py

variable (input py) in
/-- Where a merged row is reachable, a reachable row of its name is outranked by no merged row of
the name. -/
def StrongestReachable (previous : List Row) : Prop :=
  ∀ e ∈ input.merged previous, input.Reachable py e →
    ∃ s ∈ input.merged previous, s.hostKey py = e.hostKey py ∧ input.Reachable py s ∧
      ∀ r ∈ input.merged previous, r.hostKey py = e.hostKey py →
        (strength (r.prepare py) (s.prepare py)).isLE = true

/-- **A run loses no name** exactly if, of each name with a reachable row, a reachable one is the
strongest: the collapse comes before the addresses and the endpoints are looked at. -/
theorem run_keepsNames_iff {previous : List Row} {rows : List Entry}
    (hsources : input.Sanitary py) (hprevious : loadPrevious py input.previousFile = .ok previous)
    (hrun : input.run py = .ok rows) :
    input.KeepsNames py previous rows ↔ input.StrongestReachable py previous := by
  have hfirst : ∀ e ∈ (input.probed previous).map (stamp input.started), e.Named py :=
    probed_named (loadPrevious_sanitized hprevious)
  have hfresh := fresh_named hsources
  have hnamed : ∀ e ∈ input.merged previous, e.Named py := mergeWithPrevious_named hfirst hfresh
  have hunique : UniqueBy Entry.ip (input.merged previous) :=
    mergeWithPrevious_unique hfirst hfresh
  obtain rfl := run_ok hprevious hrun
  constructor
  · intro hkeeps e he hreachable
    obtain ⟨r, hr, -, hname⟩ := hkeeps e he hreachable
    obtain ⟨s, hs, hkept, hsreachable, rfl⟩ := (mem_handed hnamed).mp hr
    rw [handed_hostKey] at hname
    refine ⟨s, hs, hname, hsreachable, fun r hr hrname => ?_⟩
    refine (dedupeHostnames_strongest hkept).2 _ (List.mem_map_of_mem hr) ?_
    rw [prepare_hostKey, prepare_hostKey, hrname, hname]
  · intro hstrongest e he hreachable
    obtain ⟨s, hs, hname, hsreachable, hbound⟩ := hstrongest e he hreachable
    -- what is kept of the name is as strong as the reachable row, so it is that row
    obtain ⟨kept, hkept, hkeptname⟩ : ∃ kept ∈ dedupeHostnames py
        ((input.merged previous).map (·.prepare py)),
        kept.hostKey py = (s.prepare py).hostKey py :=
      exists_mem_dedupeHostnames (List.mem_map_of_mem hs)
    obtain ⟨hmem, hmost⟩ := dedupeHostnames_strongest hkept
    obtain ⟨m, hm, rfl⟩ := List.mem_map.mp hmem
    have hsame : s = m := by
      refine hunique.eq hs hm ?_
      have hle := hmost (s.prepare py) (List.mem_map_of_mem hs) hkeptname.symm
      have hge := hbound m hm (by rw [← hname, ← prepare_hostKey m, hkeptname, prepare_hostKey])
      have hip := ip_eq_of_strength (OrientedCmp.isLE_antisymm hle hge)
      rwa [prepare_ip, prepare_ip] at hip
    subst hsame
    refine ⟨_, (mem_handed hnamed).mpr ⟨s, hs, hkept, hsreachable, rfl⟩, ?_, ?_⟩
    · rw [stamp_healthy]
      exact hsreachable.2
    · rw [handed_hostKey, hname]

end Input

/-! ### A server and its dead namesake -/

/-- A server of the name `vpn1` with a SoftEther port, and with L2TP or without. -/
def vpn1 (ip : Text) (l2tp : Bool) : Row where
  text
    | .IP => ip
    | .HostName => "vpn1".toList
    | _ => []
  int _ := none
  port
    | .SE_TCP_Port => 443
    | _ => 0
  flag
    | .L2TP_Supported => l2tp
    | _ => false
  schemaVersion := SCHEMA_VERSION
  sourceTag := "html_parse".toList

/-- The published server answers; the page has another one of its name, which does not. -/
def deadNamesake : Input where
  args := ⟨false, 20, fun _ _ => false, false⟩
  started := 0
  previousFile := some (renderCsv [vpn1 "5.5.5.5".toList false])
  apiRows := []
  htmlRows := [vpn1 "5.5.5.6".toList true]
  answersFirst _ := true
  answersSecond endpoint := endpoint.1 = "5.5.5.5".toList

theorem sanitized_vpn1 {ip : Text} (h : Python.DottedQuad ip) (l2tp : Bool) :
    Sanitized Python.ascii (vpn1 ip l2tp) where
  cleaned c := by
    cases c with
    | IP => exact h.cleaned
    | HostName =>
      refine Cleaned.of_solid ?_
      show ∀ c ∈ "vpn1".toList, isSpace c = false ∧ c.toNat ≠ 0x200B
      exact List.all_iff_forall_prop.mp (by decide)
    | Operator => exact Cleaned.nil
    | CountryShort => exact Cleaned.nil
    | OpenVPN_ConfigData_Base64 => exact Cleaned.nil
    | SSTP_Hostname => exact Cleaned.nil
    | CountryLong => exact Cleaned.nil
    | LogType => exact Cleaned.nil
    | Message => exact Cleaned.nil
  ip := h
  host := by
    show Python.ascii.normalizeHost (.str "vpn1".toList) ≠ []
    decide
  country := Or.inr rfl
  base64 := ⟨List.not_mem_nil, Or.inr rfl⟩
  sstp := rfl
  schema := rfl
  tag := by
    show "html_parse".toList ∈ SOURCE_TAGS
    decide

theorem dottedQuad_samples : Python.DottedQuad "5.5.5.5".toList ∧
    Python.DottedQuad "5.5.5.6".toList :=
  ⟨⟨[5, 5, 5, 5], by decide⟩, ⟨[5, 5, 5, 6], by decide⟩⟩

theorem deadNamesake_sanitary : deadNamesake.Sanitary Python.ascii := by
  refine ⟨fun row hrow => absurd hrow List.not_mem_nil, fun row hrow => ?_⟩
  rw [List.mem_singleton.mp hrow]
  exact ⟨_, (sanitized_vpn1 dottedQuad_samples.2 true).sanitizeRow_cell⟩

/-- The published file is read. -/
theorem deadNamesake_previous : loadPrevious Python.ascii deadNamesake.previousFile =
    .ok [vpn1 "5.5.5.5".toList false] := by
  have hparse : parseEmergencyCsv Python.ascii (renderCsv [vpn1 "5.5.5.5".toList false]) =
      some ⟨[vpn1 "5.5.5.5".toList false], 0, none⟩ := by
    rw [parseEmergencyCsv_renderCsv (by simp), if_pos (by decide)]
    · intro row hmem
      rw [List.mem_singleton.mp hmem]
      exact sanitized_vpn1 dottedQuad_samples.1 false
    · intro row hmem c
      rw [List.mem_singleton.mp hmem]
      cases c <;> decide
  show loadPrevious Python.ascii (some (renderCsv [vpn1 "5.5.5.5".toList false])) = _
  rw [loadPrevious, hparse]
  rfl

/-- The collapse keeps the namesake, which does not answer. -/
theorem deadNamesake_handed :
    deadNamesake.handed Python.ascii [vpn1 "5.5.5.5".toList false] = [] := by
  rw [← List.isEmpty_iff]
  decide

theorem deadNamesake_run : deadNamesake.run Python.ascii = .ok [] := by
  unfold Input.run
  rw [deadNamesake_previous]
  simp only [bind, Except.bind]
  rw [if_neg (by decide), if_neg (by simp), deadNamesake_handed]

theorem run_keepsNames_iff_deadNamesake :
    deadNamesake.KeepsNames Python.ascii [vpn1 "5.5.5.5".toList false] [] ↔
      deadNamesake.StrongestReachable Python.ascii [vpn1 "5.5.5.5".toList false] :=
  Input.run_keepsNames_iff deadNamesake_sanitary deadNamesake_previous deadNamesake_run

/-- **A healthy server is lost to its dead namesake.** -/
theorem run_loses_name : deadNamesake.run Python.ascii = .ok [] ∧
    ¬ deadNamesake.KeepsNames Python.ascii [vpn1 "5.5.5.5".toList false] [] := by
  refine ⟨deadNamesake_run, fun hkeeps => ?_⟩
  have hreachable : ∃ e ∈ deadNamesake.merged [vpn1 "5.5.5.5".toList false],
      deadNamesake.Reachable Python.ascii e := by
    unfold Input.Reachable
    decide
  obtain ⟨e, he, hreachable⟩ := hreachable
  obtain ⟨r, hr, -⟩ := hkeeps e he hreachable
  exact absurd hr List.not_mem_nil

end SoftEther.Publisher
