import SoftEther.Lib.KeyedRows
import SoftEther.Lib.LinkedMap
import SoftEther.Lib.Ranking
import SoftEther.Publisher.Row

namespace SoftEther.Publisher

open Std SoftEther.Lib

/-!
# Merging the rows of a run

Rows are merged by address and then collapsed by host name.

* `Entry` — a row of a run with its marks;
* `mergeTwo`, `mergeFresh`, `mergeWithPrevious` — the merge by address;
* `configTransportPorts`, `enforceConfigPorts`, `normalizeSstpRow` — the ports of the embedded
  profile and of the SSTP host name;
* `strength`, `dedupeHostnames` — the collapse by host name;
* `Named`, `mergeWithPrevious_named` — the merged rows have an address and a host name, and
  their addresses are distinct;
* `dedupeHostnames_strongest` — what the collapse keeps: of each name the strongest row.
-/

/-! ### Entries -/

/-- An address and a port. -/
abbrev Endpoint := Text × Port

/-- A row of a run with the marks `_healthy`, `_reason`, `_probed` and `_html`. -/
structure Entry where
  row : Row
  healthy : Option Bool
  reason : Option String
  probed : Option Endpoint
  html : Bool

namespace Entry

/-- A row that has not been probed. -/
def ofRow (html : Bool) (row : Row) : Entry := ⟨row, none, none, none, html⟩

/-- `row["IP"]`. -/
def ip (e : Entry) : Text := e.row.text .IP

/-- `row["HostName"]`. -/
def hostName (e : Entry) : Text := e.row.text .HostName

end Entry

/-! ### The merge by address -/

/-- A value that is not empty beats an empty one; between two of them `preferOther` decides. -/
def prefer {α : Type} (isEmpty : α → Bool) (preferOther : Bool) (base other : α) : α :=
  if isEmpty other then base else if isEmpty base || preferOther then other else base

/-- The integers of `merge_two`. -/
def mergeInt (preferOther : Bool) (base other : Row) : IntColumn → Option ℤ
  | .FirstSeenAt => (base.int .FirstSeenAt).merge min (other.int .FirstSeenAt)
  | .LastSeenAt => (base.int .LastSeenAt).merge max (other.int .LastSeenAt)
  | c => prefer Option.isNone preferOther (base.int c) (other.int c)

/-- `merge_two`, of the columns. -/
def mergeColumns (preferOther : Bool) (base other : Row) : Row where
  text c := prefer List.isEmpty preferOther (base.text c) (other.text c)
  int := mergeInt preferOther base other
  port c := prefer (· = 0) preferOther (base.port c) (other.port c)
  flag c := prefer (! ·) preferOther (base.flag c) (other.flag c)
  schemaVersion := base.schemaVersion
  sourceTag :=
    if base.sourceTag = other.sourceTag then base.sourceTag else "merged".toList

/-- `merge_two`; the marks are those of `base`, but `_html` is kept of both. -/
def mergeTwo (preferOther : Bool) (base other : Entry) : Entry :=
  { base with
    row := mergeColumns preferOther base.row other.row
    html := base.html || other.html }

/-- A record of the HTML source over one of the API: its protocol columns win. -/
def mergeHtml (cur h : Entry) : Entry :=
  let merged := mergeTwo false cur h
  { merged with
    row := { merged.row with
      text := Function.update merged.row.text .SSTP_Hostname
        (prefer List.isEmpty true (merged.row.text .SSTP_Hostname) (h.row.text .SSTP_Hostname))
      port := fun c => prefer (· = 0) true (merged.row.port c) (h.row.port c)
      flag := fun c => prefer (! ·) true (merged.row.flag c) (h.row.flag c)
      sourceTag := "merged".toList } }

/-- `{r["IP"]: r for r in rows}`. -/
def byIp (rows : List Entry) : LinkedMap Text Entry :=
  LinkedMap.collect (fun e => some e.ip) (fun _ r => r) [] rows

/-- `merge_fresh`. -/
def mergeFresh (apiRows htmlRows : List Entry) : List Entry :=
  ((byIp apiRows).collect (fun e => some e.ip) mergeHtml htmlRows).map Prod.snd

/-- `merge_with_previous`; the marks of the probe survive as those of `base`. -/
def mergeWithPrevious (previous fresh : List Entry) : List Entry :=
  ((byIp previous).collect (fun e => some e.ip) (mergeTwo true) fresh).map Prod.snd

variable (py : Python)

/-- `sanitize_row(r)` reads the values of a row. -/
def Row.values (row : Row) : Column → Value
  | .text c => .str (row.text c)
  | .int c => (row.int c).elim .none .int
  | .port c => .int (row.port c).val
  | .flag c => .bool (row.flag c)
  | .schema_version => .str row.schemaVersion
  | .SourceTag => .str row.sourceTag

/-- `sanitize_row(r) is not None`. -/
def Entry.isAccepted (e : Entry) : Bool := (sanitizeRow py e.row.values).isSome

/-! ### Ports of the profile and of the SSTP host name -/

/-- `normalize_sstp_rows`, of a row. -/
def normalizeSstpRow (row : Row) : Row :=
  let endpoint := splitSstpEndpoint py (row.text .SSTP_Hostname) (row.port .SSTP_Port)
  { row with
    text := Function.update row.text .SSTP_Hostname endpoint.1
    port := Function.update row.port .SSTP_Port endpoint.2 }

/-- The line boundaries of `str.splitlines`. -/
def isLineBoundary (c : Char) : Bool :=
  (10 ≤ c.toNat && c.toNat ≤ 13) || (28 ≤ c.toNat && c.toNat ≤ 30) ||
    [0x85, 0x2028, 0x2029].contains c.toNat

/-- `str.split` without a separator. -/
def words (line : Text) : List Text := (line.splitOnP isSpace).filter (· ≠ [])

/-- `int` of a word; single underscores may stand between its digits. -/
def parseInt (word : Text) : Option ℤ :=
  let digits (s : Text) : Option ℕ :=
    let groups := s.splitOn '_'
    if groups.all fun g => !g.isEmpty && g.all py.isDecimal then some (py.number groups.flatten)
    else none
  match word with
  | '-' :: s => (digits s).map fun n => -(n : ℤ)
  | '+' :: s => (digits s).map fun n => (n : ℤ)
  | s => (digits s).map fun n => (n : ℤ)

/-- What a line of a profile says. -/
inductive ProfileLine
  | proto (proto : Text)
  | remote (port : ℤ) (inline : Text)

/-- A line of a profile; blank lines, which are also the pieces between the two characters of a
line end, and comments say nothing. -/
def profileLine (line : Text) : Option ProfileLine :=
  match words line with
  | [] => none
  | key :: rest =>
    if key.head? = some '#' ∨ key.head? = some ';' then none
    else if py.lower key = "proto".toList then rest.head?.map fun proto => .proto (py.lower proto)
    else if py.lower key = "remote".toList then
      match rest with
      | _ :: port :: rest =>
        (parseInt py port).map fun port => .remote port (rest.head?.elim [] py.lower)
      | _ => none
    else none

/-- The family of a transport. -/
inductive Family | tcp | udp
  deriving DecidableEq

/-- `startswith` decides the family. -/
def familyOf (proto : Text) : Option Family :=
  if "tcp".toList.isPrefixOf proto then some .tcp
  else if "udp".toList.isPrefixOf proto then some .udp
  else none

/-- `config_transport_ports`: the first usable remote of each family. -/
def configTransportPorts (b64 : Text) (family : Family) : Option Port :=
  let text := if b64 = [] then [] else py.decodeConfigText b64
  let said := (text.splitOnP isLineBoundary).filterMap (profileLine py)
  let protos := said.filterMap fun | .proto p => some p | .remote _ _ => none
  let remotes := said.filterMap fun | .remote p i => some (p, i) | .proto _ => none
  let globalProto := if protos.dedup.length = 1 then protos.headD [] else []
  remotes.findSome? fun (port, inline) =>
    if familyOf (if inline = [] then globalProto else inline) = some family then
      if h : 1 ≤ port ∧ port ≤ 65535 then some ⟨port.toNat, by omega⟩ else none
    else none

/-- `enforce_config_ports`, of a row. -/
def enforceConfigPorts (row : Row) : Row :=
  let ports := configTransportPorts py (row.text .OpenVPN_ConfigData_Base64)
  { row with
    port := fun
      | .OpenVPN_TCP_Port => (ports .tcp).getD (row.port .OpenVPN_TCP_Port)
      | .OpenVPN_UDP_Port => (ports .udp).getD (row.port .OpenVPN_UDP_Port)
      | c => row.port c }

/-- The passes between the merge and the collapse. -/
def Entry.prepare (e : Entry) : Entry :=
  { e with row := enforceConfigPorts py (normalizeSstpRow py e.row) }

/-! ### The collapse by host name -/

/-- `protocol_count`. -/
def protocolCount (row : Row) : ℕ :=
  (decide (0 < (row.port .SE_TCP_Port).val)).toNat + (row.flag .SE_UDP_Supported).toNat +
    (decide (0 < (row.port .OpenVPN_TCP_Port).val)).toNat +
    (decide (0 < (row.port .OpenVPN_UDP_Port).val)).toNat +
    (row.flag .SSTP_Supported).toNat + (row.flag .L2TP_Supported).toNat

/-- `r["Score"] or -1`. -/
def scoreOr (row : Row) : ℤ :=
  match row.int .Score with
  | none => -1
  | some n => if n = 0 then -1 else n

/-- The comparison of `(protocol_count(r), r["Score"] or -1, r["IP"])`. -/
def strength : Entry → Entry → Ordering :=
  compareLex (compareBy fun e => protocolCount e.row) <|
  compareLex (compareBy fun e => scoreOr e.row) <|
  compareBy Entry.ip

/-- `normalize_host(r["HostName"])`. -/
def Entry.hostKey (e : Entry) : Text := py.normalizeHost (.str e.hostName)

/-- `dedupe_hostnames`. -/
def dedupeHostnames (rows : List Entry) : List Entry :=
  (LinkedMap.collect (fun e => some (e.hostKey py)) (stronger strength) [] rows).map Prod.snd

/-! ### What the merge keeps -/

variable {py}

theorem prefer_or {α : Type} (isEmpty : α → Bool) (preferOther : Bool) (base other : α) :
    prefer isEmpty preferOther base other = base ∨
      prefer isEmpty preferOther base other = other := by
  unfold prefer
  split_ifs
  · exact Or.inl rfl
  · exact Or.inr rfl
  · exact Or.inl rfl

theorem mergeTwo_text (preferOther : Bool) (base other : Entry) (c : TextColumn) :
    (mergeTwo preferOther base other).row.text c = base.row.text c ∨
      (mergeTwo preferOther base other).row.text c = other.row.text c := prefer_or _ _ _ _

/-- The protocol columns have no say in the texts but the SSTP host name. -/
theorem mergeHtml_text (cur h : Entry) {c : TextColumn} (hc : c ≠ .SSTP_Hostname) :
    (mergeHtml cur h).row.text c = (mergeTwo false cur h).row.text c := by
  simp [mergeHtml, Function.update, hc]

variable (py) in
/-- `sanitize_row` accepts the address and the host name of the row. -/
def Entry.Named (e : Entry) : Prop :=
  py.normalizeIp (.str e.ip) ≠ [] ∧ py.normalizeHost (.str (cleanText (.str e.hostName))) ≠ []

theorem Entry.isAccepted_iff (e : Entry) : e.isAccepted py = true ↔ e.Named py := by
  have hip : e.row.values (.text .IP) = .str e.ip := rfl
  have hhost : e.row.values (.text .HostName) = .str e.hostName := rfl
  unfold isAccepted sanitizeRow Named
  dsimp only
  rw [hip, hhost, ← not_or]
  by_cases hreject : py.normalizeIp (.str e.ip) = [] ∨
      py.normalizeHost (.str (cleanText (.str e.hostName))) = []
  · rw [if_pos hreject]
    exact iff_of_false Bool.false_ne_true (not_not.mpr hreject)
  · rw [if_neg hreject]
    exact iff_of_true rfl hreject

/-- **The rows that `sanitize_row` returns** are accepted again. -/
theorem named_of_sanitized {row : Row} (h : Sanitized py row) (html : Bool) :
    (Entry.ofRow html row).Named py := by
  refine ⟨?_, ?_⟩
  · show py.normalizeIp (.str (row.text .IP)) ≠ []
    rw [h.ip.normalizeIp_eq]
    exact h.ip_ne
  · show py.normalizeHost (.str (cleanStr (row.text .HostName))) ≠ []
    rw [(h.cleaned .HostName).cleanStr_eq]
    exact h.host

/-- Under its address stands a row of the address that is accepted. -/
def KeptUnder (py : Python) (ip : Text) (e : Entry) : Prop := e.ip = ip ∧ e.Named py

variable {ip : Text} {rows : List Entry}

theorem KeptUnder.of_texts {base other e : Entry} (hbase : KeptUnder py ip base)
    (hother : KeptUnder py ip other) (hip : e.ip = base.ip ∨ e.ip = other.ip)
    (hhost : e.hostName = base.hostName ∨ e.hostName = other.hostName) : KeptUnder py ip e := by
  refine ⟨?_, ?_, ?_⟩
  · rcases hip with hip | hip
    · exact hip.trans hbase.1
    · exact hip.trans hother.1
  · rcases hip with hip | hip
    · exact hip ▸ hbase.2.1
    · exact hip ▸ hother.2.1
  · rcases hhost with hhost | hhost
    · exact hhost ▸ hbase.2.2
    · exact hhost ▸ hother.2.2

theorem KeptUnder.mergeTwo {base other : Entry} (hbase : KeptUnder py ip base)
    (hother : KeptUnder py ip other) (preferOther : Bool) :
    KeptUnder py ip (mergeTwo preferOther base other) :=
  hbase.of_texts hother (mergeTwo_text preferOther base other .IP)
    (mergeTwo_text preferOther base other .HostName)

theorem KeptUnder.mergeHtml {cur h : Entry} (hcur : KeptUnder py ip cur) (hh : KeptUnder py ip h) :
    KeptUnder py ip (mergeHtml cur h) := by
  refine hcur.of_texts hh ?_ ?_
  · rw [Entry.ip, mergeHtml_text cur h (by decide)]
    exact mergeTwo_text false cur h .IP
  · rw [Entry.hostName, mergeHtml_text cur h (by decide)]
    exact mergeTwo_text false cur h .HostName

theorem keptUnder_byIp (h : ∀ e ∈ rows, e.Named py) : ∀ e ∈ byIp rows, KeptUnder py e.1 e.2 := by
  refine LinkedMap.collect_forall (by simp) (fun e he k hk => ?_) fun _ _ _ _ hr => hr
  rw [Option.some.injEq] at hk
  exact ⟨hk, h e he⟩

/-- **Merged into a map by address**, rows stay under their address. -/
theorem keptUnder_collect {m : LinkedMap Text Entry} {merge : Entry → Entry → Entry}
    (hm : ∀ e ∈ m, KeptUnder py e.1 e.2) (hrows : ∀ e ∈ rows, e.Named py)
    (hmerge : ∀ k a r, KeptUnder py k a → KeptUnder py k r → KeptUnder py k (merge a r)) :
    ∀ e ∈ m.collect (fun e => some e.ip) merge rows, KeptUnder py e.1 e.2 := by
  refine LinkedMap.collect_forall hm (fun e he k hk => ?_) hmerge
  rw [Option.some.injEq] at hk
  exact ⟨hk, hrows e he⟩

theorem mergeFresh_named {apiRows htmlRows : List Entry} (hapi : ∀ e ∈ apiRows, e.Named py)
    (hhtml : ∀ e ∈ htmlRows, e.Named py) : ∀ e ∈ mergeFresh apiRows htmlRows, e.Named py := by
  intro e he
  obtain ⟨entry, hentry, rfl⟩ := List.mem_map.mp he
  exact (keptUnder_collect (keptUnder_byIp hapi) hhtml (fun _ _ _ ha hr => ha.mergeHtml hr)
    entry hentry).2

/-- **The merged rows** have an address and a host name. -/
theorem mergeWithPrevious_named {previous fresh : List Entry}
    (hprevious : ∀ e ∈ previous, e.Named py) (hfresh : ∀ e ∈ fresh, e.Named py) :
    ∀ e ∈ mergeWithPrevious previous fresh, e.Named py := by
  intro e he
  obtain ⟨entry, hentry, rfl⟩ := List.mem_map.mp he
  exact (keptUnder_collect (keptUnder_byIp hprevious) hfresh
    (fun _ _ _ ha hr => ha.mergeTwo hr true) entry hentry).2

/-- **The merged rows** have addresses of their own. -/
theorem mergeWithPrevious_unique {previous fresh : List Entry}
    (hprevious : ∀ e ∈ previous, e.Named py) (hfresh : ∀ e ∈ fresh, e.Named py) :
    UniqueBy Entry.ip (mergeWithPrevious previous fresh) := by
  have hkeyed : ((byIp previous).collect (fun e => some e.ip) (mergeTwo true) fresh).Keyed :=
    (LinkedMap.Keyed.collect (show LinkedMap.Keyed [] from List.nodup_nil) previous).collect fresh
  have hkeys : ((byIp previous).collect (fun e => some e.ip) (mergeTwo true) fresh).map Prod.fst =
      (mergeWithPrevious previous fresh).map Entry.ip := by
    rw [mergeWithPrevious, List.map_map]
    refine List.map_congr_left fun e he => ?_
    exact (keptUnder_collect (keptUnder_byIp hprevious) hfresh
      (fun _ _ _ ha hr => ha.mergeTwo hr true) e he).1.symm
  rw [UniqueBy, ← hkeys]
  exact hkeyed

/-! ### What the collapse keeps -/

@[simp] theorem prepare_ip (e : Entry) : (e.prepare py).ip = e.ip := by
  simp [Entry.prepare, Entry.ip, enforceConfigPorts, normalizeSstpRow, Function.update]

@[simp] theorem prepare_hostName (e : Entry) : (e.prepare py).hostName = e.hostName := by
  simp [Entry.prepare, Entry.hostName, enforceConfigPorts, normalizeSstpRow, Function.update]

@[simp] theorem prepare_hostKey (e : Entry) : (e.prepare py).hostKey py = e.hostKey py := by
  rw [Entry.hostKey, Entry.hostKey, prepare_hostName]

instance : TransCmp strength := by
  unfold strength
  infer_instance

/-- Rows as strong as each other have one address. -/
theorem ip_eq_of_strength {a b : Entry} (h : strength a b = .eq) : a.ip = b.ip := by
  simp only [strength, compareLex_eq_eq, compareBy_eq_eq] at h
  exact h.2.2

/-- **A row that the collapse keeps** is the strongest of its name. -/
theorem dedupeHostnames_strongest {e : Entry} (he : e ∈ dedupeHostnames py rows) :
    e ∈ rows ∧ ∀ r ∈ rows, r.hostKey py = e.hostKey py → (strength r e).isLE = true := by
  obtain ⟨⟨key, kept⟩, hentry, rfl⟩ := List.mem_map.mp he
  obtain ⟨first, rest, hrows, hkept⟩ := LinkedMap.mem_collect.mp hentry
  obtain ⟨hmem, hbound⟩ := foldl_stronger strength first rest
  rw [← hkept, ← hrows] at hmem hbound
  obtain ⟨hin, hkey⟩ := List.mem_filter.mp hmem
  rw [decide_eq_true_eq, Option.some.injEq] at hkey
  refine ⟨hin, fun r hr hname => hbound r (List.mem_filter.mpr ⟨hr, ?_⟩)⟩
  simpa [hkey] using hname

/-- Every name keeps a row. -/
theorem exists_mem_dedupeHostnames {r : Entry} (hr : r ∈ rows) :
    ∃ e ∈ dedupeHostnames py rows, e.hostKey py = r.hostKey py := by
  have hmem : r ∈ rows.filter fun e => some (e.hostKey py) = some (r.hostKey py) :=
    List.mem_filter.mpr ⟨hr, by simp⟩
  obtain ⟨first, rest, hrows⟩ := List.exists_cons_of_ne_nil (List.ne_nil_of_mem hmem)
  refine ⟨rest.foldl (stronger strength) first,
    List.mem_map.mpr ⟨_, LinkedMap.mem_collect.mpr ⟨first, rest, hrows, rfl⟩, rfl⟩, ?_⟩
  have hkept := (foldl_stronger strength first rest).1
  rw [← hrows] at hkept
  simpa using (List.mem_filter.mp hkept).2

end SoftEther.Publisher
