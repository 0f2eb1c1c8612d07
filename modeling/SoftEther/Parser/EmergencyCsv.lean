import SoftEther.Parser.Csv
import SoftEther.Parser.EmergencyRow

namespace SoftEther.Parser

open Lib
open SoftEther.Merger

/-!
# The emergency file (`EmergencyCsvParser.parse`)

The file is checked as a whole, its rows are read one by one, and what they describe is put
together by address.

* `structureOf`, `schemaError` — the checks of the file;
* `parse`, `deduplicate` — the functions of the source;
* `Overflowing` — the texts at which `parse` throws; `resultOf` — what it returns of all others;
* `parse_returns` — that this is so;
* `verdict` — what a row is rejected for; `address` — its IPv4 address;
* `filter_recordsOfGroups` — the records of an address are made of the rows of that address.
-/

/-! ### Issues -/

/-- `IssueCounter`. -/
abbrev IssueCounter := LinkedMap Issue ℕ

namespace IssueCounter

/-- How often an issue was met. -/
def count (counts : IssueCounter) (issue : Issue) : ℕ := (counts.read issue).getD 0

/-- One more. -/
def add (counts : IssueCounter) (issue : Issue) : IssueCounter :=
  counts.put issue (counts.count issue + 1)

/-- The issues of a row. -/
def addAll (counts : IssueCounter) (issues : List Issue) : IssueCounter := issues.foldl add counts

theorem count_addAll (counts : IssueCounter) (issues : List Issue) (issue : Issue) :
    (counts.addAll issues).count issue = counts.count issue + issues.count issue := by
  induction issues generalizing counts with
  | nil => rfl
  | cons first issues ih =>
    have hadd : (counts.add first).count issue =
        counts.count issue + if first = issue then 1 else 0 := by
      unfold add count
      by_cases hsame : first = issue
      · rw [hsame, LinkedMap.read_put_self, if_pos rfl]
        rfl
      · rw [LinkedMap.read_put_of_ne hsame, if_neg hsame, Nat.add_zero]
    have hrest : (counts.addAll (first :: issues)).count issue =
        ((counts.add first).addAll issues).count issue := rfl
    rw [hrest, ih, hadd, List.count_cons]
    by_cases hsame : first = issue
    · simp [hsame]
      omega
    · simp [hsame]

end IssueCounter

/-- `Result`; `partially` is the source's `Partial`. -/
inductive Result
  | valid (records : List VpnServerRecord) (rejectedCount : ℕ) (issues : IssueCounter)
  | partially (records : List VpnServerRecord) (rejectedCount : ℕ) (issues : IssueCounter)
  | malformed (reason : String)

namespace EmergencyCsvParser

def recordsOrEmpty : Result → List VpnServerRecord
  | .valid records _ _ => records
  | .partially records _ _ => records
  | .malformed _ => []

/-! ### The checks of the file -/

/-- The version of the file. -/
def SUPPORTED_SCHEMA_VERSION : String := "1.0"

/-- The columns without which a file is refused. -/
def REQUIRED_COLUMNS : List String := ["HostName", "IP", "schema_version", "SourceTag"]

/-- The columns of the file. -/
def ALL_COLUMNS : List String :=
  ["HostName", "IP", "Score", "Ping", "Speed", "CountryLong", "CountryShort",
    "NumVpnSessions", "Uptime", "TotalUsers", "TotalTraffic", "LogType",
    "Operator", "Message", "OpenVPN_ConfigData_Base64", "schema_version",
    "SE_TCP_Port", "SE_UDP_Supported", "SE_UDP_Port", "OpenVPN_TCP_Port",
    "OpenVPN_UDP_Port", "L2TP_Supported", "SSTP_Supported", "SSTP_Hostname",
    "SSTP_Port", "Has_IPv6", "FirstSeenAt", "LastSeenAt", "SourceTag"]

/-- The byte order mark. -/
def BOM : Char := Char.ofNat 0xFEFF

/-- What stands for a bad byte. -/
def REPLACEMENT_CHAR : Char := Char.ofNat 0xFFFD

/-- `columns` and `dataRows`. -/
structure File where
  columns : List String
  rows : List (List String)
  deriving DecidableEq

variable (p : Platform)

/-- The file-level structure of a text, or why it has none. -/
def structureOf (text : String) : Except String File :=
  if p.isBlank text then .error "empty body"
  else if text.toList.head? = some BOM then .error "utf-8 BOM is not part of the format (§10.7)"
  else if REPLACEMENT_CHAR ∈ text.toList then .error "body is not valid UTF-8 (§10.7)"
  else
    match splitCsvRecords text.toList with
    | [] => .error "no CSV records"
    | header :: dataRows =>
      let columns := header.map p.trim
      let missing := REQUIRED_COLUMNS.filter (· ∉ columns)
      if missing ≠ [] then
        .error ("missing required column(s): " ++ ",".intercalate missing)
      else if dataRows = [] then .error "header only: no data rows"
      else .ok ⟨columns, dataRows⟩

/-- The version that a row declares; the column is one that is required. -/
def declared (columns row : List String) : String :=
  p.trim (row.getD ((indexByName columns "schema_version").getD 0) "")

/-- The row passes the schema check; one of another size is not checked. -/
def SchemaOk (columns row : List String) : Prop :=
  row.length = columns.length → declared p columns row = SUPPORTED_SCHEMA_VERSION

instance (columns row : List String) : Decidable (SchemaOk p columns row) := by
  unfold SchemaOk
  infer_instance

/-- The schema check across the whole file. -/
def schemaError (file : File) : Option String :=
  (file.rows.find? fun row => ¬ SchemaOk p file.columns row).map fun row =>
    "unsupported schema_version \"" ++ declared p file.columns row ++ "\" (supported: " ++
      SUPPORTED_SCHEMA_VERSION ++ ")"

/-! ### The rows -/

/-- The variables of the loop over the rows. -/
structure Parsed where
  parsed : List VpnServerRecord
  rejected : ℕ
  issues : IssueCounter

/-- What one row adds. -/
def Parsed.add (s : Parsed) (row : List Issue × Option VpnServerRecord) : Parsed :=
  match row.2 with
  | none => { s with rejected := s.rejected + 1, issues := s.issues.addAll row.1 }
  | some record => { s with parsed := s.parsed ++ [record], issues := s.issues.addAll row.1 }

/-- One row. -/
def parseRow (columns : List String) (source : String) (s : Parsed) (row : List String) :
    Except NumberFormatException Parsed :=
  if row.length ≠ columns.length then .ok (s.add ([.wrongColumnCount], none))
  else
    buildRecord p columns row >>= fun built =>
      .ok (s.add (built.1, built.2.map fun record => sourceAdd record source))

/-! ### Identity and merge -/

/-- The variables of the loop of `deduplicate`. -/
structure Groups where
  groups : LinkedMap String (List VpnServerRecord)
  issues : IssueCounter

/-- `identity["ip"]` and `identity["hostname"]`. -/
def identityOf (record : VpnServerRecord) (key : String) : String :=
  VpnRecords.str (record.fields.valueAt ["identity", key])

/-- One record of that loop. -/
def groupRecord (s : Groups) (record : VpnServerRecord) : Except NumberFormatException Groups :=
  let ip := identityOf record "ip"
  p.normalizeHost (identityOf record "hostname") >>= fun host =>
    p.validIp ip >>= fun valid =>
      let key := if valid then ip else host
      .ok (if key = "" then { s with issues := s.issues.add .unresolvableIdentity }
        else { s with groups := s.groups.addTo key record })

/-- The record of a group; its `emergency` entry is there since `buildRecord`. -/
def mergeGroup : List VpnServerRecord → VpnServerRecord
  -- no group is empty
  | [] => newServer
  | [record] => record
  | target :: rest =>
    (rest.foldl recursiveMerge target).put ["emergency", "csvSourceTag"] (.string "merged")

/-- What `deduplicate` makes of its groups. -/
def recordsOfGroups (parsed : List VpnServerRecord)
    (groups : LinkedMap String (List VpnServerRecord)) : List VpnServerRecord :=
  if groups.length = parsed.length then parsed else groups.map fun e => mergeGroup e.2

/-- `deduplicate`. -/
def deduplicate (parsed : List VpnServerRecord) (issues : IssueCounter) :
    Except NumberFormatException (List VpnServerRecord × IssueCounter) :=
  parsed.foldlM (groupRecord p) ⟨[], issues⟩ >>= fun s =>
    .ok (recordsOfGroups parsed s.groups, s.issues)

/-- The end of `parse`. -/
def conclude (rejected : ℕ) (deduped : List VpnServerRecord × IssueCounter) : Result :=
  if rejected = 0 then .valid deduped.1 0 deduped.2 else .partially deduped.1 rejected deduped.2

/-- `parse` of a file that passes the checks. -/
def parseFile (file : File) (source : String) : Except NumberFormatException Result :=
  let unknown := IssueCounter.addAll []
    ((file.columns.filter (· ∉ ALL_COLUMNS)).map fun _ => .unknownColumn)
  file.rows.foldlM (parseRow p file.columns source) ⟨[], 0, unknown⟩ >>= fun s =>
    if s.parsed.isEmpty then .ok (.malformed "no record passed required-field validation")
    else deduplicate p s.parsed s.issues >>= fun deduped => .ok (conclude s.rejected deduped)

/-- `parse`. -/
def parse (text source : String) : Except NumberFormatException Result :=
  match structureOf p text with
  | .error reason => .ok (.malformed reason)
  | .ok file =>
    match schemaError p file with
    | some reason => .ok (.malformed reason)
    | none => parseFile p file source

/-! ### When a file throws -/

/-- What a row is rejected for. -/
def verdict (columns row : List String) : Option Issue :=
  if row.length ≠ columns.length then some .wrongColumnCount
  else if p.hostOf (field p columns row "HostName") = "" then some .emptyHostname
  else if (p.ipOf (field p columns row "IP")).isNone then some .invalidIpv4
  else none

/-- The IPv4 address of a row. -/
def address (columns row : List String) : Option String :=
  if row.length ≠ columns.length then none else p.ipOf (field p columns row "IP")

/-- **The rows at which `parse` throws**: a field is too long a number for `normalizeHost`, or the
    host name of an accepted row still is when it is normalized once more. -/
def RowOverflows (columns row : List String) : Prop :=
  row.length = columns.length ∧ (FieldsOverflow p columns row ∨
    (verdict p columns row = none ∧ p.HostOverflows (p.hostOf (field p columns row "HostName"))))

/-- The file that is read row by row: it passes the checks. -/
def checked (text : String) : Option File :=
  match structureOf p text with
  | .error _ => none
  | .ok file => if schemaError p file = none then some file else none

/-- **The texts at which `parse` throws.** -/
def Overflowing (text : String) : Prop :=
  ∃ file ∈ checked p text, ∃ row ∈ file.rows, RowOverflows p file.columns row

/-- What a row adds when it does not throw. -/
def rowResult (columns : List String) (source : String) (row : List String) :
    List Issue × Option VpnServerRecord :=
  if row.length ≠ columns.length then ([.wrongColumnCount], none)
  else ((built p columns row).1, (built p columns row).2.map fun r => sourceAdd r source)

/-- The variables behind the loop over the rows. -/
def parsedOf (file : File) (source : String) : Parsed where
  parsed := file.rows.filterMap fun row => (rowResult p file.columns source row).2
  rejected := file.rows.countP fun row => (rowResult p file.columns source row).2.isNone
  issues := (IssueCounter.addAll []
    ((file.columns.filter (· ∉ ALL_COLUMNS)).map fun _ => .unknownColumn)).addAll
      (file.rows.flatMap fun row => (rowResult p file.columns source row).1)

/-- The records of a file. -/
def records (file : File) (source : String) : List VpnServerRecord :=
  recordsOfGroups (parsedOf p file source).parsed
    (LinkedMap.group (identityOf · "ip") (parsedOf p file source).parsed)

/-- What `parseFile` returns when it does not throw. -/
def resultOf (file : File) (source : String) : Result :=
  let s := parsedOf p file source
  if s.parsed.isEmpty then .malformed "no record passed required-field validation"
  else conclude s.rejected (records p file source, s.issues)

variable {p}

theorem parseRow_returns (columns : List String) (source : String) (s : Parsed)
    (row : List String) :
    Returns (parseRow p columns source s row)
      (row.length = columns.length ∧ FieldsOverflow p columns row)
      (s.add (rowResult p columns source row)) := by
  unfold parseRow rowResult
  by_cases hsize : row.length = columns.length
  · rw [if_neg (not_not.mpr hsize), if_neg (not_not.mpr hsize)]
    exact ((buildRecord_returns columns row).map _ rfl).mono (and_iff_right hsize)
  · rw [if_pos hsize, if_pos hsize]
    exact (Returns.ok _).mono (iff_false_intro fun h => hsize h.1)

/-- **The loop over the rows.** -/
theorem foldl_add (f : List String → List Issue × Option VpnServerRecord)
    (rows : List (List String)) (s : Parsed) :
    rows.foldl (fun s row => s.add (f row)) s =
      { parsed := s.parsed ++ rows.filterMap fun row => (f row).2
        rejected := s.rejected + rows.countP fun row => (f row).2.isNone
        issues := s.issues.addAll (rows.flatMap fun row => (f row).1) } := by
  induction rows generalizing s with
  | nil => simp [IssueCounter.addAll]
  | cons row rows ih =>
    rw [List.foldl_cons, ih]
    unfold Parsed.add
    cases hrow : (f row).2 with
    | none =>
      simp [hrow, IssueCounter.addAll, List.foldl_append]
      omega
    | some record => simp [hrow, IssueCounter.addAll, List.foldl_append]

/-- An address that is found is valid. -/
theorem validIp_of_ipOf {value ip : String} (h : p.ipOf value = some ip) :
    p.validIp ip = .ok true ∧ ip ≠ "" := by
  have hvalid := (Platform.validIp_normalized (p := p) value).returns id
  rw [h] at hvalid
  refine ⟨hvalid, ?_⟩
  rintro rfl
  cases hvalid

variable {r : VpnServerRecord} {source : String} {file : File}

theorem identityOf_of_get {key s : String} (h : r.get ["identity", key] = .string s) :
    identityOf r key = s := by
  rw [VpnServerRecord.get] at h
  unfold identityOf
  cases hvalue : r.fields.valueAt ["identity", key] with
  | none => rw [hvalue] at h; cases h
  | some v =>
    rw [hvalue] at h
    cases v with
    | scalar s' => rw [show s' = .string s from h]; rfl
    | list _ => cases h
    | map _ => cases h

theorem get_of_identityOf {key s : String} (h : identityOf r key = s) (hs : s ≠ "") :
    r.get ["identity", key] = .string s := by
  unfold identityOf VpnRecords.str at h
  rw [VpnServerRecord.get]
  split at h
  · next heq => rw [heq, h]; rfl
  · exact absurd h.symm hs

/-- **An accepted row** has a host name and an address, and its record has them, too. -/
theorem rowResult_of_accepted {columns row : List String} (source : String)
    (h : verdict p columns row = none) :
    ∃ ip issues r, p.ipOf (field p columns row "IP") = some ip ∧ address p columns row = some ip ∧
      rowResult p columns source row = (issues, some r) ∧ (∃ remotes, Built r remotes) ∧
      identityOf r "hostname" = p.hostOf (field p columns row "HostName") ∧
      identityOf r "ip" = ip ∧ ∀ issue ∈ issues, issue.rejectsRecord = false := by
  unfold verdict at h
  split_ifs at h with hsize hhost hip
  have hfound : p.ipOf (field p columns row "IP") ≠ none := fun hnone => hip (by rw [hnone]; rfl)
  obtain ⟨ip, hip⟩ := Option.ne_none_iff_exists'.mp hfound
  obtain ⟨⟨remotes, hbuilt⟩, hgetHost, hgetIp, hissues⟩ :=
    record_identity (p := p) (field p columns row) hhost (validIp_of_ipOf hip).2
  have hread : ∀ {r : VpnServerRecord} {key s : String}, r.get ["identity", key] = .string s →
      identityOf (sourceAdd r source) key = s := by
    intro r key s hget
    have hfields : (sourceAdd r source).fields = r.fields := by
      unfold sourceAdd
      dsimp only
      split_ifs <;> rfl
    unfold identityOf
    rw [hfields]
    exact identityOf_of_get hget
  refine ⟨ip, _, _, hip, ?_, ?_, ⟨remotes, hbuilt.sourceAdd source⟩, hread hgetHost, hread hgetIp,
    hissues⟩
  · rw [address, if_neg hsize, hip]
  · rw [rowResult, if_neg hsize, built]
    simp only [hhost, if_false, hip]
    rfl

/-- **A rejected row** adds the issue it is rejected for. -/
theorem rowResult_of_rejected {columns row : List String} (source : String) {issue : Issue}
    (h : verdict p columns row = some issue) :
    rowResult p columns source row = ([issue], none) ∧ issue.rejectsRecord = true := by
  unfold verdict at h
  unfold rowResult built
  split_ifs at h with hsize hhost hip
  · obtain rfl := Option.some.inj h
    rw [if_pos hsize]
    exact ⟨rfl, rfl⟩
  · obtain rfl := Option.some.inj h
    rw [if_neg hsize]
    simp only [hhost, if_true]
    exact ⟨rfl, rfl⟩
  · obtain rfl := Option.some.inj h
    rw [if_neg hsize]
    simp only [hhost, if_false, Option.isNone_iff_eq_none.mp hip]
    exact ⟨rfl, rfl⟩

/-! ### Records of one address -/

section Deduplicate

variable {parsed : List VpnServerRecord}

/-- A record in the group of its address. -/
def Groups.addRecord (s : Groups) (record : VpnServerRecord) : Groups :=
  { s with groups := s.groups.addTo (identityOf record "ip") record }

theorem groupRecord_returns (s : Groups) {record : VpnServerRecord}
    (h : p.validIp (identityOf record "ip") = .ok true) :
    Returns (groupRecord p s record) (p.HostOverflows (identityOf record "hostname"))
      (s.addRecord record) := by
  have hne : identityOf record "ip" ≠ "" := by
    intro hempty
    rw [hempty] at h
    cases h
  have hkey : ∀ host, (p.validIp (identityOf record "ip") >>= fun valid =>
      Except.ok (if (if valid then identityOf record "ip" else host) = "" then
          { s with issues := s.issues.add .unresolvableIdentity }
        else { s with groups :=
          s.groups.addTo (if valid then identityOf record "ip" else host) record })) =
      (Except.ok (s.addRecord record) : Except NumberFormatException Groups) := by
    intro host
    rw [h]
    simp [bind, Except.bind, hne, Groups.addRecord]
  unfold groupRecord
  dsimp only
  refine Returns.mono (Returns.bind (Platform.normalizeHost_returns _) ?_) (or_iff_left id).symm
  rw [hkey]
  exact Returns.ok _

theorem foldl_addRecord (parsed : List VpnServerRecord) (s : Groups) :
    parsed.foldl Groups.addRecord s =
      ⟨parsed.foldl (fun m r => LinkedMap.addTo m (identityOf r "ip") r) s.groups, s.issues⟩ := by
  induction parsed generalizing s with
  | nil => rfl
  | cons r parsed ih => exact ih (s.addRecord r)

/-- **`deduplicate`**, of records with valid addresses: when it throws, and what it returns
    else. -/
theorem deduplicate_returns (h : ∀ r ∈ parsed, p.validIp (identityOf r "ip") = .ok true)
    (issues : IssueCounter) :
    Returns (deduplicate p parsed issues)
      (∃ r ∈ parsed, p.HostOverflows (identityOf r "hostname"))
      (recordsOfGroups parsed (LinkedMap.group (identityOf · "ip") parsed), issues) := by
  have hstep : ∀ s, ∀ r ∈ parsed, Returns (groupRecord p s r)
      (p.HostOverflows (identityOf r "hostname")) (s.addRecord r) := by
    intro s r hr
    exact groupRecord_returns s (h r hr)
  have hloop := Returns.foldlM parsed ⟨[], issues⟩ hstep
  rw [foldl_addRecord] at hloop
  exact hloop.map (fun s => (recordsOfGroups parsed s.groups, s.issues)) rfl

/-- **A merge of records with one address has that address.** -/
theorem identityOf_mergeGroup {ip : String} (hip : ip ≠ "") {group : List VpnServerRecord}
    (hne : group ≠ []) (h : ∀ r ∈ group, r.WellFormed ∧ identityOf r "ip" = ip) :
    identityOf (mergeGroup group) "ip" = ip := by
  have hpath : ["identity", "ip"] ∈ VpnServerRecord.fieldPaths := by decide
  obtain ⟨hleaf, hlate⟩ := VpnServerRecord.fieldPaths_leaf _ hpath
  have hmerge : ∀ target incoming : VpnServerRecord, target.WellFormed → incoming.WellFormed →
      target.get ["identity", "ip"] = .string ip → incoming.get ["identity", "ip"] = .string ip →
      (recursiveMerge target incoming).get ["identity", "ip"] = .string ip := by
    intro target incoming htarget hincoming hget hget'
    have hclaim := ((htarget.leaves _ hleaf).recursiveMerge (hincoming.leaves _ hleaf)).2
    have hvalue : ∀ r : VpnServerRecord,
        (r.claimAt (leafOf ["identity", "ip"])).value = r.get ["identity", "ip"] :=
      fun r => r.claimAt_value hlate
    rw [← hvalue, hclaim]
    -- both sides of the merge say the same
    rcases VpnServerRecord.merge_value_mem (leafOf ["identity", "ip"]).late
      (target.claimAt (leafOf ["identity", "ip"])) (incoming.claimAt (leafOf ["identity", "ip"]))
      with hnew | hold
    · rw [hnew, hvalue, hget']
    · rw [hold, hvalue, hget]
  have hfold : ∀ (rest : List VpnServerRecord) (target : VpnServerRecord), target.WellFormed →
      target.get ["identity", "ip"] = .string ip →
      (∀ r ∈ rest, r.WellFormed ∧ identityOf r "ip" = ip) →
      (rest.foldl recursiveMerge target).get ["identity", "ip"] = .string ip := by
    intro rest
    induction rest with
    | nil => exact fun _ _ hget _ => hget
    | cons r rest ih =>
      intro target htarget hget hrest
      obtain ⟨hwell, hsame⟩ := hrest r List.mem_cons_self
      exact ih _ (htarget.recursiveMerge hwell).1
        (hmerge _ _ htarget hwell hget (get_of_identityOf hsame hip))
        fun r' hr' => hrest r' (List.mem_cons_of_mem r hr')
  match group, hne, h with
  | [record], _, h => exact (h record List.mem_cons_self).2
  | target :: next :: rest, _, h =>
    obtain ⟨hwell, hsame⟩ := h target List.mem_cons_self
    have hget := hfold (next :: rest) target hwell (get_of_identityOf hsame hip)
      fun r hr => h r (List.mem_cons_of_mem target hr)
    -- the tag is written behind the provenance
    have htag : (leafOf ["emergency", "csvSourceTag"]).late = true := by decide
    have hgroup : mergeGroup (target :: next :: rest) =
        ((next :: rest).foldl recursiveMerge target).put ["emergency", "csvSourceTag"]
          (.string "merged") := rfl
    apply identityOf_of_get
    rw [← hget, hgroup, VpnServerRecord.get, VpnServerRecord.get, VpnServerRecord.put,
      VpnServerRecord.written, htag]
    rfl

/-- **The records of an address are made of the rows of that address.** -/
theorem filter_recordsOfGroups
    (h : ∀ r ∈ parsed, r.WellFormed ∧ identityOf r "ip" ≠ "") (ip : String) :
    (recordsOfGroups parsed (LinkedMap.group (identityOf · "ip") parsed)).filter
        (identityOf · "ip" = ip) =
      if parsed.filter (identityOf · "ip" = ip) = [] then []
      else [mergeGroup (parsed.filter (identityOf · "ip" = ip))] := by
  unfold recordsOfGroups
  by_cases hsize : (LinkedMap.group (identityOf · "ip") parsed).length = parsed.length
  · -- every group has one record
    rw [if_pos hsize]
    have hone := (LinkedMap.length_group (identityOf · "ip") parsed).2 hsize ip
    match parsed.filter (identityOf · "ip" = ip), hone with
    | [], _ => rfl
    | [record], _ => rfl
    | _ :: _ :: _, hone => simp at hone
  · rw [if_neg hsize]
    apply LinkedMap.filter_map_group
    intro key hne
    have hmem : ∀ r ∈ parsed.filter (identityOf · "ip" = key),
        r ∈ parsed ∧ identityOf r "ip" = key :=
      fun r hr => by simpa using List.mem_filter.mp hr
    have hkey : key ≠ "" := by
      obtain ⟨r, hr⟩ := List.exists_mem_of_ne_nil _ hne
      obtain ⟨hparsed, hsame⟩ := hmem r hr
      rw [← hsame]
      exact (h r hparsed).2
    exact identityOf_mergeGroup hkey hne fun r hr => ⟨(h r (hmem r hr).1).1, (hmem r hr).2⟩

end Deduplicate

/-! ### The whole file -/

/-- The records of the loop are those of the accepted rows. -/
theorem mem_parsedOf : r ∈ (parsedOf p file source).parsed ↔
      ∃ row ∈ file.rows, (rowResult p file.columns source row).2 = some r :=
  List.mem_filterMap

/-- What is known of the records of the loop. -/
theorem parsedOf_valid (h : r ∈ (parsedOf p file source).parsed) :
    p.validIp (identityOf r "ip") = .ok true ∧ identityOf r "ip" ≠ "" ∧ r.WellFormed := by
  obtain ⟨row, _, hrow⟩ := mem_parsedOf.mp h
  cases hverdict : verdict p file.columns row with
  | none =>
    obtain ⟨ip, issues, r', hip, -, hresult, ⟨remotes, hbuilt⟩, -, hsame, -⟩ :=
      rowResult_of_accepted source hverdict
    rw [hresult] at hrow
    obtain rfl := Option.some.inj hrow
    rw [hsame]
    exact ⟨(validIp_of_ipOf hip).1, (validIp_of_ipOf hip).2, hbuilt.wellFormed⟩
  | some issue =>
    rw [(rowResult_of_rejected source hverdict).1] at hrow
    cases hrow

/-- The host names that are normalized once more are those of the accepted rows. -/
theorem exists_hostOverflows :
    (∃ r ∈ (parsedOf p file source).parsed, p.HostOverflows (identityOf r "hostname")) ↔
      ∃ row ∈ file.rows, verdict p file.columns row = none ∧
        p.HostOverflows (p.hostOf (field p file.columns row "HostName")) := by
  constructor
  · rintro ⟨r, hr, hlong⟩
    obtain ⟨row, hmem, hrow⟩ := mem_parsedOf.mp hr
    cases hverdict : verdict p file.columns row with
    | none =>
      obtain ⟨ip, issues, r', -, -, hresult, -, hhost, -⟩ := rowResult_of_accepted source hverdict
      rw [hresult] at hrow
      obtain rfl := Option.some.inj hrow
      rw [hhost] at hlong
      exact ⟨row, hmem, hverdict, hlong⟩
    | some issue =>
      rw [(rowResult_of_rejected source hverdict).1] at hrow
      cases hrow
  · rintro ⟨row, hmem, hverdict, hlong⟩
    obtain ⟨ip, issues, r, -, -, hresult, -, hhost, -⟩ := rowResult_of_accepted source hverdict
    refine ⟨r, mem_parsedOf.mpr ⟨row, hmem, by rw [hresult]⟩, ?_⟩
    rw [hhost]
    exact hlong

/-- **`parse` of a file that passes the checks.** -/
theorem parseFile_returns (file : File) (source : String) :
    Returns (parseFile p file source) (∃ row ∈ file.rows, RowOverflows p file.columns row)
      (resultOf p file source) := by
  have hloop := Returns.foldlM file.rows
    ⟨[], 0, IssueCounter.addAll [] ((file.columns.filter (· ∉ ALL_COLUMNS)).map fun _ =>
      .unknownColumn)⟩
    fun s row _ => parseRow_returns (p := p) file.columns source s row
  rw [foldl_add] at hloop
  have hbehind : (⟨[] ++ file.rows.filterMap fun row => (rowResult p file.columns source row).2,
      0 + file.rows.countP fun row => (rowResult p file.columns source row).2.isNone,
      (IssueCounter.addAll [] ((file.columns.filter (· ∉ ALL_COLUMNS)).map fun _ =>
        .unknownColumn)).addAll
          (file.rows.flatMap fun row => (rowResult p file.columns source row).1)⟩ : Parsed) =
      parsedOf p file source := by
    rw [List.nil_append, Nat.zero_add]
    rfl
  rw [hbehind] at hloop
  have hrest : Returns
      (if (parsedOf p file source).parsed.isEmpty then
        .ok (.malformed "no record passed required-field validation")
      else deduplicate p (parsedOf p file source).parsed (parsedOf p file source).issues >>=
        fun deduped => .ok (conclude (parsedOf p file source).rejected deduped))
      (∃ r ∈ (parsedOf p file source).parsed, p.HostOverflows (identityOf r "hostname"))
      (resultOf p file source) := by
    unfold resultOf
    dsimp only
    by_cases hempty : (parsedOf p file source).parsed.isEmpty = true
    · rw [if_pos hempty, if_pos hempty]
      refine (Returns.ok _).mono (iff_false_intro ?_)
      rintro ⟨r, hr, -⟩
      rw [List.isEmpty_iff.mp hempty] at hr
      exact List.not_mem_nil hr
    · rw [if_neg hempty, if_neg hempty]
      exact (deduplicate_returns (fun r hr => (parsedOf_valid hr).1) _).map
        (conclude (parsedOf p file source).rejected) rfl
  refine (hloop.bind hrest).mono ?_
  rw [exists_hostOverflows]
  -- a row throws when it is read, or when it is normalized once more
  constructor
  · rintro ⟨row, hmem, hsize, hfields | ⟨hverdict, hlong⟩⟩
    · exact Or.inl ⟨row, hmem, hsize, hfields⟩
    · exact Or.inr ⟨row, hmem, hverdict, hlong⟩
  · rintro (⟨row, hmem, hsize, hfields⟩ | ⟨row, hmem, hverdict, hlong⟩)
    · exact ⟨row, hmem, hsize, Or.inl hfields⟩
    · refine ⟨row, hmem, ?_, Or.inr ⟨hverdict, hlong⟩⟩
      unfold verdict at hverdict
      split_ifs at hverdict with hsize
      exact not_not.mp hsize

/-- **`parse`** throws exactly at the texts with a row that does. -/
theorem parse_returns (text source : String) :
    ∃ result, Returns (parse p text source) (Overflowing p text) result ∧
      ∀ file ∈ checked p text, result = resultOf p file source := by
  unfold Overflowing checked parse
  cases structureOf p text with
  | error reason => exact ⟨.malformed reason, (Returns.ok _).mono (by simp), by simp⟩
  | ok file =>
    dsimp only
    cases hschema : schemaError p file with
    | some reason => exact ⟨.malformed reason, (Returns.ok _).mono (by simp), by simp⟩
    | none =>
      exact ⟨resultOf p file source, (parseFile_returns file source).mono (by simp), by simp⟩

end EmergencyCsvParser

end SoftEther.Parser
