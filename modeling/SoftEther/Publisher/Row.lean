import SoftEther.Publisher.Text

namespace SoftEther.Publisher

open Lib

/-!
# Rows of the publisher (`sanitize_row`)

A row has the 29 columns of the emergency file, by kind. The marks of a run (`_healthy` and the
like) are not columns.

* `Column`, `COLUMNS` — the columns, in their order;
* `Row`, `Row.cell` — a row, and the text that stands for one of its values;
* `splitSstpEndpoint`, `sanitizeRow` — the functions of the source;
* `Sanitized`, `sanitizeRow_sanitized` — what `sanitize_row` returns;
* `Sanitized.sanitizeRow_cell` — read from its own cells, such a row is returned again.
-/

/-! ### Columns -/

/-- `TEXT_COLUMNS`. -/
inductive TextColumn
  | HostName | IP | CountryLong | CountryShort | LogType | Operator | Message
  | OpenVPN_ConfigData_Base64 | SSTP_Hostname
  deriving DecidableEq, Repr

/-- `INT_COLUMNS`. -/
inductive IntColumn
  | Score | Ping | Speed | NumVpnSessions | Uptime | TotalUsers | TotalTraffic | FirstSeenAt
  | LastSeenAt
  deriving DecidableEq, Repr

/-- `PORT_COLUMNS`. -/
inductive PortColumn
  | SE_TCP_Port | SE_UDP_Port | OpenVPN_TCP_Port | OpenVPN_UDP_Port | SSTP_Port
  deriving DecidableEq, Repr

/-- `BOOL_COLUMNS`. -/
inductive BoolColumn
  | SE_UDP_Supported | L2TP_Supported | SSTP_Supported | Has_IPv6
  deriving DecidableEq, Repr

/-- The columns of the file, by what they hold. -/
inductive Column
  | text (c : TextColumn)
  | int (c : IntColumn)
  | port (c : PortColumn)
  | flag (c : BoolColumn)
  | schema_version
  | SourceTag
  deriving DecidableEq, Repr

/-- `COLUMNS`. -/
def COLUMNS : List Column :=
  [.text .HostName, .text .IP, .int .Score, .int .Ping, .int .Speed, .text .CountryLong,
    .text .CountryShort, .int .NumVpnSessions, .int .Uptime, .int .TotalUsers,
    .int .TotalTraffic, .text .LogType, .text .Operator, .text .Message,
    .text .OpenVPN_ConfigData_Base64, .schema_version, .port .SE_TCP_Port,
    .flag .SE_UDP_Supported, .port .SE_UDP_Port, .port .OpenVPN_TCP_Port,
    .port .OpenVPN_UDP_Port, .flag .L2TP_Supported, .flag .SSTP_Supported,
    .text .SSTP_Hostname, .port .SSTP_Port, .flag .Has_IPv6, .int .FirstSeenAt,
    .int .LastSeenAt, .SourceTag]

def TextColumn.name : TextColumn → String
  | HostName => "HostName"
  | IP => "IP"
  | CountryLong => "CountryLong"
  | CountryShort => "CountryShort"
  | LogType => "LogType"
  | Operator => "Operator"
  | Message => "Message"
  | OpenVPN_ConfigData_Base64 => "OpenVPN_ConfigData_Base64"
  | SSTP_Hostname => "SSTP_Hostname"

def IntColumn.name : IntColumn → String
  | Score => "Score"
  | Ping => "Ping"
  | Speed => "Speed"
  | NumVpnSessions => "NumVpnSessions"
  | Uptime => "Uptime"
  | TotalUsers => "TotalUsers"
  | TotalTraffic => "TotalTraffic"
  | FirstSeenAt => "FirstSeenAt"
  | LastSeenAt => "LastSeenAt"

def PortColumn.name : PortColumn → String
  | SE_TCP_Port => "SE_TCP_Port"
  | SE_UDP_Port => "SE_UDP_Port"
  | OpenVPN_TCP_Port => "OpenVPN_TCP_Port"
  | OpenVPN_UDP_Port => "OpenVPN_UDP_Port"
  | SSTP_Port => "SSTP_Port"

def BoolColumn.name : BoolColumn → String
  | SE_UDP_Supported => "SE_UDP_Supported"
  | L2TP_Supported => "L2TP_Supported"
  | SSTP_Supported => "SSTP_Supported"
  | Has_IPv6 => "Has_IPv6"

/-- The name of a column. -/
def Column.name : Column → String
  | text c => c.name
  | int c => c.name
  | port c => c.name
  | flag c => c.name
  | schema_version => "schema_version"
  | SourceTag => "SourceTag"

/-- Every column is one of the 29. -/
theorem mem_COLUMNS (c : Column) : c ∈ COLUMNS := by
  cases c with
  | text c => cases c <;> decide
  | int c => cases c <;> decide
  | port c => cases c <;> decide
  | flag c => cases c <;> decide
  | schema_version => decide
  | SourceTag => decide

/-- The columns have names of their own. -/
theorem nodup_names : (COLUMNS.map Column.name).Nodup := by decide

/-! ### Rows -/

/-- `REQUIRED_COLUMNS`. -/
def REQUIRED_COLUMNS : List String := ["HostName", "IP", "schema_version", "SourceTag"]

/-- `SCHEMA_VERSION`. -/
def SCHEMA_VERSION : Text := "1.0".toList

/-- `SOURCE_TAGS`. -/
def SOURCE_TAGS : List Text := ["api_iphone".toList, "html_parse".toList, "merged".toList]

/-- **A row**, by kind of column. -/
@[ext] structure Row where
  text : TextColumn → Text
  int : IntColumn → Option ℤ
  port : PortColumn → Port
  flag : BoolColumn → Bool
  schemaVersion : Text
  sourceTag : Text

/-- `_cell`, of the value in a column. -/
def Row.cell (row : Row) : Column → Text
  | .text c => row.text c
  | .int c => Python.optInteger (row.int c)
  | .port c => Nat.toDigits 10 (row.port c).val
  | .flag c => if row.flag c then "true".toList else "false".toList
  | .schema_version => row.schemaVersion
  | .SourceTag => row.sourceTag

variable (py : Python)

/-- `[A-Za-z0-9._-]`. -/
def isHostChar (c : Char) : Bool := c.isAlphanum || c = '.' || c = '_' || c = '-'

/-- What stands behind the first colon; `$` allows a line break at the end. -/
def sstpSuffix (s : Text) : Text :=
  let rest := (s.dropWhile (· ≠ ':')).tail
  if rest.getLast? = some '\n' then rest.dropLast else rest

/-- `SSTP_HOST_PORT_RE.match`: the host and the digits. -/
def matchSstpHostPort (s : Text) : Option (Text × Text) :=
  let host := s.takeWhile (· ≠ ':')
  let digits := sstpSuffix s
  if ':' ∈ s ∧ host ≠ [] ∧ host.all isHostChar ∧ 1 ≤ digits.length ∧ digits.length ≤ 5 ∧
      digits.all py.isDecimal then
    some (host, digits)
  else none

/-- `split_sstp_endpoint`. -/
def splitSstpEndpoint (hostText : Text) (portValue : Port) : Text × Port :=
  match matchSstpHostPort py hostText with
  | none => (hostText, portValue)
  | some (host, digits) =>
    if 0 < portValue.val then (host, portValue)
    else if h : 1 ≤ py.number digits ∧ py.number digits ≤ 65535 then
      (host, ⟨py.number digits, by omega⟩)
    else (host, portValue)

/-- `[A-Z]{2}` as a whole text. -/
def isCountry (s : Text) : Bool := s.length = 2 && s.all Char.isUpper

/-- What `sanitize_row` writes to a text column. -/
def sanitizeText (raw : Column → Value) : TextColumn → Text
  | .IP => py.normalizeIp (raw (.text .IP))
  | .CountryShort =>
    let short := py.upper (cleanText (raw (.text .CountryShort)))
    if isCountry short then short else []
  | .OpenVPN_ConfigData_Base64 =>
    let b64 := (cleanText (raw (.text .OpenVPN_ConfigData_Base64))).filter (· ≠ ' ')
    if py.validBase64 b64 then b64 else []
  | .SSTP_Hostname =>
    (splitSstpEndpoint py (cleanText (raw (.text .SSTP_Hostname)))
      (py.toPort (raw (.port .SSTP_Port)))).1
  | c => cleanText (raw (.text c))

/-- What `sanitize_row` writes to a port column. -/
def sanitizePort (raw : Column → Value) : PortColumn → Port
  | .SSTP_Port =>
    (splitSstpEndpoint py (cleanText (raw (.text .SSTP_Hostname)))
      (py.toPort (raw (.port .SSTP_Port)))).2
  | c => py.toPort (raw (.port c))

/-- What `sanitize_row` writes to a flag. -/
def sanitizeFlag (raw : Column → Value) (c : BoolColumn) : Bool :=
  match raw (.flag c) with
  | .bool b => b
  | value => py.toBool value

/-- `sanitize_row`; `raw` is `row.get`. -/
def sanitizeRow (raw : Column → Value) : Option Row :=
  let ip := py.normalizeIp (raw (.text .IP))
  let host := cleanText (raw (.text .HostName))
  if ip = [] ∨ py.normalizeHost (.str host) = [] then none
  else
    let tag := cleanText (raw .SourceTag)
    some
      { text := sanitizeText py raw
        int := fun c => py.toIntOrNone (raw (.int c))
        port := sanitizePort py raw
        flag := sanitizeFlag py raw
        schemaVersion := SCHEMA_VERSION
        sourceTag := if tag ∈ SOURCE_TAGS then tag else "html_parse".toList }

/-! ### What `sanitize_row` returns -/

/-- **A row that `sanitize_row` returns.** -/
structure Sanitized (row : Row) : Prop where
  cleaned : ∀ c, Cleaned (row.text c)
  ip : Python.DottedQuad (row.text .IP)
  host : py.normalizeHost (.str (row.text .HostName)) ≠ []
  country : isCountry (row.text .CountryShort) = true ∨ row.text .CountryShort = []
  base64 : ' ' ∉ row.text .OpenVPN_ConfigData_Base64 ∧
    (py.validBase64 (row.text .OpenVPN_ConfigData_Base64) = true ∨
      row.text .OpenVPN_ConfigData_Base64 = [])
  sstp : matchSstpHostPort py (row.text .SSTP_Hostname) = none
  schema : row.schemaVersion = SCHEMA_VERSION
  tag : row.sourceTag ∈ SOURCE_TAGS

variable {py}

variable {s : Text} {row : Row}

/-- The host of a match. -/
theorem matchSstpHostPort_some {m : Text × Text} (h : matchSstpHostPort py s = some m) :
    m.1 = s.takeWhile (· ≠ ':') ∧ m.1.all isHostChar = true := by
  unfold matchSstpHostPort at h
  dsimp only at h
  split_ifs at h with hmatch
  obtain rfl := Option.some.inj h
  exact ⟨rfl, hmatch.2.2.1⟩

/-- The host of a match has no port of its own. -/
theorem matchSstpHostPort_host {m : Text × Text} (h : matchSstpHostPort py s = some m) :
    matchSstpHostPort py m.1 = none := by
  rw [(matchSstpHostPort_some h).1]
  have hcolon : ':' ∉ s.takeWhile (· ≠ ':') := by
    intro hc
    have := List.mem_takeWhile_imp hc
    simp at this
  unfold matchSstpHostPort
  dsimp only
  rw [if_neg (fun hm => hcolon hm.1)]

/-- What is split once stays as it is. -/
theorem matchSstpHostPort_split (hostText : Text) (portValue : Port) :
    matchSstpHostPort py (splitSstpEndpoint py hostText portValue).1 = none := by
  unfold splitSstpEndpoint
  cases hmatch : matchSstpHostPort py hostText with
  | none => exact hmatch
  | some m =>
    have hhost := matchSstpHostPort_host hmatch
    dsimp only
    split_ifs <;> exact hhost

/-- The split leaves the text, or a part of it without spaces. -/
theorem splitSstpEndpoint_cleaned {hostText : Text} (h : Cleaned hostText) (portValue : Port) :
    Cleaned (splitSstpEndpoint py hostText portValue).1 := by
  unfold splitSstpEndpoint
  cases hmatch : matchSstpHostPort py hostText with
  | none => exact h
  | some m =>
    have hhost : Cleaned m.1 := by
      obtain ⟨hpart, hall⟩ := matchSstpHostPort_some hmatch
      refine Cleaned.of_solid fun c hc => ?_
      have hchar := List.all_eq_true.mp hall c hc
      rw [hpart] at hc
      have hmem := (List.takeWhile_sublist _).subset hc
      refine ⟨?_, h.visible c hmem⟩
      by_contra hspace
      rw [Bool.not_eq_false] at hspace
      rw [h.eq_blank hmem hspace] at hchar
      exact absurd hchar (by decide)
    dsimp only
    split_ifs <;> exact hhost

/-- Two capital letters are a cleaned text that `upper` leaves alone. -/
theorem isCountry_spec (h : isCountry s = true) :
    Cleaned s ∧ IsAscii s ∧ s.map Char.toUpper = s := by
  simp only [isCountry, Bool.and_eq_true, List.all_eq_true] at h
  have hupper : ∀ c ∈ s, 65 ≤ c.toNat ∧ c.toNat ≤ 90 := by
    intro c hc
    have hc' : 'A'.val ≤ c.val ∧ c.val ≤ 'Z'.val := of_decide_eq_true (h.2 c hc)
    exact ⟨hc'.1, hc'.2⟩
  refine ⟨Cleaned.of_solid fun c hc => ?_, fun c hc => ?_, ?_⟩
  · have := hupper c hc
    constructor
    · simp [isSpace]
      omega
    · omega
  · have := hupper c hc
    omega
  · refine (List.map_congr_left fun c hc => ?_).trans (List.map_id s)
    have := hupper c hc
    unfold Char.toUpper
    rw [dif_neg]
    · rfl
    · rintro ⟨hlow, -⟩
      have hlow' : 97 ≤ c.toNat := hlow
      omega

theorem sanitizeText_ip (raw : Column → Value) :
    sanitizeText py raw .IP = py.normalizeIp (raw (.text .IP)) := rfl

theorem sanitizeText_host (raw : Column → Value) :
    sanitizeText py raw .HostName = cleanText (raw (.text .HostName)) := rfl

/-- The texts are cleaned. -/
theorem sanitizeText_cleaned (raw : Column → Value) (hip : py.normalizeIp (raw (.text .IP)) ≠ [])
    (c : TextColumn) : Cleaned (sanitizeText py raw c) := by
  cases c with
  | IP => exact (Python.normalizeIp_dottedQuad hip).cleaned
  | CountryShort =>
    simp only [sanitizeText]
    split_ifs with hcountry
    · exact (isCountry_spec hcountry).1
    · exact Cleaned.nil
  | OpenVPN_ConfigData_Base64 =>
    simp only [sanitizeText]
    split_ifs
    · exact (cleanText_cleaned _).of_filter
    · exact Cleaned.nil
  | SSTP_Hostname => exact splitSstpEndpoint_cleaned (cleanText_cleaned _) _
  | HostName => exact cleanText_cleaned _
  | CountryLong => exact cleanText_cleaned _
  | LogType => exact cleanText_cleaned _
  | Operator => exact cleanText_cleaned _
  | Message => exact cleanText_cleaned _

theorem sanitizeText_country (raw : Column → Value) :
    isCountry (sanitizeText py raw .CountryShort) = true ∨
      sanitizeText py raw .CountryShort = [] := by
  simp only [sanitizeText]
  split_ifs with hcountry
  · exact Or.inl hcountry
  · exact Or.inr rfl

theorem sanitizeText_base64 (raw : Column → Value) :
    ' ' ∉ sanitizeText py raw .OpenVPN_ConfigData_Base64 ∧
      (py.validBase64 (sanitizeText py raw .OpenVPN_ConfigData_Base64) = true ∨
        sanitizeText py raw .OpenVPN_ConfigData_Base64 = []) := by
  simp only [sanitizeText]
  split_ifs with hvalid
  · refine ⟨fun hc => ?_, Or.inl hvalid⟩
    exact absurd (List.mem_filter.mp hc).2 (by decide)
  · exact ⟨List.not_mem_nil, Or.inr rfl⟩

/-- **What `sanitize_row` returns.** -/
theorem sanitizeRow_sanitized {raw : Column → Value} (h : sanitizeRow py raw = some row) :
    Sanitized py row := by
  unfold sanitizeRow at h
  dsimp only at h
  by_cases hreject : py.normalizeIp (raw (.text .IP)) = [] ∨
      py.normalizeHost (.str (cleanText (raw (.text .HostName)))) = []
  · rw [if_pos hreject] at h
    cases h
  rw [if_neg hreject, Option.some.injEq] at h
  rw [not_or] at hreject
  have htext : row.text = sanitizeText py raw := by rw [← h]
  have htag : (if cleanText (raw .SourceTag) ∈ SOURCE_TAGS then cleanText (raw .SourceTag)
      else "html_parse".toList) ∈ SOURCE_TAGS := by
    split_ifs with htag
    · exact htag
    · decide
  constructor
  case cleaned =>
    rw [htext]
    exact sanitizeText_cleaned raw hreject.1
  case ip =>
    rw [htext, sanitizeText_ip]
    exact Python.normalizeIp_dottedQuad hreject.1
  case host =>
    rw [htext, sanitizeText_host]
    exact hreject.2
  case country =>
    rw [htext]
    exact sanitizeText_country raw
  case base64 =>
    rw [htext]
    exact sanitizeText_base64 raw
  case sstp =>
    rw [htext]
    exact matchSstpHostPort_split _ _
  case schema => rw [← h]
  case tag =>
    rw [← h]
    exact htag

/-! ### A row is read back from its cells -/

theorem validBase64_nil : py.validBase64 [] = false := rfl

/-- The texts of a row are read back. -/
theorem Sanitized.sanitizeText_cell (h : Sanitized py row) (c : TextColumn) :
    sanitizeText py (fun c => .str (row.cell c)) c = row.text c := by
  have hclean : ∀ c, cleanText (.str (row.text c)) = row.text c :=
    fun c => (h.cleaned c).cleanStr_eq
  cases c with
  | IP => exact h.ip.normalizeIp_eq
  | CountryShort =>
    show (if isCountry (py.upper (cleanText (.str (row.text .CountryShort)))) then _ else _) = _
    rw [hclean]
    rcases h.country with hcountry | hnil
    · obtain ⟨-, hascii, hupper⟩ := isCountry_spec hcountry
      show (if isCountry (py.upper (row.text .CountryShort)) then
        py.upper (cleanText (.str (row.text .CountryShort))) else _) = _
      rw [hclean, py.upper_ascii _ hascii, hupper, if_pos hcountry]
    · rw [hnil, py.upper_ascii [] (by simp [IsAscii])]
      rfl
  | OpenVPN_ConfigData_Base64 =>
    have hsolid : (cleanText (.str (row.text .OpenVPN_ConfigData_Base64))).filter (· ≠ ' ') =
        row.text .OpenVPN_ConfigData_Base64 := by
      rw [hclean, List.filter_eq_self]
      intro c hc
      rw [decide_eq_true_eq]
      rintro rfl
      exact h.base64.1 hc
    show (if py.validBase64 ((cleanText (.str (row.text .OpenVPN_ConfigData_Base64))).filter
      (· ≠ ' ')) then (cleanText (.str (row.text .OpenVPN_ConfigData_Base64))).filter (· ≠ ' ')
      else []) = _
    rw [hsolid]
    rcases h.base64.2 with hvalid | hnil
    · rw [if_pos hvalid]
    · rw [hnil, validBase64_nil]
      rfl
  | SSTP_Hostname =>
    show (splitSstpEndpoint py (cleanText (.str (row.text .SSTP_Hostname))) _).1 = _
    rw [hclean, splitSstpEndpoint, h.sstp]
  | HostName => exact hclean .HostName
  | CountryLong => exact hclean .CountryLong
  | LogType => exact hclean .LogType
  | Operator => exact hclean .Operator
  | Message => exact hclean .Message

theorem Sanitized.sanitizePort_cell (h : Sanitized py row) (c : PortColumn) :
    sanitizePort py (fun c => .str (row.cell c)) c = row.port c := by
  have hport : ∀ c, py.toPort (.str (row.cell (.port c))) = row.port c :=
    fun c => Python.toPort_toDigits (row.port c)
  cases c with
  | SSTP_Port =>
    have hclean : cleanText (.str (row.text .SSTP_Hostname)) = row.text .SSTP_Hostname :=
      (h.cleaned _).cleanStr_eq
    show (splitSstpEndpoint py (cleanText (.str (row.text .SSTP_Hostname)))
      (py.toPort (.str (row.cell (.port .SSTP_Port))))).2 = _
    rw [hclean, hport, splitSstpEndpoint, h.sstp]
  | SE_TCP_Port => exact hport .SE_TCP_Port
  | SE_UDP_Port => exact hport .SE_UDP_Port
  | OpenVPN_TCP_Port => exact hport .OpenVPN_TCP_Port
  | OpenVPN_UDP_Port => exact hport .OpenVPN_UDP_Port

/-- The tags are cleaned texts. -/
theorem cleanStr_tag {tag : Text} (h : tag ∈ SOURCE_TAGS) : cleanStr tag = tag := by
  have hall : ∀ tag ∈ SOURCE_TAGS, cleanStr tag = tag := by decide
  exact hall tag h

theorem Sanitized.ip_ne (h : Sanitized py row) : row.text .IP ≠ [] := by
  obtain ⟨octets, hlen, -, heq⟩ := h.ip
  intro hnil
  rw [heq] at hnil
  have hsplit := Python.splitOn_dottedQuad hlen
  rw [hnil, List.splitOn_nil] at hsplit
  have hlength := congrArg List.length hsplit
  rw [List.length_map, hlen] at hlength
  cases hlength

/-- **Read from its own cells, a row is returned again.** -/
theorem Sanitized.sanitizeRow_cell (h : Sanitized py row) :
    sanitizeRow py (fun c => .str (row.cell c)) = some row := by
  have hip : py.normalizeIp (.str (row.text .IP)) = row.text .IP := h.ip.normalizeIp_eq
  have hhost : cleanText (.str (row.text .HostName)) = row.text .HostName :=
    (h.cleaned _).cleanStr_eq
  have htag : cleanText (.str row.sourceTag) = row.sourceTag := cleanStr_tag h.tag
  have hcell : row.cell .SourceTag = row.sourceTag := rfl
  have hcellIp : row.cell (.text .IP) = row.text .IP := rfl
  have hcellHost : row.cell (.text .HostName) = row.text .HostName := rfl
  have hint : (fun c => py.toIntOrNone (.str (row.cell (.int c)))) = row.int :=
    funext fun c => Python.toIntOrNone_optInteger (row.int c)
  have hflag : sanitizeFlag py (fun c => .str (row.cell c)) = row.flag :=
    funext fun c => Python.toBool_text (row.flag c)
  unfold sanitizeRow
  dsimp only
  rw [if_neg]
  · rw [Option.some.injEq]
    refine Row.ext ?_ ?_ ?_ ?_ h.schema.symm ?_
    · exact funext h.sanitizeText_cell
    · exact hint
    · exact funext h.sanitizePort_cell
    · exact hflag
    · rw [hcell, htag, if_pos h.tag]
  · rw [not_or, hcellIp, hcellHost, hip, hhost]
    exact ⟨h.ip_ne, h.host⟩

end SoftEther.Publisher
