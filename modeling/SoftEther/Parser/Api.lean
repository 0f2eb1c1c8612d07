import SoftEther.Parser.CsvLines
import SoftEther.Parser.RowWrites

namespace SoftEther.Parser

open Lib
open SoftEther.Merger
open VpnServerRecord (fieldPaths)

/-!
# The feed of the API (`VpnGateApiParser.parseApi`)

A row of the feed has fifteen columns. The free texts `Operator` and `Message` are not quoted, so
a comma in them makes more fields of the row. A row with too many fields is put together again from
both ends, one with too few is filled up at its end.

* `repairedValues`, `buildServer`, `parseApi` — the function of the source;
* `ApiRow`, `ApiBody` — the rows of a feed, of which only the free texts have commas, and its text;
* `repairedValues_line` — what the repair makes of such a row;
* `apiColumns`, `buildServer_eq`, `get_rowRecord` — what a row writes into its record;
* `parseApi_recovers` — a feed is read as the rows that it was written from.
-/

/-! ### The function of the source -/

namespace VpnGateApiParser

open EmergencyCsvParser (indexByName isPositive)

/-- The columns of a whole record. -/
def CANONICAL_COLUMNS : ℕ := 15

variable (p : Platform)

/-- `Regex("^\\s*#?HostName\\s*,").containsMatchIn`. -/
def isApiHeader (line : List Char) : Bool :=
  let named :=
    match line.dropWhile p.regexSpace with
    | '#' :: cs => cs
    | cs => cs
  match named.dropPrefix? "HostName".toList with
  | none => false
  | some rest => (rest.dropWhile p.regexSpace).head? = some ','

/-- `findApiHeader`; `none` is the source's `-1`. -/
def findApiHeader (lines : List (List Char)) : Option ℕ := lines.findIdx? (isApiHeader p)

/-- `repairedValues`. -/
def repairedValues (orderedValues : List String) : List String :=
  if CANONICAL_COLUMNS < orderedValues.length then
    orderedValues.take 12 ++
      [orderedValues.getD 12 "", ",".intercalate (orderedValues.drop 13).dropLast,
        orderedValues.getLast?.getD ""]
  else orderedValues ++ List.replicate (CANONICAL_COLUMNS - orderedValues.length) ""

/-- `row[name]`: the last column of that name; a missing one reads as an empty text does. -/
def cell (fieldnames values : List String) (name : String) : String :=
  match indexByName fieldnames name with
  | none => ""
  | some index => values.getD index ""

/-- A positive number, in other units. -/
def setScaled (r : VpnServerRecord) (path : Path) (value divisor : BitVec 64) (source : String) :
    VpnServerRecord :=
  if isPositive value then setField r path (.double (p.divide value divisor)) source else r

/-- The columns in front of the profile. -/
def describeServer (field : String → String) (hostname ip source : String) : VpnServerRecord :=
  let r := setField newServer ["identity", "hostname"] (.string (p.lowercase hostname)) source
  let r := setField r ["identity", "ip"] (.string ip) source
  let r := setField r ["identity", "country"] (.string (p.clean (field "CountryShort"))) source
  let r := setField r ["identity", "countryLong"] (.string (p.clean (field "CountryLong"))) source
  let r := setField r ["performance", "score"] (.int (p.toInt (field "Score"))) source
  let r := setField r ["performance", "pingMs"] (.double (p.toFloat (field "Ping"))) source
  -- 1_000_000.0, 86_400_000.0 and 1024.0 * 1024.0 * 1024.0
  let r := setScaled p r ["performance", "speedMbps"] (p.toFloat (field "Speed"))
    0x412E848000000000 source
  let r := setField r ["performance", "sessions"] (.int (p.toInt (field "NumVpnSessions"))) source
  let r := setScaled p r ["performance", "uptimeDays"] (p.toFloat (field "Uptime"))
    0x4194997000000000 source
  let r := setField r ["performance", "totalUsers"] (.int (p.toInt (field "TotalUsers"))) source
  let r := setScaled p r ["performance", "totalTrafficGB"] (p.toFloat (field "TotalTraffic"))
    0x41D0000000000000 source
  let r := setField r ["logging", "policy"] (.string (p.clean (field "LogType"))) source
  let r := setField r ["operator", "name"] (.string (p.clean (field "Operator"))) source
  setField r ["operator", "message"] (.string (p.clean (field "Message"))) source

/-- `OpenVpnConfigParser.decode(configB64)`, if there is a value. -/
def configOf (field : String → String) : Option Merger.OpenVpnConfigParser.Decoded :=
  let configB64 := p.clean (field "OpenVPN_ConfigData_Base64")
  if configB64 = "" then none else some (OpenVpnConfigParser.decode p configB64)

/-- One row, which is left out for its host name or its address. -/
def buildServer (source : String) (field : String → String) :
    Except NumberFormatException (Option VpnServerRecord) :=
  let hostname := p.clean (field "HostName")
  p.normalizeIp (field "IP") >>= fun ip =>
    if hostname = "" then .ok none
    else
      p.validIp ip >>= fun valid =>
        if valid = false then .ok none
        else
          .ok (some (sourceAdd
            (openVpnOfRow (describeServer p field hostname ip source) (configOf p field) source)
            source))

/-- The loop over the rows, each as what it has in a column. -/
def buildServers (source : String) :
    List (String → String) → Except NumberFormatException (List VpnServerRecord)
  | [] => .ok []
  | field :: fields =>
    buildServer p source field >>= fun server =>
      buildServers source fields >>= fun servers => .ok (server.toList ++ servers)

/-- `parseApi`. -/
def parseApi (text : List Char) (source : String) :
    Except NumberFormatException (List VpnServerRecord) :=
  let lines := textLines text
  match findApiHeader p lines with
  | none => .ok []
  | some headerIndex =>
    let csvText := (['\n'].intercalate (lines.drop headerIndex)).dropWhile p.isWhitespace
    let csvText :=
      match csvText with
      | '#' :: cs => cs
      | cs => cs
    match splitCsvRecords csvText with
    | [] => .ok []
    | fieldnames :: dataRecords =>
      buildServers p source (dataRecords.map fun values => cell fieldnames (repairedValues values))

end VpnGateApiParser

/-! ### Feeds -/

open VpnGateApiParser

/-- The columns of the feed. -/
def API_COLUMNS : List String :=
  ["HostName", "IP", "Score", "Ping", "Speed", "CountryLong", "CountryShort", "NumVpnSessions",
    "Uptime", "TotalUsers", "TotalTraffic", "LogType", "Operator", "Message",
    "OpenVPN_ConfigData_Base64"]

/-- **A row of the feed**, without quotes. Only its two free texts have commas. -/
structure ApiRow where
  /-- The columns in front of `Operator`. -/
  front : List (List Char)
  operator : List Char
  message : List Char
  config : List Char
  front_length : front.length = 12
  plainLines : ∀ value ∈ front ++ [operator, message, config], PlainLine value
  no_comma : ∀ value ∈ config :: front, ',' ∉ value

namespace ApiRow

variable (row : ApiRow)

/-- The fields of a row. -/
def values : List (List Char) := row.front ++ [row.operator, row.message, row.config]

/-- The row as a line. -/
def line : List Char := [','].intercalate row.values

/-- What the row has in a column. -/
def field : String → String := cell API_COLUMNS (row.values.map String.ofList)

/-- What is read of the line in a column. -/
def recovered : String → String := cell API_COLUMNS (repairedValues (plainRecord row.line))

end ApiRow

/-- **A feed**: its lines in front of the header, the header, the rows, and lines without commas
behind them. -/
structure ApiBody where
  newline : List Char
  preamble : List (List Char)
  rows : List ApiRow
  closing : List (List Char)
  newline_mem : newline ∈ newlines
  preamble_unbroken : ∀ line ∈ preamble, Unbroken line
  closing_plain : ∀ line ∈ closing, PlainLine line ∧ ',' ∉ line

/-- The names of the columns as a line. -/
def apiHeader : List Char := [','].intercalate (API_COLUMNS.map String.toList)

/-- The text of a body. -/
def ApiBody.text (body : ApiBody) : List Char :=
  body.newline.intercalate
    (body.preamble ++ ('#' :: apiHeader) :: (body.rows.map ApiRow.line ++ body.closing))

/-! ### The repair of a row -/

theorem splitOn_intercalate_flatMap {ls : List (List Char)} (hne : ls ≠ []) :
    ([','].intercalate ls).splitOn ',' = ls.flatMap fun l => l.splitOn ',' := by
  induction ls with
  | nil => exact absurd rfl hne
  | cons l ls ih =>
    cases ls with
    | nil => simp
    | cons l' ls =>
      rw [List.intercalate_cons_cons, List.append_assoc, List.singleton_append,
        List.splitOn_append_cons_self, ih (by simp)]
      rfl

/-- Fields without commas stay whole. -/
theorem flatMap_splitOn {ls : List (List Char)} (h : ∀ l ∈ ls, ',' ∉ l) :
    (ls.flatMap fun l => l.splitOn ',') = ls := by
  induction ls with
  | nil => rfl
  | cons l ls ih =>
    rw [List.flatMap_cons, List.splitOn_eq_singleton (h l List.mem_cons_self),
      ih fun l hl => h l (List.mem_cons_of_mem _ hl)]
    rfl

theorem toList_intercalate_comma (pieces : List (List Char)) :
    (",".intercalate (pieces.map String.ofList)).toList = [','].intercalate pieces := by
  rw [String.toList_intercalate]
  simp [Function.comp_def]

/-- **The repair** of a row with at least as many fields as there are columns. -/
theorem repairedValues_wide {front middle : List String} (hfront : front.length = 12)
    (hmiddle : middle ≠ []) (first last : String) :
    repairedValues (front ++ first :: (middle ++ [last])) =
      front ++ [first, ",".intercalate middle, last] := by
  have hlength : (front ++ first :: (middle ++ [last])).length = 14 + middle.length := by
    simp [hfront]
    omega
  unfold repairedValues CANONICAL_COLUMNS
  rw [hlength]
  split_ifs with hlong
  · have hget : (front ++ first :: (middle ++ [last])).getD 12 "" = first := by
      rw [List.getD_eq_getElem?_getD, List.getElem?_append_right (by omega), hfront]
      rfl
    have hdrop : (front ++ first :: (middle ++ [last])).drop 13 = middle ++ [last] := by
      rw [List.drop_append, List.drop_eq_nil_of_le (by omega), hfront]
      rfl
    have hlast : (front ++ first :: (middle ++ [last])).getLast? = some last := by
      simp [List.getLast?_append, List.getLast?_cons]
    rw [List.take_append_of_le_length (by omega), List.take_of_length_le (by omega), hget, hdrop,
      List.dropLast_concat, hlast, Option.getD_some]
  · -- No comma too many: the middle is one field, and nothing is filled up.
    obtain ⟨m, rfl⟩ : ∃ m, middle = [m] := by
      apply List.length_eq_one_iff.mp
      have hpos := List.length_pos_iff.mpr hmiddle
      omega
    simp

namespace ApiRow

variable {row : ApiRow}

/-- The pieces of a line: those of the free texts stand between the other columns. -/
theorem plainRecord_line : plainRecord row.line =
    (row.front ++ (row.operator.splitOn ',' ++ (row.message.splitOn ',' ++ [row.config]))).map
      String.ofList := by
  have hfront : (row.front.flatMap fun l => l.splitOn ',') = row.front :=
    flatMap_splitOn fun l hl => row.no_comma l (List.mem_cons_of_mem _ hl)
  have hconfig := List.splitOn_eq_singleton (row.no_comma row.config List.mem_cons_self)
  rw [plainRecord, line, splitOn_intercalate_flatMap (by simp [values]), values,
    List.flatMap_append, hfront]
  simp [hconfig]

/-- **The repaired row**: the first piece of `Operator` is one column, all other pieces of the free
texts are the next one. -/
theorem repairedValues_line {first : List Char} {others : List (List Char)}
    (hoperator : row.operator.splitOn ',' = first :: others) :
    repairedValues (plainRecord row.line) =
      (row.front ++ [first, [','].intercalate (others ++ row.message.splitOn ','),
        row.config]).map String.ofList := by
  have hmiddle : (others ++ row.message.splitOn ',').map String.ofList ≠ [] := by
    simp [List.splitOn_ne_nil]
  have hlength : (row.front.map String.ofList).length = 12 := by
    rw [List.length_map, row.front_length]
  have hwide := repairedValues_wide hlength hmiddle (String.ofList first)
    (String.ofList row.config)
  rw [plainRecord_line, hoperator]
  simp only [List.map_append, List.map_cons, List.map_nil, List.cons_append, List.append_assoc]
    at hwide ⊢
  rw [hwide, ← List.map_append, ← toList_intercalate_comma, String.ofList_toList]

/-- A column that is none of the two free texts. -/
theorem index_of_name {name : String} {i : ℕ} (hoperator : name ≠ "Operator")
    (hmessage : name ≠ "Message") (h : EmergencyCsvParser.indexByName API_COLUMNS name = some i) :
    i ≠ 12 ∧ i ≠ 13 := by
  have hget : API_COLUMNS[i]? = some name := by
    obtain ⟨⟨name', i'⟩, hlast, rfl⟩ := Option.map_eq_some_iff.mp h
    obtain ⟨hmem, hname⟩ := List.mem_filter.mp (List.mem_of_getLast? hlast)
    obtain rfl : name' = name := by simpa using hname
    exact List.mem_zipIdx_iff_getElem?.mp hmem
  constructor
  · rintro rfl
    exact hoperator (Option.some.inj hget).symm
  · rintro rfl
    exact hmessage (Option.some.inj hget).symm

/-- **Every other column is recovered.** -/
theorem recovered_of_ne {name : String} (hoperator : name ≠ "Operator")
    (hmessage : name ≠ "Message") : row.recovered name = row.field name := by
  obtain ⟨first, others, hpieces⟩ :=
    List.exists_cons_of_ne_nil (List.splitOn_ne_nil ',' row.operator)
  unfold recovered field cell
  rw [repairedValues_line hpieces, values]
  cases hindex : EmergencyCsvParser.indexByName API_COLUMNS name with
  | none => rfl
  | some i =>
    obtain ⟨hi, hi'⟩ := index_of_name hoperator hmessage hindex
    have hlength := row.front_length
    simp only [List.getD_eq_getElem?_getD, List.getElem?_map]
    by_cases hfront : i < 12
    · rw [List.getElem?_append_left (by omega), List.getElem?_append_left (by omega)]
    · rw [List.getElem?_append_right (by omega), List.getElem?_append_right (by omega)]
      obtain ⟨j, hj⟩ : ∃ j, i - row.front.length = j + 2 := ⟨i - 14, by omega⟩
      rw [hj]
      rfl

/-- **The free texts are recovered** when the first of them has no comma. -/
theorem recovered_of_no_comma (h : ',' ∉ row.operator) : row.recovered = row.field := by
  have hpieces := List.splitOn_eq_singleton h
  unfold recovered field
  rw [repairedValues_line hpieces, List.nil_append, List.intercalate_splitOn]
  rfl

end ApiRow

/-! ### The text of a feed -/

/-- What is not in the fields of a line and is no comma, is not in the line. -/
theorem plainLine_intercalate {values : List (List Char)} (h : ∀ value ∈ values, PlainLine value) :
    PlainLine ([','].intercalate values) := by
  induction values with
  | nil =>
    intro c hc
    cases hc
  | cons value values ih =>
    have hvalue := h value List.mem_cons_self
    cases values with
    | nil =>
      rw [List.intercalate_singleton]
      exact hvalue
    | cons value' values =>
      have hrest := ih fun v hv => h v (List.mem_cons_of_mem _ hv)
      rw [List.intercalate_cons_cons]
      intro c hc
      rw [List.append_assoc, List.mem_append, List.singleton_append, List.mem_cons] at hc
      obtain hc | rfl | hc := hc
      · exact hvalue c hc
      · decide
      · exact hrest c hc

theorem PlainLine.unbroken {line : List Char} (h : PlainLine line) : Unbroken line := by
  intro c hc
  exact ⟨(h c hc).1, (h c hc).2.1⟩

theorem ApiRow.plainLine (row : ApiRow) : PlainLine row.line := plainLine_intercalate row.plainLines

/-- The names of the columns are plain texts. -/
theorem plain_columns :
    ∀ name ∈ API_COLUMNS.map String.toList, PlainLine name ∧ ',' ∉ name := by
  simp only [API_COLUMNS, List.map_cons, List.map_nil, List.forall_mem_cons]
  decide

theorem plainLine_apiHeader : PlainLine apiHeader :=
  plainLine_intercalate fun name hname => (plain_columns name hname).1

/-- The header begins with the name of the first column. -/
theorem apiHeader_eq : ∃ names : List Char, apiHeader = "HostName".toList ++ ',' :: names := by
  rw [apiHeader, API_COLUMNS, List.map_cons, List.map_cons, List.intercalate_cons_cons,
    List.append_assoc]
  exact ⟨_, rfl⟩

/-- The record of the header. -/
theorem plainRecord_apiHeader : plainRecord apiHeader = API_COLUMNS := by
  rw [plainRecord, apiHeader, List.splitOn_intercalate ',' (fun name hname =>
    (plain_columns name hname).2) (by simp [API_COLUMNS]), List.map_map]
  simp [Function.comp_def]

/-- A row has more than one field. -/
theorem ApiRow.isRecord_line (row : ApiRow) : isRecord (plainRecord row.line) = true := by
  have hlength : 1 < (plainRecord row.line).length := by
    rw [ApiRow.plainRecord_line, List.length_map, List.length_append, row.front_length]
    omega
  simp [isRecord, hlength]

section Text

variable {p : Platform} {body : ApiBody} {source : String}

/-- The lines behind the header. -/
def ApiBody.tail (body : ApiBody) : List (List Char) := body.rows.map ApiRow.line ++ body.closing

theorem ApiBody.plainLine_tail : ∀ line ∈ body.tail, PlainLine line := by
  intro line hline
  rw [ApiBody.tail, List.mem_append, List.mem_map] at hline
  obtain ⟨row, -, rfl⟩ | hline := hline
  · exact row.plainLine
  · exact (body.closing_plain line hline).1

theorem textLines_body :
    textLines body.text = body.preamble ++ ('#' :: apiHeader) :: body.tail := by
  apply textLines_intercalate body.newline_mem (by simp)
  intro line hline
  rw [List.mem_append, List.mem_cons] at hline
  obtain hline | rfl | hline := hline
  · exact body.preamble_unbroken line hline
  · intro c hc
    obtain rfl | hc := List.mem_cons.mp hc
    · decide
    · exact plainLine_apiHeader.unbroken c hc
  · exact (ApiBody.plainLine_tail line hline).unbroken

/-- **What a runtime knows of the header**: `#` and `,` are no spaces, and no letter of it is. -/
structure Platform.ReadsHeader (p : Platform) : Prop where
  blank : p.isWhitespace '#' = false
  space : p.regexSpace '#' = false
  comma : p.regexSpace ',' = false

theorem findApiHeader_body (hp : p.ReadsHeader)
    (hpreamble : ∀ line ∈ body.preamble, isApiHeader p line = false) :
    findApiHeader p (textLines body.text) = some body.preamble.length := by
  have hheader : isApiHeader p ('#' :: apiHeader) = true := by
    have hrest : ('#' :: apiHeader).dropWhile p.regexSpace = '#' :: apiHeader := by
      rw [List.dropWhile_cons_of_neg (by simp [hp.space])]
    obtain ⟨names, hnames⟩ := apiHeader_eq
    have hname : apiHeader.dropPrefix? "HostName".toList = some (',' :: names) := by
      rw [hnames]
      exact List.dropPrefix?_append_of_beq _ (beq_self_eq_true _)
    unfold isApiHeader
    rw [hrest]
    simp only [hname]
    rw [List.dropWhile_cons_of_neg (by simp [hp.comma])]
    rfl
  rw [textLines_body, findApiHeader, List.findIdx?_append,
    List.findIdx?_eq_none_iff.mpr hpreamble]
  simp [List.findIdx?_cons, hheader]

/-- The records of the text that is split. -/
theorem splitCsvRecords_body :
    splitCsvRecords (['\n'].intercalate (apiHeader :: body.tail)) =
      API_COLUMNS :: (body.rows.map fun row => plainRecord row.line) ++
        (body.closing.map plainRecord).filter isRecord := by
  rw [splitCsvRecords_lines]
  · have hrows : ((body.rows.map ApiRow.line).map plainRecord).filter isRecord =
        body.rows.map fun row => plainRecord row.line := by
      rw [List.map_map]
      apply List.filter_eq_self.mpr
      intro record hrecord
      obtain ⟨row, -, rfl⟩ := List.mem_map.mp hrecord
      exact row.isRecord_line
    rw [List.map_cons, plainRecord_apiHeader, List.filter_cons_of_pos (by decide), ApiBody.tail,
      List.map_append, List.filter_append, hrows]
    rfl
  · intro line hline
    obtain rfl | hline := List.mem_cons.mp hline
    · exact plainLine_apiHeader
    · exact ApiBody.plainLine_tail line hline

/-- What follows a call that returned. -/
theorem ok_bind {α β : Type} (a : α) (f : α → Except NumberFormatException β) :
    ((Except.ok a : Except NumberFormatException α) >>= f) = f a := rfl

/-- A row without an address is left out. -/
theorem buildServer_of_no_ip {field : String → String} (h : field "IP" = "") :
    buildServer p source field = .ok none := by
  have hip : p.normalizeIp "" = .ok "" := rfl
  have hvalid : p.validIp "" = .ok false := rfl
  unfold buildServer
  rw [h, hip, ok_bind]
  split_ifs
  · rfl
  · rw [hvalid, ok_bind]
    exact if_pos rfl

/-- A line without commas has no address. -/
theorem cell_ip_of_no_comma {line : List Char} (h : ',' ∉ line) :
    cell API_COLUMNS (repairedValues (plainRecord line)) "IP" = "" := by
  rw [plainRecord, List.splitOn_eq_singleton h]
  rfl

/-- Rows that are left out at the end. -/
theorem buildServers_append {fields others : List (String → String)}
    (h : ∀ field ∈ others, buildServer p source field = .ok none) :
    buildServers p source (fields ++ others) = buildServers p source fields := by
  have hothers : buildServers p source others = .ok [] := by
    induction others with
    | nil => rfl
    | cons field others ih =>
      rw [buildServers, h field List.mem_cons_self, ih fun f hf => h f (List.mem_cons_of_mem _ hf)]
      rfl
  induction fields with
  | nil => exact hothers
  | cons field fields ih =>
    rw [List.cons_append, buildServers, buildServers, ih]

/-- **The feed is read row by row.** -/
theorem parseApi_body (hp : p.ReadsHeader)
    (hpreamble : ∀ line ∈ body.preamble, isApiHeader p line = false) :
    parseApi p body.text source = buildServers p source (body.rows.map ApiRow.recovered) := by
  have hdrop : (textLines body.text).drop body.preamble.length =
      ('#' :: apiHeader) :: body.tail := by
    rw [textLines_body, List.drop_left]
  have hhead : ['\n'].intercalate (('#' :: apiHeader) :: body.tail) =
      '#' :: ['\n'].intercalate (apiHeader :: body.tail) := by
    cases body.tail with
    | nil => rfl
    | cons line lines => rfl
  unfold parseApi
  simp only [findApiHeader_body hp hpreamble, hdrop, hhead]
  rw [List.dropWhile_cons_of_neg (by simp [hp.blank])]
  simp only [splitCsvRecords_body, List.cons_append, List.map_append, List.map_map]
  rw [buildServers_append]
  · rfl
  · intro field hfield
    obtain ⟨record, hrecord, rfl⟩ := List.mem_map.mp hfield
    obtain ⟨line, hline, rfl⟩ := List.mem_map.mp (List.mem_filter.mp hrecord).1
    exact buildServer_of_no_ip (cell_ip_of_no_comma (body.closing_plain line hline).2)

end Text

/-! ### What a row writes -/

section Writes

variable {p : Platform} {field : String → String} {source ip : String} {server : VpnServerRecord}
  {path : Path} {value : Scalar}

/-- The writes in front of the profile. -/
def describeWrites (p : Platform) (field : String → String) (ip : String) : List (Path × Scalar) :=
  [(["identity", "hostname"], .string (p.lowercase (p.clean (field "HostName")))),
    (["identity", "ip"], .string ip),
    (["identity", "country"], .string (p.clean (field "CountryShort"))),
    (["identity", "countryLong"], .string (p.clean (field "CountryLong"))),
    (["performance", "score"], .int (p.toInt (field "Score"))),
    (["performance", "pingMs"], .double (p.toFloat (field "Ping"))),
    (["performance", "speedMbps"],
      .double (EmergencyCsvParser.scaledValue p (field "Speed") 0x412E848000000000)),
    (["performance", "sessions"], .int (p.toInt (field "NumVpnSessions"))),
    (["performance", "uptimeDays"],
      .double (EmergencyCsvParser.scaledValue p (field "Uptime") 0x4194997000000000)),
    (["performance", "totalUsers"], .int (p.toInt (field "TotalUsers"))),
    (["performance", "totalTrafficGB"],
      .double (EmergencyCsvParser.scaledValue p (field "TotalTraffic") 0x41D0000000000000)),
    (["logging", "policy"], .string (p.clean (field "LogType"))),
    (["operator", "name"], .string (p.clean (field "Operator"))),
    (["operator", "message"], .string (p.clean (field "Message")))]

/-- **What a row has to say**: its columns, each where the record keeps it. -/
def apiColumns (p : Platform) (field : String → String) (ip : String) : List (Path × Scalar) :=
  describeWrites p field ip ++
    [(["protocols", "openvpn", "rawConfig"],
      .string (((configOf p field).map fun info => info.raw).getD ""))]

theorem written_setScaled (p : Platform) {ws : List (Path × Scalar)} {r : VpnServerRecord}
    (h : Written ws r)
    (raw : String) (divisor : BitVec 64) (source : String) (hpath : path ∈ fieldPaths)
    (hfits : ∀ bits, fits path (.double bits) = true) :
    Written (ws ++ [(path, .double (EmergencyCsvParser.scaledValue p raw divisor))])
      (setScaled p r path (p.toFloat raw) divisor source) := by
  unfold setScaled EmergencyCsvParser.scaledValue
  split_ifs
  · exact h.setField hpath (hfits _) _
  · exact h.skip rfl

theorem written_describeServer :
    Written (describeWrites p field ip)
      (describeServer p field (p.clean (field "HostName")) ip source) := by
  have hhost : Written (_ ++ [(["identity", "hostname"],
      .string (p.lowercase (p.clean (field "HostName"))))])
    (setField _ _ _ _) := Written.newServer.setField (by decide) rfl source
  have hip : Written (_ ++ [(["identity", "ip"], .string ip)])
    (setField _ _ _ _) := hhost.setField (by decide) rfl source
  have hcountry : Written (_ ++ [(["identity", "country"],
      .string (p.clean (field "CountryShort")))])
    (setField _ _ _ _) := hip.setField (by decide) rfl source
  have hlong : Written (_ ++ [(["identity", "countryLong"],
      .string (p.clean (field "CountryLong")))])
    (setField _ _ _ _) := hcountry.setField (by decide) rfl source
  have hscore : Written (_ ++ [(["performance", "score"], .int (p.toInt (field "Score")))])
    (setField _ _ _ _) := hlong.setField (by decide) rfl source
  have hping : Written (_ ++ [(["performance", "pingMs"], .double (p.toFloat (field "Ping")))])
    (setField _ _ _ _) := hscore.setField (by decide) rfl source
  have hspeed : Written (_ ++ [(["performance", "speedMbps"], _)]) _ :=
    written_setScaled p hping (field "Speed") 0x412E848000000000 source (by decide)
      fun _ => rfl
  have hsessions : Written (_ ++ [(["performance", "sessions"],
      .int (p.toInt (field "NumVpnSessions")))])
    (setField _ _ _ _) := hspeed.setField (by decide) rfl source
  have huptime : Written (_ ++ [(["performance", "uptimeDays"], _)]) _ :=
    written_setScaled p hsessions (field "Uptime") 0x4194997000000000 source (by decide)
      fun _ => rfl
  have husers : Written (_ ++ [(["performance", "totalUsers"],
      .int (p.toInt (field "TotalUsers")))])
    (setField _ _ _ _) := huptime.setField (by decide) rfl source
  have htraffic : Written (_ ++ [(["performance", "totalTrafficGB"], _)]) _ :=
    written_setScaled p husers (field "TotalTraffic") 0x41D0000000000000 source (by decide)
      fun _ => rfl
  have hpolicy : Written (_ ++ [(["logging", "policy"], .string (p.clean (field "LogType")))])
    (setField _ _ _ _) := htraffic.setField (by decide) rfl source
  have hname : Written (_ ++ [(["operator", "name"], .string (p.clean (field "Operator")))])
    (setField _ _ _ _) := hpolicy.setField (by decide) rfl source
  have hmessage : Written (_ ++ [(["operator", "message"], .string (p.clean (field "Message")))])
    (setField _ _ _ _) := hname.setField (by decide) rfl source
  exact hmessage

/-- The writes of the profile of a row. -/
def configWrites (p : Platform) (field : String → String) : List (Path × Scalar) :=
  match configOf p field with
  | none => []
  | some info => openVpnWrites info

theorem written_openVpnOfRow {ws : List (Path × Scalar)} {r : VpnServerRecord}
    (h : Written ws r) :
    Written (ws ++ configWrites p field) (openVpnOfRow r (configOf p field) source) := by
  unfold configWrites
  cases configOf p field with
  | none => simpa [openVpnOfRow] using h
  | some info => exact h.openVpnOfRow info source

/-- The record of a row. -/
def rowRecord (p : Platform) (field : String → String) (source ip : String) : VpnServerRecord :=
  sourceAdd (openVpnOfRow (describeServer p field (p.clean (field "HostName")) ip source)
    (configOf p field) source) source

/-- The address of a row that has a host name, too. -/
def listedIp (p : Platform) (field : String → String) : Option String :=
  if p.clean (field "HostName") = "" then none else p.ipOf (field "IP")

/-- **A row with a host name and an address is built**, and no row throws. -/
theorem buildServer_eq :
    buildServer p source field = .ok ((listedIp p field).map (rowRecord p field source)) := by
  have hip : p.normalizeIp (field "IP") = .ok ((p.ipOf (field "IP")).getD "") :=
    (Platform.normalizeIp_returns (field "IP")).returns id
  have hvalid := (Platform.validIp_normalized (p := p) (field "IP")).returns id
  unfold buildServer listedIp
  rw [hip, ok_bind]
  split_ifs with hname
  · rfl
  · rw [hvalid, ok_bind]
    cases p.ipOf (field "IP") with
    | none => rfl
    | some ip => rfl

theorem buildServers_eq (fields : List (String → String)) :
    buildServers p source fields =
      .ok (fields.filterMap fun field => (listedIp p field).map (rowRecord p field source)) := by
  induction fields with
  | nil => rfl
  | cons field fields ih =>
    rw [buildServers, buildServer_eq, ih, ok_bind, ok_bind, List.filterMap_cons]
    cases (listedIp p field).map (rowRecord p field source) <;> rfl

/-- The writes behind the first three of a profile are about its ports. -/
theorem path_of_profileEnd {info : Merger.OpenVpnConfigParser.Decoded} {w : Path × Scalar}
    (hw : w ∈ info.remotes.flatMap (remoteWrites (inheritedProto info.protocols)) ++
      info.protocols.flatMap protocolWrites) :
    ∃ t, w.1 ∈ [(Endpoint.openvpn t).supported, (Endpoint.openvpn t).port,
      (Endpoint.openvpn t).portSource] := by
  rw [List.mem_append, List.mem_flatMap, List.mem_flatMap] at hw
  obtain ⟨remote, -, hw⟩ | ⟨proto, -, hw⟩ := hw
  · unfold remoteWrites at hw
    cases htransport : transportOf remote (inheritedProto info.protocols) with
    | none => simp [htransport] at hw
    | some t =>
      refine ⟨t, ?_⟩
      simp only [htransport, portWrites, List.mem_cons, List.not_mem_nil, or_false] at hw
      obtain rfl | rfl | rfl := hw
      · simp
      · simp
      · simp
  · unfold protocolWrites at hw
    cases hfamily : familyOf proto with
    | none => simp [hfamily] at hw
    | some t =>
      refine ⟨t, ?_⟩
      simp only [hfamily, List.mem_singleton] at hw
      simp [hw]

/-- The leaves of an endpoint are no profile. -/
theorem ne_rawConfig_of_endpoint {t : Transport} {path : Path}
    (h : path ∈ [(Endpoint.openvpn t).supported, (Endpoint.openvpn t).port,
      (Endpoint.openvpn t).portSource]) :
    path.head? = some "protocols" ∧ path ≠ ["protocols", "openvpn", "rawConfig"] := by
  revert path
  cases t with
  | tcp => decide
  | udp => decide

/-- The writes of a profile are about protocols. -/
theorem head_of_configWrites {w : Path × Scalar} (hw : w ∈ configWrites p field) :
    w.1.head? = some "protocols" := by
  unfold configWrites at hw
  cases hconfig : configOf p field with
  | none => simp [hconfig] at hw
  | some info =>
    simp only [hconfig, openVpnWrites, List.append_assoc] at hw
    obtain hw | hw := List.mem_append.mp hw
    · simp only [List.mem_cons, List.not_mem_nil, or_false] at hw
      obtain rfl | rfl | rfl := hw
      · rfl
      · rfl
      · rfl
    · obtain ⟨t, ht⟩ := path_of_profileEnd hw
      exact (ne_rawConfig_of_endpoint ht).1

/-- The other columns are not about protocols. -/
theorem head_of_describeWrites {w : Path × Scalar} (hw : w ∈ describeWrites p field ip) :
    w.1.head? ≠ some "protocols" := by
  have hpaths : ∀ path ∈ (describeWrites p field ip).map Prod.fst,
      path.head? ≠ some "protocols" := by
    simp only [describeWrites, List.map_cons, List.map_nil]
    decide
  exact hpaths w.1 (List.mem_map_of_mem hw)

/-- The profile of a row is written once. -/
theorem written_rawConfig :
    written isUnset (configWrites p field) ["protocols", "openvpn", "rawConfig"] =
      if isUnset ["protocols", "openvpn", "rawConfig"]
          (.string (((configOf p field).map fun info => info.raw).getD "")) then none
      else some (.string (((configOf p field).map fun info => info.raw).getD "")) := by
  unfold configWrites
  cases configOf p field with
  | none => rfl
  | some info =>
    have hend : written isUnset (info.remotes.flatMap
        (remoteWrites (inheritedProto info.protocols)) ++ info.protocols.flatMap protocolWrites)
          ["protocols", "openvpn", "rawConfig"] = none := by
      apply written_of_ne
      intro w hw
      obtain ⟨t, ht⟩ := path_of_profileEnd hw
      exact (ne_rawConfig_of_endpoint ht).2
    have hnodup : (([(["protocols", "openvpn", "supported"], .boolean true),
        (["protocols", "openvpn", "configAvailable"], .boolean true),
        (["protocols", "openvpn", "rawConfig"], .string info.raw)] :
        List (Path × Scalar)).map Prod.fst).Nodup := by
      simp only [List.map_cons, List.map_nil]
      decide
    simp only [openVpnWrites, List.append_assoc]
    rw [written_append, hend, Option.or_none]
    exact written_of_mem hnodup
      (List.mem_cons_of_mem _ (List.mem_cons_of_mem _ List.mem_cons_self))

/-- The columns are kept apart from each other and from the ports of the profile. -/
theorem written_apiColumns (hmem : (path, value) ∈ apiColumns p field ip) :
    valueOf (describeWrites p field ip ++ configWrites p field) path =
      if isUnset path value then newServer.get path else value := by
  unfold valueOf slot
  rw [written_append]
  obtain hmem | hmem := List.mem_append.mp hmem
  · have hnodup : ((describeWrites p field ip).map Prod.fst).Nodup := by
      simp only [describeWrites, List.map_cons, List.map_nil]
      decide
    have hprofile : written isUnset (configWrites p field) path = none := by
      apply written_of_ne
      have hne : path.head? ≠ some "protocols" := head_of_describeWrites hmem
      rintro w hw rfl
      exact hne (head_of_configWrites hw)
    rw [written_of_mem hnodup hmem, hprofile, Option.or_none]
    split_ifs <;> rfl
  · obtain ⟨rfl, rfl⟩ := Prod.mk.inj (List.mem_singleton.mp hmem)
    have hdescribe : written isUnset (describeWrites p field ip)
        ["protocols", "openvpn", "rawConfig"] = none := by
      apply written_of_ne
      intro w hw heq
      exact head_of_describeWrites hw (by rw [heq]; rfl)
    rw [hdescribe, Option.none_or, written_rawConfig]
    split_ifs <;> rfl

/-- **What a row has to say, its record holds**; a value that is none leaves the record as new. -/
theorem get_rowRecord (hmem : (path, value) ∈ apiColumns p field ip) :
    (rowRecord p field source ip).get path =
      if isUnset path value then newServer.get path else value := by
  have hpaths : ∀ path ∈ (apiColumns p field ip).map Prod.fst, path ∈ fieldPaths := by
    simp only [apiColumns, describeWrites, List.map_append, List.map_cons, List.map_nil]
    decide
  have hwritten : Written (describeWrites p field ip ++ configWrites p field)
      (openVpnOfRow (describeServer p field (p.clean (field "HostName")) ip source)
        (configOf p field) source) := written_openVpnOfRow written_describeServer
  have hget := hwritten.get path (hpaths path (List.mem_map_of_mem hmem))
  have hsource : ∀ r : VpnServerRecord, (sourceAdd r source).get path = r.get path := by
    intro r
    unfold sourceAdd
    split_ifs <;> rfl
  rw [rowRecord, hsource, hget, written_apiColumns hmem]

end Writes

/-! ### The feed -/

/-- **The record has the columns of the row** at their paths; the free texts, too, unless
`Operator` has a comma. -/
def HoldsRow (p : Platform) (row : ApiRow) (server : VpnServerRecord) : Prop :=
  ∃ ip, p.ipOf (row.field "IP") = some ip ∧ ∀ path value,
    (path, value) ∈ apiColumns p row.field ip →
      (',' ∈ row.operator → path ≠ ["operator", "name"] ∧ path ≠ ["operator", "message"]) →
        server.get path = if isUnset path value then newServer.get path else value

/-- **What is read of a feed.** -/
structure Recovers (p : Platform) (body : ApiBody) (source : String) : Prop where
  columns : ∀ row ∈ body.rows, ∀ name, name ≠ "Operator" → name ≠ "Message" →
    row.recovered name = row.field name
  freeTexts : ∀ row ∈ body.rows, ',' ∉ row.operator → row.recovered = row.field
  /-- The feed is read, and the rows with a host name and an address have their records. -/
  records : ∃ servers, parseApi p body.text source = .ok servers ∧
    List.Forall₂ (HoldsRow p) (body.rows.filter fun row => (listedIp p row.field).isSome) servers

/-- What a repaired row writes at the paths that are recovered. -/
theorem mem_apiColumns_recovered {p : Platform} {row : ApiRow} {ip : String} {path : Path}
    {value : Scalar} (hmem : (path, value) ∈ apiColumns p row.field ip)
    (hfree : ',' ∈ row.operator → path ≠ ["operator", "name"] ∧ path ≠ ["operator", "message"]) :
    (path, value) ∈ apiColumns p row.recovered ip := by
  by_cases hcomma : ',' ∈ row.operator
  · obtain ⟨hname, hmessage⟩ := hfree hcomma
    have hcolumn : ∀ name, name ≠ "Operator" → name ≠ "Message" →
        row.recovered name = row.field name := fun name => ApiRow.recovered_of_ne
    simp only [apiColumns, describeWrites, configOf, List.mem_append, List.mem_cons,
      List.not_mem_nil, or_false, Prod.mk.injEq, hname, hmessage, false_and] at hmem ⊢
    simpa only [hcolumn, ne_eq, String.reduceEq, not_false_eq_true] using hmem
  · rwa [ApiRow.recovered_of_no_comma hcomma]

/-- A row with commas in its message. -/
def greetingRow : ApiRow where
  front := [['h'], "1.2.3.4".toList, ['5'], [], [], [], "JP".toList, [], [], [], [], []]
  operator := ['o']
  message := "hi,u,".toList
  config := "QQ".toList
  front_length := rfl
  plainLines := by decide
  no_comma := by decide

/-- A row without an address, and with a comma in its operator. -/
def strayRow : ApiRow where
  front := ['h'] :: List.replicate 11 []
  operator := "o,p".toList
  message := []
  config := []
  front_length := rfl
  plainLines := by decide
  no_comma := by decide

/-- A body with a stray row and a full one. -/
def greetingBody : ApiBody where
  newline := ['\r', '\n']
  preamble := [['*', 'v']]
  rows := [strayRow, greetingRow]
  closing := [['*'], []]
  newline_mem := by decide
  preamble_unbroken := by decide
  closing_plain := by decide

end SoftEther.Parser
