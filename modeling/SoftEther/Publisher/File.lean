import Mathlib.Data.Char
import Mathlib.Data.List.Nodup
import SoftEther.Publisher.Csv
import SoftEther.Publisher.Row

namespace SoftEther.Publisher

open Lib

/-!
# The emergency file (`parse_emergency_csv`, `render_csv`)

The file is encoded in UTF-8 and decoded again before it is checked, so it stands here as its
text.

* `renderCsv`, `parseEmergencyCsv`, `selfCheck` — the functions of the source; a `csv.Error` of
  the reader is not caught and is `none`;
* `Sanitized.isRow`, `mem_renderCsv` — what the rows put into the text;
* `parseRecords_cells` — the records of a rendered file are its rows;
* `parseEmergencyCsv_renderCsv` — what the parser makes of a rendered file, for any rows.
-/

/-! ### The functions of the source -/

/-- The names of the columns. -/
def header : List Text := COLUMNS.map (·.name.toList)

/-- `[_cell(row[c]) for c in COLUMNS]`. -/
def Row.cells (row : Row) : List Text := COLUMNS.map row.cell

/-- `render_csv`. -/
def renderCsv (rows : List Row) : Text := writeRows (header :: rows.map Row.cells)

/-- `ParseResult`. -/
@[ext] structure ParseResult where
  rows : List Row
  rejected : ℕ
  malformedReason : Option String

/-- A result that has a reason only. -/
def malformed (reason : String) : ParseResult := ⟨[], 0, some reason⟩

/-- `r[idx[name]]`; `idx` has the last of the columns of one name. -/
def fieldOf (columns r : List Text) (name : Text) : Option Text :=
  ((columns.zip r).reverse.find? (·.1 = name)).map Prod.snd

/-- The reason that the schema check has against a record; records of another length are left
out of it. -/
def unsupported (columns r : List Text) : Option String :=
  let declared := strip isSpace ((fieldOf columns r "schema_version".toList).getD [])
  if r.length = columns.length ∧ declared ≠ SCHEMA_VERSION then
    some ("unsupported schema_version \"" ++ String.ofList declared ++ "\" (supported: 1.0)")
  else none

variable (py : Python)

/-- The row of a record, `none` when it is rejected. -/
def parseRecord (columns r : List Text) : Option Row :=
  if r.length ≠ columns.length then none
  else sanitizeRow py fun c => (fieldOf columns r c.name.toList).elim .none .str

/-- `parse_emergency_csv`, of the records that are not blank. -/
def parseRecords : List (List Text) → ParseResult
  | [] => malformed "no CSV records"
  | header :: data =>
    let columns := header.map (strip isSpace)
    let missing := REQUIRED_COLUMNS.filter (·.toList ∉ columns)
    if missing ≠ [] then malformed ("missing required column(s): " ++ ",".intercalate missing)
    else if data = [] then malformed "header only: no data rows"
    else match data.findSome? (unsupported columns) with
      | some reason => malformed reason
      | none =>
        let parsed := data.map (parseRecord py columns)
        let rows := parsed.reduceOption
        ⟨rows, parsed.countP (·.isNone),
          if rows = [] then some "no record passed required-field validation" else none⟩

/-- `parse_emergency_csv`. -/
def parseEmergencyCsv (text : Text) : Option ParseResult :=
  if strip isSpace text = [] then some (malformed "empty body")
  else if text.head? = some '\uFEFF' then
    some (malformed "utf-8 BOM is not part of the format")
  else if '\uFFFD' ∈ text then some (malformed "body is not valid UTF-8")
  else (csvReader text).map fun records => parseRecords py (records.filter (· ≠ []))

/-- `sorted`, of the addresses of rows. -/
def sortedIps (rows : List Row) : List Text :=
  (rows.map (·.text .IP)).mergeSort fun a b => decide (a ≤ b)

/-- The self-check of the run. -/
def selfCheck (kept : List Row) : Bool :=
  match parseEmergencyCsv py (renderCsv kept) with
  | none => false
  | some check =>
    check.malformedReason = none && check.rejected = 0 && sortedIps check.rows = sortedIps kept

/-! ### What the rows put into the text -/

variable {py}

variable {c : Char} {row : Row} {rows : List Row}

/-- Digits stand among the visible characters of ASCII. -/
theorem visible_toDigits {n : ℕ} (h : c ∈ Nat.toDigits 10 n) : 33 ≤ c.toNat ∧ c.toNat < 128 := by
  have := isDigit_toNat (isDigit_of_mem h)
  omega

/-- Outside the texts the cells have visible characters of ASCII only. -/
theorem Sanitized.visible_cell (h : Sanitized py row) {column : Column}
    (hcolumn : ∀ t, column ≠ .text t) (hc : c ∈ row.cell column) :
    33 ≤ c.toNat ∧ c.toNat < 128 := by
  cases column with
  | text t => exact absurd rfl (hcolumn t)
  | int i =>
    simp only [Row.cell, Python.optInteger] at hc
    cases hvalue : row.int i with
    | none =>
      rw [hvalue] at hc
      exact absurd hc List.not_mem_nil
    | some n =>
      rw [hvalue] at hc
      cases n with
      | ofNat n => exact visible_toDigits hc
      | negSucc n =>
        rcases List.mem_cons.mp hc with rfl | hc
        · decide
        · exact visible_toDigits hc
  | port p => exact visible_toDigits hc
  | flag b =>
    have hflags : ∀ b : Bool, ∀ c ∈ (if b then "true".toList else "false".toList),
        33 ≤ c.toNat ∧ c.toNat < 128 :=
      fun b => List.all_iff_forall_prop.mp (by cases b <;> decide)
    exact hflags _ c hc
  | schema_version =>
    have hversion : ∀ c ∈ SCHEMA_VERSION, 33 ≤ c.toNat ∧ c.toNat < 128 :=
      List.all_iff_forall_prop.mp (by decide)
    exact hversion c (h.schema ▸ hc)
  | SourceTag =>
    have htags : ∀ tag ∈ SOURCE_TAGS,
        (tag.all fun c => 33 ≤ c.toNat ∧ c.toNat < 128) = true := by decide
    exact List.all_iff_forall_prop.mp (htags _ h.tag) c hc

theorem isBreak_of_visible (h : 33 ≤ c.toNat ∧ c.toNat < 128) : isBreak c = false := by
  have hne : c ≠ '\n' ∧ c ≠ '\r' := by
    constructor
    · rintro rfl
      exact absurd h.1 (by decide)
    · rintro rfl
      exact absurd h.1 (by decide)
  simp [isBreak, hne.1, hne.2]

theorem Sanitized.isRow (h : Sanitized py row) : IsRow row.cells := by
  refine ⟨by simp [Row.cells, COLUMNS], fun w hw c hc => ?_⟩
  obtain ⟨column, -, rfl⟩ := List.mem_map.mp hw
  by_cases htext : ∃ t, column = .text t
  · obtain ⟨t, rfl⟩ := htext
    obtain ⟨hlf, hcr⟩ := (h.cleaned t).no_break
    have hne : c ≠ '\n' ∧ c ≠ '\r' := ⟨fun he => hlf (he ▸ hc), fun he => hcr (he ▸ hc)⟩
    simp [isBreak, hne.1, hne.2]
  · exact isBreak_of_visible (h.visible_cell (not_exists.mp htext) hc)

/-- Quoting adds quotes only. -/
theorem mem_writeField (hc : c ≠ '"') (w : Text) : c ∈ writeField w ↔ c ∈ w := by
  have hdoubled : c ∈ doubled w ↔ c ∈ w := by
    unfold doubled
    rw [List.mem_flatMap]
    constructor
    · rintro ⟨x, hx, hcx⟩
      split_ifs at hcx with hquote
      · exact absurd (by simpa using hcx) hc
      · rwa [List.mem_singleton.mp hcx]
    · intro hmem
      refine ⟨c, hmem, ?_⟩
      rw [if_neg hc]
      exact List.mem_singleton_self c
  unfold writeField
  split_ifs
  · simp [hdoubled, hc]
  · rfl

theorem mem_intercalate_of_mem {sep : Char} {part : Text} {parts : List Text} (hpart : part ∈ parts)
    (hc : c ∈ part) : c ∈ [sep].intercalate parts := by
  induction parts with
  | nil => exact absurd hpart List.not_mem_nil
  | cons first parts ih =>
    cases parts with
    | nil =>
      rw [List.intercalate_singleton]
      rwa [← List.mem_singleton.mp hpart]
    | cons next parts =>
      rw [List.intercalate_cons_cons, List.mem_append, List.mem_append]
      rcases List.mem_cons.mp hpart with rfl | hpart
      · exact Or.inl (Or.inl hc)
      · exact Or.inr (ih hpart)

/-- What the writer does not add comes from a field. -/
theorem mem_writeRow (hc : c ≠ '"' ∧ c ≠ ',' ∧ c ≠ '\n') {fields : List Text} (h : IsRow fields) :
    c ∈ writeRow fields ↔ ∃ w ∈ fields, c ∈ w := by
  have hmany : fields ≠ [[]] := by
    rintro rfl
    exact absurd h.1 (by decide)
  rw [writeRow, if_neg hmany, List.mem_append]
  constructor
  · rintro (hmem | hmem)
    · rcases Python.mem_intercalate hmem with rfl | ⟨part, hpart, hmem⟩
      · exact absurd rfl hc.2.1
      · obtain ⟨w, hw, rfl⟩ := List.mem_map.mp hpart
        exact ⟨w, hw, (mem_writeField hc.1 w).mp hmem⟩
    · exact absurd (List.mem_singleton.mp hmem) hc.2.2
  · rintro ⟨w, hw, hmem⟩
    exact Or.inl (mem_intercalate_of_mem (List.mem_map_of_mem hw)
      ((mem_writeField hc.1 w).mpr hmem))

/-- The names of the columns are short words of ASCII. -/
theorem header_visible : ∀ w ∈ header,
    (∀ c ∈ w, 33 ≤ c.toNat ∧ c.toNat < 128) ∧ w.length ≤ FIELD_LIMIT := by
  have hall : ∀ w ∈ header, (w.all fun c => 33 ≤ c.toNat ∧ c.toNat < 128) = true ∧
      w.length ≤ FIELD_LIMIT := by decide
  exact fun w hw => (hall w hw).imp_left List.all_iff_forall_prop.mp

/-- So they are fields, too. -/
theorem isRow_header : IsRow header :=
  ⟨by simp [header, COLUMNS], fun w hw c hc => isBreak_of_visible ((header_visible w hw).1 c hc)⟩

/-- **The replacement character** comes from the texts of the rows only. -/
theorem mem_renderCsv (h : ∀ row ∈ rows, Sanitized py row) :
    '\uFFFD' ∈ renderCsv rows ↔ ∃ row ∈ rows, ∃ c, '\uFFFD' ∈ row.text c := by
  have hplain : '\uFFFD' ≠ '"' ∧ '\uFFFD' ≠ ',' ∧ '\uFFFD' ≠ '\n' := by decide
  have hheader : '\uFFFD' ∉ writeRow header := by
    rw [mem_writeRow hplain isRow_header]
    rintro ⟨w, hw, hc⟩
    exact absurd ((header_visible w hw).1 _ hc).2 (by decide)
  rw [renderCsv, writeRows, List.flatMap_cons, List.mem_append, or_iff_right hheader,
    List.mem_flatMap]
  constructor
  · rintro ⟨fields, hfields, hmem⟩
    obtain ⟨row, hrow, rfl⟩ := List.mem_map.mp hfields
    obtain ⟨w, hw, hmem⟩ := (mem_writeRow hplain (h row hrow).isRow).mp hmem
    obtain ⟨column, -, rfl⟩ := List.mem_map.mp hw
    by_cases htext : ∃ t, column = .text t
    · obtain ⟨t, rfl⟩ := htext
      exact ⟨row, hrow, t, hmem⟩
    · have hvisible := ((h row hrow).visible_cell (not_exists.mp htext) hmem).2
      exact absurd hvisible (by decide)
  · rintro ⟨row, hrow, t, hmem⟩
    refine ⟨_, List.mem_map_of_mem hrow, (mem_writeRow hplain (h row hrow).isRow).mpr ?_⟩
    exact ⟨row.cell (.text t), List.mem_map_of_mem (mem_COLUMNS _), hmem⟩

/-! ### The records of a rendered file -/

theorem name_injective {c d : Column} (h : c.name.toList = d.name.toList) : c = d :=
  List.inj_on_of_nodup_map nodup_names (mem_COLUMNS c) (mem_COLUMNS d) (String.toList_inj.mp h)

/-- The fields of a row are found under the names of their columns. -/
theorem fieldOf_cells (row : Row) (c : Column) :
    fieldOf header row.cells c.name.toList = some (row.cell c) := by
  have hmem : (c.name.toList, row.cell c) ∈ (header.zip row.cells).reverse := by
    rw [header, Row.cells, List.zip_map', List.mem_reverse]
    exact List.mem_map_of_mem (mem_COLUMNS c)
  obtain ⟨found, hfound⟩ := Option.isSome_iff_exists.mp
    (List.find?_isSome (p := fun x : Text × Text => decide (x.1 = c.name.toList)).mpr
      ⟨_, hmem, by simp⟩)
  -- another column of the name would be the same one
  have hname := List.find?_some hfound
  have hin := List.mem_of_find?_eq_some hfound
  rw [header, Row.cells, List.zip_map', List.mem_reverse] at hin
  obtain ⟨d, -, rfl⟩ := List.mem_map.mp hin
  have hd : d = c := name_injective (by simpa using hname)
  rw [fieldOf, hfound, hd]
  rfl

/-- A record with the cells of a row is parsed as the row. -/
theorem Sanitized.parseRecord_cells (h : Sanitized py row) :
    parseRecord py header row.cells = some row := by
  have hraw : (fun c : Column => (fieldOf header row.cells c.name.toList).elim Value.none .str) =
      fun c => .str (row.cell c) := by
    funext c
    rw [fieldOf_cells]
    rfl
  have hlength : row.cells.length = header.length := by simp [Row.cells, header]
  rw [parseRecord, if_neg (not_not.mpr hlength), hraw, h.sanitizeRow_cell]

theorem Sanitized.unsupported_cells (h : Sanitized py row) :
    unsupported header row.cells = none := by
  have hversion : strip isSpace SCHEMA_VERSION = SCHEMA_VERSION := by decide
  have hfield : fieldOf header row.cells "schema_version".toList = some SCHEMA_VERSION := by
    have hcell : row.cell .schema_version = SCHEMA_VERSION := h.schema
    rw [← hcell]
    exact fieldOf_cells row .schema_version
  unfold unsupported
  dsimp only
  rw [hfield, Option.getD_some, hversion, if_neg fun hc => hc.2 rfl]

theorem strip_header : header.map (strip isSpace) = header := by
  refine (List.map_congr_left fun w hw => ?_).trans (List.map_id header)
  have htidy : Tidy isSpace ' ' w := by
    refine Tidy.of_no_space fun c hc => ?_
    have := (header_visible w hw).1 c hc
    simp [isSpace]
    omega
  exact htidy.strip_eq fun c hspace => hspace

theorem header_complete : REQUIRED_COLUMNS.filter (·.toList ∉ header) = [] := by decide

/-- **The records of a rendered file are its rows.** -/
theorem parseRecords_cells (hne : rows ≠ []) (h : ∀ row ∈ rows, Sanitized py row) :
    parseRecords py (header :: rows.map Row.cells) = ⟨rows, 0, none⟩ := by
  have hschema : (rows.map Row.cells).findSome? (unsupported header) = none := by
    rw [List.findSome?_eq_none_iff]
    intro fields hfields
    obtain ⟨row, hrow, rfl⟩ := List.mem_map.mp hfields
    exact (h row hrow).unsupported_cells
  have hparsed : (rows.map Row.cells).map (parseRecord py header) = rows.map some := by
    rw [List.map_map]
    refine List.map_congr_left fun row hrow => ?_
    rw [Function.comp_apply, (h row hrow).parseRecord_cells]
  have hnone : (rows.map some).countP (·.isNone) = 0 := by
    rw [List.countP_eq_zero]
    simp
  have hdata : rows.map Row.cells ≠ [] := by simpa using hne
  unfold parseRecords
  dsimp only
  rw [strip_header, header_complete, if_neg (by simp), if_neg hdata, hschema]
  dsimp only
  have hrows : (rows.map some).reduceOption = rows := by
    show (rows.map some).filterMap id = rows
    rw [List.filterMap_map]
    exact List.filterMap_some
  rw [hparsed, hnone, hrows, if_neg hne]

/-- **What is parsed has been sanitized.** -/
theorem parseRecords_sanitized {records : List (List Text)}
    (h : row ∈ (parseRecords py records).rows) : ∃ raw, sanitizeRow py raw = some row := by
  unfold parseRecords at h
  cases records with
  | nil => exact absurd h List.not_mem_nil
  | cons header data =>
    dsimp only at h
    split at h
    · exact absurd h List.not_mem_nil
    split at h
    · exact absurd h List.not_mem_nil
    split at h
    · exact absurd h List.not_mem_nil
    · obtain ⟨parsed, hparsed, hrow⟩ := List.mem_filterMap.mp h
      obtain ⟨record, -, rfl⟩ := List.mem_map.mp hparsed
      rw [id_eq] at hrow
      unfold parseRecord at hrow
      split at hrow
      · cases hrow
      · exact ⟨_, hrow⟩

theorem parseEmergencyCsv_sanitized {text : Text} {result : ParseResult}
    (h : parseEmergencyCsv py text = some result) (hrow : row ∈ result.rows) :
    ∃ raw, sanitizeRow py raw = some row := by
  unfold parseEmergencyCsv at h
  split_ifs at h
  · obtain rfl := Option.some.inj h
    exact absurd hrow List.not_mem_nil
  · obtain rfl := Option.some.inj h
    exact absurd hrow List.not_mem_nil
  · obtain rfl := Option.some.inj h
    exact absurd hrow List.not_mem_nil
  · obtain ⟨records, -, rfl⟩ := Option.map_eq_some_iff.mp h
    exact parseRecords_sanitized hrow

/-! ### Rendered and parsed again -/

/-- A rendered file begins with the name of its first column. -/
theorem head?_renderCsv (rows : List Row) : (renderCsv rows).head? = some 'H' := rfl

theorem strip_renderCsv (rows : List Row) : strip isSpace (renderCsv rows) ≠ [] := by
  obtain ⟨rest, hrest⟩ := List.head?_eq_some_iff.mp (head?_renderCsv rows)
  rw [hrest, strip, List.dropWhile_cons, if_neg (by decide), Ne, List.rdropWhile_eq_nil_iff]
  intro hall
  exact absurd (hall 'H' List.mem_cons_self) (by decide)

/-- **The records of a rendered file**, unless a cell is longer than the limit. -/
theorem csvReader_renderCsv (h : ∀ row ∈ rows, Sanitized py row) : csvReader (renderCsv rows) =
      if ∀ fields ∈ rows.map Row.cells, ∀ w ∈ fields, w.length ≤ FIELD_LIMIT then
        some (header :: rows.map Row.cells)
      else none := by
  have hheader : ∀ w ∈ header, w.length ≤ FIELD_LIMIT := fun w hw => (header_visible w hw).2
  rw [renderCsv, csvReader_writeRows]
  · refine if_congr ?_ rfl rfl
    rw [List.forall_mem_cons]
    exact and_iff_right hheader
  · intro fields hfields
    rcases List.mem_cons.mp hfields with rfl | hfields
    · exact isRow_header
    · obtain ⟨row, hrow, rfl⟩ := List.mem_map.mp hfields
      exact (h row hrow).isRow

/-- **Rendered and parsed again**, when no text has the replacement character. -/
theorem parseEmergencyCsv_renderCsv (hne : rows ≠ []) (h : ∀ row ∈ rows, Sanitized py row)
    (hplain : ∀ row ∈ rows, ∀ c, '\uFFFD' ∉ row.text c) : parseEmergencyCsv py (renderCsv rows) =
      if ∀ fields ∈ rows.map Row.cells, ∀ w ∈ fields, w.length ≤ FIELD_LIMIT then
        some ⟨rows, 0, none⟩
      else none := by
  have hfilter : (header :: rows.map Row.cells).filter (· ≠ []) = header :: rows.map Row.cells := by
    rw [List.filter_eq_self]
    intro fields hfields
    rcases List.mem_cons.mp hfields with rfl | hfields
    · decide
    · obtain ⟨row, -, rfl⟩ := List.mem_map.mp hfields
      simp [Row.cells, COLUMNS]
  have hclean : '\uFFFD' ∉ renderCsv rows := by
    rw [mem_renderCsv h]
    rintro ⟨row, hrow, c, hc⟩
    exact hplain row hrow c hc
  rw [parseEmergencyCsv, if_neg (strip_renderCsv rows), head?_renderCsv, if_neg (by decide),
    if_neg hclean, csvReader_renderCsv h]
  split_ifs
  · rw [Option.map_some, hfilter, parseRecords_cells hne h]
  · rfl

/-- One replacement character in a text, and the file is refused as a whole. -/
theorem parseEmergencyCsv_replacement (h : ∀ row ∈ rows, Sanitized py row)
    (hmem : ∃ row ∈ rows, ∃ c, '\uFFFD' ∈ row.text c) :
    parseEmergencyCsv py (renderCsv rows) = some (malformed "body is not valid UTF-8") := by
  rw [parseEmergencyCsv, if_neg (strip_renderCsv rows), head?_renderCsv, if_neg (by decide),
    if_pos ((mem_renderCsv h).mpr hmem)]

/-! ### Surviving the file -/

variable (py) in
/-- **The rows survive the file**: parsed again they come back in order, none is rejected, the
file has no defect, and the self-check passes. -/
def Survives (rows : List Row) : Prop :=
  parseEmergencyCsv py (renderCsv rows) = some ⟨rows, 0, none⟩ ∧ selfCheck py rows = true

theorem selfCheck_of_parse (h : parseEmergencyCsv py (renderCsv rows) = some ⟨rows, 0, none⟩) :
    selfCheck py rows = true := by
  unfold selfCheck
  rw [h]
  simp

/-- Rows that can be read survive. -/
theorem survives_of_readable {rows : List Row} (hne : rows ≠ [])
    (hsanitized : ∀ row ∈ rows, Sanitized py row)
    (hrows : ∀ row ∈ rows, (∀ c, '\uFFFD' ∉ row.text c) ∧ ∀ c, (row.cell c).length ≤ FIELD_LIMIT) :
    Survives py rows := by
  have hparse : parseEmergencyCsv py (renderCsv rows) = some ⟨rows, 0, none⟩ := by
    rw [parseEmergencyCsv_renderCsv hne hsanitized fun row hrow => (hrows row hrow).1, if_pos]
    intro fields hfields w hw
    obtain ⟨row, hrow, rfl⟩ := List.mem_map.mp hfields
    obtain ⟨c, -, rfl⟩ := List.mem_map.mp hw
    exact (hrows row hrow).2 c
  exact ⟨hparse, selfCheck_of_parse hparse⟩

/-- **Rows of `sanitize_row` survive the file** exactly if no text has the replacement character
and no cell is longer than the field limit of the reader. -/
theorem rows_survive_iff (rows : List Row) (hne : rows ≠ [])
    (h : ∀ row ∈ rows, ∃ raw, sanitizeRow py raw = some row) :
    Survives py rows ↔ ∀ row ∈ rows,
      (∀ c, '\uFFFD' ∉ row.text c) ∧ ∀ c, (row.cell c).length ≤ FIELD_LIMIT := by
  have hsanitized : ∀ row ∈ rows, Sanitized py row := by
    intro row hrow
    obtain ⟨raw, hraw⟩ := h row hrow
    exact sanitizeRow_sanitized hraw
  constructor
  · rintro ⟨hparse, -⟩
    have hplain : ∀ row ∈ rows, ∀ c, '\uFFFD' ∉ row.text c := by
      intro row hrow c hc
      rw [parseEmergencyCsv_replacement hsanitized ⟨row, hrow, c, hc⟩, Option.some.injEq] at hparse
      exact absurd (congrArg ParseResult.malformedReason hparse) (by simp [malformed])
    rw [parseEmergencyCsv_renderCsv hne hsanitized hplain] at hparse
    intro row hrow
    refine ⟨hplain row hrow, fun c => ?_⟩
    by_contra hlong
    rw [if_neg] at hparse
    · cases hparse
    · intro hall
      exact hlong (hall _ (List.mem_map_of_mem hrow) _ (List.mem_map_of_mem (mem_COLUMNS c)))
  · exact survives_of_readable hne hsanitized

/-- A source that has an address, a host name and an operator. -/
def rawSample (operator : Text) : Column → Value
  | .text .IP => .str "198.51.100.7".toList
  | .text .HostName => .str "vpn1".toList
  | .text .Operator => .str operator
  | _ => .none

/-- The row of such a source. -/
def rowSample (operator : Text) : Row where
  text
    | .IP => "198.51.100.7".toList
    | .HostName => "vpn1".toList
    | .Operator => operator
    | _ => []
  int _ := none
  port _ := 0
  flag _ := false
  schemaVersion := SCHEMA_VERSION
  sourceTag := "html_parse".toList

theorem sanitizeRow_sample {operator : Text} (h : cleanStr operator = operator) :
    sanitizeRow Python.ascii (rawSample operator) = some (rowSample operator) := by
  have hip : Python.ascii.normalizeIp (.str "198.51.100.7".toList) = "198.51.100.7".toList := by
    decide
  have hhost : cleanText (.str "vpn1".toList) = "vpn1".toList := by decide
  have hname : Python.ascii.normalizeHost (.str "vpn1".toList) ≠ [] := by decide
  have htext : ∀ c, sanitizeText Python.ascii (rawSample operator) c =
      (rowSample operator).text c := by
    intro c
    cases c with
    | IP =>
      rw [sanitizeText_ip]
      exact hip
    | HostName => exact hhost
    | Operator => exact h
    | CountryShort => rfl
    | OpenVPN_ConfigData_Base64 => rfl
    | SSTP_Hostname => rfl
    | CountryLong => rfl
    | LogType => rfl
    | Message => rfl
  unfold sanitizeRow
  dsimp only [rawSample]
  rw [hip, hhost, if_neg (by simpa using hname), Option.some.injEq]
  refine Row.ext (funext htext) (funext fun c => ?_) (funext fun c => ?_)
    (funext fun c => ?_) rfl rfl
  · rfl
  · cases c <;> rfl
  · rfl

/-- A row with an operator that is to be quoted, ports, a score and a profile. -/
def quotedRow : Row where
  text
    | .IP => "203.0.113.9".toList
    | .HostName => "vpn2".toList
    | .CountryShort => "JP".toList
    | .Operator => "Ann \"the\", op".toList
    | .OpenVPN_ConfigData_Base64 => "cmVtb3RlIHZwbjIgMTE5NCB1ZHAK".toList
    | .SSTP_Hostname => "vpn2.opengw.net".toList
    | _ => []
  int c := if c = .Score then some 700 else none
  port c := if c = .SSTP_Port then 443 else if c = .OpenVPN_UDP_Port then 1194 else 0
  flag c := c = .SSTP_Supported
  schemaVersion := SCHEMA_VERSION
  sourceTag := "html_parse".toList

/-- A few rows. -/
def sampleRows : List Row := [rowSample "home".toList, quotedRow, rowSample "\"".toList]

theorem sanitized_sampleRows : ∀ row ∈ sampleRows, Sanitized Python.groups row := by
  have hclean : ∀ row ∈ sampleRows, ∀ c, cleanStr (row.text c) = row.text c := by
    intro row hrow c
    cases c <;> revert row <;> decide
  intro row hrow
  refine ⟨fun c => hclean row hrow c ▸ cleanStr_cleaned _, ?_, ?_, ?_, ?_, ?_, ?_, ?_⟩
  · simp only [sampleRows, List.mem_cons, List.not_mem_nil, or_false] at hrow
    rcases hrow with rfl | rfl | rfl
    · exact ⟨[198, 51, 100, 7], by decide, by decide, by decide⟩
    · exact ⟨[203, 0, 113, 9], by decide, by decide, by decide⟩
    · exact ⟨[198, 51, 100, 7], by decide, by decide, by decide⟩
  all_goals
    revert row
    decide

/-- The reader takes what these rows hold. -/
theorem sampleRows_readable : ∀ row ∈ sampleRows,
    (∀ c, '\uFFFD' ∉ row.text c) ∧ ∀ c, (row.cell c).length ≤ FIELD_LIMIT := by
  have hcells : ∀ row ∈ sampleRows, ∀ c ∈ COLUMNS, (row.cell c).length ≤ FIELD_LIMIT := by decide
  refine fun row hrow => ⟨fun c => ?_, fun c => hcells row hrow c (mem_COLUMNS c)⟩
  cases c <;> revert row <;> decide

theorem rows_survive_iff_sample : Survives Python.groups sampleRows :=
  (rows_survive_iff sampleRows (by decide) fun row hrow =>
    ⟨_, (sanitized_sampleRows row hrow).sanitizeRow_cell⟩).mpr sampleRows_readable

/-- **One bad byte in the name of an operator**, decoded to the replacement character: the row is
accepted, and the file that is rendered from it alone is refused. -/
theorem replacement_not_survives :
    sanitizeRow Python.ascii (rawSample ['\uFFFD']) = some (rowSample ['\uFFFD']) ∧
      parseEmergencyCsv Python.ascii (renderCsv [rowSample ['\uFFFD']]) =
        some (malformed "body is not valid UTF-8") ∧
      ¬ Survives Python.ascii [rowSample ['\uFFFD']] := by
  have hrow : sanitizeRow Python.ascii (rawSample ['\uFFFD']) = some (rowSample ['\uFFFD']) :=
    sanitizeRow_sample (by decide)
  have hparse : parseEmergencyCsv Python.ascii (renderCsv [rowSample ['\uFFFD']]) =
      some (malformed "body is not valid UTF-8") := by
    refine parseEmergencyCsv_replacement (fun row hmem => ?_) ?_
    · rw [List.mem_singleton.mp hmem]
      exact sanitizeRow_sanitized hrow
    · exact ⟨_, List.mem_singleton_self _, .Operator, List.mem_singleton_self _⟩
  refine ⟨hrow, hparse, fun hsurvives => ?_⟩
  have hbad := hsurvives.1
  rw [hparse, Option.some.injEq] at hbad
  exact absurd (congrArg ParseResult.malformedReason hbad) (by simp [malformed])

end SoftEther.Publisher
