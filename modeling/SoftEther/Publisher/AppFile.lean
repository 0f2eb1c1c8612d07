import SoftEther.Parser.EmergencyCsv
import SoftEther.Publisher.File

namespace SoftEther.Publisher

open Lib
open SoftEther.Parser (Platform splitCsvRecords isRecord)
open SoftEther.Parser.Scan (scan start)

/-!
# The published file in the app

The app reads the file with a splitter of its own, with the text functions of its own runtime.

* `Agree` — what the two runtimes have in common;
* `splitCsvRecords_writeRows` — the splitter of the app on what the publisher's writer writes;
* `Agree.clean_eq`, `field_appRow` — the app's `clean` leaves a cell alone, so a column of a row
  is its cell;
* `Agree.ipOf_quad`, `Agree.hostOf_eq` — addresses and host names are read alike;
* `checked_renderCsv`, `parse_renderCsv` — the file passes the checks, and each row has a record.
-/

/-- **The two runtimes** know the same digits and letters of ASCII, and the app's know no space
    that is none for the publisher. -/
structure Agree (py : Python) (p : Platform) : Prop where
  whitespace : ∀ c, p.isWhitespace c = true → isSpace c = true
  regexSpace : ∀ c, p.regexSpace c = true → isSpace c = true
  digit : ∀ c : Char, c.toNat < 128 →
    p.digit c = if c.isDigit then some (Fin.ofNat 10 (c.toNat - 48)) else none
  regexDigit : ∀ c : Char, c.toNat < 128 → p.regexDigit c = c.isDigit
  letter : ∀ c : Char, c.isUpper = true → p.isLetter c = true
  lowercase : ∀ s : Text, p.lowercase (String.ofList s) = String.ofList (py.lower s)
  uppercase : ∀ s : Text, IsAscii s →
    p.uppercase (String.ofList s) = String.ofList (s.map Char.toUpper)

/-! ### The splitter -/

/-- Characters without a meaning are read as they are. -/
theorem scan_plain (s : Parser.Scan) (hquotes : s.inQuotes = false) (hskip : s.skip = false)
    {field : Text} (h : ∀ c ∈ field, isSpecial c = false) (rest : Text) :
    scan s (field ++ rest) = scan { s with field := s.field ++ field } rest := by
  induction field generalizing s with
  | nil => simp
  | cons c field ih =>
    have hc := h c List.mem_cons_self
    simp only [isSpecial, Bool.or_eq_false_iff, decide_eq_false_iff_not] at hc
    have hread : ∀ next, s.step c next = s.append c := by
      intro next
      simp [Parser.Scan.step, hquotes, hskip, hc]
    rw [List.cons_append, scan, hread,
      ih (s.append c) hquotes hskip fun c hc => h c (List.mem_cons_of_mem _ hc)]
    simp [Parser.Scan.append]

/-- A written field, quoted or not. -/
theorem scan_writeField (s : Parser.Scan) (hquotes : s.inQuotes = false) (hskip : s.skip = false)
    (field : Text) {rest : Text} (hrest : rest.head? ≠ some '"') :
    scan s (writeField field ++ rest) = scan { s with field := s.field ++ field } rest := by
  unfold writeField
  split_ifs with hspecial
  · have hquoted := Parser.Scan.scan_quote s hquotes hskip (String.ofList field) hrest
    rw [Parser.quote, String.toList_ofList] at hquoted
    exact hquoted
  · refine scan_plain s hquotes hskip (fun c hc => ?_) rest
    by_contra hc'
    exact hspecial (List.any_eq_true.mpr ⟨c, hc, by simpa using hc'⟩)

/-- What stands behind the first field of a row. -/
def restText : List Text → Text
  | [] => ['\n']
  | field :: fields => ',' :: (writeField field ++ restText fields)

theorem head?_restText (fields : List Text) (rest : Text) :
    (restText fields ++ rest).head? ≠ some '"' := by
  cases fields <;> simp [restText]

theorem writeRow_cons {field : Text} {fields : List Text} (h : fields ≠ []) :
    writeRow (field :: fields) = writeField field ++ restText fields := by
  have hrest : ∀ fields : List Text, fields ≠ [] →
      ',' :: ([','].intercalate (fields.map writeField) ++ ['\n']) = restText fields := by
    intro fields hne
    induction fields with
    | nil => exact absurd rfl hne
    | cons field fields ih =>
      cases fields with
      | nil => simp [restText]
      | cons next fields =>
        rw [restText, ← ih (by simp), List.map_cons, List.map_cons, List.intercalate_cons_cons]
        simp
  rw [writeRow, if_neg (by simp [h]), ← hrest fields h]
  cases fields with
  | nil => exact absurd rfl h
  | cons next fields => simp [List.intercalate_cons_cons]

/-- The rest of a row. -/
theorem scan_restText (s : Parser.Scan) (hquotes : s.inQuotes = false) (hskip : s.skip = false)
    (fields : List Text) (rest : Text) :
    scan s (restText fields ++ rest) =
      scan { s with
        records := s.records ++ [s.record ++ String.ofList s.field :: fields.map String.ofList]
        record := []
        field := [] } rest := by
  induction fields generalizing s with
  | nil =>
    have hend : ∀ next, s.step '\n' next = s.endRecord := by
      intro next
      simp [Parser.Scan.step, hquotes, hskip]
    rw [restText, List.singleton_append, scan, hend]
    rfl
  | cons field fields ih =>
    have hcomma : ∀ next, s.step ',' next = s.endField := by
      intro next
      simp [Parser.Scan.step, hquotes, hskip]
    rw [restText, List.cons_append, List.append_assoc, scan, hcomma,
      scan_writeField s.endField hquotes hskip field (head?_restText fields rest),
      ih { s.endField with field := s.endField.field ++ field } hquotes hskip]
    simp [Parser.Scan.endField]

/-- **The splitter of the app** returns the rows of the publisher's writer. -/
theorem splitCsvRecords_writeRows {rows : List (List Text)} (h : ∀ row ∈ rows, 2 ≤ row.length) :
    splitCsvRecords (writeRows rows) = rows.map (List.map String.ofList) := by
  have hscan : ∀ s : Parser.Scan, s.Closed → ∀ rows : List (List Text),
      (∀ row ∈ rows, 2 ≤ row.length) → scan s (writeRows rows) =
        { s with records := s.records ++ rows.map (List.map String.ofList) } := by
    intro s hs rows
    induction rows generalizing s with
    | nil =>
      intro _
      simp [writeRows, scan]
    | cons row rows ih =>
      intro h
      obtain ⟨hempty, hfield, hquotes, hskip⟩ := hs
      cases row with
      | nil => exact absurd (h [] List.mem_cons_self) (by simp)
      | cons field fields =>
        have hne : fields ≠ [] := by
          rintro rfl
          exact absurd (h [field] List.mem_cons_self) (by simp)
        have hline : writeRows ((field :: fields) :: rows) =
            writeField field ++ (restText fields ++ writeRows rows) := by
          rw [writeRows, List.flatMap_cons, writeRow_cons hne, List.append_assoc]
          rfl
        rw [hline, scan_writeField s hquotes hskip field (head?_restText fields _),
          scan_restText { s with field := s.field ++ field } hquotes hskip fields, ih]
        · simp [hempty, hfield]
        · exact ⟨rfl, rfl, hquotes, hskip⟩
        · exact fun row hrow => h row (List.mem_cons_of_mem _ hrow)
  have hrecords : ∀ record ∈ rows.map (List.map String.ofList), isRecord record = true := by
    intro record hrecord
    obtain ⟨row, hrow, rfl⟩ := List.mem_map.mp hrecord
    have hlength := h row hrow
    simp only [isRecord, List.length_map, Bool.or_eq_true, decide_eq_true_eq]
    exact .inl (by omega)
  unfold splitCsvRecords
  rw [hscan start ⟨rfl, rfl, rfl, rfl⟩ rows h, Parser.Scan.Closed.finish ⟨rfl, rfl, rfl, rfl⟩]
  simpa [start] using hrecords

/-! ### Texts -/

section Texts

variable {py : Python} {p : Platform}

theorem Agree.strip_eq (hp : Agree py p) {s : Text} (h : Tidy isSpace ' ' s) :
    p.trim (String.ofList s) = String.ofList s := by
  have hstrip := h.strip_eq hp.whitespace
  rw [Platform.trim, String.toList_ofList]
  exact congrArg String.ofList hstrip

/-- The app's own `\s+` is a collapse. -/
theorem collapseSpaces_eq (inRun : Bool) (s : Text) :
    p.collapseSpaces inRun s = collapse p.regexSpace ' ' inRun s := by
  induction s generalizing inRun with
  | nil => rfl
  | cons c s ih => rw [Platform.collapseSpaces, collapse, ih, ih]

/-- **The app's `clean`** leaves a cleaned text alone. -/
theorem Agree.clean_eq (hp : Agree py p) {s : Text} (h : Cleaned s) :
    p.clean (String.ofList s) = String.ofList s := by
  have hmap : (s.map fun c => if c.toNat = 0xA0 ∨ c = '\r' ∨ c = '\n' then ' ' else c) = s := by
    refine (List.map_congr_left fun c hc => ?_).trans (List.map_id s)
    split_ifs with hn
    · refine (h.eq_blank hc ?_).symm
      rcases hn with hn | rfl | rfl
      · simp [isSpace, hn]
      · decide
      · decide
    · rfl
  have hfilter : s.filter (·.toNat ≠ 0x200B) = s := by
    rw [List.filter_eq_self]
    exact fun c hc => by simpa using h.visible c hc
  unfold Platform.clean
  dsimp only
  rw [String.toList_ofList, hmap, hfilter, collapseSpaces_eq, h.tidy.collapse_eq hp.regexSpace,
    hp.strip_eq h.tidy]

/-- Every cell of a row is a cleaned text. -/
theorem Sanitized.cleaned_cell {row : Row} (h : Sanitized py row) (c : Column) :
    Cleaned (row.cell c) := by
  by_cases htext : ∃ t, c = .text t
  · obtain ⟨t, rfl⟩ := htext
    exact h.cleaned t
  · refine Cleaned.of_solid fun x hx => ?_
    obtain ⟨hlow, hhigh⟩ := h.visible_cell (not_exists.mp htext) hx
    constructor
    · simp [isSpace]
      omega
    · omega

end Texts

/-! ### The columns -/

/-- The names of the columns, as the app reads them. -/
def columnNames : List String := COLUMNS.map Column.name

/-- A row as the app reads it. -/
def appRow (row : Row) : List String := row.cells.map String.ofList

theorem filter_zipIdx_eq_nil {xs : List String} {name : String} (h : name ∉ xs) (n : ℕ) :
    (xs.zipIdx n).filter (·.1 = name) = [] := by
  rw [List.filter_eq_nil_iff]
  rintro ⟨x, i⟩ hx
  have hmem := List.fst_mem_of_mem_zipIdx hx
  simp only [decide_eq_true_eq]
  rintro rfl
  exact h hmem

/-- A name that is there once is found where it is. -/
theorem indexByName_of_getElem? {xs : List String} (h : xs.Nodup) {i : ℕ} {name : String}
    (hi : xs[i]? = some name) : Parser.EmergencyCsvParser.indexByName xs name = some i := by
  have hfind : ∀ (xs : List String) (n i : ℕ), xs.Nodup → xs[i]? = some name →
      (xs.zipIdx n).filter (·.1 = name) = [(name, n + i)] := by
    intro xs
    induction xs with
    | nil => exact fun _ _ _ hi => absurd hi (by simp)
    | cons x xs ih =>
      intro n i hnodup hi
      obtain ⟨hx, hrest⟩ := List.nodup_cons.mp hnodup
      rw [List.zipIdx_cons]
      cases i with
      | zero =>
        obtain rfl : x = name := by simpa using hi
        rw [List.filter_cons_of_pos (by simp), filter_zipIdx_eq_nil hx]
        rfl
      | succ i =>
        rw [List.getElem?_cons_succ] at hi
        have hne : x ≠ name := by
          rintro rfl
          exact hx (List.mem_of_getElem? hi)
        rw [List.filter_cons_of_neg (by simpa using hne), ih (n + 1) i hrest hi, Nat.add_assoc,
          Nat.add_comm 1 i]
  rw [Parser.EmergencyCsvParser.indexByName, hfind xs 0 i h hi]
  simp

/-- Where the app finds a column. -/
theorem getD_appRow (row : Row) (c : Column) :
    ∃ i, Parser.EmergencyCsvParser.indexByName columnNames c.name = some i ∧
      (appRow row).getD i "" = String.ofList (row.cell c) := by
  obtain ⟨i, hi⟩ := List.mem_iff_getElem?.mp (mem_COLUMNS c)
  have hname : columnNames[i]? = some c.name := by
    rw [columnNames, List.getElem?_map, hi, Option.map_some]
  refine ⟨i, indexByName_of_getElem? nodup_names hname, ?_⟩
  rw [appRow, Row.cells, List.getD_eq_getElem?_getD, List.getElem?_map, List.getElem?_map, hi]
  rfl

/-- **A column of a row** is its cell. -/
theorem field_appRow {py : Python} {p : Platform} (hp : Agree py p) {row : Row}
    (h : Sanitized py row) (c : Column) :
    Parser.EmergencyCsvParser.field p columnNames (appRow row) c.name =
      String.ofList (row.cell c) := by
  obtain ⟨i, hindex, hcell⟩ := getD_appRow row c
  rw [Parser.EmergencyCsvParser.field, hindex]
  dsimp only
  rw [hcell, hp.clean_eq (h.cleaned_cell c)]

/-! ### Numbers, addresses and host names -/

section Numbers

variable {py : Python} {p : Platform}

theorem Agree.digit_of_isDigit (hp : Agree py p) {c : Char} (h : c.isDigit = true) :
    p.digit c = some (Fin.ofNat 10 (c.toNat - 48)) := by
  have hhi := (isDigit_toNat h).2
  rw [hp.digit c (by omega), if_pos h]

theorem Agree.all_isDigit (hp : Agree py p) (n : ℕ) :
    (Nat.toDigits 10 n).all p.isDigit = true := by
  refine List.all_eq_true.mpr fun c hc => ?_
  rw [Platform.isDigit, hp.digit_of_isDigit (isDigit_of_mem hc)]
  rfl

/-- **The digits of a number** are read as the number. -/
theorem Agree.number_toDigits (hp : Agree py p) (n : ℕ) : p.number (Nat.toDigits 10 n) = n :=
  foldl_toDigits (fun _ => hp.digit_of_isDigit) n

theorem Agree.readDigits_toDigits (hp : Agree py p) (n : ℕ) :
    p.readDigits (Nat.toDigits 10 n) = some n := by
  rw [Platform.readDigits, if_pos ⟨Nat.toDigits_ne_nil, hp.all_isDigit n⟩, hp.number_toDigits]

/-- The part of a text up to its first point, and the rest. -/
theorem Agree.takeWhile_octet (hp : Agree py p) (o : ℕ) {rest : Text}
    (hrest : rest = [] ∨ ∃ tail, rest = '.' :: tail) :
    (Nat.toDigits 10 o ++ rest).takeWhile p.regexDigit = Nat.toDigits 10 o ∧
      (Nat.toDigits 10 o ++ rest).dropWhile p.regexDigit = rest := by
  have hdigits : ∀ c ∈ Nat.toDigits 10 o, p.regexDigit c = true := by
    intro c hc
    have hdigit := isDigit_of_mem hc
    rw [hp.regexDigit c (by have := (isDigit_toNat hdigit).2; omega), hdigit]
  have hpoint : p.regexDigit '.' = false := by
    rw [hp.regexDigit '.' (by decide)]
    decide
  rw [List.takeWhile_append_of_pos hdigits, List.dropWhile_append_of_pos hdigits]
  rcases hrest with rfl | ⟨tail, rfl⟩
  · simp
  · rw [List.takeWhile_cons_of_neg (by simp [hpoint]),
      List.dropWhile_cons_of_neg (by simp [hpoint])]
    simp

theorem Agree.ipAt_quad (hp : Agree py p) (o : ℕ) (os : List ℕ) (h : ∀ x ∈ o :: os, x ≤ 255) :
    p.ipAt os.length (['.'].intercalate ((o :: os).map (Nat.toDigits 10))) =
      some (['.'].intercalate ((o :: os).map (Nat.toDigits 10))) := by
  induction os generalizing o with
  | nil =>
    have hlength : (Nat.toDigits 10 o).length ≤ 3 :=
      (Nat.length_toDigits_le_iff (by decide) (by decide)).mpr (by have := h o (by simp); omega)
    have hpos : 1 ≤ (Nat.toDigits 10 o).length := Nat.length_toDigits_pos
    obtain ⟨htake, hdrop⟩ := hp.takeWhile_octet o (.inl rfl)
    rw [List.append_nil] at htake hdrop
    rw [List.map_singleton, List.intercalate_singleton, List.length_nil]
    unfold Platform.ipAt
    simp only [htake, hdrop]
    rw [if_neg (by simp; omega)]
  | cons o' os ih =>
    have hlength : (Nat.toDigits 10 o).length ≤ 3 :=
      (Nat.length_toDigits_le_iff (by decide) (by decide)).mpr (by have := h o (by simp); omega)
    have hpos : 1 ≤ (Nat.toDigits 10 o).length := Nat.length_toDigits_pos
    have hsplit : ['.'].intercalate ((o :: o' :: os).map (Nat.toDigits 10)) =
        Nat.toDigits 10 o ++ '.' :: ['.'].intercalate ((o' :: os).map (Nat.toDigits 10)) := by
      rw [List.map_cons, List.map_cons, List.intercalate_cons_cons]
      simp
    have hrest : ∃ tail, '.' :: ['.'].intercalate ((o' :: os).map (Nat.toDigits 10)) =
        '.' :: tail := ⟨_, rfl⟩
    obtain ⟨htake, hdrop⟩ := hp.takeWhile_octet o (.inr hrest)
    have hnext := ih o' fun x hx => h x (List.mem_cons_of_mem _ hx)
    rw [hsplit, List.length_cons]
    unfold Platform.ipAt
    simp only [htake, hdrop, hnext, Option.map_some]
    rw [if_neg (by simp; omega)]

theorem Agree.isValidIp_quad (hp : Agree py p) {ip : Text} (h : Python.DottedQuad ip) :
    p.isValidIp (String.ofList ip) = true := by
  obtain ⟨octets, hlen, hle, rfl⟩ := h
  rw [Platform.isValidIp, String.toList_ofList, Python.splitOn_dottedQuad hlen]
  simp only [List.length_map, hlen, decide_true, Bool.true_and, List.all_map, List.all_eq_true]
  intro o ho
  have hoctet := hle o ho
  simp [Platform.isOctet, hp.all_isDigit, hp.number_toDigits, hoctet, Nat.toDigits_ne_nil]

/-- **The address of a row** is found as it stands. -/
theorem Agree.ipOf_quad (hp : Agree py p) {ip : Text} (h : Python.DottedQuad ip) :
    p.ipOf (String.ofList ip) = some (String.ofList ip) := by
  have hvalid := hp.isValidIp_quad h
  have hclean := hp.clean_eq h.cleaned
  obtain ⟨octets, hlen, hle, rfl⟩ := h
  obtain ⟨o, os, rfl⟩ : ∃ o os, octets = o :: os := List.exists_cons_of_length_eq_add_one hlen
  have hfound := hp.ipAt_quad o os hle
  have hthree : os.length = 3 := by simpa using hlen
  rw [hthree] at hfound
  rw [Platform.ipOf, hclean, String.toList_ofList]
  generalize ['.'].intercalate ((o :: os).map (Nat.toDigits 10)) = ip at hfound hvalid
  have hfind : p.findIp false ip = some ip := by
    cases ip with
    | nil =>
      unfold Platform.ipAt at hfound
      exact absurd hfound (by simp)
    | cons c cs =>
      rw [Platform.findIp, if_neg Bool.false_ne_true, hfound]
  rw [hfind, Option.map_some, Option.filter_some, if_pos hvalid]

/-- A text with a colon is no address. -/
theorem Agree.not_isValidIp (hp : Agree py p) {s : Text} (h : ':' ∈ s) :
    p.isValidIp (String.ofList s) = false := by
  have hcolon : p.isDigit ':' = false := by
    rw [Platform.isDigit, hp.digit ':' (by decide)]
    decide
  by_contra hvalid
  rw [Bool.not_eq_false, Platform.isValidIp, String.toList_ofList, Bool.and_eq_true,
    List.all_eq_true] at hvalid
  have hparts : ':' ∈ ['.'].intercalate (s.splitOn '.') := by rwa [List.intercalate_splitOn]
  rcases Python.mem_intercalate hparts with hdot | ⟨part, hpart, hmem⟩
  · exact absurd hdot (by decide)
  · have hoctet := hvalid.2 part hpart
    simp only [Platform.isOctet, Bool.and_eq_true, List.all_eq_true] at hoctet
    rw [hoctet.1.2 ':' hmem] at hcolon
    cases hcolon

/-- **A host name** is normalized alike on both sides. -/
theorem Agree.hostOf_eq (hp : Agree py p) {host : Text} (h : Cleaned host) :
    p.hostOf (String.ofList host) = String.ofList (py.normalizeHost (.str host)) := by
  have hclean : cleanText (.str host) = host := h.cleanStr_eq
  have htext : p.hostText (String.ofList host) =
      Merger.withoutScheme ((py.lower host).rdropWhile (· = '.')) := by
    rw [Platform.hostText, hp.clean_eq h, hp.lowercase, String.toList_ofList]
  rw [Platform.hostOf, htext, Python.normalizeHost, Python.normalizeHostStr, hclean]
  generalize Merger.withoutScheme ((py.lower host).rdropWhile (· = '.')) = s
  by_cases hport : s.count ':' = 1
  · have hmem : ':' ∈ s := List.count_pos_iff.mp (by omega)
    rw [if_pos hport, hp.not_isValidIp hmem, if_pos (by simp [hport])]
  · rw [if_neg hport, if_neg (by simp [hport])]

end Numbers

/-! ### The file -/

section File

open SoftEther.Parser.EmergencyCsvParser

variable {py : Python} {p : Platform} {rows : List Row}

/-- The rows as the app has them. -/
def appFile (rows : List Row) : Parser.EmergencyCsvParser.File where
  columns := columnNames
  rows := rows.map appRow

/-- What passed the self-check has no replacement character. -/
theorem plain_of_selfCheck (hrows : ∀ row ∈ rows, Sanitized py row)
    (hcheck : selfCheck py rows = true) : '\uFFFD' ∉ renderCsv rows := by
  rw [mem_renderCsv hrows]
  rintro hmem
  rw [selfCheck, parseEmergencyCsv_replacement hrows hmem] at hcheck
  simp [malformed] at hcheck

theorem splitCsvRecords_renderCsv (rows : List Row) :
    splitCsvRecords (renderCsv rows) = columnNames :: rows.map appRow := by
  have hlength : ∀ fields ∈ header :: rows.map Row.cells, 2 ≤ fields.length := by
    intro fields hfields
    rcases List.mem_cons.mp hfields with rfl | hfields
    · decide
    · obtain ⟨row, -, rfl⟩ := List.mem_map.mp hfields
      simp [Row.cells, COLUMNS]
  rw [renderCsv, splitCsvRecords_writeRows hlength, List.map_cons, List.map_map]
  simp [header, columnNames, appRow, Function.comp_def]

/-- The names of the columns have no spaces around them. -/
theorem Agree.trim_columnNames (hp : Agree py p) : columnNames.map p.trim = columnNames := by
  refine (List.map_congr_left fun name hname => ?_).trans (List.map_id _)
  obtain ⟨c, -, rfl⟩ := List.mem_map.mp hname
  have hvisible := (header_visible c.name.toList (List.mem_map_of_mem (mem_COLUMNS c))).1
  have htidy : Tidy isSpace ' ' c.name.toList := by
    refine Tidy.of_no_space fun x hx => ?_
    have hx := hvisible x hx
    simp [isSpace]
    omega
  have htrim := hp.strip_eq htidy
  rwa [String.ofList_toList] at htrim

/-- **The file passes the checks** of the app. -/
theorem checked_renderCsv (hp : Agree py p) (hne : rows ≠ [])
    (hrows : ∀ row ∈ rows, Sanitized py row) (hcheck : selfCheck py rows = true) :
    checked p (String.ofList (renderCsv rows)) = some (appFile rows) := by
  have hblank : p.isBlank (String.ofList (renderCsv rows)) = false := by
    obtain ⟨rest, hrest⟩ := List.head?_eq_some_iff.mp (head?_renderCsv rows)
    have hletter : p.isWhitespace 'H' = false := by
      by_contra hspace
      rw [Bool.not_eq_false] at hspace
      exact absurd (hp.whitespace 'H' hspace) (by decide)
    rw [Platform.isBlank, String.toList_ofList, hrest, List.all_cons, hletter]
    rfl
  have hstructure : structureOf p (String.ofList (renderCsv rows)) = .ok (appFile rows) := by
    have hbom : (renderCsv rows).head? ≠ some BOM := by
      rw [head?_renderCsv]
      decide
    have hplain : REPLACEMENT_CHAR ∉ renderCsv rows := plain_of_selfCheck hrows hcheck
    have hmissing : Parser.EmergencyCsvParser.REQUIRED_COLUMNS.filter (· ∉ columnNames) = [] := by
      decide
    rw [structureOf, hblank, String.toList_ofList, if_neg Bool.false_ne_true, if_neg hbom,
      if_neg hplain, splitCsvRecords_renderCsv]
    simp only [hp.trim_columnNames, hmissing]
    rw [if_neg (by simp), if_neg (by simpa using hne)]
    rfl
  have hschema : schemaError p (appFile rows) = none := by
    rw [schemaError, Option.map_eq_none_iff, List.find?_eq_none]
    intro fields hfields
    obtain ⟨row, hrow, rfl⟩ := List.mem_map.mp hfields
    obtain ⟨i, hindex, hcell⟩ := getD_appRow row .schema_version
    have hdeclared : declared p columnNames (appRow row) = SUPPORTED_SCHEMA_VERSION := by
      have hcleaned := (hrows row hrow).cleaned_cell .schema_version
      rw [declared, show "schema_version" = Column.schema_version.name from rfl, hindex,
        Option.getD_some, hcell, hp.strip_eq hcleaned.tidy, Row.cell, (hrows row hrow).schema]
      rfl
    have hok : SchemaOk p (appFile rows).columns (appRow row) := fun _ => hdeclared
    simpa using hok
  rw [checked, hstructure]
  simp only [hschema, if_true]

/-- The columns of a row by name. -/
abbrev appField (p : Platform) (row : Row) : String → String :=
  Parser.EmergencyCsvParser.field p columnNames (appRow row)

/-- The record that the app makes of a row. -/
def appRecord (py : Python) (p : Platform) (source : String) (row : Row) : Merger.VpnServerRecord :=
  Merger.sourceAdd (record p (appField p row)
    (String.ofList (py.normalizeHost (.str (row.text .HostName))))
    (String.ofList (row.text .IP))).server source

/-- The host names of a row at which the app throws: dotted numbers that no `Int` holds. -/
def HostsOverflow (p : Platform) (row : Row) : Prop :=
  p.HostOverflows (String.ofList (row.text .HostName)) ∨
    p.HostOverflows (p.hostOf (String.ofList (row.text .HostName))) ∨
    SstpOverflows p (String.ofList (row.text .SSTP_Hostname))

/-- **A row is accepted** with its address and its normalized host name. -/
theorem rowResult_appRow (hp : Agree py p) {row : Row} (h : Sanitized py row) (source : String) :
    (rowResult p columnNames source (appRow row)).2 = some (appRecord py p source row) ∧
      verdict p columnNames (appRow row) = none := by
  have hsize : (appRow row).length = columnNames.length := by
    simp [appRow, Row.cells, columnNames]
  have hhost : p.hostOf (appField p row "HostName") =
      String.ofList (py.normalizeHost (.str (row.text .HostName))) := by
    rw [show "HostName" = (Column.text .HostName).name from rfl, appField, field_appRow hp h]
    exact hp.hostOf_eq (h.cleaned .HostName)
  have hip : p.ipOf (appField p row "IP") = some (String.ofList (row.text .IP)) := by
    rw [show "IP" = (Column.text .IP).name from rfl, appField, field_appRow hp h]
    exact hp.ipOf_quad h.ip
  have hne : String.ofList (py.normalizeHost (.str (row.text .HostName))) ≠ "" := by
    intro hempty
    have hnil := congrArg String.toList hempty
    rw [String.toList_ofList] at hnil
    exact h.host hnil
  constructor
  · rw [rowResult, if_neg (not_not.mpr hsize), built]
    simp only [hhost, hip, hne, if_false]
    rfl
  · rw [verdict, if_neg (not_not.mpr hsize), hhost, if_neg hne, hip]
    rfl

theorem not_rowOverflows (hp : Agree py p) {row : Row} (h : Sanitized py row)
    (hhosts : ¬ HostsOverflow p row) : ¬ RowOverflows p columnNames (appRow row) := by
  have hhost : field p columnNames (appRow row) "HostName" = String.ofList (row.text .HostName) :=
    field_appRow hp h (.text .HostName)
  have hsstp : field p columnNames (appRow row) "SSTP_Hostname" =
      String.ofList (row.text .SSTP_Hostname) := field_appRow hp h (.text .SSTP_Hostname)
  rintro ⟨-, hfields⟩
  unfold FieldsOverflow at hfields
  rw [hhost, hsstp] at hfields
  apply hhosts
  rcases hfields with (hlong | ⟨-, -, hlong⟩) | ⟨-, hlong⟩
  · exact .inl hlong
  · exact .inr (.inr hlong)
  · exact .inr (.inl hlong)

theorem identityOf_appRecord (hp : Agree py p) {row : Row} (h : Sanitized py row)
    (source : String) :
    identityOf (appRecord py p source row) "ip" = String.ofList (row.text .IP) := by
  obtain ⟨hresult, hverdict⟩ := rowResult_appRow hp h source
  obtain ⟨ip, issues, r, hip, -, hrow, -, -, hsame, -⟩ := rowResult_of_accepted source hverdict
  have hfield : field p columnNames (appRow row) "IP" = String.ofList (row.text .IP) :=
    field_appRow hp h (.text .IP)
  rw [hfield, hp.ipOf_quad h.ip] at hip
  rw [hrow] at hresult
  obtain rfl := Option.some.inj hresult
  rw [hsame]
  exact (Option.some.inj hip).symm

/-- What the loop of the app has behind the rows of a published file. -/
theorem parsedOf_appFile (hp : Agree py p) (hrows : ∀ row ∈ rows, Sanitized py row)
    (source : String) :
    (parsedOf p (appFile rows) source).parsed = rows.map (appRecord py p source) ∧
      (parsedOf p (appFile rows) source).rejected = 0 := by
  have hresult : ∀ row ∈ rows,
      (rowResult p columnNames source (appRow row)).2 = some (appRecord py p source row) :=
    fun row hrow => (rowResult_appRow hp (hrows row hrow) source).1
  constructor
  · show (rows.map appRow).filterMap (fun row => (rowResult p columnNames source row).2) = _
    rw [List.filterMap_map, ← List.filterMap_eq_map]
    exact List.filterMap_congr hresult
  · show (rows.map appRow).countP (fun row => (rowResult p columnNames source row).2.isNone) = _
    rw [List.countP_map, List.countP_eq_zero]
    intro row hrow
    simp [hresult row hrow]

/-- **What the app makes of a published file**: a record for each row, and nothing is rejected. -/
theorem parse_renderCsv (hp : Agree py p) (hne : rows ≠ [])
    (hrows : ∀ row ∈ rows, Sanitized py row) (hcheck : selfCheck py rows = true)
    (hips : (rows.map fun row => row.text .IP).Nodup)
    (hhosts : ∀ row ∈ rows, ¬ HostsOverflow p row) (source : String) :
    ∃ issues, parse p (String.ofList (renderCsv rows)) source =
      .ok (.valid (rows.map (appRecord py p source)) 0 issues) := by
  have hchecked := checked_renderCsv hp hne hrows hcheck
  obtain ⟨result, hreturns, hresult⟩ :=
    parse_returns (p := p) (String.ofList (renderCsv rows)) source
  have hnot : ¬ Overflowing p (String.ofList (renderCsv rows)) := by
    rintro ⟨file, hfile, fields, hfields, hlong⟩
    rw [hchecked] at hfile
    obtain rfl := Option.some.inj hfile
    obtain ⟨row, hrow, rfl⟩ := List.mem_map.mp hfields
    exact not_rowOverflows hp (hrows row hrow) (hhosts row hrow) hlong
  obtain ⟨hparsed, hrejected⟩ := parsedOf_appFile hp hrows source
  -- no two rows have an address, so no two records are merged
  have hkeys : ((rows.map (appRecord py p source)).map (identityOf · "ip")).Nodup := by
    have hsame : (rows.map (appRecord py p source)).map (identityOf · "ip") =
        (rows.map fun row => row.text .IP).map String.ofList := by
      rw [List.map_map, List.map_map]
      exact List.map_congr_left fun row hrow => identityOf_appRecord hp (hrows row hrow) source
    rw [hsame]
    exact hips.map fun s t hst => String.ofList_injective hst
  have hrecords : records p (appFile rows) source = rows.map (appRecord py p source) := by
    rw [records, hparsed, recordsOfGroups, if_pos (LinkedMap.length_group_of_nodup hkeys)]
  refine ⟨(parsedOf p (appFile rows) source).issues, ?_⟩
  rw [hreturns.returns hnot, hresult (appFile rows) hchecked, resultOf]
  simp only [hparsed, hrejected, hrecords]
  rw [if_neg (by simpa using hne), conclude, if_pos rfl]

end File

end SoftEther.Publisher
