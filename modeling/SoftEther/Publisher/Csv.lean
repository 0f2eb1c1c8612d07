import SoftEther.Publisher.Text

namespace SoftEther.Publisher

/-!
# The `csv` module of Python

The writer with `QUOTE_MINIMAL` and a line feed at the end of a row, and the reader of the default
dialect over the lines of a text, which is a machine with six states. NUL is a character as any
other, as it is from 3.11 on.

* `writeField`, `writeRow`, `writeRows` — the writer;
* `CsvReader`, `processChar`, `csvReader` — the reader; `none` is `csv.Error`;
* `read_field`, `read_row`, `read_rows` — what the machine does over a field, a row and a table;
* `csvReader_writeRows` — a table is read back, unless a field is longer than the limit.
-/

/-! ### The writer -/

/-- What `QUOTE_MINIMAL` looks for. -/
def isSpecial (c : Char) : Bool := c = ',' || c = '"' || c = '\n' || c = '\r'

/-- `doublequote`. -/
def doubled (field : Text) : Text := field.flatMap fun c => if c = '"' then ['"', '"'] else [c]

/-- A field is quoted when it has to be. -/
def writeField (field : Text) : Text :=
  if field.any isSpecial then '"' :: (doubled field ++ ['"']) else field

/-- `writerow`; a row of one empty field is quoted. -/
def writeRow (fields : List Text) : Text :=
  if fields = [[]] then "\"\"\n".toList
  else [','].intercalate (fields.map writeField) ++ ['\n']

/-- `writerows`. -/
def writeRows (rows : List (List Text)) : Text := rows.flatMap writeRow

/-! ### The reader -/

/-- The states of the reader. -/
inductive ReaderState
  | START_RECORD | START_FIELD | IN_FIELD | IN_QUOTED_FIELD | QUOTE_IN_QUOTED_FIELD | EAT_CRNL
  deriving DecidableEq, Repr

/-- The variables of the reader, and the rows it has returned. -/
structure CsvReader where
  records : List (List Text)
  fields : List Text
  field : Text
  state : ReaderState

/-- `field_size_limit`. -/
def FIELD_LIMIT : ℕ := 131072

/-- The characters that end a line. -/
def isBreak (c : Char) : Bool := c = '\n' || c = '\r'

namespace CsvReader

/-- Before the text. -/
def start : CsvReader := ⟨[], [], [], .START_RECORD⟩

/-- `parse_add_char`; the reader goes on in `state`. -/
def addChar (r : CsvReader) (c : Char) (state : ReaderState) : Option CsvReader :=
  if r.field.length < FIELD_LIMIT then some { r with field := r.field ++ [c], state := state }
  else none

/-- `parse_save_field`; the reader goes on in `state`. -/
def saveField (r : CsvReader) (state : ReaderState) : CsvReader :=
  { r with fields := r.fields ++ [r.field], field := [], state := state }

/-- `parse_process_char` in `START_FIELD`. -/
def startField (r : CsvReader) (c : Char) : Option CsvReader :=
  if isBreak c then some (r.saveField .EAT_CRNL)
  else if c = '"' then some { r with state := .IN_QUOTED_FIELD }
  else if c = ',' then some (r.saveField .START_FIELD)
  else r.addChar c .IN_FIELD

/-- `parse_process_char`. -/
def processChar (r : CsvReader) (c : Char) : Option CsvReader :=
  match r.state with
  | .START_RECORD => if isBreak c then some { r with state := .EAT_CRNL } else r.startField c
  | .START_FIELD => r.startField c
  | .IN_FIELD =>
    if isBreak c then some (r.saveField .EAT_CRNL)
    else if c = ',' then some (r.saveField .START_FIELD)
    else r.addChar c .IN_FIELD
  | .IN_QUOTED_FIELD =>
    if c = '"' then some { r with state := .QUOTE_IN_QUOTED_FIELD }
    else r.addChar c .IN_QUOTED_FIELD
  | .QUOTE_IN_QUOTED_FIELD =>
    if c = '"' then r.addChar c .IN_QUOTED_FIELD
    else if c = ',' then some (r.saveField .START_FIELD)
    else if isBreak c then some (r.saveField .EAT_CRNL)
    else r.addChar c .IN_FIELD
  | .EAT_CRNL => if isBreak c then some r else none

/-- `parse_process_char` of `EOL`. -/
def processEol (r : CsvReader) : CsvReader :=
  match r.state with
  | .START_RECORD | .IN_QUOTED_FIELD => r
  | .START_FIELD | .IN_FIELD | .QUOTE_IN_QUOTED_FIELD => r.saveField .START_RECORD
  | .EAT_CRNL => { r with state := .START_RECORD }

/-- Behind a line: the row is returned unless it goes on. -/
def endLine (r : CsvReader) : CsvReader :=
  let r := r.processEol
  if r.state = .START_RECORD then { r with records := r.records ++ [r.fields], fields := [] }
  else r

/-- The loop over the characters of the lines; `none` stands behind each line. -/
def read (r : CsvReader) : List (Option Char) → Option CsvReader
  | [] => some r
  | some c :: rest => (r.processChar c).bind (read · rest)
  | none :: rest => read r.endLine rest

/-- No line is left: what has been begun is returned. -/
def finish (r : CsvReader) : List (List Text) :=
  if r.field ≠ [] ∨ r.state = .IN_QUOTED_FIELD then
    r.records ++ [(r.saveField .START_RECORD).fields]
  else r.records

end CsvReader

/-- `io.StringIO(text, newline="")`: a line ends behind `\n`, `\r` or `\r\n`. -/
def lines : Text → List (Option Char)
  | [] => []
  | '\r' :: '\n' :: rest => some '\r' :: some '\n' :: none :: lines rest
  | c :: rest =>
    if isBreak c ∨ rest = [] then some c :: none :: lines rest else some c :: lines rest

/-- `csv.reader`. -/
def csvReader (text : Text) : Option (List (List Text)) :=
  (CsvReader.start.read (lines text)).map CsvReader.finish

/-! ### A field -/

theorem isSpecial_eq_false {c : Char} :
    isSpecial c = false ↔ c ≠ ',' ∧ c ≠ '"' ∧ isBreak c = false := by
  simp [isSpecial, isBreak, and_assoc]

namespace CsvReader

/-- Outside quotes the characters of a field are read as they are. -/
theorem read_plain (r : CsvReader) (hstate : r.state = .IN_FIELD)
    (hfits : r.field.length ≤ FIELD_LIMIT) {w : Text} (hw : ∀ c ∈ w, isSpecial c = false)
    (rest : List (Option Char)) :
    r.read (w.map some ++ rest) =
      if r.field.length + w.length ≤ FIELD_LIMIT then
        read { r with field := r.field ++ w } rest
      else none := by
  induction w generalizing r with
  | nil => simp [hfits]
  | cons c w ih =>
    obtain ⟨hcomma, -, hbreak⟩ := isSpecial_eq_false.mp (hw c List.mem_cons_self)
    have hchar : r.processChar c = r.addChar c .IN_FIELD := by
      simp only [processChar, hstate, hbreak, hcomma, if_false, Bool.false_eq_true]
    rw [List.map_cons, List.cons_append, read, hchar, addChar]
    by_cases hroom : r.field.length < FIELD_LIMIT
    · rw [if_pos hroom, Option.bind_some]
      have hlength : (r.field ++ [c]).length ≤ FIELD_LIMIT := by
        rw [List.length_append, List.length_singleton]
        omega
      rw [ih _ rfl hlength fun c hc => hw c (List.mem_cons_of_mem _ hc)]
      simp only [List.length_append, List.length_cons, List.length_nil, List.append_assoc,
        List.singleton_append, ← hstate]
      grind
    · rw [if_neg hroom, if_neg (by rw [List.length_cons]; omega)]
      rfl

/-- Between quotes the characters are read up to the closing quote. -/
theorem read_doubled (r : CsvReader) (hstate : r.state = .IN_QUOTED_FIELD)
    (hfits : r.field.length ≤ FIELD_LIMIT) (w : Text) (rest : List (Option Char)) :
    r.read ((doubled w).map some ++ some '"' :: rest) =
      if r.field.length + w.length ≤ FIELD_LIMIT then
        read { r with field := r.field ++ w, state := .QUOTE_IN_QUOTED_FIELD } rest
      else none := by
  have hquote : r.processChar '"' = some { r with state := .QUOTE_IN_QUOTED_FIELD } := by
    simp only [processChar, hstate, if_true]
  induction w generalizing r with
  | nil =>
    rw [doubled, List.flatMap_nil, List.map_nil, List.nil_append, read, hquote]
    simp [hfits]
  | cons c w ih =>
    -- one character of the field, whether it is written once or twice
    have hone : r.read ((doubled (c :: w)).map some ++ some '"' :: rest) =
        (r.addChar c .IN_QUOTED_FIELD).bind
          (read · ((doubled w).map some ++ some '"' :: rest)) := by
      rw [doubled, List.flatMap_cons, ← doubled]
      by_cases hc : c = '"'
      · subst hc
        have hsecond : processChar { r with state := .QUOTE_IN_QUOTED_FIELD } '"' =
            r.addChar '"' .IN_QUOTED_FIELD := by
          simp only [processChar, if_true, addChar]
        rw [if_pos rfl]
        show (r.processChar '"').bind _ = _
        rw [hquote, Option.bind_some]
        show (processChar _ '"').bind _ = _
        rw [hsecond]
        rfl
      · have hchar : r.processChar c = r.addChar c .IN_QUOTED_FIELD := by
          simp only [processChar, hstate, hc, if_false]
        rw [if_neg hc]
        show (r.processChar c).bind _ = _
        rw [hchar]
        rfl
    rw [hone, addChar]
    by_cases hroom : r.field.length < FIELD_LIMIT
    · rw [if_pos hroom, Option.bind_some]
      have hlength : (r.field ++ [c]).length ≤ FIELD_LIMIT := by
        rw [List.length_append, List.length_singleton]
        omega
      rw [ih _ rfl hlength (by simp only [processChar, if_true])]
      simp only [List.length_append, List.length_cons, List.length_nil, List.append_assoc,
        List.singleton_append]
      grind
    · rw [if_neg hroom, if_neg (by rw [List.length_cons]; omega)]
      rfl

/-- **A field and the delimiter behind it.** -/
theorem read_field (r : CsvReader) (hfield : r.field = [])
    (hstate : r.state = .START_FIELD ∨ r.state = .START_RECORD) {w : Text}
    (hw : ∀ c ∈ w, isBreak c = false) {d : Char}
    (hd : d = ',' ∨ d = '\n' ∧ r.state = .START_FIELD) (rest : List (Option Char)) :
    r.read ((writeField w).map some ++ some d :: rest) =
      if w.length ≤ FIELD_LIMIT then
        read ⟨r.records, r.fields ++ [w], [], if d = ',' then .START_FIELD else .EAT_CRNL⟩ rest
      else none := by
  -- a character other than a line break begins a field in both states
  have hbegin : ∀ c, isBreak c = false → r.processChar c = r.startField c := by
    intro c hc
    rcases hstate with hs | hs
    · simp only [processChar, hs]
    · simp only [processChar, hs, hc, Bool.false_eq_true, if_false]
  -- the delimiter ends a field that is not between quotes
  have hend : ∀ (v : Text) (s : ReaderState), s = .IN_FIELD ∨ s = .QUOTE_IN_QUOTED_FIELD →
      processChar { r with field := v, state := s } d =
        some ⟨r.records, r.fields ++ [v], [],
          if d = ',' then .START_FIELD else .EAT_CRNL⟩ := by
    rintro v s (rfl | rfl) <;> rcases hd with rfl | ⟨rfl, -⟩ <;> rfl
  unfold writeField
  by_cases hquote : w.any isSpecial
  · have hopen : r.processChar '"' = some { r with state := .IN_QUOTED_FIELD } := by
      rw [hbegin '"' (by decide)]
      rfl
    have hclosed : ∀ rest', (if w.length ≤ FIELD_LIMIT then
        read { r with field := w, state := .QUOTE_IN_QUOTED_FIELD } (some d :: rest')
        else none) = if w.length ≤ FIELD_LIMIT then
        read ⟨r.records, r.fields ++ [w], [], if d = ',' then .START_FIELD else .EAT_CRNL⟩ rest'
        else none := by
      intro rest'
      rw [read, hend w _ (Or.inr rfl), Option.bind_some]
    rw [if_pos hquote, List.map_cons, List.cons_append, read, hopen, Option.bind_some,
      List.map_append, List.append_assoc]
    show read _ ((doubled w).map some ++ some '"' :: (some d :: rest)) = _
    rw [read_doubled _ rfl (by simp [hfield]), hfield, List.length_nil, Nat.zero_add,
      List.nil_append, hclosed]
  · rw [if_neg hquote]
    rw [Bool.not_eq_true, List.any_eq_false] at hquote
    have hplain : ∀ c ∈ w, isSpecial c = false := fun c hc => by simpa using hquote c hc
    cases w with
    | nil =>
      have hsave : r.processChar d = some ⟨r.records, r.fields ++ [[]], [],
          if d = ',' then .START_FIELD else .EAT_CRNL⟩ := by
        rcases hd with rfl | ⟨rfl, hs⟩
        · rw [hbegin ',' (by decide)]
          simp [startField, saveField, hfield, isBreak]
        · simp [processChar, hs, startField, saveField, hfield, isBreak]
      rw [List.map_nil, List.nil_append, read, hsave]
      rfl
    | cons c w =>
      obtain ⟨hcomma, hquote', hbreak⟩ := isSpecial_eq_false.mp (hplain c List.mem_cons_self)
      have hfirst : r.processChar c = some { r with field := [c], state := .IN_FIELD } := by
        rw [hbegin c hbreak]
        simp [startField, addChar, hcomma, hquote', hbreak, hfield, FIELD_LIMIT]
      rw [List.map_cons, List.cons_append, read, hfirst, Option.bind_some,
        read_plain _ rfl (by simp [FIELD_LIMIT]) fun c hc => hplain c (List.mem_cons_of_mem _ hc)]
      simp only [List.length_cons, List.length_nil, List.singleton_append, Nat.zero_add,
        Nat.add_comm 1]
      rw [read, hend (c :: w) _ (Or.inl rfl), Option.bind_some]

/-! ### A row and a table -/

/-- **A row, up to its line feed.** -/
theorem read_row (r : CsvReader) (hfield : r.field = [])
    (hstate : r.state = .START_FIELD ∨ r.state = .START_RECORD) {w : Text} {ws : List Text}
    (hfirst : ws = [] → r.state = .START_FIELD)
    (hbreak : ∀ v ∈ w :: ws, ∀ c ∈ v, isBreak c = false) (rest : List (Option Char)) :
    r.read (([','].intercalate ((w :: ws).map writeField)).map some ++ some '\n' :: rest) =
      if ∀ v ∈ w :: ws, v.length ≤ FIELD_LIMIT then
        read ⟨r.records, r.fields ++ w :: ws, [], .EAT_CRNL⟩ rest
      else none := by
  induction ws generalizing r w with
  | nil =>
    have hone := read_field r hfield hstate (hbreak w List.mem_cons_self)
      (Or.inr ⟨rfl, hfirst rfl⟩) rest
    simpa using hone
  | cons v ws ih =>
    rw [List.map_cons, List.map_cons, List.intercalate_cons_cons, List.map_append,
      List.map_append, List.append_assoc, List.append_assoc, List.map_singleton,
      List.singleton_append, read_field r hfield hstate (hbreak w List.mem_cons_self) (Or.inl rfl),
      if_pos rfl, ← List.map_cons,
      ih ⟨r.records, r.fields ++ [w], [], _⟩ rfl (Or.inl rfl) (fun _ => rfl) fun u hu =>
        hbreak u (List.mem_cons_of_mem w hu)]
    by_cases hw : w.length ≤ FIELD_LIMIT
    · simp [hw]
    · simp [hw]

end CsvReader

theorem lines_row {s : Text} (hs : ∀ c ∈ s, isBreak c = false) (rest : Text) :
    lines (s ++ '\n' :: rest) = s.map some ++ some '\n' :: none :: lines rest := by
  induction s with
  | nil => rfl
  | cons c s ih =>
    have hc := hs c List.mem_cons_self
    rw [List.cons_append, lines, ih fun c hc => hs c (List.mem_cons_of_mem _ hc)]
    · simp [hc]
    · rintro - rfl
      exact absurd hc (by decide)

theorem isBreak_of_mem_writeField {w : Text} (hw : ∀ c ∈ w, isBreak c = false) :
    ∀ c ∈ writeField w, isBreak c = false := by
  intro c hc
  unfold writeField doubled at hc
  split_ifs at hc
  · rcases List.mem_cons.mp hc with rfl | hc
    · decide
    rcases List.mem_append.mp hc with hc | hc
    · obtain ⟨x, hx, hcx⟩ := List.mem_flatMap.mp hc
      split_ifs at hcx with hquote
      · have : c = '"' := by simpa using hcx
        subst this
        decide
      · rw [List.mem_singleton.mp hcx]
        exact hw x hx
    · rw [List.mem_singleton.mp hc]
      decide
  · exact hw c hc

/-- A row of two fields or more, none of them with a line break. -/
def IsRow (fields : List Text) : Prop :=
  2 ≤ fields.length ∧ ∀ w ∈ fields, ∀ c ∈ w, isBreak c = false

theorem lines_writeRow {fields : List Text} (h : IsRow fields) (rest : Text) :
    lines (writeRow fields ++ rest) =
      ([','].intercalate (fields.map writeField)).map some ++ some '\n' :: none ::
        lines rest := by
  have hmany : fields ≠ [[]] := by
    rintro rfl
    exact absurd h.1 (by decide)
  rw [writeRow, if_neg hmany, List.append_assoc, List.singleton_append]
  refine lines_row (fun c hc => ?_) rest
  rcases Python.mem_intercalate hc with rfl | ⟨part, hpart, hc⟩
  · decide
  · obtain ⟨w, hw, rfl⟩ := List.mem_map.mp hpart
    exact isBreak_of_mem_writeField (h.2 w hw) c hc

/-- **A table is read row by row.** -/
theorem CsvReader.read_rows {rows : List (List Text)} (h : ∀ fields ∈ rows, IsRow fields)
    (records : List (List Text)) :
    CsvReader.read ⟨records, [], [], .START_RECORD⟩ (lines (writeRows rows)) =
      if ∀ fields ∈ rows, ∀ w ∈ fields, w.length ≤ FIELD_LIMIT then
        some ⟨records ++ rows, [], [], .START_RECORD⟩
      else none := by
  induction rows generalizing records with
  | nil => simp [writeRows, lines, read]
  | cons fields rows ih =>
    obtain ⟨hlength, hbreak⟩ := h fields List.mem_cons_self
    obtain ⟨w, v, ws, rfl⟩ : ∃ w v ws, fields = w :: v :: ws := by
      match fields, hlength with
      | w :: v :: ws, _ => exact ⟨w, v, ws, rfl⟩
    rw [writeRows, List.flatMap_cons, lines_writeRow (h _ List.mem_cons_self), ← writeRows,
      read_row _ rfl (Or.inr rfl) (fun hnil => absurd hnil (by simp)) hbreak]
    -- the end of the line returns the row
    have hline : CsvReader.read ⟨records, [] ++ w :: v :: ws, [], .EAT_CRNL⟩
        (none :: lines (writeRows rows)) =
        CsvReader.read ⟨records ++ [w :: v :: ws], [], [], .START_RECORD⟩
          (lines (writeRows rows)) := rfl
    rw [hline, ih fun fields hf => h fields (List.mem_cons_of_mem _ hf)]
    rw [List.append_assoc, List.singleton_append]
    by_cases hw : ∀ u ∈ w :: v :: ws, u.length ≤ FIELD_LIMIT
    · rw [if_pos hw]
      refine if_congr ?_ rfl rfl
      rw [List.forall_mem_cons]
      exact (and_iff_right hw).symm
    · rw [if_neg hw, if_neg fun hall => hw (hall _ List.mem_cons_self)]

/-- **A table is read back**, unless one of its fields is longer than the limit. -/
theorem csvReader_writeRows {rows : List (List Text)} (h : ∀ fields ∈ rows, IsRow fields) :
    csvReader (writeRows rows) =
      if ∀ fields ∈ rows, ∀ w ∈ fields, w.length ≤ FIELD_LIMIT then some rows else none := by
  rw [csvReader, CsvReader.start, CsvReader.read_rows h []]
  split_ifs <;> simp [CsvReader.finish]

end SoftEther.Publisher
