import SoftEther.Parser.Csv

namespace SoftEther.Parser

/-!
# Lines of a CSV text

* `textLines` — `CharSequence.lines()`;
* `scan_plain` — without quotes, the loop of `splitCsvRecords` cuts a line at its commas;
* `splitCsvRecords_lines` — a text without quotes has the records of its lines.
-/

open Scan

/-! ### Lines -/

/-- `lines()`: a line ends at `\r\n`, `\n` or `\r`. -/
def textLines : List Char → List (List Char)
  | [] => [[]]
  | '\r' :: '\n' :: cs => [] :: textLines cs
  | c :: cs =>
    if c = '\n' ∨ c = '\r' then [] :: textLines cs else (textLines cs).modifyHead (c :: ·)

/-- The ways in which the lines of a file end. -/
def newlines : List (List Char) := [['\n'], ['\r', '\n']]

/-- A text without line breaks. -/
def Unbroken (line : List Char) : Prop := ∀ c ∈ line, c ≠ '\n' ∧ c ≠ '\r'

instance (line : List Char) : Decidable (Unbroken line) := List.decidableBAll _ line

theorem textLines_cons {c : Char} (hc : c ≠ '\n' ∧ c ≠ '\r') (cs : List Char) :
    textLines (c :: cs) = (textLines cs).modifyHead (c :: ·) := by
  rw [textLines]
  · simp [hc.1, hc.2]
  · rintro cs' ⟨rfl, -⟩
    exact absurd rfl hc.2

variable {line newline : List Char}

/-- A text of one line. -/
theorem textLines_unbroken (h : Unbroken line) : textLines line = [line] := by
  induction line with
  | nil => rfl
  | cons c cs ih =>
    rw [textLines_cons (h c List.mem_cons_self), ih fun c hc => h c (List.mem_cons_of_mem _ hc)]
    rfl

theorem textLines_newline (hnewline : newline ∈ newlines) (rest : List Char) :
    textLines (newline ++ rest) = [] :: textLines rest := by
  simp only [newlines, List.mem_cons, List.not_mem_nil, or_false] at hnewline
  obtain rfl | rfl := hnewline
  · rw [List.singleton_append, textLines]
    · simp
    · rintro cs ⟨h, -⟩
  · rfl

/-- A line that is followed by another one. -/
theorem textLines_append (hnewline : newline ∈ newlines) (hline : Unbroken line)
    (rest : List Char) : textLines (line ++ (newline ++ rest)) = line :: textLines rest := by
  induction line with
  | nil => exact textLines_newline hnewline rest
  | cons c cs ih =>
    rw [List.cons_append, textLines_cons (hline c List.mem_cons_self),
      ih fun c hc => hline c (List.mem_cons_of_mem _ hc)]
    rfl

/-- **The lines of a text are the lines that it was written from.** -/
theorem textLines_intercalate (hnewline : newline ∈ newlines) {ls : List (List Char)}
    (hne : ls ≠ []) (h : ∀ line ∈ ls, Unbroken line) : textLines (newline.intercalate ls) = ls := by
  induction ls with
  | nil => exact absurd rfl hne
  | cons line ls ih =>
    cases ls with
    | nil =>
      rw [List.intercalate_singleton]
      exact textLines_unbroken (h line List.mem_cons_self)
    | cons line' ls =>
      have hrest := ih (by simp) fun l hl => h l (List.mem_cons_of_mem _ hl)
      rw [List.intercalate_cons_cons, List.append_assoc,
        textLines_append hnewline (h line List.mem_cons_self), hrest]

/-! ### Lines without quotes -/

/-- A line without line breaks and quotes. -/
def PlainLine (line : List Char) : Prop := ∀ c ∈ line, c ≠ '\n' ∧ c ≠ '\r' ∧ c ≠ '"'

instance (line : List Char) : Decidable (PlainLine line) := List.decidableBAll _ line

/-- The record of a line without quotes. -/
def plainRecord (line : List Char) : List String := (line.splitOn ',').map String.ofList

/-- A record has one field more than its line has commas. -/
theorem length_plainRecord (line : List Char) : (plainRecord line).length = line.count ',' + 1 := by
  rw [plainRecord, List.length_map]
  induction line with
  | nil => rfl
  | cons c cs ih =>
    rw [List.splitOn_cons_eq_if_modifyHead, List.count_cons]
    by_cases hc : c = ','
    · simp [hc, ih]
    · simp [hc, ih]

theorem plainRecord_injective : Function.Injective plainRecord := by
  intro line line' h
  have hpieces : line.splitOn ',' = line'.splitOn ',' :=
    (List.map_inj_right fun _ _ => String.ofList_inj.mp).mp h
  have hline : [','].intercalate (line.splitOn ',') = line := List.intercalate_splitOn ','
  rw [← hline, hpieces, List.intercalate_splitOn]

/-- Only an empty line is no record. -/
theorem isRecord_plainRecord (h : line ≠ []) : isRecord (plainRecord line) = true := by
  by_cases hcomma : ',' ∈ line
  · have hmany : 1 < (plainRecord line).length := by
      rw [length_plainRecord]
      have := List.count_pos_iff.mpr hcomma
      omega
    simp [isRecord, hmany]
  · have hone : plainRecord line = [String.ofList line] := by
      rw [plainRecord, List.splitOn_eq_singleton hcomma]
      rfl
    have hne : String.ofList line ≠ "" := by
      rw [← String.ofList_nil, ne_eq, String.ofList_inj]
      exact h
    simp [hone, isRecord, hne]

namespace Scan

/-- **The loop over a line without quotes**: its pieces but the last become fields, of which the
first completes the one that is being read. -/
theorem scan_plain (s : Scan) (hquotes : s.inQuotes = false) (hskip : s.skip = false)
    {line : List Char} (h : PlainLine line) (rest : List Char) :
    scan s (line ++ rest) =
      scan { s with
        record := s.record ++
          (((line.splitOn ',').modifyHead (s.field ++ ·)).dropLast.map String.ofList)
        field := ((line.splitOn ',').modifyHead (s.field ++ ·)).getLast?.getD [] } rest := by
  induction line generalizing s with
  | nil => simp
  | cons c cs ih =>
    obtain ⟨hlf, hcr, hquote⟩ := h c List.mem_cons_self
    have hcs : PlainLine cs := fun c hc => h c (List.mem_cons_of_mem _ hc)
    have hne := List.splitOn_ne_nil ',' cs
    rw [List.cons_append, scan, List.splitOn_cons_eq_if_modifyHead]
    by_cases hcomma : c = ','
    · have hstep : ∀ next, s.step c next = s.endField := by
        intro next
        simp [step, hquotes, hskip, hcomma]
      rw [hstep, ih s.endField hquotes hskip hcs]
      obtain ⟨piece, pieces, hpieces⟩ := List.exists_cons_of_ne_nil hne
      simp [hcomma, hpieces, endField]
    · have hstep : ∀ next, s.step c next = s.append c := by
        intro next
        simp [step, hquotes, hskip, hquote, hcomma, hlf, hcr]
      rw [hstep, ih (s.append c) hquotes hskip hcs]
      obtain ⟨piece, pieces, hpieces⟩ := List.exists_cons_of_ne_nil hne
      simp [hcomma, hpieces, append]

/-- The variables in front of the line break. -/
theorem scan_plainLine {line : List Char} (h : PlainLine line) (rest : List Char) :
    scan start (line ++ rest) =
      scan ⟨[], (line.splitOn ',').dropLast.map String.ofList,
        (line.splitOn ',').getLast?.getD [], false, false⟩ rest := by
  have hpieces : (line.splitOn ',').modifyHead (start.field ++ ·) = line.splitOn ',' := by
    show (line.splitOn ',').modifyHead id = _
    rw [List.modifyHead_id, id]
  rw [scan_plain start rfl rfl h, hpieces]
  rfl

end Scan

/-- The fields in front of the last one, and the last one. -/
theorem plainRecord_eq (line : List Char) :
    (line.splitOn ',').dropLast.map String.ofList ++
      [String.ofList ((line.splitOn ',').getLast?.getD [])] = plainRecord line := by
  have hne := List.splitOn_ne_nil ',' line
  rw [List.getLast?_eq_some_getLast hne, Option.getD_some, ← List.map_singleton, ← List.map_append,
    List.dropLast_concat_getLast, plainRecord]

/-- **A line that ends** is a record. -/
theorem splitCsvRecords_cons (h : PlainLine line) (rest : List Char) :
    splitCsvRecords (line ++ '\n' :: rest) =
      [plainRecord line].filter isRecord ++ splitCsvRecords rest := by
  have hscan : scan start (line ++ '\n' :: rest) = (scan start rest).after [plainRecord line] := by
    rw [scan_plainLine h, ← scan_after]
    show scan (endRecord _) rest = _
    rw [endRecord, endField]
    simp only [plainRecord_eq]
    rfl
  unfold splitCsvRecords
  rw [hscan, finish_after, after, List.filter_append]

/-- **The last line**, which nothing ends, is a record unless it is empty. -/
theorem splitCsvRecords_last (h : PlainLine line) :
    splitCsvRecords line = [plainRecord line].filter isRecord := by
  have hscan := scan_plainLine h []
  rw [List.append_nil, scan] at hscan
  unfold splitCsvRecords
  rw [hscan, finish]
  split_ifs with hsome
  · simp only [endRecord, endField, plainRecord_eq]
    rfl
  · obtain ⟨hnofield, hnorecord⟩ := not_or.mp hsome
    have hfield : (line.splitOn ',').getLast?.getD [] = [] := not_not.mp hnofield
    have hrecord : (line.splitOn ',').dropLast.map String.ofList = [] := not_not.mp hnorecord
    rw [← plainRecord_eq, hfield, hrecord]
    rfl

/-- **A text without quotes has the records of its lines.** -/
theorem splitCsvRecords_lines {ls : List (List Char)} (h : ∀ line ∈ ls, PlainLine line) :
    splitCsvRecords (['\n'].intercalate ls) = (ls.map plainRecord).filter isRecord := by
  induction ls with
  | nil => rfl
  | cons line ls ih =>
    have hline := h line List.mem_cons_self
    cases ls with
    | nil =>
      rw [List.intercalate_singleton]
      exact splitCsvRecords_last hline
    | cons line' ls =>
      rw [List.intercalate_cons_cons, List.append_assoc, List.singleton_append,
        splitCsvRecords_cons hline, ih fun l hl => h l (List.mem_cons_of_mem _ hl),
        ← List.filter_append]
      rfl

end SoftEther.Parser
