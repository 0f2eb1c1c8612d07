import SoftEther.Lib.Delimited
import SoftEther.Publisher.Csv

namespace SoftEther.Parser

/-!
# The default dialect of CSV

* `dialect`, `dialectRows` — the reader of the default dialect, as a table of its modes;
* `Agrees` — the reader of the `csv` module and the table at the same place of a text;
* `csvReader_eq_dialect` — what the `csv` module of Python returns are the rows of the dialect,
  unless a field is too long for it.
-/

open Lib Publisher

/-! ### The table -/

/-- Where a reader of the dialect is. -/
inductive DialectMode
  | startField | inField | inQuotedField | quoteInQuotedField
  deriving DecidableEq

/-- Outside quotes; a quote is an ordinary character unless the field starts with it. -/
def unquotedNext (c : Char) : DialectMode × Edit Char :=
  if c = ',' then (.startField, .endField)
  else if c = '\n' ∨ c = '\r' then (.startField, .endRow)
  else (.inField, .char c)

/-- The dialect that the feed is written in. -/
def dialect : Format DialectMode Char where
  start := .startField
  next
    | .startField, c => if c = '"' then (.inQuotedField, .keep) else unquotedNext c
    | .inField, c => unquotedNext c
    | .inQuotedField, c =>
      if c = '"' then (.quoteInQuotedField, .keep) else (.inQuotedField, .char c)
    | .quoteInQuotedField, c =>
      if c = '"' then (.inQuotedField, .char '"') else unquotedNext c

/-- The rows of a text in the default dialect, without those of empty lines. -/
def dialectRows (text : List Char) : List (List (List Char)) := dialect.rows text

section Steps

variable (t : Sheet Char) (c : Char)

theorem dialect_startField :
    dialect.step (.startField, t) c = if c = '"' then (.inQuotedField, t)
      else ((unquotedNext c).1, t.edit (unquotedNext c).2) := by
  by_cases hc : c = '"' <;> simp [Format.step, dialect, hc, Sheet.edit]

theorem dialect_inQuotedField :
    dialect.step (.inQuotedField, t) c = if c = '"' then (.quoteInQuotedField, t)
      else (.inQuotedField, t.edit (.char c)) := by
  by_cases hc : c = '"' <;> simp [Format.step, dialect, hc, Sheet.edit]

theorem dialect_quoteInQuotedField :
    dialect.step (.quoteInQuotedField, t) c =
      if c = '"' then (.inQuotedField, t.edit (.char '"'))
      else ((unquotedNext c).1, t.edit (unquotedNext c).2) := by
  by_cases hc : c = '"' <;> simp [Format.step, dialect, hc]

end Steps

/-- A line break on an empty line. -/
theorem dialect_blank {t : Sheet Char} (h : t.Blank) {c : Char} (hc : isBreak c = true) :
    dialect.step (.startField, t) c = (.startField, t) := by
  have hbreak : c = '\n' ∨ c = '\r' := by simpa [isBreak] using hc
  rcases hbreak with rfl | rfl <;> exact congrArg (Prod.mk _) (Sheet.edit_endRow_blank h)

/-! ### The `csv` module -/

/-- A row of the `csv` module that is more than an empty line. -/
def isRow (fields : List Text) : Bool := fields ≠ [] ∧ fields ≠ [[]]

theorem isRow_iff (t : Sheet Char) : isRow (t.row ++ [t.field]) = true ↔ ¬ t.Blank := by
  obtain ⟨rows, row, field⟩ := t
  cases row <;> simp [isRow, Sheet.Blank]

/-- The mode of the table for a state of the reader. -/
def modeOf : ReaderState → DialectMode
  | .START_RECORD | .START_FIELD | .EAT_CRNL => .startField
  | .IN_FIELD => .inField
  | .IN_QUOTED_FIELD => .inQuotedField
  | .QUOTE_IN_QUOTED_FIELD => .quoteInQuotedField

/-- The rows of the reader, with the one that is complete when it waits for the end of the line. -/
def returned (r : CsvReader) : List (List Text) :=
  if r.state = .EAT_CRNL then r.records ++ [r.fields] else r.records

/-- **The reader and the table at the same place of a text.** -/
structure Agrees (r : CsvReader) (x : DialectMode × Sheet Char) : Prop where
  mode : modeOf r.state = x.1
  rows : (returned r).filter isRow = x.2.rows
  row : r.state ≠ .EAT_CRNL → r.fields = x.2.row
  field : r.field = x.2.field
  blank : r.state = .START_RECORD ∨ r.state = .EAT_CRNL → x.2.Blank

namespace Agrees

variable {r r' : CsvReader} {x : DialectMode × Sheet Char} {c : Char}

/-- The rows with the one that is being read. -/
theorem filter_concat (h : Agrees r x) (hstate : r.state ≠ .EAT_CRNL) :
    (r.records ++ [r.fields ++ [r.field]]).filter isRow = (x.2.edit .endRow).rows := by
  have hrows := h.rows
  rw [returned, if_neg hstate] at hrows
  rw [h.row hstate, h.field, List.filter_append, hrows]
  by_cases hblank : x.2.Blank
  · have hdropped : ¬ isRow (x.2.row ++ [x.2.field]) = true := fun hr =>
      (isRow_iff x.2).mp hr hblank
    rw [Sheet.edit_endRow_blank hblank, List.filter_cons_of_neg hdropped, List.filter_nil,
      List.append_nil]
  · rw [Sheet.edit_endRow hblank, List.filter_cons_of_pos ((isRow_iff x.2).mpr hblank),
      List.filter_nil]

/-- The end of a row. -/
theorem saveRow (h : Agrees r x) (hstate : r.state ≠ .EAT_CRNL) :
    Agrees (r.saveField .EAT_CRNL) (.startField, x.2.edit .endRow) where
  mode := rfl
  rows := h.filter_concat hstate
  row := fun hne => absurd rfl hne
  field := (x.2.blank_endRow).2.symm
  blank := fun _ => x.2.blank_endRow

/-- The end of a field. -/
theorem saveField (h : Agrees r x) (hstate : r.state ≠ .EAT_CRNL) :
    Agrees (r.saveField .START_FIELD) (.startField, x.2.edit .endField) where
  mode := rfl
  rows := by
    have hrows := h.rows
    rw [returned, if_neg hstate] at hrows
    exact hrows
  row := fun _ => by
    show r.fields ++ [r.field] = x.2.row ++ [x.2.field]
    rw [h.row hstate, h.field]
  field := rfl
  blank := by simp [CsvReader.saveField]

/-- A character of a field. -/
theorem addChar (h : Agrees r x) (hstate : r.state ≠ .EAT_CRNL) {state : ReaderState}
    (hopen : state ≠ .START_RECORD ∧ state ≠ .EAT_CRNL) (hr : r.addChar c state = some r') :
    Agrees r' (modeOf state, x.2.edit (.char c)) := by
  unfold CsvReader.addChar at hr
  split_ifs at hr
  obtain rfl := Option.some.inj hr
  have hrows := h.rows
  rw [returned, if_neg hstate] at hrows
  refine ⟨rfl, ?_, fun _ => h.row hstate, congrArg (· ++ [c]) h.field, ?_⟩
  · rw [returned, if_neg hopen.2]
    exact hrows
  · rintro (heq | heq)
    · exact absurd heq hopen.1
    · exact absurd heq hopen.2

/-- A quote that opens or closes a field. -/
theorem quote (h : Agrees r x) (hstate : r.state ≠ .EAT_CRNL) {state : ReaderState}
    (hopen : state ≠ .START_RECORD ∧ state ≠ .EAT_CRNL) :
    Agrees { r with state := state } (modeOf state, x.2) := by
  have hrows := h.rows
  rw [returned, if_neg hstate] at hrows
  refine ⟨rfl, ?_, fun _ => h.row hstate, h.field, ?_⟩
  · rw [returned, if_neg hopen.2]
    exact hrows
  · rintro (heq | heq)
    · exact absurd heq hopen.1
    · exact absurd heq hopen.2

/-- A character outside quotes. -/
theorem unquoted (h : Agrees r x) (hstate : r.state ≠ .EAT_CRNL)
    (hr : (if isBreak c then some (r.saveField .EAT_CRNL)
      else if c = ',' then some (r.saveField .START_FIELD)
      else r.addChar c .IN_FIELD) = some r') :
    Agrees r' ((unquotedNext c).1, x.2.edit (unquotedNext c).2) := by
  have hbreak : isBreak c = true ↔ c = '\n' ∨ c = '\r' := by simp [isBreak]
  unfold unquotedNext
  split_ifs at hr with hb hcomma
  · have hcomma : c ≠ ',' := by
      rintro rfl
      exact absurd hb (by decide)
    rw [if_neg hcomma, if_pos (hbreak.mp hb), ← Option.some.inj hr]
    exact h.saveRow hstate
  · rw [if_pos hcomma, ← Option.some.inj hr]
    exact h.saveField hstate
  · rw [if_neg hcomma, if_neg fun hc => hb (hbreak.mpr hc)]
    exact h.addChar hstate ⟨by decide, by decide⟩ hr

/-- A character where a field starts. -/
theorem startField {t : Sheet Char} (h : Agrees r (.startField, t)) (hstate : r.state ≠ .EAT_CRNL)
    (hr : r.startField c = some r') : Agrees r' (dialect.step (.startField, t) c) := by
  rw [dialect_startField]
  unfold CsvReader.startField at hr
  by_cases hc : c = '"'
  · have hb : ¬ isBreak '"' = true := by decide
    subst hc
    rw [if_neg hb, if_pos rfl] at hr
    rw [if_pos rfl, ← Option.some.inj hr]
    exact h.quote hstate ⟨by decide, by decide⟩
  · rw [if_neg hc] at hr ⊢
    exact h.unquoted hstate hr

/-- **One character.** -/
theorem step (h : Agrees r x) (hr : r.processChar c = some r') :
    Agrees r' (dialect.step x c) := by
  obtain ⟨mode, t⟩ := x
  have hmode : modeOf r.state = mode := h.mode
  unfold CsvReader.processChar at hr
  split at hr <;> rename_i hs <;> rw [hs] at hmode <;> subst hmode
  case h_1 =>
    have hne : r.state ≠ .EAT_CRNL := by simp [hs]
    split_ifs at hr with hb
    · -- the row of an empty line is returned, and has no field
      have hblank : t.Blank := h.blank (Or.inl hs)
      have hfields : r.fields = [] := (h.row hne).trans hblank.1
      have hrows := h.rows
      rw [returned, if_neg hne] at hrows
      rw [modeOf, dialect_blank hblank hb, ← Option.some.inj hr]
      refine ⟨rfl, ?_, fun hne' => absurd rfl hne', h.field, fun _ => hblank⟩
      show (r.records ++ [r.fields]).filter isRow = t.rows
      rw [hfields, List.filter_append, hrows]
      exact List.append_nil _
    · exact h.startField hne hr
  case h_2 => exact h.startField (by simp [hs]) hr
  case h_3 => exact h.unquoted (by simp [hs]) hr
  case h_4 =>
    have hne : r.state ≠ .EAT_CRNL := by simp [hs]
    rw [modeOf, dialect_inQuotedField]
    split_ifs at hr ⊢ with hc
    · rw [← Option.some.inj hr]
      exact h.quote hne ⟨by decide, by decide⟩
    · exact h.addChar hne ⟨by decide, by decide⟩ hr
  case h_5 =>
    have hne : r.state ≠ .EAT_CRNL := by simp [hs]
    rw [modeOf, dialect_quoteInQuotedField]
    by_cases hc : c = '"'
    · subst hc
      rw [if_pos rfl] at hr ⊢
      exact h.addChar hne ⟨by decide, by decide⟩ hr
    · rw [if_neg hc] at hr ⊢
      refine h.unquoted hne ?_
      rw [← hr]
      -- a comma is no line break: the order of the two tests does not matter
      by_cases hcomma : c = ','
      · subst hcomma
        rfl
      · rw [if_neg hcomma, if_neg hcomma]
  case h_6 =>
    split_ifs at hr with hb
    rw [modeOf, dialect_blank (h.blank (Or.inr hs)) hb, ← Option.some.inj hr]
    exact h

/-- The end of a line that its reader waits for, or that stands between quotes. -/
theorem endLine (h : Agrees r x) (hstate : r.state = .EAT_CRNL ∨ r.state = .IN_QUOTED_FIELD) :
    Agrees r.endLine x ∧
      (r.endLine.state = .START_RECORD ∨ r.endLine.state = .IN_QUOTED_FIELD) := by
  rcases hstate with hs | hs
  · have hend : r.endLine = { r with
        records := r.records ++ [r.fields], fields := [], state := .START_RECORD } := by
      simp [CsvReader.endLine, CsvReader.processEol, hs]
    have hblank : x.2.Blank := h.blank (Or.inr hs)
    have hrows := h.rows
    rw [returned, if_pos hs] at hrows
    rw [hend]
    refine ⟨⟨?_, hrows, fun _ => hblank.1.symm, h.field, fun _ => hblank⟩, Or.inl rfl⟩
    rw [← h.mode, hs]
    rfl
  · have hend : r.endLine = r := by
      simp [CsvReader.endLine, CsvReader.processEol, hs]
    rw [hend]
    exact ⟨h, Or.inr hs⟩

/-- Behind the last line nothing is left but an open quote. -/
theorem finish (h : Agrees r x)
    (hstate : r.state = .START_RECORD ∨ r.state = .IN_QUOTED_FIELD) :
    r.finish.filter isRow = (x.2.edit .endRow).rows := by
  unfold CsvReader.finish
  rcases hstate with hs | hs
  · have hblank : x.2.Blank := h.blank (Or.inl hs)
    have hnone : ¬ (r.field ≠ [] ∨ r.state = .IN_QUOTED_FIELD) := by
      rw [h.field, hblank.2, hs]
      decide
    have hrows := h.rows
    rw [returned, if_neg (by simp [hs])] at hrows
    rw [if_neg hnone, Sheet.edit_endRow_blank hblank]
    exact hrows
  · rw [if_pos (Or.inr hs)]
    exact h.filter_concat (by simp [hs])

/-- The end of the last line. -/
theorem endText (h : Agrees r x) :
    r.endLine.finish.filter isRow = (x.2.edit .endRow).rows := by
  by_cases hwait : r.state = .EAT_CRNL ∨ r.state = .IN_QUOTED_FIELD
  · obtain ⟨hend, hstate⟩ := h.endLine hwait
    exact hend.finish hstate
  obtain ⟨hne, hquoted⟩ := not_or.mp hwait
  have hconcat := h.filter_concat hne
  by_cases hs : r.state = .START_RECORD
  · -- the row of an empty line, again
    have hblank : x.2.Blank := h.blank (Or.inl hs)
    have hfinish : r.endLine.finish = r.records ++ [r.fields] := by
      simp [CsvReader.endLine, CsvReader.processEol, CsvReader.finish, hs, h.field, hblank.2]
    rw [hfinish, ← hconcat, h.row hne, h.field, hblank.1, hblank.2, List.filter_append,
      List.filter_append]
    rfl
  · have hsave : r.processEol = r.saveField .START_RECORD := by
      unfold CsvReader.processEol
      split <;> simp_all
    have hfinish : r.endLine.finish = r.records ++ [r.fields ++ [r.field]] := by
      simp [CsvReader.endLine, hsave, CsvReader.finish, CsvReader.saveField]
    rw [hfinish, hconcat]

end Agrees

/-- Behind a line break the reader waits for the end of the line, or stands between quotes. -/
theorem state_of_break {r r' : CsvReader} {c : Char} (hc : isBreak c = true)
    (hr : r.processChar c = some r') : r'.state = .EAT_CRNL ∨ r'.state = .IN_QUOTED_FIELD := by
  have hplain : c ≠ '"' ∧ c ≠ ',' := by
    constructor <;> rintro rfl <;> exact absurd hc (by decide)
  unfold CsvReader.processChar CsvReader.startField at hr
  simp only [hc, hplain.1, hplain.2, if_true, if_false] at hr
  split at hr
  case h_4 =>
    unfold CsvReader.addChar at hr
    split_ifs at hr
    exact Or.inr (congrArg CsvReader.state (Option.some.inj hr)).symm
  case h_6 hs => exact Or.inl ((congrArg CsvReader.state (Option.some.inj hr)).symm.trans hs)
  all_goals exact Or.inl (congrArg CsvReader.state (Option.some.inj hr)).symm

/-- **The reader and the table over the lines of a text.** -/
theorem Agrees.read {r r' : CsvReader} {x : DialectMode × Sheet Char} {text : List Char}
    (h : Agrees r x) (hstate : text = [] → r.state = .START_RECORD ∨ r.state = .IN_QUOTED_FIELD)
    (hr : r.read (lines text) = some r') :
    r'.finish.filter isRow = ((run dialect.step x text).2.edit .endRow).rows := by
  fun_induction lines text generalizing r x with
  | case1 =>
    rw [CsvReader.read] at hr
    rw [← Option.some.inj hr]
    exact h.finish (hstate rfl)
  | case2 rest ih =>
    -- the two characters of one line break
    rw [CsvReader.read, Option.bind_eq_some_iff] at hr
    obtain ⟨r₁, h₁, hr⟩ := hr
    rw [CsvReader.read, Option.bind_eq_some_iff] at hr
    obtain ⟨r₂, h₂, hr⟩ := hr
    rw [CsvReader.read] at hr
    obtain ⟨hend, hstate'⟩ := ((h.step h₁).step h₂).endLine (state_of_break rfl h₂)
    exact ih hend (fun _ => hstate') hr
  | case3 c rest hcrlf hlast ih =>
    rw [CsvReader.read, Option.bind_eq_some_iff] at hr
    obtain ⟨r₁, h₁, hr⟩ := hr
    rw [CsvReader.read] at hr
    by_cases hc : isBreak c = true
    · obtain ⟨hend, hstate'⟩ := (h.step h₁).endLine (state_of_break hc h₁)
      exact ih hend (fun _ => hstate') hr
    · obtain rfl : rest = [] := hlast.resolve_left hc
      rw [lines, CsvReader.read] at hr
      rw [← Option.some.inj hr]
      exact (h.step h₁).endText
  | case4 c rest hcrlf hmore ih =>
    rw [CsvReader.read, Option.bind_eq_some_iff] at hr
    obtain ⟨r₁, h₁, hr⟩ := hr
    exact ih (h.step h₁) (fun hrest => absurd (Or.inr hrest) hmore) hr

/-- **What the `csv` module returns are the rows of the dialect**, and the empty lines. -/
theorem csvReader_eq_dialect {text : List Char} {rows : List (List Text)}
    (h : csvReader text = some rows) : rows.filter isRow = dialectRows text := by
  obtain ⟨r, hr, rfl⟩ := Option.map_eq_some_iff.mp h
  have hstart : Agrees CsvReader.start (dialect.start, Sheet.empty) :=
    ⟨rfl, rfl, fun _ => rfl, rfl, fun _ => ⟨rfl, rfl⟩⟩
  exact hstart.read (fun _ => Or.inl rfl) hr

end SoftEther.Parser
