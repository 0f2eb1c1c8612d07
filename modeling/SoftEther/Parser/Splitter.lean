import SoftEther.Parser.Csv
import SoftEther.Parser.Dialect

namespace SoftEther.Parser

/-!
# `splitCsvRecords` and the default dialect

The function opens a quoted field at every quote that stands outside quotes, and passes over a
carriage return there. The dialect opens one at the start of a field only, and ends the record at a
carriage return.

* `splitter`, `splitCsvRecords_eq_splitter` — the function as a table of modes, which needs no look
  at the next character;
* `Place`, `Regular` — texts in which no quote stands inside an unquoted field, and nothing is
  written between a carriage return that ends a record and the line feed;
* `Sim` — on such a text the two tables go side by side;
* `Lag` — behind the first other quote the function is a quote behind the dialect for good;
* `splitCsvRecords_eq_dialect_iff` — the records are the same on these texts and no others.
-/

open Lib Publisher

/-- Fields as the strings of a record. -/
def toRecord (row : List (List Char)) : List String := row.map String.ofList

/-- The records of a text in the default dialect, without those of empty lines. -/
def dialectRecords (text : List Char) : List (List String) := (dialectRows text).map toRecord

/-! ### The table of the function -/

/-- Where the splitter is. -/
inductive SplitMode
  | outside | inside | behindQuote
  deriving DecidableEq

/-- A character outside quotes. -/
def outsideNext (c : Char) : SplitMode × Edit Char :=
  if c = '"' then (.inside, .keep)
  else if c = ',' then (.outside, .endField)
  else if c = '\n' then (.outside, .endRow)
  else if c = '\r' then (.outside, .keep)
  else (.outside, .char c)

/-- `splitCsvRecords` as a format. -/
def splitter : Format SplitMode Char where
  start := .outside
  next
    | .outside, c => outsideNext c
    | .inside, c => if c = '"' then (.behindQuote, .keep) else (.inside, .char c)
    | .behindQuote, c => if c = '"' then (.inside, .char '"') else outsideNext c

/-- The variables of the loop hold what is on the sheet. -/
structure Holds (s : Scan) (t : Sheet Char) : Prop where
  records : s.records.filter isRecord = t.rows.map toRecord
  record : s.record = toRecord t.row
  field : s.field = t.field

namespace Holds

variable {s : Scan} {t : Sheet Char}

theorem append (h : Holds s t) (c : Char) : Holds (s.append c) (t.edit (.char c)) where
  records := h.records
  record := h.record
  field := congrArg (· ++ [c]) h.field

theorem endField (h : Holds s t) : Holds s.endField (t.edit .endField) where
  records := h.records
  record := by simp [Scan.endField, Sheet.edit, toRecord, h.record, h.field]
  field := rfl

theorem blank_iff (h : Holds s t) : t.Blank ↔ s.field = [] ∧ s.record = [] := by
  rw [h.field, h.record, Sheet.Blank, toRecord, List.map_eq_nil_iff, and_comm]

/-- A record is dropped when it is the one of an empty line. -/
theorem isRecord_iff (h : Holds s t) : isRecord s.endField.record = true ↔ ¬ t.Blank := by
  rw [h.blank_iff, Scan.endField, isRecord]
  cases s.record with
  | nil =>
    have hempty : String.ofList s.field = "" ↔ s.field = [] := by
      rw [← String.ofList_nil, String.ofList_inj]
    simp [hempty]
  | cons field fields => simp

theorem endRecord (h : Holds s t) : Holds s.endRecord (t.edit .endRow) := by
  have hrow : s.endField.record = toRecord (t.row ++ [t.field]) := h.endField.record
  by_cases hblank : t.Blank
  · have hdropped : ¬ isRecord s.endField.record = true := fun hr => h.isRecord_iff.mp hr hblank
    rw [Sheet.edit_endRow_blank hblank]
    refine ⟨?_, ?_, hblank.2.symm⟩
    · rw [Scan.endRecord, List.filter_append, List.filter_cons_of_neg hdropped, List.filter_nil,
        List.append_nil]
      exact h.records
    · rw [hblank.1]
      rfl
  · rw [Sheet.edit_endRow hblank]
    refine ⟨?_, rfl, rfl⟩
    rw [Scan.endRecord, List.filter_append,
      List.filter_cons_of_pos (h.isRecord_iff.mpr hblank), List.filter_nil, hrow, List.map_append]
    exact congrArg (· ++ [_]) h.records

theorem finish (h : Holds s t) :
    s.finish.records.filter isRecord = (t.edit .endRow).rows.map toRecord := by
  unfold Scan.finish
  split_ifs with hsome
  · exact h.endRecord.records
  · have hblank : t.Blank := by
      rw [h.blank_iff]
      exact ⟨not_not.mp (not_or.mp hsome).1, not_not.mp (not_or.mp hsome).2⟩
    rw [Sheet.edit_endRow_blank hblank]
    exact h.records

end Holds

/-- The loop and the table at the same place of a text. Behind the first quote of a pair the loop
has read the pair. -/
def Follows (s : Scan) (x : SplitMode × Sheet Char) (rest : List Char) : Prop :=
  match x.1 with
  | .outside => s.inQuotes = false ∧ s.skip = false ∧ Holds s x.2
  | .inside => s.inQuotes = true ∧ s.skip = false ∧ Holds s x.2
  | .behindQuote =>
    if rest.head? = some '"' then
      s.inQuotes = true ∧ s.skip = true ∧ Holds s (x.2.edit (.char '"'))
    else s.inQuotes = false ∧ s.skip = false ∧ Holds s x.2

variable {t u : Sheet Char} {s : Scan} {x : SplitMode × Sheet Char} {c : Char}
  {y : DialectMode × Sheet Char}

/-- A character outside quotes. -/
theorem follows_outside (hquotes : s.inQuotes = false) (hskip : s.skip = false) (h : Holds s t)
    (c : Char) (cs : List Char) :
    Follows (s.step c cs.head?) ((outsideNext c).1, t.edit (outsideNext c).2) cs := by
  have hstep : ∀ next, s.step c next =
      if c = '"' then { s with inQuotes := true }
      else if c = ',' then s.endField
      else if c = '\n' then s.endRecord
      else if c = '\r' then s
      else s.append c := by
    intro next
    simp [Scan.step, hquotes, hskip]
  rw [hstep, outsideNext]
  split_ifs
  · exact ⟨rfl, hskip, h.records, h.record, h.field⟩
  · exact ⟨hquotes, hskip, h.endField⟩
  · exact ⟨hquotes, hskip, h.endRecord⟩
  · exact ⟨hquotes, hskip, h⟩
  · exact ⟨hquotes, hskip, h.append c⟩

theorem follows_step {cs : List Char} (h : Follows s x (c :: cs)) :
    Follows (s.step c cs.head?) (splitter.step x c) cs := by
  obtain ⟨mode, t⟩ := x
  cases mode with
  | outside =>
    obtain ⟨hquotes, hskip, h⟩ := h
    exact follows_outside hquotes hskip h c cs
  | inside =>
    obtain ⟨hquotes, hskip, h⟩ := h
    by_cases hc : c = '"'
    · subst hc
      show Follows _ (.behindQuote, t) cs
      simp only [Follows, Scan.step, hquotes, hskip, if_true, Bool.false_eq_true, if_false]
      split_ifs
      · exact ⟨hquotes, rfl, (h.append '"').records, (h.append '"').record, (h.append '"').field⟩
      · exact ⟨rfl, rfl, h.records, h.record, h.field⟩
    · have hnext : splitter.step (.inside, t) c = (.inside, t.edit (.char c)) := by
        simp [splitter, Format.step, hc]
      rw [hnext]
      simp only [Follows, Scan.step, hquotes, hskip, hc, if_true, Bool.false_eq_true, if_false]
      exact ⟨hquotes, hskip, h.append c⟩
  | behindQuote =>
    by_cases hc : c = '"'
    · -- the second quote of a pair has been read with the first
      subst hc
      obtain ⟨hquotes, hskip, h⟩ := h
      show Follows _ (.inside, t.edit (.char '"')) cs
      simp only [Follows, Scan.step, hskip, if_true]
      exact ⟨hquotes, trivial, h.records, h.record, h.field⟩
    · have hfirst : ¬ (c :: cs).head? = some '"' := by simpa using hc
      have hnext : splitter.step (.behindQuote, t) c =
          ((outsideNext c).1, t.edit (outsideNext c).2) := by
        simp [splitter, Format.step, hc]
      unfold Follows at h
      rw [if_neg hfirst] at h
      rw [hnext]
      exact follows_outside h.1 h.2.1 h.2.2 c cs

theorem holds_of_follows (h : Follows s x []) : Holds s x.2 := by
  obtain ⟨mode, t⟩ := x
  cases mode with
  | outside => exact h.2.2
  | inside => exact h.2.2
  | behindQuote => exact h.2.2

theorem holds_scan {text : List Char} (h : Follows s x text) :
    Holds (Scan.scan s text) (run splitter.step x text).2 := by
  induction text generalizing s x with
  | nil => exact holds_of_follows h
  | cons c cs ih => exact ih (follows_step h)

/-- **The function has the records of its table.** -/
theorem splitCsvRecords_eq_splitter (text : List Char) :
    splitCsvRecords text = (splitter.rows text).map toRecord := by
  have hstart : Follows Scan.start (splitter.start, Sheet.empty) text := ⟨rfl, rfl, rfl, rfl, rfl⟩
  exact (holds_scan hstart).finish

/-! ### Where the two agree -/

/-- What stands between the last line feed and here: nothing; a record that is being read; a record
that a carriage return has ended. -/
inductive Line
  | blank | begun | ended
  deriving DecidableEq

/-- What stands there behind a character that the dialect answers with `e`. -/
def Line.next (line : Line) (e : Edit Char) (c : Char) : Line :=
  match e with
  | .keep => line
  | .char _ | .endField => .begun
  | .endRow => if c = '\r' ∧ line ≠ .blank then .ended else .blank

/-- A place of a text, as the dialect reads it. -/
structure Place where
  mode : DialectMode
  line : Line
  deriving DecidableEq

/-- The edit is more than the end of a row. -/
def writes : Edit Char → Bool
  | .char _ | .endField => true
  | .keep | .endRow => false

namespace Place

/-- Before the text. -/
def start : Place := ⟨.startField, .blank⟩

/-- Behind a character. -/
def next (p : Place) (c : Char) : Place where
  mode := (dialect.next p.mode c).1
  line := p.line.next (dialect.next p.mode c).2 c

/-- No quote inside an unquoted field, and nothing between the carriage return that ends a record
and the line feed. -/
def Fits (p : Place) (c : Char) : Prop :=
  (p.mode = .inField → c ≠ '"') ∧
    (p.line = .ended → writes (dialect.next p.mode c).2 = false)

instance (p : Place) (c : Char) : Decidable (p.Fits c) := by
  unfold Fits
  infer_instance

end Place

/-- Every character of the text fits in its place. -/
def Regular (text : List Char) : Prop := Along Place.next Place.Fits Place.start text

instance (text : List Char) : Decidable (Regular text) := by
  unfold Regular
  infer_instance

/-- The mode of the function for one of the dialect. -/
def splitMode : DialectMode → SplitMode
  | .startField | .inField => .outside
  | .inQuotedField => .inside
  | .quoteInQuotedField => .behindQuote

theorem outsideNext_eq (hc : c ≠ '"') : outsideNext c = (splitMode (unquotedNext c).1,
      if c = '\r' then .keep else (unquotedNext c).2) := by
  unfold outsideNext unquotedNext
  rw [if_neg hc]
  split_ifs <;> simp_all [splitMode]

/-- **The two tables**: they do the same but for a quote in an unquoted field, and a carriage
return that ends a row. -/
theorem splitter_next {mode : DialectMode} (h : mode = .inField → c ≠ '"') :
    splitter.next (splitMode mode) c = (splitMode (dialect.next mode c).1,
      if c = '\r' ∧ (dialect.next mode c).2 = .endRow then .keep
      else (dialect.next mode c).2) := by
  have hout : ∀ {c : Char}, c ≠ '"' → outsideNext c = (splitMode (unquotedNext c).1,
      if c = '\r' ∧ (unquotedNext c).2 = .endRow then .keep else (unquotedNext c).2) := by
    intro c hc
    rw [outsideNext_eq hc]
    by_cases hcr : c = '\r'
    · subst hcr
      rfl
    · rw [if_neg hcr, if_neg fun h => hcr h.1]
  cases mode with
  | startField =>
    by_cases hc : c = '"'
    · subst hc
      rfl
    · have hnext : dialect.next .startField c = unquotedNext c := if_neg hc
      rw [hnext]
      exact hout hc
  | inField => exact hout (h rfl)
  | inQuotedField =>
    by_cases hc : c = '"'
    · subst hc
      rfl
    · have hnext : dialect.next .inQuotedField c = (.inQuotedField, .char c) := if_neg hc
      have hnext' : splitter.next .inside c = (.inside, .char c) := if_neg hc
      rw [hnext, splitMode, hnext', if_neg (by simp)]
  | quoteInQuotedField =>
    by_cases hc : c = '"'
    · subst hc
      rfl
    · have hnext : dialect.next .quoteInQuotedField c = unquotedNext c := if_neg hc
      have hnext' : splitter.next .behindQuote c = outsideNext c := if_neg hc
      rw [hnext, splitMode, hnext']
      exact hout hc

/-! ### Side by side -/

/-- The sheet `t` of the function and the sheet `u` of the dialect. -/
def Sheets (line : Line) (t u : Sheet Char) : Prop :=
  match line with
  | .blank => u = t ∧ t.Blank
  | .begun => u = t ∧ ¬ t.Blank
  | .ended => u = t.edit .endRow ∧ ¬ t.Blank

theorem sheets_edit {line : Line} (h : Sheets line t u) {e : Edit Char}
    (he : line = .ended → writes e = false) (c : Char) :
    Sheets (line.next e c) (t.edit (if c = '\r' ∧ e = .endRow then .keep else e)) (u.edit e) := by
  -- what is written stands on both sheets, as no record has been ended by a carriage return
  have hwrite : writes e = true → u = t := by
    intro hw
    cases line with
    | blank => exact h.1
    | begun => exact h.1
    | ended => exact absurd (he rfl) (by rw [hw]; decide)
  cases e with
  | keep => simpa [Line.next, Sheet.edit] using h
  | char c' =>
    rw [if_neg (by simp), hwrite rfl]
    exact ⟨rfl, t.not_blank_char c'⟩
  | endField =>
    rw [if_neg (by simp), hwrite rfl]
    exact ⟨rfl, t.not_blank_endField⟩
  | endRow =>
    by_cases hc : c = '\r'
    · rw [if_pos ⟨hc, rfl⟩]
      cases line with
      | blank =>
        obtain ⟨rfl, hblank⟩ := h
        rw [Line.next, if_neg fun h => h.2 rfl]
        exact ⟨Sheet.edit_endRow_blank hblank, hblank⟩
      | begun =>
        obtain ⟨rfl, hblank⟩ := h
        rw [Line.next, if_pos ⟨hc, by decide⟩]
        exact ⟨rfl, hblank⟩
      | ended =>
        obtain ⟨rfl, hblank⟩ := h
        rw [Line.next, if_pos ⟨hc, by decide⟩, Sheet.edit_endRow_blank t.blank_endRow]
        exact ⟨rfl, hblank⟩
    · have hline : line.next .endRow c = .blank := if_neg fun h => hc h.1
      rw [if_neg fun h => hc h.1, hline]
      cases line with
      | blank =>
        obtain ⟨rfl, -⟩ := h
        exact ⟨rfl, Sheet.blank_endRow _⟩
      | begun =>
        obtain ⟨rfl, -⟩ := h
        exact ⟨rfl, Sheet.blank_endRow _⟩
      | ended =>
        obtain ⟨rfl, -⟩ := h
        exact ⟨Sheet.edit_endRow_blank t.blank_endRow, t.blank_endRow⟩

/-- **The two readers side by side.** -/
structure Sim (p : Place) (x : SplitMode × Sheet Char) (y : DialectMode × Sheet Char) : Prop where
  mode : y.1 = p.mode
  split : x.1 = splitMode p.mode
  sheets : Sheets p.line x.2 y.2

theorem sim_start : Sim Place.start (splitter.start, .empty) (dialect.start, .empty) where
  mode := rfl
  split := rfl
  sheets := ⟨rfl, rfl, rfl⟩

namespace Sim

variable {p : Place} {x : SplitMode × Sheet Char} {y : DialectMode × Sheet Char}

theorem step (h : Sim p x y) {c : Char} (hc : p.Fits c) :
    Sim (p.next c) (splitter.step x c) (dialect.step y c) := by
  have hnext := splitter_next hc.1
  refine ⟨?_, ?_, ?_⟩
  · rw [Format.step, h.mode]
    rfl
  · rw [Format.step, h.split, hnext]
    rfl
  · rw [Format.step, Format.step, h.mode, h.split, hnext]
    exact sheets_edit h.sheets hc.2 c

/-- The end of the text. -/
theorem rows (h : Sim p x y) : (x.2.edit .endRow).rows = (y.2.edit .endRow).rows := by
  have hsheets := h.sheets
  unfold Sheets at hsheets
  split at hsheets
  · rw [hsheets.1]
  · rw [hsheets.1]
  · rw [hsheets.1, Sheet.edit_endRow_blank (Sheet.blank_endRow _)]

end Sim

/-! ### Behind the first other quote -/

/-- What the function has not yet put on its sheet: quotes, one at least, and ends of rows. -/
def Behind (t u : Sheet Char) : Prop :=
  ∃ lag, u.marks = t.marks ++ lag ∧ .char '"' ∈ lag ∧ ∀ a ∈ lag, a = .char '"' ∨ a = .rowEnd

namespace Behind

variable {t u : Sheet Char}

variable {a : Mark Char} {e : Edit Char}

theorem mem_endRow (h : a ∈ u.marked .endRow) : a = .char '"' ∨ a = .rowEnd := by
  unfold Sheet.marked at h
  dsimp only at h
  split_ifs at h
  · exact absurd h List.not_mem_nil
  · exact Or.inr (List.mem_singleton.mp h)

/-- The dialect goes on, the function does not. -/
theorem ahead (h : Behind t u) (he : ∀ a ∈ u.marked e, a = .char '"' ∨ a = .rowEnd) :
    Behind t (u.edit e) := by
  obtain ⟨lag, hmarks, hquote, hlag⟩ := h
  refine ⟨lag ++ u.marked e, ?_, List.mem_append_left _ hquote, fun a ha => ?_⟩
  · rw [Sheet.marks_edit, hmarks, List.append_assoc]
  · exact (List.mem_append.mp ha).elim (hlag a) (he a)

/-- The function puts `a` on its sheet: the next mark that it is behind, or another one. When it is
a quote, the dialect puts down one, too. -/
theorem follow (h : Behind t u) {e' : Edit Char} (ha : t.marked e = [a])
    (hquote : a = .char '"' → .char '"' ∈ u.marked e')
    (he : ∀ b ∈ u.marked e', b = .char '"' ∨ b = .rowEnd) :
    Behind (t.edit e) (u.edit e') ∨ (t.edit e).Apart (u.edit e') := by
  obtain ⟨lag, hmarks, hmem, hlag⟩ := h
  cases lag with
  | nil => exact absurd hmem List.not_mem_nil
  | cons b lag =>
    have ht : (t.edit e).marks = t.marks ++ a :: [] := by rw [Sheet.marks_edit, ha]
    have hu : (u.edit e').marks = t.marks ++ b :: (lag ++ u.marked e') := by
      rw [Sheet.marks_edit, hmarks, List.append_assoc, List.cons_append]
    by_cases hab : a = b
    · subst hab
      left
      refine ⟨lag ++ u.marked e', ?_, ?_, fun b hb => ?_⟩
      · rw [hu, ht, List.append_assoc, List.singleton_append]
      · rcases List.mem_cons.mp hmem with hfirst | hrest
        · exact List.mem_append_right _ (hquote hfirst.symm)
        · exact List.mem_append_left _ hrest
      · exact (List.mem_append.mp hb).elim (fun hb => hlag b (List.mem_cons_of_mem _ hb)) (he b)
    · exact Or.inr (Sheet.apart_of_marks ht hu hab)

/-- The function puts down a mark that it is not behind. -/
theorem apart (h : Behind t u) (e' : Edit Char) (ha : t.marked e = [a])
    (hne : ¬ (a = .char '"' ∨ a = .rowEnd)) : (t.edit e).Apart (u.edit e') := by
  obtain ⟨lag, hmarks, hmem, hlag⟩ := h
  cases lag with
  | nil => exact absurd hmem List.not_mem_nil
  | cons b lag =>
    have ht : (t.edit e).marks = t.marks ++ a :: [] := by rw [Sheet.marks_edit, ha]
    have hu : (u.edit e').marks = t.marks ++ b :: (lag ++ u.marked e') := by
      rw [Sheet.marks_edit, hmarks, List.append_assoc, List.cons_append]
    refine Sheet.apart_of_marks ht hu ?_
    rintro rfl
    exact hne (hlag a List.mem_cons_self)

/-- A pair of quotes, in both. -/
theorem quote (h : Behind t u) : Behind (t.edit (.char '"')) (u.edit (.char '"')) ∨
    (t.edit (.char '"')).Apart (u.edit (.char '"')) :=
  h.follow rfl (fun _ => List.mem_singleton_self _) fun _ hb => Or.inl (List.mem_singleton.mp hb)

/-- A line feed outside quotes, in both. -/
theorem endRow (h : Behind t u) :
    Behind (t.edit .endRow) (u.edit .endRow) ∨ (t.edit .endRow).Apart (u.edit .endRow) := by
  by_cases hblank : t.Blank
  · rw [Sheet.edit_endRow_blank hblank]
    exact Or.inl (h.ahead fun _ => mem_endRow)
  · have hmark : t.marked .endRow = [.rowEnd] := if_neg hblank
    exact h.follow hmark (fun heq => absurd heq (by simp)) fun _ => mem_endRow

/-- **What the function is behind it never makes up for.** -/
theorem rows_ne (h : Behind t u) : (t.edit .endRow).rows ≠ (u.edit .endRow).rows := by
  intro hrows
  have hmarks := congrArg Sheet.marks (Sheet.edit_endRow_ext hrows)
  obtain ⟨lag, hlag, hmem, -⟩ := h
  rw [Sheet.marks_edit, Sheet.marks_edit, hlag, List.append_assoc,
    List.append_cancel_left_eq] at hmarks
  have hquote : Mark.char '"' ∈ t.marked .endRow := by
    rw [hmarks]
    exact List.mem_append_left _ hmem
  unfold Sheet.marked at hquote
  dsimp only at hquote
  split_ifs at hquote <;> simp at hquote

end Behind

/-- The modes of the two while the function is behind. -/
inductive Abreast : SplitMode → DialectMode → Prop
  | opened : Abreast .inside .inField
  | closed : Abreast .behindQuote .inField
  | outside : Abreast .outside .startField
  | inside : Abreast .inside .inQuotedField
  | behindQuote : Abreast .behindQuote .quoteInQuotedField

/-- **The function behind the dialect.** -/
structure Lag (x : SplitMode × Sheet Char) (y : DialectMode × Sheet Char) : Prop where
  modes : Abreast x.1 y.1
  behind : Behind x.2 y.2

/-- A character other than a quote, outside quotes. -/
theorem Lag.unquoted (h : Behind t u) (hc : c ≠ '"') :
    Lag ((outsideNext c).1, t.edit (outsideNext c).2)
        ((unquotedNext c).1, u.edit (unquotedNext c).2) ∨
      (t.edit (outsideNext c).2).Apart (u.edit (unquotedNext c).2) := by
  by_cases hcomma : c = ','
  · have hout : outsideNext c = (.outside, .endField) := by
      rw [outsideNext, if_neg hc, if_pos hcomma]
    rw [hout]
    exact Or.inr (h.apart _ rfl (by simp))
  by_cases hlf : c = '\n'
  · subst hlf
    exact h.endRow.imp_left (Lag.mk .outside)
  by_cases hcr : c = '\r'
  · subst hcr
    exact Or.inl ⟨.outside, h.ahead fun _ => Behind.mem_endRow⟩
  · have hout : outsideNext c = (.outside, .char c) := by
      rw [outsideNext, if_neg hc, if_neg hcomma, if_neg hlf, if_neg hcr]
    rw [hout]
    exact Or.inr (h.apart _ rfl (by simpa using hc))

/-- **One character**: the function stays behind, or the sheets come apart. -/
theorem Lag.step (h : Lag x y) (c : Char) : Lag (splitter.step x c) (dialect.step y c) ∨
      (splitter.step x c).2.Apart (dialect.step y c).2 := by
  obtain ⟨_, t⟩ := x
  obtain ⟨_, u⟩ := y
  obtain ⟨hmodes, h⟩ := h
  by_cases hc : c = '"'
  · subst hc
    cases hmodes with
    | opened =>
      have hquote : ∀ a ∈ u.marked (.char '"'), a = .char '"' ∨ a = .rowEnd := fun _ ha =>
        Or.inl (List.mem_singleton.mp ha)
      exact Or.inl ⟨.closed, h.ahead hquote⟩
    | closed => exact h.quote.imp_left (Lag.mk .opened)
    | outside => exact Or.inl ⟨.inside, h⟩
    | inside => exact Or.inl ⟨.behindQuote, h⟩
    | behindQuote => exact h.quote.imp_left (Lag.mk .inside)
  · have hinside : splitter.next .inside c = (.inside, .char c) := if_neg hc
    have hbehind : splitter.next .behindQuote c = outsideNext c := if_neg hc
    have hne : ¬ (Mark.char c = .char '"' ∨ Mark.char c = .rowEnd) := by simpa using hc
    rw [Format.step, Format.step]
    cases hmodes with
    | opened =>
      rw [hinside]
      exact Or.inr (h.apart _ rfl hne)
    | closed =>
      rw [hbehind]
      exact Lag.unquoted h hc
    | outside =>
      have hstart : dialect.next .startField c = unquotedNext c := if_neg hc
      rw [hstart]
      exact Lag.unquoted h hc
    | inside =>
      rw [hinside]
      exact Or.inr (h.apart _ rfl hne)
    | behindQuote =>
      have hquoted : dialect.next .quoteInQuotedField c = unquotedNext c := if_neg hc
      rw [hbehind, hquoted]
      exact Lag.unquoted h hc

/-- **Whatever follows, the rows differ.** -/
theorem Lag.rows_ne (h : Lag x y) (text : List Char) :
    ((run splitter.step x text).2.edit .endRow).rows ≠
      ((run dialect.step y text).2.edit .endRow).rows := by
  induction text generalizing x y with
  | nil => exact h.behind.rows_ne
  | cons c cs ih =>
    rcases h.step c with hlag | hapart
    · exact ih hlag
    · exact Format.rows_ne_of_apart hapart cs

/-! ### Where the two come apart -/

theorem Sheets.marks {line : Line} (h : Sheets line t u) :
    ∃ lag, u.marks = t.marks ++ lag ∧ ∀ a ∈ lag, a = .rowEnd := by
  unfold Sheets at h
  split at h
  · exact ⟨[], by rw [h.1, List.append_nil], fun a ha => absurd ha List.not_mem_nil⟩
  · exact ⟨[], by rw [h.1, List.append_nil], fun a ha => absurd ha List.not_mem_nil⟩
  · refine ⟨t.marked .endRow, by rw [h.1, Sheet.marks_edit], fun a ha => ?_⟩
    rw [Sheet.marked, if_neg h.2] at ha
    exact List.mem_singleton.mp ha

variable {p : Place}

/-- A quote in an unquoted field: the function opens a quoted one. -/
theorem Sim.stray (h : Sim p x y) (hmode : p.mode = .inField) :
    Lag (splitter.step x '"') (dialect.step y '"') := by
  obtain ⟨lag, hmarks, hlag⟩ := h.sheets.marks
  have hsplit : splitter.step x '"' = (.inside, x.2) := by
    rw [Format.step, h.split, hmode]
    rfl
  have hdialect : dialect.step y '"' = (.inField, y.2.edit (.char '"')) := by
    rw [Format.step, h.mode, hmode]
    rfl
  rw [hsplit, hdialect]
  refine ⟨.opened, lag ++ [.char '"'], ?_, by simp, fun a ha => ?_⟩
  · rw [Sheet.marks_edit, hmarks, List.append_assoc]
    rfl
  · rcases List.mem_append.mp ha with ha | ha
    · exact Or.inr (hlag a ha)
    · exact Or.inl (List.mem_singleton.mp ha)

/-- Something behind the carriage return that has ended a record: the function writes it to that
record, the dialect to the next one. -/
theorem Sim.written (h : Sim p x y) (hquote : p.mode = .inField → c ≠ '"') (hline : p.line = .ended)
    (hwrites : writes (dialect.next p.mode c).2 = true) :
    (splitter.step x c).2.Apart (dialect.step y c).2 := by
  obtain ⟨hsheet, hblank⟩ : y.2 = x.2.edit .endRow ∧ ¬ x.2.Blank := by
    have hsheets := h.sheets
    rwa [hline] at hsheets
  have hmarks : y.2.marks = x.2.marks ++ [.rowEnd] := by
    rw [hsheet, Sheet.marks_edit, Sheet.marked, if_neg hblank]
  rw [Format.step, Format.step, h.mode, h.split, splitter_next hquote]
  generalize (dialect.next p.mode c).2 = e at hwrites ⊢
  have hrow : e ≠ .endRow := by
    rintro rfl
    exact absurd hwrites (by decide)
  rw [if_neg fun h => hrow h.2]
  obtain ⟨a, ha, hne⟩ : ∃ a, x.2.marked e = [a] ∧ a ≠ .rowEnd := by
    cases e with
    | keep => exact absurd hwrites (by decide)
    | char c' => exact ⟨_, rfl, by simp⟩
    | endField => exact ⟨_, rfl, by simp⟩
    | endRow => exact absurd rfl hrow
  have hx : (x.2.edit e).marks = x.2.marks ++ a :: [] := by rw [Sheet.marks_edit, ha]
  have hy : (y.2.edit e).marks = x.2.marks ++ .rowEnd :: y.2.marked e := by
    rw [Sheet.marks_edit, hmarks, List.append_assoc, List.singleton_append]
  exact Sheet.apart_of_marks hx hy hne

/-- **From the same place on**, the rows are the same when every character fits. -/
theorem Sim.rows_eq_iff (h : Sim p x y) (text : List Char) :
    ((run splitter.step x text).2.edit .endRow).rows =
        ((run dialect.step y text).2.edit .endRow).rows ↔
      Along Place.next Place.Fits p text := by
  induction text generalizing p x y with
  | nil => exact iff_of_true h.rows trivial
  | cons c cs ih =>
    by_cases hfits : p.Fits c
    · exact (ih (h.step hfits)).trans (and_iff_right hfits).symm
    · refine iff_of_false ?_ fun halong => hfits halong.1
      by_cases hstray : p.mode = .inField ∧ c = '"'
      · obtain ⟨hmode, rfl⟩ := hstray
        exact (h.stray hmode).rows_ne cs
      · have hquote : p.mode = .inField → c ≠ '"' := fun hm hc => hstray ⟨hm, hc⟩
        have hended := fun hw => hfits ⟨hquote, hw⟩
        obtain ⟨hline, hwrites⟩ := Classical.not_imp.mp hended
        exact Format.rows_ne_of_apart
          (h.written hquote hline (by simpa using hwrites)) cs

/-- **The records of the function are those of the dialect on the regular texts**, and on no
others. -/
theorem splitCsvRecords_eq_dialect_iff (text : List Char) :
    splitCsvRecords text = dialectRecords text ↔ Regular text := by
  have hinjective : Function.Injective (List.map toRecord) :=
    List.map_injective_iff.mpr (List.map_injective_iff.mpr fun _ _ => String.ofList_inj.mp)
  rw [splitCsvRecords_eq_splitter, dialectRecords, hinjective.eq_iff]
  exact sim_start.rows_eq_iff text

/-- A quote in the middle of a name takes the next line into the record. -/
theorem splitCsvRecords_stray_quote :
    splitCsvRecords ['a', '"', 'b', ',', 'c', '\n', '1', ',', '2', '\n'] ≠
      dialectRecords ['a', '"', 'b', ',', 'c', '\n', '1', ',', '2', '\n'] := by
  decide

/-- **On the regular texts the function has the records of the `csv` module.** -/
theorem splitCsvRecords_eq_csvReader {text : List Char} (h : Regular text)
    {rows : List (List Text)} (hrows : csvReader text = some rows) :
    splitCsvRecords text = (rows.filter isRow).map toRecord := by
  have hdialect : splitCsvRecords text = dialectRecords text := by
    rw [splitCsvRecords_eq_splitter, dialectRecords, dialectRows, Format.rows, Format.rows,
      Format.read, Format.read, (sim_start.rows_eq_iff text).mpr h]
  rw [hdialect, dialectRecords, csvReader_eq_dialect hrows]

/-- A line break in quotes, and an empty line. -/
theorem splitCsvRecords_eq_csvReader_sample :
    splitCsvRecords ['a', ',', '"', 'b', '\n', '"', '\n', '\n', 'c'] = [["a", "b\n"], ["c"]] :=
  (splitCsvRecords_eq_csvReader (by decide) (show csvReader _ =
    some [[['a'], ['b', '\n']], [], [['c']]] by decide)).trans (by decide)

end SoftEther.Parser
