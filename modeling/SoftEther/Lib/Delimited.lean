import Mathlib.Data.List.Infix
import SoftEther.Lib.Transition

namespace SoftEther.Lib

/-!
# Delimited text

A reader of a delimited text goes from mode to mode, and each element of the text adds an element
to the field, ends the field, ends the row, or adds nothing. A row of nothing but one empty field
is an empty line, and no row.

* `Sheet`, `Sheet.edit` — the rows, and what is being read of the next one;
* `Format`, `Format.rows` — a reader as a table of its modes, and the rows of a text;
* `Sheet.marks` — a sheet as the sequence of what has been put on it: an edit adds to its end;
* `Sheet.Apart` — two sheets that differ at one place of the sequence, which no later edit mends;
* `Format.rows_ne_of_apart` — two readers that have put different things have different rows.
-/

variable {α σ τ : Type*}

/-! ### Sheets -/

/-- What an element of the text does to the sheet. -/
inductive Edit (α : Type*) where
  | keep
  | char (c : α)
  | endField
  | endRow
  deriving DecidableEq

/-- The rows, and the fields and the characters of the row that is being read. -/
@[ext] structure Sheet (α : Type*) where
  rows : List (List (List α))
  row : List (List α)
  field : List α

namespace Sheet

/-- Nothing is read yet. -/
def empty : Sheet α := ⟨[], [], []⟩

/-- Nothing has been read of the next row. -/
def Blank (s : Sheet α) : Prop := s.row = [] ∧ s.field = []

instance (s : Sheet α) : Decidable s.Blank := by
  unfold Blank
  infer_instance

/-- What an edit does to a sheet. -/
def edit (s : Sheet α) : Edit α → Sheet α
  | .keep => s
  | .char c => { s with field := s.field ++ [c] }
  | .endField => { s with row := s.row ++ [s.field], field := [] }
  | .endRow => if s.Blank then s else ⟨s.rows ++ [s.row ++ [s.field]], [], []⟩

theorem edit_endRow_blank {s : Sheet α} (h : s.Blank) : s.edit .endRow = s := if_pos h

theorem edit_endRow {s : Sheet α} (h : ¬ s.Blank) :
    s.edit .endRow = ⟨s.rows ++ [s.row ++ [s.field]], [], []⟩ := if_neg h

theorem not_blank_char (s : Sheet α) (c : α) : ¬ (s.edit (.char c)).Blank := by
  simp [Blank, edit]

theorem not_blank_endField (s : Sheet α) : ¬ (s.edit .endField).Blank := by
  simp [Blank, edit]

theorem blank_endRow (s : Sheet α) : (s.edit .endRow).Blank := by
  by_cases h : s.Blank
  · rwa [edit_endRow_blank h]
  · rw [edit_endRow h]
    exact ⟨rfl, rfl⟩

end Sheet

/-! ### Readers -/

/-- A reader: the mode it starts in, and what it does with an element. -/
structure Format (σ α : Type*) where
  start : σ
  next : σ → α → σ × Edit α

namespace Format

/-- One character. -/
def step (f : Format σ α) (x : σ × Sheet α) (c : α) : σ × Sheet α :=
  ((f.next x.1 c).1, x.2.edit (f.next x.1 c).2)

/-- The mode and the sheet behind a text. -/
def read (f : Format σ α) (text : List α) : σ × Sheet α := run f.step (f.start, .empty) text

/-- The rows of a text; its last row needs no end. -/
def rows (f : Format σ α) (text : List α) : List (List (List α)) :=
  ((f.read text).2.edit .endRow).rows

end Format

/-! ### A sheet as a sequence -/

/-- What can be put on a sheet. -/
inductive Mark (α : Type*) where
  | char (c : α)
  | fieldEnd
  | rowEnd
  deriving DecidableEq

/-- A field and its end. -/
def fieldMarks (field : List α) : List (Mark α) := field.map .char ++ [.fieldEnd]

/-- A row and its end, which stands in place of the end of its last field. -/
def rowMarks (row : List (List α)) : List (Mark α) :=
  row.dropLast.flatMap fieldMarks ++ (row.getLast?.getD []).map .char ++ [.rowEnd]

theorem rowMarks_concat (row : List (List α)) (field : List α) :
    rowMarks (row ++ [field]) = row.flatMap fieldMarks ++ field.map .char ++ [.rowEnd] := by
  simp [rowMarks]

namespace Sheet

/-- The marks of all that is read. -/
def marks (s : Sheet α) : List (Mark α) :=
  s.rows.flatMap rowMarks ++ (s.row.flatMap fieldMarks ++ s.field.map .char)

/-- What an edit puts on the sheet. -/
def marked (s : Sheet α) : Edit α → List (Mark α)
  | .keep => []
  | .char c => [.char c]
  | .endField => [.fieldEnd]
  | .endRow => if s.Blank then [] else [.rowEnd]

/-- **An edit adds to the end.** -/
theorem marks_edit (s : Sheet α) (e : Edit α) : (s.edit e).marks = s.marks ++ s.marked e := by
  cases e with
  | keep => simp [edit, marked]
  | char c => simp [edit, marked, marks]
  | endField => simp [edit, marked, marks, fieldMarks]
  | endRow =>
    unfold edit marked
    split_ifs with h
    · simp
    · simp [marks, rowMarks_concat]

theorem marks_prefix_edit (s : Sheet α) (e : Edit α) : s.marks <+: (s.edit e).marks := by
  rw [marks_edit]
  exact List.prefix_append _ _

/-- The sequences differ at a place that both have. -/
def Apart (s t : Sheet α) : Prop := ¬ s.marks <+: t.marks ∧ ¬ t.marks <+: s.marks

theorem Apart.ne {s t : Sheet α} (h : s.Apart t) : s ≠ t := by
  rintro rfl
  exact h.1 List.prefix_rfl

/-- What is put on top of sheets that are apart leaves them apart. -/
theorem Apart.mono {s t s' t' : Sheet α} (h : s.Apart t) (hs : s.marks <+: s'.marks)
    (ht : t.marks <+: t'.marks) : s'.Apart t' := by
  constructor
  · intro hprefix
    rcases List.prefix_or_prefix_of_prefix (hs.trans hprefix) ht with hst | hts
    · exact h.1 hst
    · exact h.2 hts
  · intro hprefix
    rcases List.prefix_or_prefix_of_prefix hs (ht.trans hprefix) with hst | hts
    · exact h.1 hst
    · exact h.2 hts

/-- One sheet is `lag` behind, and what is put on it next is not what `lag` starts with. -/
theorem apart_of_marks {s t : Sheet α} {m : List (Mark α)} {a b : Mark α} {x y : List (Mark α)}
    (hs : s.marks = m ++ a :: x) (ht : t.marks = m ++ b :: y) (hne : a ≠ b) : s.Apart t := by
  constructor
  · rw [hs, ht, List.prefix_append_right_inj, List.cons_prefix_cons]
    exact fun h => hne h.1
  · rw [hs, ht, List.prefix_append_right_inj, List.cons_prefix_cons]
    exact fun h => hne h.1.symm

/-- Two finished sheets with the same rows are the same. -/
theorem edit_endRow_ext {s t : Sheet α} (h : (s.edit .endRow).rows = (t.edit .endRow).rows) :
    s.edit .endRow = t.edit .endRow := by
  obtain ⟨hrow, hfield⟩ := s.blank_endRow
  obtain ⟨hrow', hfield'⟩ := t.blank_endRow
  exact Sheet.ext h (hrow.trans hrow'.symm) (hfield.trans hfield'.symm)

end Sheet

namespace Format

theorem marks_prefix_run (f : Format σ α) (x : σ × Sheet α) (text : List α) :
    x.2.marks <+: (run f.step x text).2.marks := by
  induction text generalizing x with
  | nil => exact List.prefix_rfl
  | cons c cs ih => exact (x.2.marks_prefix_edit (f.next x.1 c).2).trans (ih (f.step x c))

/-- **Readers whose sheets are apart** somewhere in a text have different rows. -/
theorem rows_ne_of_apart {f : Format σ α} {g : Format τ α} {x : σ × Sheet α} {y : τ × Sheet α}
    (h : x.2.Apart y.2) (text : List α) :
    ((run f.step x text).2.edit .endRow).rows ≠ ((run g.step y text).2.edit .endRow).rows := by
  intro hrows
  have hprefix := (f.marks_prefix_run x text).trans (Sheet.marks_prefix_edit _ .endRow)
  have hprefix' := (g.marks_prefix_run y text).trans (Sheet.marks_prefix_edit _ .endRow)
  exact (h.mono hprefix hprefix').ne (Sheet.edit_endRow_ext hrows)

end Format

end SoftEther.Lib
