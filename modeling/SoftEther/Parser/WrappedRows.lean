import SoftEther.Parser.Api

namespace SoftEther.Parser

/-!
# Rows that a messenger has broken (`ManualCsvImport.joinWrappedRows`)

The function puts a line behind the buffer when both have fewer fields than the header. What it
knows of a break is how many fields stand on either side of it.

* `joinWrappedRows` — the function of the source;
* `gather` — what its loop adds to the output;
* `WrappedFile` — a file, its rows as the pieces that line breaks have made of them;
* `Joinable` — the last break of a row lies neither in the first column nor in the last one;
* `gather_eq_iff` — the loop gives back the rows when this is so, and a short row stands in front
  of a complete one;
* `joinWrappedRows_recovers_iff` — so the records of the file are those of its rows.
-/

open Scan

/-! ### The function of the source -/

namespace ManualCsvImport

open VpnGateApiParser (findApiHeader isApiHeader)

variable (p : Platform)

/-- `fields` of the source. -/
def fields (line : List Char) : ℕ := ((splitCsvRecords line).head?.map List.length).getD 0

/-- The variables of the loop. -/
structure Joiner where
  out : List (List Char)
  buffer : List Char
  deriving DecidableEq

/-- The row that is collected is written out. -/
def Joiner.flush (j : Joiner) : Joiner := if j.buffer ≠ [] then ⟨j.out ++ [j.buffer], []⟩ else j

/-- One line of the loop. -/
def joinLine (expected : ℕ) (j : Joiner) (line : List Char) : Joiner :=
  if line.all p.isWhitespace then j
  else if j.buffer = [] then { j with buffer := line }
  else if fields j.buffer < expected ∧ fields line < expected then
    { j with buffer := j.buffer ++ line }
  else { j.flush with buffer := j.flush.buffer ++ line }

def joinWrappedRows (text : List Char) : List Char :=
  let lines := textLines text
  match findApiHeader p lines with
  | none => text
  | some headerAt =>
    let header := lines.getD headerAt []
    match (splitCsvRecords header).head?.map List.length with
    | none => text
    | some expected =>
      if expected < 2 then text
      else
        let joiner := (lines.drop (headerAt + 1)).foldl (joinLine p expected)
          ⟨lines.take headerAt ++ [header], []⟩
        ['\n'].intercalate joiner.flush.out

/-! ### The loop -/

section Loop

/-- What the loop adds to its output. -/
def gather (expected : ℕ) (buffer : List Char) : List (List Char) → List (List Char)
  | [] => if buffer ≠ [] then [buffer] else []
  | line :: lines =>
    if buffer = [] then gather expected line lines
    else if fields buffer < expected ∧ fields line < expected then
      gather expected (buffer ++ line) lines
    else buffer :: gather expected line lines

variable {p} {expected : ℕ}

theorem flush_foldl_joinLine (lines : List (List Char)) (j : Joiner) :
    (lines.foldl (joinLine p expected) j).flush.out =
      j.out ++ gather expected j.buffer (lines.filter fun line => !line.all p.isWhitespace) := by
  induction lines generalizing j with
  | nil =>
    rw [List.foldl_nil, List.filter_nil, gather, Joiner.flush]
    split_ifs <;> simp
  | cons line lines ih =>
    rw [List.foldl_cons, ih, joinLine]
    by_cases hblank : line.all p.isWhitespace = true
    · rw [if_pos hblank, List.filter_cons_of_neg (by simp [hblank])]
    · rw [if_neg hblank, List.filter_cons_of_pos (by simpa using hblank), gather]
      split_ifs with hempty hshort
      · rfl
      · rfl
      · rw [Joiner.flush, if_pos hempty]
        simp

variable {buffer : List Char} {pieces : List (List Char)}

/-- The buffer is the beginning of the next line of the output. -/
theorem gather_head (expected : ℕ) (h : buffer ≠ []) (lines : List (List Char)) :
    ∃ rest others, gather expected buffer lines = (buffer ++ rest) :: others := by
  induction lines generalizing buffer with
  | nil => exact ⟨[], [], by rw [gather, if_pos h, List.append_nil]⟩
  | cons line lines ih =>
    rw [gather, if_neg h]
    split_ifs
    · obtain ⟨rest, others, hgather⟩ := ih (List.append_ne_nil_of_left_ne_nil h line)
      exact ⟨line ++ rest, others, by rw [hgather, List.append_assoc]⟩
    · exact ⟨[], _, by rw [List.append_nil]⟩

/-- Every piece is put behind what has been read of the row. -/
def Glued (expected : ℕ) (buffer : List Char) : List (List Char) → Prop
  | [] => True
  | piece :: pieces =>
    (fields buffer < expected ∧ fields piece < expected) ∧ Glued expected (buffer ++ piece) pieces

theorem gather_of_glued (hne : buffer ≠ []) (h : Glued expected buffer pieces)
    (lines : List (List Char)) : gather expected buffer (pieces ++ lines) =
      gather expected (buffer ++ pieces.flatten) lines := by
  induction pieces generalizing buffer with
  | nil => simp
  | cons piece pieces ih =>
    rw [List.cons_append, gather, if_neg hne, if_pos h.1,
      ih (List.append_ne_nil_of_left_ne_nil hne piece) h.2, List.flatten_cons, List.append_assoc]

/-- Otherwise the output has a line that ends before the row does. -/
theorem gather_of_not_glued (hne : buffer ≠ []) (hpieces : ∀ piece ∈ pieces, piece ≠ [])
    (h : ¬ Glued expected buffer pieces) (lines : List (List Char)) :
    ∃ line others, gather expected buffer (pieces ++ lines) = line :: others ∧
      line.length < (buffer ++ pieces.flatten).length := by
  induction pieces generalizing buffer with
  | nil => exact absurd trivial h
  | cons piece pieces ih =>
    have hpiece : 0 < piece.length :=
      List.length_pos_iff.mpr (hpieces piece List.mem_cons_self)
    rw [List.cons_append, gather, if_neg hne]
    by_cases hboth : fields buffer < expected ∧ fields piece < expected
    · obtain ⟨line, others, hgather, hlength⟩ := ih (List.append_ne_nil_of_left_ne_nil hne piece)
        (fun q hq => hpieces q (List.mem_cons_of_mem _ hq)) fun hglued => h ⟨hboth, hglued⟩
      rw [if_pos hboth]
      refine ⟨line, others, hgather, ?_⟩
      rwa [List.append_assoc, ← List.flatten_cons] at hlength
    · rw [if_neg hboth]
      refine ⟨buffer, _, rfl, ?_⟩
      rw [List.flatten_cons, List.length_append, List.length_append]
      omega

/-! ### Where the breaks may be -/

theorem fields_plain {line : List Char} (h : PlainLine line) (hne : line ≠ []) :
    fields line = line.count ',' + 1 := by
  rw [fields, splitCsvRecords_last h, List.filter_cons_of_pos (isRecord_plainRecord hne)]
  simp [length_plainRecord]

/-- **The last break of the row lies neither in the first column nor in the last one**: there are
commas on either side of it. -/
def Joinable (row : List (List Char)) : Prop :=
  row.length = 1 ∨ ',' ∈ row.getLast?.getD [] ∧ ',' ∈ row.dropLast.flatten

instance (row : List (List Char)) : Decidable (Joinable row) := by
  unfold Joinable
  infer_instance

/-- The row has fewer fields than the header. -/
def Short (expected : ℕ) (row : List (List Char)) : Prop := row.flatten.count ',' + 1 < expected

/-- A row of the file as the pieces that line breaks have made of it. One that is short stands
unbroken. -/
structure IsRow (expected : ℕ) (row : List (List Char)) : Prop where
  plain : ∀ piece ∈ row, PlainLine piece ∧ piece ≠ []
  shape : row ≠ [] ∧ row.flatten.count ',' + 1 = expected ∨ row.length = 1 ∧ Short expected row

theorem plainLine_append {a b : List Char} (ha : PlainLine a) (hb : PlainLine b) :
    PlainLine (a ++ b) := fun c hc => (List.mem_append.mp hc).elim (ha c) (hb c)

/-- In a row with all its fields the pieces are put together when there are commas on either side
of the last break. -/
theorem glued_iff (hbuffer : PlainLine buffer ∧ buffer ≠ [])
    (hpieces : ∀ piece ∈ pieces, PlainLine piece ∧ piece ≠ [])
    (htotal : (buffer ++ pieces.flatten).count ',' + 1 = expected) :
    Glued expected buffer pieces ↔ pieces = [] ∨
      ',' ∈ pieces.getLast?.getD [] ∧ ',' ∈ buffer ++ pieces.dropLast.flatten := by
  induction pieces generalizing buffer with
  | nil => exact iff_of_true trivial (Or.inl rfl)
  | cons piece pieces ih =>
    have hpiece := hpieces piece List.mem_cons_self
    have hrest : ∀ q ∈ pieces, PlainLine q ∧ q ≠ [] := fun q hq =>
      hpieces q (List.mem_cons_of_mem _ hq)
    rw [List.flatten_cons, List.count_append, List.count_append] at htotal
    rw [Glued, fields_plain hbuffer.1 hbuffer.2, fields_plain hpiece.1 hpiece.2,
      ih ⟨plainLine_append hbuffer.1 hpiece.1, List.append_ne_nil_of_left_ne_nil hbuffer.2 piece⟩
        hrest (by rw [List.count_append, List.count_append]; omega)]
    cases pieces with
    | nil =>
      -- the last break: what stands on either side lacks the commas of the other
      simp only [List.flatten_nil, List.count_nil] at htotal
      simp only [List.getLast?_singleton, Option.getD_some, List.dropLast_singleton,
        List.flatten_nil, List.append_nil, List.cons_ne_nil, false_or, true_or, and_true,
        ← List.count_pos_iff]
      omega
    | cons next pieces =>
      have hlast : (piece :: next :: pieces).getLast? = (next :: pieces).getLast? :=
        List.getLast?_cons_cons
      have hsplit : (next :: pieces).flatten.count ',' =
          (next :: pieces).dropLast.flatten.count ',' +
            ((next :: pieces).getLast?.getD []).count ',' := by
        have hconcat := List.dropLast_concat_getLast (List.cons_ne_nil next pieces)
        rw [List.getLast?_eq_some_getLast (List.cons_ne_nil next pieces), Option.getD_some]
        conv_lhs => rw [← hconcat]
        simp
      rw [hlast, List.dropLast_cons_cons, List.flatten_cons, ← List.append_assoc]
      simp only [List.cons_ne_nil, false_or, ← List.count_pos_iff, List.count_append] at *
      omega

namespace IsRow

variable {row : List (List Char)}

theorem exists_cons (h : IsRow expected row) : ∃ piece pieces, row = piece :: pieces := by
  cases row with
  | nil =>
    rcases h.shape with ⟨hne, -⟩ | ⟨hlength, -⟩
    · exact absurd rfl hne
    · exact absurd hlength (by decide)
  | cons piece pieces => exact ⟨piece, pieces, rfl⟩

theorem flatten_ne_nil (h : IsRow expected row) : row.flatten ≠ [] := by
  obtain ⟨piece, pieces, rfl⟩ := h.exists_cons
  exact List.append_ne_nil_of_left_ne_nil (h.plain piece List.mem_cons_self).2 _

theorem plainLine_flatten (h : IsRow expected row) : PlainLine row.flatten := by
  intro c hc
  obtain ⟨piece, hpiece, hc⟩ := List.mem_flatten.mp hc
  exact (h.plain piece hpiece).1 c hc

theorem short_iff (h : IsRow expected row) :
    Short expected row ↔ fields row.flatten < expected := by
  rw [fields_plain h.plainLine_flatten h.flatten_ne_nil, Short]

theorem joinable_iff {piece : List Char} {pieces : List (List Char)}
    (h : IsRow expected (piece :: pieces)) :
    Joinable (piece :: pieces) ↔ Glued expected piece pieces := by
  rcases h.shape with ⟨-, htotal⟩ | ⟨hlength, -⟩
  · rw [glued_iff (h.plain piece List.mem_cons_self)
      (fun q hq => h.plain q (List.mem_cons_of_mem _ hq)) htotal, Joinable]
    cases pieces with
    | nil => simp
    | cons next pieces =>
      rw [List.getLast?_cons_cons, List.dropLast_cons_cons, List.flatten_cons]
      simp
  · obtain rfl : pieces = [] := by simpa using hlength
    exact iff_of_true (Or.inl rfl) trivial

/-- A joinable row is put together. -/
theorem gather_joinable (h : IsRow expected row) (hjoin : Joinable row)
    (lines : List (List Char)) :
    gather expected [] (row ++ lines) = gather expected row.flatten lines := by
  obtain ⟨piece, pieces, rfl⟩ := h.exists_cons
  rw [List.cons_append, gather, if_pos rfl,
    gather_of_glued (h.plain piece List.mem_cons_self).2 (h.joinable_iff.mp hjoin)]
  rfl

/-- Of one that is not, only the beginning is. -/
theorem gather_not_joinable (h : IsRow expected row) (hjoin : ¬ Joinable row)
    (lines others : List (List Char)) :
    gather expected [] (row ++ lines) ≠ row.flatten :: others := by
  obtain ⟨piece, pieces, rfl⟩ := h.exists_cons
  obtain ⟨line, others', hgather, hlength⟩ := gather_of_not_glued
    (h.plain piece List.mem_cons_self).2 (fun q hq => (h.plain q (List.mem_cons_of_mem _ hq)).2)
    (fun hglued => hjoin (h.joinable_iff.mpr hglued)) lines
  intro heq
  rw [List.cons_append, gather, if_pos rfl, hgather] at heq
  rw [(List.cons.inj heq).1] at hlength
  exact absurd hlength (Nat.lt_irrefl _)

/-- The row in the buffer, and the first piece of the next row. -/
theorem gather_next (h : IsRow expected row) {first : List Char} {pieces : List (List Char)}
    (hnext : IsRow expected (first :: pieces)) (lines others : List (List Char)) :
    gather expected row.flatten (first :: pieces ++ lines) = row.flatten :: others ↔
      (Short expected row → ¬ fields first < expected) ∧
        gather expected [] (first :: pieces ++ lines) = others := by
  have hne := h.flatten_ne_nil
  have hfirst := hnext.plain first List.mem_cons_self
  rw [List.cons_append, gather, if_neg hne, gather, if_pos rfl]
  by_cases hboth : fields row.flatten < expected ∧ fields first < expected
  · -- the piece is put behind the short row
    obtain ⟨rest, others', hgather⟩ :=
      gather_head expected (List.append_ne_nil_of_left_ne_nil hne first)
        (pieces ++ lines)
    rw [if_pos hboth, hgather, List.append_assoc]
    refine iff_of_false (fun heq => ?_) fun hrest => hrest.1 (h.short_iff.mpr hboth.1) hboth.2
    have hnil : first = [] ∧ rest = [] := by simpa using (List.cons.inj heq).1
    exact hfirst.2 hnil.1
  · rw [if_neg hboth, List.cons_eq_cons, and_iff_right rfl]
    exact (and_iff_right fun hshort hf => hboth ⟨h.short_iff.mp hshort, hf⟩).symm

/-- The first piece of a joinable row has all fields when it is the whole row. -/
theorem full_iff {first : List Char} {pieces : List (List Char)}
    (h : IsRow expected (first :: pieces)) (hjoin : Joinable (first :: pieces)) :
    ¬ fields first < expected ↔
      (first :: pieces).length = 1 ∧ ¬ Short expected (first :: pieces) := by
  have hglued := h.joinable_iff.mp hjoin
  cases pieces with
  | nil => simp [h.short_iff]
  | cons piece pieces =>
    exact iff_of_false (fun hfull => hfull hglued.1.1) fun hone => by simp at hone

end IsRow

/-- **The loop gives back the rows** when every row is joinable and a short one stands in front of
a complete one in one line. -/
theorem gather_eq_iff (rows : List (List (List Char))) (h : ∀ row ∈ rows, IsRow expected row) :
    gather expected [] rows.flatten = rows.map List.flatten ↔
      (∀ row ∈ rows, Joinable row) ∧ rows.IsChain fun row next =>
        Short expected row → next.length = 1 ∧ ¬ Short expected next := by
  induction rows with
  | nil => simp [gather]
  | cons row rows ih =>
    have hrow := h row List.mem_cons_self
    have hih := ih fun r hr => h r (List.mem_cons_of_mem _ hr)
    rw [List.flatten_cons, List.map_cons, List.forall_mem_cons]
    by_cases hjoin : Joinable row
    · rw [hrow.gather_joinable hjoin]
      cases rows with
      | nil => simp [gather, hjoin, hrow.flatten_ne_nil]
      | cons next rows =>
        have hnext := h next (List.mem_cons_of_mem _ List.mem_cons_self)
        rw [List.isChain_cons_cons, and_iff_right hjoin]
        by_cases hnextJoin : Joinable next
        · obtain ⟨first, pieces, rfl⟩ := hnext.exists_cons
          rw [List.flatten_cons, hrow.gather_next hnext, ← List.flatten_cons, hih,
            hnext.full_iff hnextJoin]
          tauto
        · refine iff_of_false (fun heq => ?_) fun hall =>
            hnextJoin (hall.1 next List.mem_cons_self)
          obtain ⟨first, pieces, rfl⟩ := hnext.exists_cons
          rw [List.flatten_cons, hrow.gather_next hnext, List.map_cons] at heq
          exact hnext.gather_not_joinable hnextJoin _ _ heq.2
    · exact iff_of_false (hrow.gather_not_joinable hjoin _ _) fun hall => hjoin hall.1.1

end Loop

/-! ### A file -/

/-- A file of either dialect as a messenger delivers it: what stands in front of the header, the
header, and lines that are the pieces of the rows, with empty lines anywhere between them. -/
structure WrappedFile where
  preamble : List (List Char)
  header : List Char
  rows : List (List (List Char))
  lines : List (List Char)
  newline : List Char
  newline_mem : newline ∈ newlines
  preamble_plain : ∀ line ∈ preamble, PlainLine line ∧ isApiHeader p line = false
  header_plain : PlainLine header ∧ isApiHeader p header = true
  rows_of : ∀ row ∈ rows, IsRow (header.count ',' + 1) row
  lines_unbroken : ∀ line ∈ lines, Unbroken line
  lines_eq : lines.filter (fun line => !line.all p.isWhitespace) = rows.flatten

namespace WrappedFile

variable {p} (file : WrappedFile p)

/-- The text that arrives. -/
def text : List Char := file.newline.intercalate (file.preamble ++ file.header :: file.lines)

/-- The text that was sent. -/
def original : List Char :=
  ['\n'].intercalate (file.preamble ++ file.header :: file.rows.map List.flatten)

/-- The number of columns. -/
def columns : ℕ := file.header.count ',' + 1

/-- **Where the function repairs the file**: every row is joinable, and behind a short row there
is a complete one in one line. -/
def Repairable : Prop :=
  (∀ row ∈ file.rows, Joinable row) ∧ file.rows.IsChain fun row next =>
    Short file.columns row → next.length = 1 ∧ ¬ Short file.columns next

end WrappedFile

variable {p}

/-- A header names two columns at least. -/
theorem comma_mem_of_isApiHeader {line : List Char} (h : isApiHeader p line = true) :
    ',' ∈ line := by
  have hspace : ∀ {c : Char} {cs : List Char}, c ∈ cs.dropWhile p.regexSpace → c ∈ cs :=
    fun hc => (List.dropWhile_sublist _).subset hc
  unfold isApiHeader at h
  dsimp only at h
  split at h
  · exact absurd h (by decide)
  · rename_i rest hrest
    obtain ⟨name, hname, -⟩ := List.dropPrefix?_eq_some_iff.mp hrest
    have hcomma : ',' ∈ rest := hspace (List.mem_of_head? (by simpa using h))
    apply hspace
    split at hname
    · rename_i cs hmark
      rw [hmark, hname]
      exact List.mem_cons_of_mem _ (List.mem_append_right _ hcomma)
    · rw [hname]
      exact List.mem_append_right _ hcomma

/-- The lines of the output have neither quotes nor line breaks. -/
theorem plainLine_of_mem_gather {expected : ℕ} {buffer : List Char} {pieces : List (List Char)}
    (hbuffer : PlainLine buffer) (hpieces : ∀ piece ∈ pieces, PlainLine piece ∧ piece ≠ []) :
    ∀ line ∈ gather expected buffer pieces, PlainLine line ∧ line ≠ [] := by
  induction pieces generalizing buffer with
  | nil =>
    intro line hline
    rw [gather] at hline
    split_ifs at hline with hne
    · rw [List.mem_singleton.mp hline]
      exact ⟨hbuffer, hne⟩
    · exact absurd hline List.not_mem_nil
  | cons piece pieces ih =>
    have hpiece := hpieces piece List.mem_cons_self
    have hrest : ∀ q ∈ pieces, PlainLine q ∧ q ≠ [] := fun q hq =>
      hpieces q (List.mem_cons_of_mem _ hq)
    intro line hline
    rw [gather] at hline
    split_ifs at hline with hempty hshort
    · exact ih hpiece.1 hrest line hline
    · exact ih (plainLine_append hbuffer hpiece.1) hrest line hline
    · rcases List.mem_cons.mp hline with rfl | hline
      · exact ⟨hbuffer, hempty⟩
      · exact ih hpiece.1 hrest line hline

namespace WrappedFile

variable (file : WrappedFile p)

theorem header_ne_nil : file.header ≠ [] := by
  have hcomma := comma_mem_of_isApiHeader file.header_plain.2
  exact List.ne_nil_of_mem hcomma

/-- **What the function makes of the text.** -/
theorem joinWrappedRows_text : joinWrappedRows p file.text = ['\n'].intercalate
    (file.preamble ++ file.header :: gather file.columns [] file.rows.flatten) := by
  have hplain : ∀ {line : List Char}, PlainLine line → Unbroken line := fun h c hc =>
    ⟨(h c hc).1, (h c hc).2.1⟩
  have hlines : textLines file.text = file.preamble ++ file.header :: file.lines := by
    refine textLines_intercalate file.newline_mem (by simp) fun line hline => ?_
    rcases List.mem_append.mp hline with hline | hline
    · exact hplain (file.preamble_plain line hline).1
    rcases List.mem_cons.mp hline with rfl | hline
    · exact hplain file.header_plain.1
    · exact file.lines_unbroken line hline
  have hindex : findApiHeader p (file.preamble ++ file.header :: file.lines) =
      some file.preamble.length := by
    have hnone : file.preamble.findIdx? (isApiHeader p) = none :=
      List.findIdx?_eq_none_iff.mpr fun line hline => (file.preamble_plain line hline).2
    rw [findApiHeader, List.findIdx?_append, hnone]
    simp [List.findIdx?_cons, file.header_plain.2]
  have hheader : (file.preamble ++ file.header :: file.lines).getD file.preamble.length [] =
      file.header := by
    simp
  have hcolumns : (splitCsvRecords file.header).head?.map List.length = some file.columns := by
    rw [splitCsvRecords_last file.header_plain.1,
      List.filter_cons_of_pos (isRecord_plainRecord file.header_ne_nil), List.head?_cons,
      Option.map_some, length_plainRecord, columns]
  have hmany : ¬ file.columns < 2 := by
    have := List.count_pos_iff.mpr (comma_mem_of_isApiHeader file.header_plain.2)
    rw [columns]
    omega
  have hdrop : (file.preamble ++ file.header :: file.lines).drop (file.preamble.length + 1) =
      file.lines := by
    simp [List.drop_append]
  unfold joinWrappedRows
  simp only [hlines, hindex, hheader, hcolumns, hmany, if_false, hdrop, flush_foldl_joinLine,
    file.lines_eq, List.take_left]
  rw [List.append_assoc]
  rfl

/-- The records of what stands in front of the rows. -/
def headRecords : List (List String) :=
  ((file.preamble ++ [file.header]).map plainRecord).filter isRecord

/-- Behind the header every line is a record. -/
theorem splitCsvRecords_rows {lines : List (List Char)}
    (h : ∀ line ∈ lines, PlainLine line ∧ line ≠ []) :
    splitCsvRecords (['\n'].intercalate (file.preamble ++ file.header :: lines)) =
      file.headRecords ++ lines.map plainRecord := by
  have hall : ∀ line ∈ file.preamble ++ file.header :: lines, PlainLine line := by
    intro line hline
    rcases List.mem_append.mp hline with hline | hline
    · exact (file.preamble_plain line hline).1
    rcases List.mem_cons.mp hline with rfl | hline
    · exact file.header_plain.1
    · exact (h line hline).1
  have hself : (lines.map plainRecord).filter isRecord = lines.map plainRecord := by
    apply List.filter_eq_self.mpr
    intro record hrecord
    obtain ⟨line, hline, rfl⟩ := List.mem_map.mp hrecord
    exact isRecord_plainRecord (h line hline).2
  rw [splitCsvRecords_lines hall, List.append_cons, List.map_append, List.filter_append, hself,
    headRecords]

theorem splitCsvRecords_joined : splitCsvRecords (joinWrappedRows p file.text) =
    file.headRecords ++ (gather file.columns [] file.rows.flatten).map plainRecord := by
  rw [file.joinWrappedRows_text]
  refine file.splitCsvRecords_rows (plainLine_of_mem_gather (fun c hc => ?_) fun piece hpiece => ?_)
  · exact absurd hc List.not_mem_nil
  · obtain ⟨row, hrow, hpiece⟩ := List.mem_flatten.mp hpiece
    exact (file.rows_of row hrow).plain piece hpiece

theorem splitCsvRecords_original : splitCsvRecords file.original =
    file.headRecords ++ (file.rows.map List.flatten).map plainRecord := by
  refine file.splitCsvRecords_rows fun line hline => ?_
  obtain ⟨row, hrow, rfl⟩ := List.mem_map.mp hline
  exact ⟨(file.rows_of row hrow).plainLine_flatten, (file.rows_of row hrow).flatten_ne_nil⟩

/-- The records are the same when the lines of the output are the rows. -/
theorem records_eq_iff :
    splitCsvRecords (joinWrappedRows p file.text) = splitCsvRecords file.original ↔
      gather file.columns [] file.rows.flatten = file.rows.map List.flatten := by
  rw [file.splitCsvRecords_joined, file.splitCsvRecords_original, List.append_cancel_left_eq,
    (List.map_injective_iff.mpr plainRecord_injective).eq_iff]

/-- **The records of the output are those of the text that was sent exactly when the file is
repairable**: for every way of breaking its rows. -/
theorem joinWrappedRows_recovers_iff :
    splitCsvRecords (joinWrappedRows p file.text) = splitCsvRecords file.original ↔
      file.Repairable := by
  rw [file.records_eq_iff]
  exact gather_eq_iff file.rows file.rows_of

end WrappedFile

/-- The header of the API names fifteen columns. -/
theorem count_apiHeader : ('#' :: apiHeader).count ',' + 1 = 15 := by
  have hlength : (plainRecord apiHeader).length = 15 := by
    rw [plainRecord_apiHeader]
    rfl
  rw [List.count_cons_of_ne (by decide), ← length_plainRecord, hlength]

/-- A file of the API with the given rows. -/
def apiFile (rows : List (List (List Char))) (h : ∀ row ∈ rows, IsRow 15 row)
    (hblank : ∀ piece ∈ rows.flatten, piece.all Platform.plain.isWhitespace = false) :
    WrappedFile Platform.plain where
  preamble := ["*vpn_servers".toList]
  header := '#' :: apiHeader
  rows := rows
  lines := rows.flatten
  newline := ['\n']
  newline_mem := by decide
  preamble_plain := by decide
  header_plain := by
    refine ⟨fun c hc => ?_, by decide⟩
    obtain rfl | hc := List.mem_cons.mp hc
    · decide
    · exact plainLine_apiHeader c hc
  rows_of := by
    rw [count_apiHeader]
    exact h
  lines_unbroken := by
    intro line hline c hc
    obtain ⟨row, hrow, hline⟩ := List.mem_flatten.mp hline
    obtain ⟨hlf, hcr, -⟩ := ((h row hrow).plain line hline).1 c hc
    exact ⟨hlf, hcr⟩
  lines_eq := by
    apply List.filter_eq_self.mpr
    intro line hline
    simp [hblank line hline]

/-- A profile that is broken: the break stands in the last column. -/
def brokenProfile : List (List (List Char)) :=
  [["vpn1,1.2.3.4,5,6,7,Japan,JP,8,9,10,11,12,me,hello,QU".toList, "JD".toList]]

/-- A row of one field in front of one that is broken in its second column. -/
def shortRow : List (List (List Char)) :=
  [["vpn1".toList], ["vpn2,1.2".toList, ".3.4,5,6,7,Japan,JP,8,9,10,11,12,me,hello,QUJD".toList]]

theorem isRow_brokenProfile : ∀ row ∈ brokenProfile, IsRow 15 row := by
  intro row hrow
  obtain rfl := List.mem_singleton.mp hrow
  exact ⟨by decide, Or.inl (by decide)⟩

theorem isRow_shortRow : ∀ row ∈ shortRow, IsRow 15 row := by
  intro row hrow
  rcases List.mem_pair.mp hrow with rfl | rfl
  · exact ⟨by decide, Or.inr ⟨rfl, by unfold Short; decide⟩⟩
  · exact ⟨by decide, Or.inl (by decide)⟩

/-- A file whose profile is wrapped before a number. -/
def brokenFile : WrappedFile Platform.plain :=
  apiFile brokenProfile isRow_brokenProfile (by decide)

/-- A file with a row that is too short. -/
def shortFile : WrappedFile Platform.plain := apiFile shortRow isRow_shortRow (by decide)

/-- The end of a profile is lost, and a piece of the next row is put behind a short one. -/
theorem joinWrappedRows_loses :
    splitCsvRecords (joinWrappedRows Platform.plain brokenFile.text) ≠
        splitCsvRecords brokenFile.original ∧
      splitCsvRecords (joinWrappedRows Platform.plain shortFile.text) ≠
        splitCsvRecords shortFile.original := by
  have hcolumns : brokenFile.columns = 15 ∧ shortFile.columns = 15 :=
    ⟨count_apiHeader, count_apiHeader⟩
  constructor
  · rw [ne_eq, brokenFile.records_eq_iff, hcolumns.1]
    exact fun h => absurd ((gather_eq_iff _ isRow_brokenProfile).mp h).1 (by decide)
  · rw [ne_eq, shortFile.records_eq_iff, hcolumns.2]
    intro h
    have hchain := ((gather_eq_iff _ isRow_shortRow).mp h).2
    rw [shortRow, List.isChain_cons_cons] at hchain
    have hshort : Short 15 ["vpn1".toList] := by
      unfold Short
      decide
    exact absurd (hchain.1 hshort).1 (by decide)

end ManualCsvImport

end SoftEther.Parser
