import Mathlib.Data.List.Induction

namespace SoftEther.Parser

/-!
# Records of a CSV text (`VpnGateApiParser.splitCsvRecords`)

One pass over the text with a flag for being between quotes. A line break between quotes belongs
to its field, so a quote that is not closed takes what follows into its record.

* `splitCsvRecords` — the function of the source;
* `scan_quote` — a field between quotes, of any content, is read as it stands.
-/

/-! ### The function of the source -/

/-- The variables of the loop; `skip` when an escaped quote has advanced `i` past a character. -/
structure Scan where
  records : List (List String)
  record : List String
  field : List Char
  inQuotes : Bool
  skip : Bool
  deriving DecidableEq

namespace Scan

/-- Before the loop. -/
def start : Scan := ⟨[], [], [], false, false⟩

/-- A character of a field. -/
def append (s : Scan) (c : Char) : Scan := { s with field := s.field ++ [c] }

def endField (s : Scan) : Scan :=
  { s with record := s.record ++ [String.ofList s.field], field := [] }

def endRecord (s : Scan) : Scan :=
  { s.endField with records := s.records ++ [s.endField.record], record := [] }

/-- One character of the loop, and the one behind it. -/
def step (s : Scan) (c : Char) (next : Option Char) : Scan :=
  if s.skip then { s with skip := false }
  else if s.inQuotes then
    if c = '"' then
      if next = some '"' then { s.append '"' with skip := true } else { s with inQuotes := false }
    else s.append c
  else if c = '"' then { s with inQuotes := true }
  else if c = ',' then s.endField
  else if c = '\n' then s.endRecord
  else if c = '\r' then s
  else s.append c

/-- The loop. -/
def scan (s : Scan) : List Char → Scan
  | [] => s
  | c :: cs => scan (s.step c cs.head?) cs

/-- Behind the loop: what no line break ended is a record, too. -/
def finish (s : Scan) : Scan := if s.field ≠ [] ∨ s.record ≠ [] then s.endRecord else s

end Scan

open Scan

/-- A record that is more than an empty line. -/
def isRecord (record : List String) : Bool := 1 < record.length || record.head?.getD "" ≠ ""

def splitCsvRecords (text : List Char) : List (List String) :=
  (scan start text).finish.records.filter isRecord

/-! ### Parts of a text -/

namespace Scan

/-- The state with records ahead of its own. -/
def after (s : Scan) (records : List (List String)) : Scan :=
  { s with records := records ++ s.records }

theorem step_after (s : Scan) (records : List (List String)) (c : Char) (next : Option Char) :
    (s.after records).step c next = (s.step c next).after records := by
  unfold step after
  dsimp only
  split_ifs <;> simp [append, endField, endRecord]

theorem scan_after (s : Scan) (records : List (List String)) (text : List Char) :
    scan (s.after records) text = (scan s text).after records := by
  induction text generalizing s with
  | nil => rfl
  | cons c cs ih => rw [scan, scan, step_after, ih]

theorem finish_after (s : Scan) (records : List (List String)) :
    (s.after records).finish = s.finish.after records := by
  unfold finish after
  dsimp only
  split_ifs <;> simp [endField, endRecord]

/-- Between two lines: no quote is open and nothing has been read of the next record. -/
def Closed (s : Scan) : Prop :=
  s.record = [] ∧ s.field = [] ∧ s.inQuotes = false ∧ s.skip = false

theorem Closed.finish {s : Scan} (h : s.Closed) : s.finish = s := by
  unfold Scan.finish
  simp [h.1, h.2.1]

end Scan

/-! ### Fields between quotes -/

/-- A field between quotes. -/
def quote (field : String) : List Char :=
  '"' :: field.toList.flatMap (fun c => if c = '"' then ['"', '"'] else [c]) ++ ['"']

namespace Scan

/-- Up to the closing quote the loop reads the field. -/
theorem scan_escaped (s : Scan) (hquotes : s.inQuotes = true) (hskip : s.skip = false)
    (field : List Char) {rest : List Char} (hrest : rest.head? ≠ some '"') :
    scan s (field.flatMap (fun c => if c = '"' then ['"', '"'] else [c]) ++ '"' :: rest) =
      scan { s with field := s.field ++ field, inQuotes := false } rest := by
  induction field generalizing s with
  | nil =>
    have hclose : s.step '"' rest.head? = { s with inQuotes := false } := by
      simp [step, hquotes, hskip, hrest]
    rw [List.flatMap_nil, List.nil_append, scan, hclose, List.append_nil]
  | cons c field ih =>
    rw [List.flatMap_cons, List.append_assoc]
    by_cases hc : c = '"'
    · -- the first quote of the pair is read, the second one skipped
      subst hc
      have hfirst : s.step '"' (some '"') = { s.append '"' with skip := true } := by
        simp [step, hquotes, hskip]
      have hsecond : ∀ next, ({ s.append '"' with skip := true } : Scan).step '"' next =
          { s.append '"' with skip := false } := by
        intro next
        simp [step]
      rw [if_pos rfl, List.cons_append, List.cons_append, List.nil_append, scan, List.head?_cons,
        hfirst, scan, hsecond, ih { s.append '"' with skip := false } hquotes rfl]
      simp [append, hskip]
    · have hread : ∀ next, s.step c next = s.append c := by
        intro next
        simp [step, hquotes, hskip, hc]
      rw [if_neg hc, List.singleton_append, scan, hread, ih (s.append c) hquotes hskip]
      simp [append]

/-- A field between quotes. -/
theorem scan_quote (s : Scan) (hquotes : s.inQuotes = false) (hskip : s.skip = false)
    (field : String) {rest : List Char} (hrest : rest.head? ≠ some '"') :
    scan s (quote field ++ rest) = scan { s with field := s.field ++ field.toList } rest := by
  have hopen : ∀ next, s.step '"' next = { s with inQuotes := true } := by
    intro next
    simp [step, hquotes, hskip]
  rw [quote, List.cons_append, List.cons_append, List.append_assoc, List.singleton_append, scan,
    hopen, scan_escaped { s with inQuotes := true } rfl hskip _ hrest]
  simp [hquotes]

end Scan

end SoftEther.Parser
