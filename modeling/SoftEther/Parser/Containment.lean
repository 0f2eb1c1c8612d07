import SoftEther.Parser.EmergencyCsv

namespace SoftEther.Parser.EmergencyCsvParser

open Lib
open SoftEther.Merger

/-!
# What one row of the emergency file can do

A row is meant to cost itself at most: it is counted as rejected or its address is in the result,
and the rows of other addresses are read as if it were not there. `validIp` breaks that, for the
whole file, at one number that no `Int` holds.

* `Accounted` — every row is counted or returned;
* `Differ`, `Untouched` — two files that differ in one row, and results that agree on all others;
* `RowsContained` — what is promised of two texts;
* `rowsContained_iff` — the promise is kept exactly when `parse` throws at neither text;
* `rows_not_contained` — a text at which it throws.
-/

/-! ### What is promised -/

/-- The records of an address. -/
def recordsAt (ip : String) (result : Result) : List VpnServerRecord :=
  (recordsOrEmpty result).filter (identityOf · "ip" = ip)

variable (p : Platform)

/-- What a result that has records says of the rows. -/
structure Counted (file : File) (records : List VpnServerRecord) (rejectedCount : ℕ)
    (issues : IssueCounter) : Prop where
  /-- Each rejected row is counted once, -/
  rejected : rejectedCount = file.rows.countP fun row => (verdict p file.columns row).isSome
  /-- and with one rejecting issue. -/
  issues : ∀ issue, issue.rejectsRecord = true →
    issues.count issue = file.rows.countP fun row => verdict p file.columns row = some issue
  /-- The address of each other row is in one record. -/
  accepted : ∀ row ∈ file.rows, verdict p file.columns row = none →
    ∃ ip, address p file.columns row = some ip ∧
      (records.filter (identityOf · "ip" = ip)).length = 1

/-- **Every row of a file is accounted for**; a file without an accepted row is malformed. -/
def Accounted (file : File) : Result → Prop
  | .valid records rejectedCount issues | .partially records rejectedCount issues =>
    Counted p file records rejectedCount issues
  | .malformed _ => ∀ row ∈ file.rows, verdict p file.columns row ≠ none

/-- **Two files differ in one row** at most, and there not in the outcome of the schema check. -/
structure Differ (i : ℕ) (file file' : File) : Prop where
  columns : file'.columns = file.columns
  length : file'.rows.length = file.rows.length
  others : ∀ j ≠ i, file'.rows[j]? = file.rows[j]?
  schema : ∀ row ∈ file.rows[i]?, ∀ row' ∈ file'.rows[i]?,
    (SchemaOk p file.columns row ↔ SchemaOk p file.columns row')

/-- A row is accepted, and the result has its address. -/
def Accepts (columns : List String) (result : Result) (row : List String) : Prop :=
  verdict p columns row = none ∧ ∃ ip, address p columns row = some ip ∧ recordsAt ip result ≠ []

/-- **The rows of other addresses are untouched**: they are accepted from both files or from none,
    and what their records contain is the same. -/
def Untouched (i : ℕ) (file file' : File) (result result' : Result) : Prop :=
  ∀ j ≠ i, ∀ row ∈ file.rows[j]?,
    (∀ ip, address p file.columns row = some ip →
      (∀ changed ∈ file.rows[i]?, address p file.columns changed ≠ some ip) ∧
        ∀ changed ∈ file'.rows[i]?, address p file.columns changed ≠ some ip) →
    (Accepts p file.columns result row ↔ Accepts p file.columns result' row) ∧
      ∀ ip, address p file.columns row = some ip → recordsAt ip result = recordsAt ip result'

/-- **The rows of two texts are contained**: both are parsed to results that account for every
    row, and where they differ in one row only, the other addresses are untouched. -/
structure RowsContained (source : String) (i : ℕ) (text text' : String) : Prop where
  accounted : ∀ t ∈ [text, text'], ∃ result, parse p t source = .ok result ∧
    ∀ file ∈ checked p t, Accounted p file result
  untouched : ∀ file file' result result', structureOf p text = .ok file →
    structureOf p text' = .ok file' → Differ p i file file' → parse p text source = .ok result →
    parse p text' source = .ok result' → Untouched p i file file' result result'

/-! ### Counting -/

variable {p}

/-- A row has a record exactly when nothing rejects it. -/
theorem isNone_rowResult (columns : List String) (source : String) (row : List String) :
    (rowResult p columns source row).2.isNone = (verdict p columns row).isSome := by
  cases hverdict : verdict p columns row with
  | none =>
    obtain ⟨ip, issues, r, -, -, hresult, -⟩ := rowResult_of_accepted source hverdict
    rw [hresult]
    rfl
  | some issue =>
    rw [(rowResult_of_rejected source hverdict).1]
    rfl

/-- A row adds a rejecting issue exactly when it is rejected for it. -/
theorem count_rowResult (columns : List String) (source : String) (row : List String)
    {issue : Issue} (h : issue.rejectsRecord = true) :
    (rowResult p columns source row).1.count issue =
      if verdict p columns row = some issue then 1 else 0 := by
  cases hverdict : verdict p columns row with
  | none =>
    obtain ⟨ip, issues, r, -, -, hresult, -, -, -, hnotes⟩ := rowResult_of_accepted source hverdict
    rw [hresult, if_neg (by simp), List.count_eq_zero]
    intro hmem
    rw [hnotes issue hmem] at h
    cases h
  | some issue' =>
    rw [(rowResult_of_rejected source hverdict).1, List.count_singleton]
    simp

theorem count_flatMap_rows {α : Type} (f : α → List Issue) (q : α → Bool) (issue : Issue)
    (rows : List α) (h : ∀ row ∈ rows, (f row).count issue = if q row then 1 else 0) :
    (rows.flatMap f).count issue = rows.countP q := by
  induction rows with
  | nil => rfl
  | cons row rows ih =>
    rw [List.flatMap_cons, List.count_append, h row List.mem_cons_self,
      ih fun r hr => h r (List.mem_cons_of_mem row hr), List.countP_cons]
    omega

/-- The records of a file at an address. -/
theorem filter_records (file : File) (source ip : String) :
    (records p file source).filter (identityOf · "ip" = ip) =
      if (parsedOf p file source).parsed.filter (identityOf · "ip" = ip) = [] then []
      else [mergeGroup ((parsedOf p file source).parsed.filter (identityOf · "ip" = ip))] := by
  have hvalid : ∀ r ∈ (parsedOf p file source).parsed, r.WellFormed ∧ identityOf r "ip" ≠ "" := by
    intro r hr
    obtain ⟨-, hne, hwell⟩ := parsedOf_valid hr
    exact ⟨hwell, hne⟩
  exact filter_recordsOfGroups hvalid ip

/-- **The result of a file accounts for its rows.** -/
theorem accounted_resultOf (file : File) (source : String) :
    Accounted p file (resultOf p file source) := by
  have hparsed : ∀ row ∈ file.rows, verdict p file.columns row = none →
      ∃ ip, address p file.columns row = some ip ∧
        ∃ r ∈ (parsedOf p file source).parsed, identityOf r "ip" = ip := by
    intro row hrow hverdict
    obtain ⟨ip, issues, r, -, haddress, hresult, -, -, hip, -⟩ :=
      rowResult_of_accepted source hverdict
    exact ⟨ip, haddress, r, mem_parsedOf.mpr ⟨row, hrow, by rw [hresult]⟩, hip⟩
  -- the rejected rows by their verdicts, the accepted ones by their addresses
  have hcounted : Counted p file (records p file source) (parsedOf p file source).rejected
      (parsedOf p file source).issues := by
    refine ⟨?_, ?_, ?_⟩
    · exact List.countP_congr fun row _ => by rw [isNone_rowResult]
    · intro issue hrejects
      have hunknown : (((file.columns.filter (· ∉ ALL_COLUMNS)).map fun _ =>
          Issue.unknownColumn)).count issue = 0 := by
        rw [List.count_eq_zero]
        intro hmem
        obtain ⟨_, _, rfl⟩ := List.mem_map.mp hmem
        cases hrejects
      have hempty : IssueCounter.count [] issue = 0 := rfl
      unfold parsedOf
      dsimp only
      rw [IssueCounter.count_addAll, IssueCounter.count_addAll, hempty, hunknown, Nat.zero_add]
      refine count_flatMap_rows _ _ issue file.rows fun row _ => ?_
      simpa using count_rowResult file.columns source row hrejects
    · intro row hrow hverdict
      obtain ⟨ip, haddress, r, hr, hip⟩ := hparsed row hrow hverdict
      refine ⟨ip, haddress, ?_⟩
      have hne : (parsedOf p file source).parsed.filter (identityOf · "ip" = ip) ≠ [] :=
        List.ne_nil_of_mem (List.mem_filter.mpr ⟨hr, by simpa using hip⟩)
      rw [filter_records, if_neg hne, List.length_singleton]
  unfold resultOf
  dsimp only
  by_cases hempty : (parsedOf p file source).parsed.isEmpty = true
  · rw [if_pos hempty]
    intro row hrow hverdict
    obtain ⟨ip, -, r, hr, -⟩ := hparsed row hrow hverdict
    rw [List.isEmpty_iff.mp hempty] at hr
    exact List.not_mem_nil hr
  · rw [if_neg hempty, conclude]
    by_cases hzero : (parsedOf p file source).rejected = 0
    · rw [if_pos hzero]
      rw [hzero] at hcounted
      exact hcounted
    · rw [if_neg hzero]
      exact hcounted

/-! ### Two files -/

theorem schemaError_eq_none {file : File} :
    schemaError p file = none ↔ ∀ row ∈ file.rows, SchemaOk p file.columns row := by
  simp [schemaError]

/-- A list without one of its items, as far as a function of the others goes. -/
theorem filterMap_of_others {α β : Type} {f : α → Option β} {i : ℕ} {xs ys : List α}
    (hlength : ys.length = xs.length) (hothers : ∀ j ≠ i, ys[j]? = xs[j]?)
    (hx : ∀ x ∈ xs[i]?, f x = none) (hy : ∀ y ∈ ys[i]?, f y = none) :
    ys.filterMap f = xs.filterMap f := by
  induction xs generalizing i ys with
  | nil => rw [List.eq_nil_of_length_eq_zero hlength]
  | cons x xs ih =>
    cases ys with
    | nil => cases hlength
    | cons y ys =>
      have hrest : ys.length = xs.length := Nat.succ.inj hlength
      cases i with
      | zero =>
        have hsame : ys = xs := by
          apply List.ext_getElem?
          intro j
          simpa using hothers (j + 1) (by omega)
        rw [hsame, List.filterMap_cons_none (hx x rfl), List.filterMap_cons_none (hy y rfl)]
      | succ i =>
        have hhead : y = x := by simpa using hothers 0 (by omega)
        have htail := ih (i := i) hrest (fun j hj => by simpa using hothers (j + 1) (by omega))
          (by simpa using hx) (by simpa using hy)
        rw [hhead, List.filterMap_cons, List.filterMap_cons, htail]

/-- **The records of an address** are made of the rows of that address. -/
theorem recordsAt_resultOf (file : File) (source ip : String) :
    recordsAt ip (resultOf p file source) =
      if (parsedOf p file source).parsed.filter (identityOf · "ip" = ip) = [] then []
      else [mergeGroup ((parsedOf p file source).parsed.filter (identityOf · "ip" = ip))] := by
  have hfilter := filter_records (p := p) file source ip
  rw [← hfilter]
  unfold resultOf recordsAt
  dsimp only
  by_cases hempty : (parsedOf p file source).parsed.isEmpty = true
  · rw [if_pos hempty, hfilter, List.isEmpty_iff.mp hempty]
    rfl
  · rw [if_neg hempty, conclude]
    by_cases hzero : (parsedOf p file source).rejected = 0
    · rw [if_pos hzero]
      rfl
    · rw [if_neg hzero]
      rfl

/-- **What one row of another address holds does not change the records of an address.** -/
theorem recordsAt_of_differ {i : ℕ} {file file' : File} (h : Differ p i file file')
    (source : String) {ip : String}
    (hrow : ∀ row ∈ file.rows[i]?, address p file.columns row ≠ some ip)
    (hrow' : ∀ row ∈ file'.rows[i]?, address p file.columns row ≠ some ip) :
    recordsAt ip (resultOf p file source) = recordsAt ip (resultOf p file' source) := by
  have hnone : ∀ row, address p file.columns row ≠ some ip →
      (rowResult p file.columns source row).2.filter (identityOf · "ip" = ip) = none := by
    intro row haddress
    cases hverdict : verdict p file.columns row with
    | none =>
      obtain ⟨ip', issues, r, -, haddress', hresult, -, -, hip, -⟩ :=
        rowResult_of_accepted source hverdict
      have hne : identityOf r "ip" ≠ ip := by
        rintro rfl
        exact haddress (by rw [haddress', hip])
      rw [hresult]
      simp [hne]
    | some issue =>
      rw [(rowResult_of_rejected source hverdict).1]
      rfl
  have hparsed : (parsedOf p file' source).parsed.filter (identityOf · "ip" = ip) =
      (parsedOf p file source).parsed.filter (identityOf · "ip" = ip) := by
    unfold parsedOf
    dsimp only
    rw [List.filter_filterMap, List.filter_filterMap, h.columns]
    exact filterMap_of_others h.length h.others (fun row hr => hnone row (hrow row hr))
      fun row hr => hnone row (hrow' row hr)
  rw [recordsAt_resultOf, recordsAt_resultOf, hparsed]

/-- The schema check has one outcome for both files. -/
theorem Differ.schemaError {i : ℕ} {file file' : File} (h : Differ p i file file') :
    schemaError p file = none ↔ schemaError p file' = none := by
  rw [schemaError_eq_none, schemaError_eq_none, h.columns]
  constructor
  · intro hall row' hmem
    obtain ⟨j, hj⟩ := List.mem_iff_getElem?.mp hmem
    by_cases hji : j = i
    · subst hji
      have hlt : j < file.rows.length := by
        rw [← h.length]
        exact (List.getElem?_eq_some_iff.mp hj).1
      have hrow : file.rows[j]? = some file.rows[j] := List.getElem?_eq_getElem hlt
      exact (h.schema _ hrow _ hj).mp (hall _ (List.getElem_mem hlt))
    · rw [h.others j hji] at hj
      exact hall row' (List.mem_iff_getElem?.mpr ⟨j, hj⟩)
  · intro hall row hmem
    obtain ⟨j, hj⟩ := List.mem_iff_getElem?.mp hmem
    by_cases hji : j = i
    · subst hji
      have hlt : j < file'.rows.length := by
        rw [h.length]
        exact (List.getElem?_eq_some_iff.mp hj).1
      have hrow : file'.rows[j]? = some file'.rows[j] := List.getElem?_eq_getElem hlt
      exact (h.schema _ hj _ hrow).mpr (hall _ (List.getElem_mem hlt))
    · rw [← h.others j hji] at hj
      exact hall row (List.mem_iff_getElem?.mpr ⟨j, hj⟩)

/-! ### What is kept -/

/-- What `parse` returned of a text with a file. -/
theorem recordsAt_of_parse {text source : String} {file : File} {result : Result}
    (hfile : structureOf p text = .ok file) (hparse : parse p text source = .ok result)
    (ip : String) :
    recordsAt ip result =
      if schemaError p file = none then recordsAt ip (resultOf p file source) else [] := by
  unfold parse at hparse
  rw [hfile] at hparse
  dsimp only at hparse
  cases hschema : schemaError p file with
  | some reason =>
    rw [hschema] at hparse
    obtain rfl := Except.ok.inj hparse
    rw [if_neg (by simp)]
    rfl
  | none =>
    rw [hschema] at hparse
    rw [if_pos rfl, (parseFile_returns file source).eq_of_ok hparse]

/-- **The rows of two texts are contained exactly when neither has a row at which `parse`
    throws.** -/
theorem rowsContained_iff (p : Platform) (source : String) (i : ℕ) (text text' : String) :
    RowsContained p source i text text' ↔ ∀ t ∈ [text, text'], ¬ Overflowing p t := by
  constructor
  · intro h t ht
    obtain ⟨result, hparse, -⟩ := h.accounted t ht
    obtain ⟨_, hreturns, -⟩ := parse_returns (p := p) t source
    exact hreturns.returns_iff.mp ⟨result, hparse⟩
  · intro h
    refine ⟨fun t ht => ?_, fun file file' result result' hfile hfile' hdiffer hparse hparse' => ?_⟩
    · obtain ⟨result, hreturns, hresult⟩ := parse_returns (p := p) t source
      refine ⟨result, hreturns.returns (h t ht), fun file hfile => ?_⟩
      rw [hresult file hfile]
      exact accounted_resultOf file source
    · -- the records of an address that the changed row does not have are the same
      have hsame : ∀ ip, (∀ row ∈ file.rows[i]?, address p file.columns row ≠ some ip) →
          (∀ row ∈ file'.rows[i]?, address p file.columns row ≠ some ip) →
          recordsAt ip result = recordsAt ip result' := by
        intro ip hrow hrow'
        rw [recordsAt_of_parse hfile hparse, recordsAt_of_parse hfile' hparse']
        by_cases hschema : schemaError p file = none
        · rw [if_pos hschema, if_pos (hdiffer.schemaError.mp hschema),
            recordsAt_of_differ hdiffer source hrow hrow']
        · rw [if_neg hschema, if_neg (mt hdiffer.schemaError.mpr hschema)]
      intro j _ row _ hother
      refine ⟨?_, fun ip haddress => hsame ip (hother ip haddress).1 (hother ip haddress).2⟩
      constructor
      · rintro ⟨hverdict, ip, haddress, hne⟩
        refine ⟨hverdict, ip, haddress, ?_⟩
        rwa [← hsame ip (hother ip haddress).1 (hother ip haddress).2]
      · rintro ⟨hverdict, ip, haddress, hne⟩
        refine ⟨hverdict, ip, haddress, ?_⟩
        rwa [hsame ip (hother ip haddress).1 (hother ip haddress).2]

/-- Two servers, and the same file with a host name that reads as an address with a port. -/
def plainText : String :=
  "HostName,IP,schema_version,SourceTag\nvpn1.example,1.2.3.4,1.0,merged\n" ++
    "vpn2.example,5.6.7.8,1.0,merged\n"

/-- A file whose first host name is a number that no `Int` holds. -/
def longText : String :=
  "HostName,IP,schema_version,SourceTag\n99999999999.1.1.1:443,1.2.3.4,1.0,merged\n" ++
    "vpn2.example,5.6.7.8,1.0,merged\n"

/-- **One row takes the whole file down**: its host name is a number too long. -/
theorem rows_not_contained :
    ¬ RowsContained Platform.plain SOURCE_TAG 0 plainText longText := by
  have hthrows : (parse Platform.plain longText SOURCE_TAG).isOk = false := by decide +kernel
  intro h
  obtain ⟨result, hparse, -⟩ := h.accounted longText (by simp)
  rw [hparse] at hthrows
  cases hthrows

end SoftEther.Parser.EmergencyCsvParser
