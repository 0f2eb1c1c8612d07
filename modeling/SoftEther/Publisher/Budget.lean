import SoftEther.Lib.Bisection
import SoftEther.Publisher.Run

namespace SoftEther.Publisher

open Std SoftEther.Lib

/-!
# The size budget (`fit_budget`)

The app reads no more than a certain number of bytes, most of which are the embedded profiles. The
rows are ranked, written without their profiles, and the profiles are put back while they fit.
Rows are objects: the caller's are copied, and the copies are written to.

* `bestFirst`, `byteLength` — the rank of a row, and the bytes of a file;
* `Heap`, `fitBudget` — the objects of a run, and the function of the source;
* `IsPublisherRow`, `byteLength_renderCsv` — a profile adds its length to the file;
* `FitsBudget` — the best rows, with the profiles that fit, best-ranked first;
* `fitBudget_fits` — this is what `fit_budget` returns.
-/

/-! ### Ranks and bytes -/

/-- `len(text.encode("utf-8"))`. -/
def byteLength (text : Text) : ℕ := (text.map Char.utf8Size).sum

/-- `row["OpenVPN_ConfigData_Base64"]`. -/
def Row.config (row : Row) : Text := row.text .OpenVPN_ConfigData_Base64

/-- `row["OpenVPN_ConfigData_Base64"] = cfg`. -/
def Row.withConfig (row : Row) (cfg : Text) : Row :=
  { row with text := Function.update row.text .OpenVPN_ConfigData_Base64 cfg }

/-- `seen` of `rank_key`. -/
def lastSeen (row : Row) : ℤ :=
  match row.int .LastSeenAt with
  | some seen => seen
  | none => (row.int .FirstSeenAt).getD 0

/-- The reversed order of `rank_key`. -/
def bestFirst : Row → Row → Ordering :=
  compareLex (compareByDescending protocolCount) <|
  compareLex (compareByDescending lastSeen) <|
  compareLex (compareByDescending fun r => (r.int .Score).getD (-1))
    (compareByDescending fun r => r.text .IP)

instance : TransCmp bestFirst := by
  unfold bestFirst
  infer_instance

/-- Rows of one rank have one address. -/
theorem ip_eq_of_bestFirst {a b : Row} (h : bestFirst a b = .eq) : a.text .IP = b.text .IP := by
  simp only [bestFirst, compareLex_eq_eq, compareByDescending] at h
  exact (LawfulEqOrd.compare_eq_iff_eq.mp h.2.2.2).symm

/-! ### The objects of a run -/

/-- The row objects, at their addresses. -/
abbrev Heap := List Row

/-- What stands at some addresses. -/
def Heap.rowsAt (heap : Heap) (rows : List ℕ) : List Row := rows.filterMap fun r => heap[r]?

/-- One turn of the last loop of `fit_budget`; the state is the heap, `remaining` and
`restored`. -/
def restore (state : Heap × ℤ × ℕ) (turn : ℕ × Text) : Heap × ℤ × ℕ :=
  let (heap, remaining, restored) := state
  let (r, cfg) := turn
  if cfg ≠ [] ∧ (cfg.length : ℤ) ≤ remaining then
    (heap.modify r (·.withConfig cfg), remaining - cfg.length, restored + 1)
  else state

/-- What `fit_budget` leaves behind. -/
structure Fitted where
  heap : Heap
  rows : List ℕ
  configsKept : ℕ
  configsStripped : ℤ

/-- `fit_budget`; the copies are made in their sorted order. -/
def fitBudget (heap : Heap) (rows : List ℕ) (maxBytes : ℤ) : Fitted :=
  let ranked := sortedWith bestFirst (heap.rowsAt rows)
  let configs := ranked.map Row.config
  -- the rows without profiles are new objects, behind those of the caller
  let copies := List.range' heap.length ranked.length
  let heap := heap ++ ranked.map (·.withConfig [])
  let lo := lastFitting
    (fun n => decide ((byteLength (renderCsv (heap.rowsAt (copies.take n))) : ℤ) ≤ maxBytes))
    0 ranked.length
  let kept := copies.take lo
  let remaining := maxBytes - byteLength (renderCsv (heap.rowsAt kept))
  -- the better rows get their profiles back first
  let (heap, _, restored) := (kept.zip (configs.take lo)).foldl restore (heap, remaining, 0)
  let withCfg := (configs.take lo).countP (· ≠ [])
  ⟨heap, kept, restored, withCfg - restored⟩

/-! ### What a row adds to the file -/

variable (py : Python)

/-- `base64.b64decode(value, validate=True)` accepts the characters of its alphabet only. -/
def Python.ValidatesAlphabet : Prop :=
  ∀ s, py.decodesBase64 s = true → ∀ c ∈ s, c.isAlphanum = true ∨ c = '+' ∨ c = '/' ∨ c = '='

/-- **A row of the publisher**: its profile is what `sanitize_row` lets through. -/
def IsPublisherRow (row : Row) : Prop := py.validBase64 row.config = true ∨ row.config = []

variable {py}

theorem byteLength_append (a b : Text) : byteLength (a ++ b) = byteLength a + byteLength b := by
  simp [byteLength]

/-- An ASCII text has a byte for each character. -/
theorem byteLength_of_ascii {s : Text} (h : ∀ c ∈ s, c.toNat < 128) : byteLength s = s.length := by
  induction s with
  | nil => rfl
  | cons c s ih =>
    obtain ⟨hc, hs⟩ := List.forall_mem_cons.mp h
    have hsize : c.utf8Size = 1 := by
      rw [Char.utf8Size_eq_one_iff, UInt32.le_iff_toNat_le]
      exact Nat.le_of_lt_succ hc
    have hrest := ih hs
    simp only [byteLength, List.map_cons, List.sum_cons, hsize, List.length_cons] at hrest ⊢
    omega

/-- The bytes of a line: its fields, the commas between them and the line feed. -/
theorem byteLength_writeRow {fields : List Text} (hne : fields ≠ []) (hone : fields ≠ [[]]) :
    byteLength (writeRow fields) =
      (fields.map fun f => byteLength (writeField f)).sum + fields.length := by
  have hcomma : byteLength [','] = 1 := by decide
  have hjoined : ∀ (f : Text) (rest : List Text),
      byteLength ([','].intercalate ((f :: rest).map writeField)) =
        ((f :: rest).map fun f => byteLength (writeField f)).sum + rest.length := by
    intro f rest
    induction rest generalizing f with
    | nil => simp [List.intercalate]
    | cons g rest ih =>
      have hnext := ih g
      rw [List.map_cons, List.map_cons, List.intercalate_cons_cons, byteLength_append,
        byteLength_append, ← List.map_cons, hnext, hcomma]
      simp only [List.map_cons, List.sum_cons, List.length_cons]
      omega
  obtain ⟨f, rest, rfl⟩ := List.exists_cons_of_ne_nil hne
  have hbreak : byteLength ['\n'] = 1 := by decide
  rw [writeRow, if_neg hone, byteLength_append, hjoined, hbreak, List.length_cons]
  omega

/-- The bytes of a row in the file. -/
def Row.width (row : Row) : ℕ := byteLength (writeRow row.cells)

theorem byteLength_flatMap (rows : List (List Text)) :
    byteLength (writeRows rows) = (rows.map fun fields => byteLength (writeRow fields)).sum := by
  induction rows with
  | nil => rfl
  | cons fields rows ih =>
    rw [writeRows, List.flatMap_cons, byteLength_append, List.map_cons, List.sum_cons, ← ih]
    rfl

theorem byteLength_renderCsv (rows : List Row) :
    byteLength (renderCsv rows) = byteLength (writeRow header) + (rows.map Row.width).sum := by
  rw [renderCsv, byteLength_flatMap, List.map_cons, List.sum_cons, List.map_map]
  rfl

@[simp] theorem withConfig_config (row : Row) (cfg : Text) : (row.withConfig cfg).config = cfg := by
  simp [Row.withConfig, Row.config]

@[simp] theorem withConfig_withConfig (row : Row) (cfg cfg' : Text) :
    (row.withConfig cfg).withConfig cfg' = row.withConfig cfg' := by
  simp [Row.withConfig]

@[simp] theorem withConfig_self (row : Row) : row.withConfig row.config = row := by
  simp [Row.withConfig, Row.config]

theorem stripped_stripped (rows : List Row) :
    (rows.map (·.withConfig [])).map (·.withConfig []) = rows.map (·.withConfig []) := by
  simp [Function.comp_def]

theorem cell_withConfig (row : Row) (cfg : Text) {c : Column}
    (hc : c ≠ .text .OpenVPN_ConfigData_Base64) : (row.withConfig cfg).cell c = row.cell c := by
  cases c with
  | text c =>
    have hc' : c ≠ .OpenVPN_ConfigData_Base64 := fun h => hc (by rw [h])
    simp [Row.withConfig, Row.cell, Function.update_of_ne hc']
  | int c => rfl
  | port c => rfl
  | flag c => rfl
  | schema_version => rfl
  | SourceTag => rfl

/-- The characters of Base64 are not quoted and take a byte. -/
theorem plain_of_base64 {c : Char} (h : c.isAlphanum = true ∨ c = '+' ∨ c = '/' ∨ c = '=') :
    isSpecial c = false ∧ c.toNat < 128 := by
  rcases h with h | rfl | rfl | rfl
  · have hrange : 48 ≤ c.toNat ∧ c.toNat < 128 := by
      have hkind : ((c.isUpper || c.isLower) || c.isDigit) = true := h
      rw [Bool.or_eq_true, Bool.or_eq_true] at hkind
      rcases hkind with (hupper | hlower) | hdigit
      · have hcodes : 65 ≤ c.val ∧ c.val ≤ 90 := of_decide_eq_true hupper
        have hlow : 65 ≤ c.toNat := hcodes.1
        have hhigh : c.toNat ≤ 90 := hcodes.2
        omega
      · obtain ⟨habove, hbelow⟩ := (Bool.and_eq_true _ _).mp hlower
        have hlow : 97 ≤ c.toNat := of_decide_eq_true habove
        have hhigh : c.toNat ≤ 122 := of_decide_eq_true hbelow
        omega
      · have hlow : 48 ≤ c.toNat := (Char.isDigit_iff_toNat.mp hdigit).1
        have hhigh : c.toNat ≤ 57 := (Char.isDigit_iff_toNat.mp hdigit).2
        omega
    have hne : ∀ d : Char, d.toNat < 48 → c ≠ d := by
      rintro d hd rfl
      omega
    refine ⟨?_, hrange.2⟩
    rw [isSpecial_eq_false]
    refine ⟨hne ',' (by decide), hne '"' (by decide), ?_⟩
    simp [isBreak, hne '\n' (by decide), hne '\r' (by decide)]
  · decide
  · decide
  · decide

variable {row : Row} {rows ranked : List Row} {remaining maxBytes : ℤ}

/-- A profile is written as it is, a byte for each character. -/
theorem byteLength_config (hpy : py.ValidatesAlphabet) (h : IsPublisherRow py row) :
    byteLength (writeField row.config) = row.config.length := by
  have halphabet : ∀ c ∈ row.config, c.isAlphanum = true ∨ c = '+' ∨ c = '/' ∨ c = '=' := by
    rcases h with hvalid | hnil
    · exact hpy _ (Bool.and_eq_true_iff.mp hvalid).2
    · rw [hnil]
      exact fun c hc => absurd hc List.not_mem_nil
  have hplain : ∀ c ∈ row.config, isSpecial c = false ∧ c.toNat < 128 := fun c hc =>
    plain_of_base64 (halphabet c hc)
  have hany : row.config.any isSpecial = false := by
    rw [List.any_eq_false]
    exact fun c hc => by simp [(hplain c hc).1]
  rw [writeField, if_neg (by simp [hany]), byteLength_of_ascii fun c hc => (hplain c hc).2]

/-- **A profile adds its length** to the bytes of its row. -/
theorem width_eq (hpy : py.ValidatesAlphabet) (h : IsPublisherRow py row) :
    row.width = (row.withConfig []).width + row.config.length := by
  -- the columns before and behind that of the profile
  obtain ⟨before, behind, hcolumns, hbefore, hbehind⟩ : ∃ before behind,
      COLUMNS = before ++ .text .OpenVPN_ConfigData_Base64 :: behind ∧
        (∀ c ∈ before, c ≠ .text .OpenVPN_ConfigData_Base64) ∧
        ∀ c ∈ behind, c ≠ .text .OpenVPN_ConfigData_Base64 :=
    ⟨COLUMNS.take 14, COLUMNS.drop 15, by decide, by decide, by decide⟩
  have hlong : ∀ row : Row, row.cells ≠ [] ∧ row.cells ≠ [[]] := by
    intro row
    constructor <;> intro hcells <;> simpa [Row.cells, COLUMNS] using congrArg List.length hcells
  have hsum : ∀ row : Row, (row.cells.map fun f => byteLength (writeField f)).sum =
      (before.map fun c => byteLength (writeField (row.cell c))).sum +
        (byteLength (writeField row.config) +
          (behind.map fun c => byteLength (writeField (row.cell c))).sum) := by
    intro row
    rw [Row.cells, hcolumns]
    simp [Row.cell, Row.config, Function.comp_def]
  have hsame : ∀ columns : List Column, (∀ c ∈ columns, c ≠ .text .OpenVPN_ConfigData_Base64) →
      (columns.map fun c => byteLength (writeField ((row.withConfig []).cell c))) =
        columns.map fun c => byteLength (writeField (row.cell c)) :=
    fun columns hc => List.map_congr_left fun c hmem => by rw [cell_withConfig row [] (hc c hmem)]
  have hempty : byteLength (writeField (row.withConfig []).config) = 0 := by
    rw [withConfig_config]
    rfl
  have hlength : (row.withConfig []).cells.length = row.cells.length := by simp [Row.cells]
  rw [Row.width, Row.width, byteLength_writeRow (hlong row).1 (hlong row).2,
    byteLength_writeRow (hlong _).1 (hlong _).2, hsum, hsum, hsame before hbefore,
    hsame behind hbehind, hempty, byteLength_config hpy h, hlength]
  omega

/-- The bytes of the profiles. -/
def configBytes (rows : List Row) : ℕ := (rows.map fun row => row.config.length).sum

@[simp] theorem configBytes_nil : configBytes [] = 0 := rfl

@[simp] theorem configBytes_cons (row : Row) (rows : List Row) :
    configBytes (row :: rows) = row.config.length + configBytes rows := by
  simp [configBytes]

theorem configBytes_append (rows rows' : List Row) :
    configBytes (rows ++ rows') = configBytes rows + configBytes rows' := by
  simp [configBytes]

theorem configBytes_stripped (rows : List Row) : configBytes (rows.map (·.withConfig [])) = 0 := by
  simp [configBytes, Function.comp_def]

/-- The bytes of a file, and of the same file without its profiles. -/
theorem byteLength_stripped (hpy : py.ValidatesAlphabet) (h : ∀ row ∈ rows, IsPublisherRow py row) :
    byteLength (renderCsv rows) =
      byteLength (renderCsv (rows.map (·.withConfig []))) + configBytes rows := by
  have hsum : (rows.map Row.width).sum =
      ((rows.map (·.withConfig [])).map Row.width).sum + configBytes rows := by
    induction rows with
    | nil => rfl
    | cons row rows ih =>
      obtain ⟨hrow, hrows⟩ := List.forall_mem_cons.mp h
      have hwidth := width_eq hpy hrow
      have hrest := ih hrows
      simp only [List.map_cons, List.sum_cons, configBytes_cons]
      omega
  rw [byteLength_renderCsv, byteLength_renderCsv, hsum, Nat.add_assoc]

/-! ### The profiles that are put back -/

/-- The rows as they are when the last loop is done. -/
def refilled : ℤ → List Row → List Row
  | _, [] => []
  | remaining, row :: rows =>
    if row.config ≠ [] ∧ (row.config.length : ℤ) ≤ remaining then
      row :: refilled (remaining - row.config.length) rows
    else row.withConfig [] :: refilled remaining rows

@[simp] theorem length_refilled (remaining : ℤ) (rows : List Row) :
    (refilled remaining rows).length = rows.length := by
  induction rows generalizing remaining with
  | nil => rfl
  | cons row rows ih =>
    unfold refilled
    split_ifs <;> simp [ih]

/-- Up to their profiles the rows stay what they are. -/
theorem refilled_stripped (remaining : ℤ) (rows : List Row) :
    (refilled remaining rows).map (·.withConfig []) = rows.map (·.withConfig []) := by
  induction rows generalizing remaining with
  | nil => rfl
  | cons row rows ih =>
    unfold refilled
    split_ifs <;> simp [ih]

/-- The profiles that are put back fit. -/
theorem sum_refilled_le (h : 0 ≤ remaining) (rows : List Row) :
    ((configBytes (refilled remaining rows) : ℕ) : ℤ) ≤ remaining := by
  induction rows generalizing remaining with
  | nil => simpa [refilled, configBytes] using h
  | cons row rows ih =>
    unfold refilled
    split_ifs with hfits
    · have hroom : 0 ≤ remaining - row.config.length := by omega
      have hrest := ih hroom
      rw [configBytes_cons]
      omega
    · have hrest := ih h
      rw [configBytes_cons, withConfig_config, List.length_nil]
      omega

/-- **A profile is put back exactly when it fits** behind those that were put back before it. -/
theorem refilled_getElem? (remaining : ℤ) (rows : List Row) {i : ℕ} (hi : rows[i]? = some row) :
    (refilled remaining rows)[i]? =
      some (if (configBytes ((refilled remaining rows).take i) : ℤ) + row.config.length ≤ remaining
        then row else row.withConfig []) := by
  induction rows generalizing remaining i with
  | nil => simp at hi
  | cons first rows ih =>
    cases i with
    | zero =>
      rw [List.getElem?_cons_zero, Option.some_inj] at hi
      subst hi
      have hnil : first.config = [] → first.withConfig [] = first := by
        intro h
        rw [← h, withConfig_self]
      unfold refilled
      split_ifs with hfits hall hall
      · rfl
      · exact absurd (by simpa using hfits.2) hall
      · -- a row without a profile is as good with it as without it
        rw [List.getElem?_cons_zero, hnil]
        by_contra hne
        exact hfits ⟨hne, by simpa using hall⟩
      · rfl
    | succ i =>
      rw [List.getElem?_cons_succ] at hi
      unfold refilled
      split_ifs with hfits hall hall
      all_goals
        rw [List.getElem?_cons_succ, ih _ hi]
        rw [List.take_succ_cons, configBytes_cons] at hall
      · rw [if_pos (by omega)]
      · rw [if_neg (by omega)]
      · rw [if_pos (by simp at hall; omega)]
      · rw [if_neg (by simp at hall; omega)]

/-- A turn of the last loop, at the place of its copy. -/
theorem restore_append (front behind : List Row) (row : Row) (remaining : ℤ) (n : ℕ) :
    restore (front ++ row.withConfig [] :: behind, remaining, n) (front.length, row.config) =
      if row.config ≠ [] ∧ (row.config.length : ℤ) ≤ remaining then
        (front ++ row :: behind, remaining - row.config.length, n + 1)
      else (front ++ row.withConfig [] :: behind, remaining, n) := by
  have hmodify : (front ++ row.withConfig [] :: behind).modify front.length
      (·.withConfig row.config) = front ++ row :: behind := by
    induction front with
    | nil => simp
    | cons first front ih => simpa using ih
  unfold restore
  simp only [hmodify]

/-- The last loop, over copies that stand side by side. -/
theorem foldl_restore (front behind : List Row) (rows : List Row) (remaining : ℤ) (n : ℕ) :
    ((List.range' front.length rows.length).zip (rows.map Row.config)).foldl restore
        (front ++ (rows.map (·.withConfig []) ++ behind), remaining, n) =
      (front ++ (refilled remaining rows ++ behind),
        remaining - configBytes (refilled remaining rows),
        n + (refilled remaining rows).countP (·.config ≠ [])) := by
  induction rows generalizing front remaining n with
  | nil => simp [refilled]
  | cons row rows ih =>
    rw [List.length_cons, List.range'_succ, List.map_cons (f := Row.config), List.zip_cons_cons,
      List.foldl_cons, List.map_cons, List.cons_append]
    unfold refilled
    by_cases hfits : row.config ≠ [] ∧ (row.config.length : ℤ) ≤ remaining
    · have hrest := ih (front ++ [row]) (remaining - row.config.length) (n + 1)
      rw [List.length_append, List.length_singleton, List.append_assoc, List.singleton_append]
        at hrest
      rw [restore_append, if_pos hfits, if_pos hfits, hrest]
      simp [hfits.1, sub_sub, Nat.add_assoc, Nat.add_comm]
    · have hrest := ih (front ++ [row.withConfig []]) remaining n
      rw [List.length_append, List.length_singleton, List.append_assoc, List.singleton_append]
        at hrest
      rw [restore_append, if_neg hfits, if_neg hfits, hrest]
      simp

theorem isPublisherRow_refilled (h : ∀ row ∈ rows, IsPublisherRow py row) :
    ∀ row ∈ refilled remaining rows, IsPublisherRow py row := by
  induction rows generalizing remaining with
  | nil => exact h
  | cons first rows ih =>
    obtain ⟨hfirst, hrows⟩ := List.forall_mem_cons.mp h
    unfold refilled
    split_ifs
    · exact List.forall_mem_cons.mpr ⟨hfirst, ih hrows⟩
    · exact List.forall_mem_cons.mpr ⟨Or.inr (withConfig_config first []), ih hrows⟩

/-! ### What `fit_budget` returns -/

/-- What stands at addresses side by side. -/
theorem rowsAt_range' (front rows behind : List Row) :
    Heap.rowsAt (front ++ (rows ++ behind)) (List.range' front.length rows.length) = rows := by
  induction rows generalizing front with
  | nil => rfl
  | cons row rows ih =>
    have hrest := ih (front ++ [row])
    rw [List.length_append, List.length_singleton, List.append_assoc, List.singleton_append]
      at hrest
    have hread : (front ++ (row :: rows ++ behind))[front.length]? = some row := by simp
    rw [List.length_cons, List.range'_succ, Heap.rowsAt, List.filterMap_cons_some hread]
    exact congrArg (row :: ·) hrest

section Fit

variable (ranked : List Row) (maxBytes : ℤ)

/-- The bytes of the first `n` rows without their profiles. -/
def strippedBytes (n : ℕ) : ℤ :=
  byteLength (renderCsv ((ranked.take n).map (·.withConfig [])))

/-- How many rows are kept. -/
def keptCount : ℕ :=
  lastFitting (fun n => decide (strippedBytes ranked n ≤ maxBytes)) 0 ranked.length

/-- The rows that are returned. -/
def returned : List Row :=
  refilled (maxBytes - strippedBytes ranked (keptCount ranked maxBytes))
    (ranked.take (keptCount ranked maxBytes))

end Fit

/-- `fit_budget`, without the heap in between. -/
theorem fitBudget_eq (heap : Heap) (rows : List ℕ) (maxBytes : ℤ) (ranked : List Row)
    (hranked : ranked = sortedWith bestFirst (heap.rowsAt rows))
    (hkept : keptCount ranked maxBytes ≤ ranked.length) :
    fitBudget heap rows maxBytes =
      ⟨heap ++ (returned ranked maxBytes ++
          (ranked.drop (keptCount ranked maxBytes)).map (·.withConfig [])),
        List.range' heap.length (keptCount ranked maxBytes),
        (returned ranked maxBytes).countP (·.config ≠ []),
        ((ranked.take (keptCount ranked maxBytes)).countP (·.config ≠ []) : ℤ) -
          (returned ranked maxBytes).countP (·.config ≠ [])⟩ := by
  have hcopies : ∀ n, Heap.rowsAt (heap ++ ranked.map (·.withConfig []))
      ((List.range' heap.length ranked.length).take n) =
        (ranked.take n).map (·.withConfig []) := by
    intro n
    have hsplit : ranked.map (·.withConfig []) =
        (ranked.take n).map (·.withConfig []) ++ (ranked.drop n).map (·.withConfig []) := by
      rw [← List.map_append, List.take_append_drop]
    have htake : (List.range' heap.length ranked.length).take n =
        List.range' heap.length ((ranked.take n).map (·.withConfig [])).length := by
      rw [List.length_map, List.length_take]
      rcases le_total n ranked.length with hle | hle
      · rw [List.take_range'_of_length_ge hle, min_eq_left hle]
      · rw [List.take_range'_of_length_le hle, min_eq_right hle]
    rw [htake, hsplit]
    exact rowsAt_range' heap _ _
  have hlen : (ranked.take (keptCount ranked maxBytes)).length = keptCount ranked maxBytes := by
    rw [List.length_take, min_eq_left hkept]
  have hkeptCopies : (List.range' heap.length ranked.length).take (keptCount ranked maxBytes) =
      List.range' heap.length (ranked.take (keptCount ranked maxBytes)).length := by
    rw [List.take_range'_of_length_ge hkept, hlen]
  have hsplit : ranked.map (·.withConfig []) =
      (ranked.take (keptCount ranked maxBytes)).map (·.withConfig []) ++
        (ranked.drop (keptCount ranked maxBytes)).map (·.withConfig []) := by
    rw [← List.map_append, List.take_append_drop]
  have hsearch : lastFitting (fun n => decide ((byteLength (renderCsv (Heap.rowsAt
      (heap ++ ranked.map (·.withConfig [])) ((List.range' heap.length ranked.length).take n))) : ℤ)
        ≤ maxBytes)) 0 ranked.length = keptCount ranked maxBytes := by
    simp only [hcopies]
    rfl
  unfold fitBudget
  simp only [← hranked]
  rw [hsearch, hcopies, hkeptCopies, ← List.map_take, hsplit, foldl_restore]
  simp only [hlen, Nat.zero_add, List.countP_map]
  rfl

theorem strippedBytes_mono (ranked : List Row) {m n : ℕ} (h : m ≤ n) :
    strippedBytes ranked m ≤ strippedBytes ranked n := by
  have hcut : ranked.take n = ranked.take m ++ (ranked.take n).drop m := by
    have happend := List.take_append_drop m (ranked.take n)
    rw [List.take_take, min_eq_left h] at happend
    exact happend.symm
  unfold strippedBytes
  rw [hcut, byteLength_renderCsv, byteLength_renderCsv, List.map_append, List.map_append,
    List.sum_append]
  simp only [Nat.cast_add]
  omega

theorem mem_refilled {r : Row} (h : r ∈ refilled remaining rows) :
    ∃ row ∈ rows, ∃ cfg, r = row.withConfig cfg := by
  induction rows generalizing remaining with
  | nil => exact absurd h List.not_mem_nil
  | cons first rows ih =>
    unfold refilled at h
    split_ifs at h
    all_goals rcases List.mem_cons.mp h with rfl | hrest
    · exact ⟨r, List.mem_cons_self, r.config, (withConfig_self r).symm⟩
    · obtain ⟨row, hrow, hr⟩ := ih hrest
      exact ⟨row, List.mem_cons_of_mem first hrow, hr⟩
    · exact ⟨first, List.mem_cons_self, [], rfl⟩
    · obtain ⟨row, hrow, hr⟩ := ih hrest
      exact ⟨row, List.mem_cons_of_mem first hrow, hr⟩

/-- Under any budget, what is returned is a row of the caller up to its profile. -/
theorem mem_fitBudget {heap : Heap} {rows : List ℕ} {r : Row}
    (h : r ∈ (fitBudget heap rows maxBytes).heap.rowsAt (fitBudget heap rows maxBytes).rows) :
    ∃ row ∈ heap.rowsAt rows, ∃ cfg, r = row.withConfig cfg := by
  have hcount : keptCount (sortedWith bestFirst (heap.rowsAt rows)) maxBytes ≤
      (sortedWith bestFirst (heap.rowsAt rows)).length := lastFitting_le _ (Nat.zero_le _)
  have hlength : (returned (sortedWith bestFirst (heap.rowsAt rows)) maxBytes).length =
      keptCount (sortedWith bestFirst (heap.rowsAt rows)) maxBytes := by
    rw [returned, length_refilled, List.length_take, min_eq_left hcount]
  rw [fitBudget_eq heap rows maxBytes _ rfl hcount, ← hlength, rowsAt_range'] at h
  obtain ⟨row, hrow, hr⟩ := mem_refilled h
  exact ⟨row, (sortedWith_perm _ _).mem_iff.mp (List.mem_of_mem_take hrow), hr⟩

/-- As many rows are kept as fit without their profiles. -/
theorem keptCount_spec (ranked : List Row)
    (hheader : (byteLength (writeRow header) : ℤ) ≤ maxBytes) :
    keptCount ranked maxBytes ≤ ranked.length ∧
      strippedBytes ranked (keptCount ranked maxBytes) ≤ maxBytes ∧
      ∀ n, keptCount ranked maxBytes < n → n ≤ ranked.length →
        maxBytes < strippedBytes ranked n := by
  have hempty : strippedBytes ranked 0 = byteLength (writeRow header) := by
    rw [strippedBytes, byteLength_renderCsv, List.take_zero, List.map_nil, List.map_nil,
      List.sum_nil, Nat.add_zero]
  have hnone : decide (strippedBytes ranked 0 ≤ maxBytes) = true := by
    rw [hempty]
    exact decide_eq_true hheader
  obtain ⟨hfits, hlast⟩ := lastFitting_spec
    (fun m n hmn hn => decide_eq_true
      ((strippedBytes_mono ranked hmn).trans (of_decide_eq_true hn)))
    (Nat.zero_le ranked.length) hnone
  refine ⟨lastFitting_le _ (Nat.zero_le _), of_decide_eq_true hfits, ?_⟩
  intro n hn hle
  exact lt_of_not_ge (of_decide_eq_false (hlast n hn hle))

/-- **The best rows, with the profiles that fit.** The objects of the caller are left alone. The
    rows that are returned are copies of the best-ranked ones, as many as fit without their
    profiles; with the profiles that were put back they fit as well. A row has its profile exactly
    when it fits behind the profiles of the rows before it. -/
structure FitsBudget (heap : Heap) (ranked : List Row) (maxBytes : ℤ) (out : Fitted) : Prop where
  untouched : out.heap.take heap.length = heap
  copied : ∀ r ∈ out.rows, heap.length ≤ r ∧ r < out.heap.length
  kept : (out.heap.rowsAt out.rows).map (·.withConfig []) =
    (ranked.take out.rows.length).map (·.withConfig [])
  fits : strippedBytes ranked out.rows.length ≤ maxBytes
  longest : ∀ n, out.rows.length < n → n ≤ ranked.length → maxBytes < strippedBytes ranked n
  within : (byteLength (renderCsv (out.heap.rowsAt out.rows)) : ℤ) ≤ maxBytes
  profiles : ∀ i row, i < out.rows.length → ranked[i]? = some row →
    (out.heap.rowsAt out.rows)[i]? = some
      (if (byteLength (renderCsv ((out.heap.rowsAt out.rows).take i ++ row ::
          ((ranked.take out.rows.length).drop (i + 1)).map (·.withConfig []))) : ℤ) ≤ maxBytes
        then row else row.withConfig [])
  counts : out.configsKept = (out.heap.rowsAt out.rows).countP (·.config ≠ []) ∧
    (out.configsKept : ℤ) + out.configsStripped =
      (ranked.take out.rows.length).countP (·.config ≠ [])

theorem returned_stripped (ranked : List Row) (maxBytes : ℤ) :
    (returned ranked maxBytes).map (·.withConfig []) =
      (ranked.take (keptCount ranked maxBytes)).map (·.withConfig []) :=
  refilled_stripped _ _

theorem isPublisherRow_returned (hpublisher : ∀ row ∈ ranked, IsPublisherRow py row) :
    ∀ row ∈ returned ranked maxBytes, IsPublisherRow py row :=
  isPublisherRow_refilled fun row hrow => hpublisher row (List.mem_of_mem_take hrow)

/-- **A row has its profile exactly when the file fits** with the rows before it as they are
    returned, its profile, and no profiles behind it. -/
theorem returned_getElem? (hpy : py.ValidatesAlphabet)
    (hpublisher : ∀ row ∈ ranked, IsPublisherRow py row) {i : ℕ}
    (hi : i < keptCount ranked maxBytes) (hrow : ranked[i]? = some row) :
    (returned ranked maxBytes)[i]? = some
      (if (byteLength (renderCsv ((returned ranked maxBytes).take i ++ row ::
          ((ranked.take (keptCount ranked maxBytes)).drop (i + 1)).map (·.withConfig []))) : ℤ) ≤
            maxBytes
        then row else row.withConfig []) := by
  have hrow' : (ranked.take (keptCount ranked maxBytes))[i]? = some row := by
    rw [List.getElem?_take_of_lt hi, hrow]
  have hcut : ranked.take (keptCount ranked maxBytes) =
      (ranked.take (keptCount ranked maxBytes)).take i ++
        row :: (ranked.take (keptCount ranked maxBytes)).drop (i + 1) := by
    obtain ⟨hlt, heq⟩ := List.getElem?_eq_some_iff.mp hrow'
    rw [← heq, ← List.drop_eq_getElem_cons hlt, List.take_append_drop]
  -- without its profiles, the file in question is the one of the kept rows
  have hsame : ((returned ranked maxBytes).take i ++ row ::
      ((ranked.take (keptCount ranked maxBytes)).drop (i + 1)).map (·.withConfig [])).map
        (·.withConfig []) = (ranked.take (keptCount ranked maxBytes)).map (·.withConfig []) := by
    conv_rhs => rw [hcut]
    rw [List.map_append, List.map_take, returned_stripped, ← List.map_take, List.map_append,
      List.map_cons, List.map_cons, stripped_stripped]
  have hmixed : ∀ r ∈ (returned ranked maxBytes).take i ++ row ::
      ((ranked.take (keptCount ranked maxBytes)).drop (i + 1)).map (·.withConfig []),
      IsPublisherRow py r := by
    intro r hr
    rcases List.mem_append.mp hr with hr | hr
    · exact isPublisherRow_returned hpublisher r (List.mem_of_mem_take hr)
    · rcases List.mem_cons.mp hr with rfl | hr
      · exact hpublisher r (List.mem_of_getElem? hrow)
      · obtain ⟨r, -, rfl⟩ := List.mem_map.mp hr
        exact Or.inr (withConfig_config r [])
  have hbytes := byteLength_stripped hpy hmixed
  rw [hsame, configBytes_append, configBytes_cons, configBytes_stripped] at hbytes
  have hput := refilled_getElem?
    (maxBytes - strippedBytes ranked (keptCount ranked maxBytes)) _ hrow'
  refine hput.trans (congrArg some (if_congr ?_ rfl rfl))
  unfold strippedBytes
  rw [hbytes]
  unfold returned strippedBytes
  omega

/-- What is returned for ranked rows. -/
theorem fitsBudget_of_ranked (hpy : py.ValidatesAlphabet) (heap : Heap)
    (hpublisher : ∀ row ∈ ranked, IsPublisherRow py row)
    (hheader : (byteLength (writeRow header) : ℤ) ≤ maxBytes) {rows : List ℕ}
    (hranked : ranked = sortedWith bestFirst (heap.rowsAt rows)) :
    FitsBudget heap ranked maxBytes (fitBudget heap rows maxBytes) := by
  obtain ⟨hcount, hroom, hlast⟩ := keptCount_spec ranked hheader
  rw [fitBudget_eq heap rows maxBytes ranked hranked hcount]
  -- what is returned, and how much room there was for it
  have hlength : (returned ranked maxBytes).length = keptCount ranked maxBytes := by
    rw [returned, length_refilled, List.length_take, min_eq_left hcount]
  have hread : Heap.rowsAt (heap ++ (returned ranked maxBytes ++
      (ranked.drop (keptCount ranked maxBytes)).map (·.withConfig [])))
        (List.range' heap.length (keptCount ranked maxBytes)) = returned ranked maxBytes := by
    rw [← hlength]
    exact rowsAt_range' heap _ _
  constructor
  · exact List.take_left
  · intro r hr
    rw [List.mem_range'_1] at hr
    simp only [List.length_append, hlength]
    omega
  · simp only [hread, List.length_range']
    exact returned_stripped ranked maxBytes
  · simp only [List.length_range']
    exact hroom
  · intro n hn hle
    simp only [List.length_range'] at hn
    exact hlast n hn hle
  · simp only [hread]
    have hsum : (configBytes (returned ranked maxBytes) : ℤ) ≤
        maxBytes - strippedBytes ranked (keptCount ranked maxBytes) :=
      sum_refilled_le (by omega) _
    have hreturned : ∀ row ∈ returned ranked maxBytes, IsPublisherRow py row :=
      isPublisherRow_returned hpublisher
    have hbytes := byteLength_stripped hpy hreturned
    rw [returned_stripped] at hbytes
    unfold strippedBytes at hsum hroom
    omega
  · intro i row hi hrow
    simp only [hread, List.length_range'] at hi ⊢
    exact returned_getElem? hpy hpublisher hi hrow
  · simp only [hread, List.length_range']
    refine ⟨trivial, ?_⟩
    omega

/-- **`fit_budget` fits the budget.** For rows with addresses of their own there is one ranked
    list; the best of it are returned, with the profiles that fit. -/
theorem fitBudget_fits (hpy : py.ValidatesAlphabet) (heap : Heap) (rows : List ℕ) (maxBytes : ℤ)
    (hrefs : ∀ r ∈ rows, r < heap.length)
    (hpublisher : ∀ row ∈ heap.rowsAt rows, IsPublisherRow py row)
    (hdistinct : UniqueBy (fun row => row.text .IP) (heap.rowsAt rows))
    (hheader : (byteLength (writeRow header) : ℤ) ≤ maxBytes) :
    ∃ ranked : List Row, ranked.length = rows.length ∧ ranked.Perm (heap.rowsAt rows) ∧
      ranked.Pairwise (fun a b => bestFirst a b = .lt) ∧
      FitsBudget heap ranked maxBytes (fitBudget heap rows maxBytes) := by
  have hperm := sortedWith_perm bestFirst (heap.rowsAt rows)
  refine ⟨sortedWith bestFirst (heap.rowsAt rows), ?_, hperm, ?_, ?_⟩
  · rw [hperm.length_eq, Heap.rowsAt, List.length_filterMap_eq_countP, List.countP_eq_length]
    intro r hr
    simp [List.getElem?_eq_getElem (hrefs r hr)]
  · have hne : (sortedWith bestFirst (heap.rowsAt rows)).Pairwise
        fun a b => a.text .IP ≠ b.text .IP := List.pairwise_map.mp (hdistinct.perm hperm.symm)
    refine ((sortedWith_pairwise bestFirst (heap.rowsAt rows)).and hne).imp ?_
    rintro a b ⟨hle, hip⟩
    cases hcmp : bestFirst a b with
    | lt => rfl
    | eq => exact absurd (ip_eq_of_bestFirst hcmp) hip
    | gt => simp [hcmp] at hle
  · exact fitsBudget_of_ranked hpy heap
      (fun row hrow => hpublisher row (hperm.mem_iff.mp hrow)) hheader rfl

/-! ### A profile that does not fit -/

theorem groups_validatesAlphabet : Python.groups.ValidatesAlphabet := by
  intro s hs c hc
  have hall := List.all_eq_true.mp (Bool.and_eq_true_iff.mp hs).1 c hc
  simp only [Bool.or_eq_true, decide_eq_true_eq, or_assoc] at hall
  exact hall.imp_right (Or.imp_right Or.inl)

/-- Two servers with their profiles. -/
def profiledServers : Heap :=
  [(vpn1 "5.5.5.5".toList false).withConfig "QUJD".toList,
    (vpn1 "5.5.5.6".toList true).withConfig "QUJDREVG".toList]

set_option maxRecDepth 4000 in
/-- The two servers fit, with the shorter one of their profiles. -/
theorem fitBudget_fits_profiledServers :
    ∃ ranked : List Row, ranked.length = 2 ∧ ranked.Perm (profiledServers.rowsAt [0, 1]) ∧
      ranked.Pairwise (fun a b => bestFirst a b = .lt) ∧
      FitsBudget profiledServers ranked 503 (fitBudget profiledServers [0, 1] 503) := by
  apply fitBudget_fits groups_validatesAlphabet profiledServers [0, 1] 503
  · decide
  · intro row hrow
    have hrows : profiledServers.rowsAt [0, 1] = profiledServers := rfl
    rw [hrows, profiledServers, List.mem_pair] at hrow
    left
    rcases hrow with rfl | rfl
    · decide
    · decide
  · unfold UniqueBy
    decide
  · decide

end SoftEther.Publisher
