import SoftEther.Lib.LinkedMap
import SoftEther.Lib.Transition
import SoftEther.Repository.ServerRow

namespace SoftEther.Repository

open Lib

/-!
# The imported servers (`ManualImportStore.kt`)

The imported rows live in one file. A call reads it, works out the new rows and installs them: they
go into a temporary file that is renamed over the old one, or, where that cannot be done, the old
file is set aside first.

* `ImportCall`, `ImportCall.result` — the calls, and the rows that each of them writes;
* `Files`, `Files.items` — the three files, and what `items` returns after a restart;
* `Point`, `ImportState.step` — a call as a walk from one operation on a file to the next;
* `Survives` — wherever the process stops, the rows are those from before the call or after it;
* `survives_iff` — the first holds throughout a run exactly when no operation is `Harmful`.

A file holds rows, or a text that is no list of rows; that the rows written are the rows read back
is Gson's affair.
-/

/-! ### The calls -/

/-- The loop over the items of a call, in the middle of it. -/
structure Batch where
  current : LinkedMap JavaString VPNGateItem
  added : ℕ
  updated : ℕ
  /-- how many new rows may still be added, if there is a quota -/
  slots : Option ℕ

/-- `associateByTo(LinkedHashMap()) { it.hostName.trim() }`. -/
def associateByHost (rows : List VPNGateItem) : LinkedMap JavaString VPNGateItem :=
  LinkedMap.putAll [] (rows.map fun item => (item.host, item))

/-- One item of the loop: a row without a host is passed over, and so is a new one without a
    slot. -/
def Batch.item (b : Batch) (item : VPNGateItem) : Batch :=
  if item.host = [] then b
  else if (b.current.read item.host).isSome then
    { b with current := b.current.put item.host item, updated := b.updated + 1 }
  else if b.slots = some 0 then b
  else
    { current := b.current.put item.host item
      added := b.added + 1
      updated := b.updated
      slots := b.slots.map (· - 1) }

/-- The loop. -/
def Batch.over (current items : List VPNGateItem) (slots : Option ℕ) : Batch :=
  items.foldl Batch.item ⟨associateByHost current, 0, 0, slots⟩

/-- `current.values.toList()`. -/
def Batch.rows (b : Batch) : List VPNGateItem := b.current.map Prod.snd

/-- What is asked of the store. -/
inductive ImportCall
  | add (items : List VPNGateItem)
  | addWithinQuota (items : List VPNGateItem) (allowance : ℕ)
  | remove (hostName : JavaString)
  deriving DecidableEq

/-- The rows that a call writes over the ones it read, if it writes any. -/
def ImportCall.result (call : ImportCall) (current : List VPNGateItem) :
    Option (List VPNGateItem) :=
  match call with
  | .add items => if items = [] then none else some (Batch.over current items none).rows
  | .addWithinQuota items allowance =>
    let b := Batch.over current items (some allowance)
    if b.added > 0 || b.updated > 0 then some b.rows else none
  | .remove hostName =>
    let remaining := current.filter fun item => item.host ≠ hostName.trim
    if remaining.length = current.length then none else some remaining

/-- Whether a call was asked to remove a host. -/
def ImportCall.Removes (call : ImportCall) (host : JavaString) : Prop :=
  match call with
  | .remove hostName => host = hostName.trim
  | _ => False

/-! ### What a call keeps -/

/-- The hosts of a batch only grow. -/
theorem mem_keys_item {b : Batch} {item : VPNGateItem} {host : JavaString}
    (h : host ∈ b.current.map Prod.fst) : host ∈ (b.item item).current.map Prod.fst := by
  rw [Batch.item]
  split_ifs
  · exact h
  · exact LinkedMap.mem_keys_put.mpr (Or.inr h)
  · exact h
  · exact LinkedMap.mem_keys_put.mpr (Or.inr h)

/-- Each row of a batch is under its own host. -/
theorem key_item {b : Batch} {item : VPNGateItem} (h : ∀ e ∈ b.current, e.2.host = e.1) :
    ∀ e ∈ (b.item item).current, e.2.host = e.1 := by
  have hput : ∀ e ∈ b.current.put item.host item, e.2.host = e.1 := by
    intro e he
    rcases LinkedMap.mem_of_mem_put he with rfl | hm
    · rfl
    · exact h e hm
  rw [Batch.item]
  split_ifs
  · exact h
  · exact hput
  · exact h
  · exact hput

theorem associateByHost_spec (rows : List VPNGateItem) :
    (∀ x ∈ rows, x.host ∈ (associateByHost rows).map Prod.fst) ∧
      ∀ e ∈ associateByHost rows, e.2.host = e.1 := by
  constructor
  · intro x hx
    refine LinkedMap.mem_keys_putAll.mpr (Or.inr ?_)
    simpa using ⟨x, hx, rfl⟩
  · intro e he
    rcases LinkedMap.mem_of_mem_putAll he with hnil | hrow
    · exact absurd hnil List.not_mem_nil
    · obtain ⟨x, -, rfl⟩ := List.mem_map.mp hrow
      rfl

/-- After the loop each host of the rows that were read has an entry, under its own name. -/
theorem over_spec (current items : List VPNGateItem) (slots : Option ℕ) :
    (∀ x ∈ current, x.host ∈ (Batch.over current items slots).current.map Prod.fst) ∧
      ∀ e ∈ (Batch.over current items slots).current, e.2.host = e.1 := by
  have hloop : ∀ b : Batch, (∀ x ∈ current, x.host ∈ b.current.map Prod.fst) →
      (∀ e ∈ b.current, e.2.host = e.1) →
      (∀ x ∈ current, x.host ∈ (items.foldl Batch.item b).current.map Prod.fst) ∧
        ∀ e ∈ (items.foldl Batch.item b).current, e.2.host = e.1 := by
    induction items with
    | nil => exact fun b hmem hkey => ⟨hmem, hkey⟩
    | cons item items ih =>
      intro b hmem hkey
      exact ih (b.item item) (fun x hx => mem_keys_item (hmem x hx)) (key_item hkey)
  obtain ⟨hstored, hkeys⟩ := associateByHost_spec current
  exact hloop ⟨associateByHost current, 0, 0, slots⟩ hstored hkeys

/-- **A batch loses no host.** -/
theorem exists_mem_over {current items : List VPNGateItem} {slots : Option ℕ} {x : VPNGateItem}
    (hx : x ∈ current) : ∃ y ∈ (Batch.over current items slots).rows, y.host = x.host := by
  obtain ⟨hmem, hkey⟩ := over_spec current items slots
  obtain ⟨e, he, hhost⟩ := List.mem_map.mp (hmem x hx)
  exact ⟨e.2, List.mem_map_of_mem he, (hkey e he).trans hhost⟩

/-- **What a call writes over rows keeps each of them** that it was not asked to remove. -/
theorem ImportCall.exists_mem_result {call : ImportCall} {current rows : List VPNGateItem}
    (hrows : call.result current = some rows) {x : VPNGateItem} (hx : x ∈ current)
    (hkeep : ¬ call.Removes x.host) : ∃ y ∈ rows, y.host = x.host := by
  cases call with
  | add items =>
    simp only [ImportCall.result] at hrows
    split_ifs at hrows
    obtain rfl := Option.some.inj hrows
    exact exists_mem_over hx
  | addWithinQuota items allowance =>
    simp only [ImportCall.result] at hrows
    split_ifs at hrows
    obtain rfl := Option.some.inj hrows
    exact exists_mem_over hx
  | remove hostName =>
    simp only [ImportCall.result] at hrows
    split_ifs at hrows
    obtain rfl := Option.some.inj hrows
    exact ⟨x, List.mem_filter.mpr ⟨hx, by simpa [ImportCall.Removes] using hkeep⟩, rfl⟩

/-! ### The files -/

/-- What a file holds. -/
inductive FileText
  | rows (items : List VPNGateItem)
  | other
  deriving DecidableEq

/-- The file of the store, `.tmp` and `.bak`. -/
structure Files where
  file : Option FileText
  tmp : Option FileText
  backup : Option FileText
  deriving DecidableEq

/-- What a file reads as: one that is missing or no list of rows is empty. -/
def rowsOf : Option FileText → List VPNGateItem
  | some (.rows items) => items
  | _ => []

/-- What `items` returns when nothing fails. -/
def Files.items (fs : Files) : List VPNGateItem := rowsOf fs.file

/-- Where a call is; the rows are those that it writes. -/
inductive Point
  | reading
  | makingDirectory (rows : List VPNGateItem)
  | writingTmp (rows : List VPNGateItem)
  | installing (rows : List VPNGateItem)
  | clearingBackup (rows : List VPNGateItem)
  | settingAside (rows : List VPNGateItem)
  | reinstalling (rows : List VPNGateItem)
  /-- installed: `backup.delete()` -/
  | droppingBackup
  /-- not installed: `if (backup.exists()) backup.renameTo(file)` -/
  | restoring
  /-- the `catch` block -/
  | recovering
  | droppingTmp
  deriving DecidableEq

/-- A call, and the rows that were stored when it began. -/
structure Turn where
  call : ImportCall
  before : List VPNGateItem
  deriving DecidableEq

/-- What the call is to leave. -/
def Turn.after (turn : Turn) : List VPNGateItem := (turn.call.result turn.before).getD turn.before

/-- The files; the call that runs, or the last one; where it is, and whether its read failed. -/
structure ImportState where
  files : Files
  turn : Option Turn
  point : Option Point
  readFailed : Bool
  deriving DecidableEq

/-- A call begins, its next operation on the files succeeds or fails, or the process stops. -/
inductive ImportAction
  | begin (call : ImportCall)
  | proceed (ok : Bool)
  | stop
  deriving DecidableEq

/-- `renameTo`: a host that cannot rename over a file fails when there is one. -/
def renames (overwrites ok : Bool) (target : Option FileText) : Bool :=
  ok && (overwrites || target.isNone)

/-- One operation of a call on the files: what it leaves, and where the call goes on. -/
def Files.operate (overwrites ok : Bool) (fs : Files) : Point → Files × Option Point
  | .reading => (fs, none)
  | .makingDirectory rows => (fs, if ok then some (.writingTmp rows) else none)
  | .writingTmp rows =>
    if ok then ({ fs with tmp := some (.rows rows) }, some (.installing rows))
    else ({ fs with tmp := some .other }, some .recovering)
  | .installing rows =>
    if renames overwrites ok fs.file then
      ({ fs with file := fs.tmp, tmp := none }, some .droppingBackup)
    else (fs, some (.clearingBackup rows))
  | .clearingBackup rows =>
    if fs.backup = none then (fs, some (.settingAside rows))
    else if ok then ({ fs with backup := none }, some (.settingAside rows))
    else (fs, none)
  | .settingAside rows =>
    if fs.file = none then (fs, some (.reinstalling rows))
    else if renames overwrites ok fs.backup then
      ({ fs with file := none, backup := fs.file }, some (.reinstalling rows))
    else (fs, none)
  | .reinstalling _ =>
    if renames overwrites ok fs.file then
      ({ fs with file := fs.tmp, tmp := none }, some .droppingBackup)
    else (fs, some .restoring)
  | .droppingBackup => (if ok then { fs with backup := none } else fs, none)
  | .restoring =>
    if fs.backup ≠ none ∧ renames overwrites ok fs.file = true then
      ({ fs with file := fs.backup, backup := none }, some .droppingTmp)
    else (fs, some .droppingTmp)
  | .recovering =>
    if fs.backup ≠ none ∧ fs.file = none ∧ ok = true then
      ({ fs with file := fs.backup, backup := none }, some .droppingTmp)
    else (fs, some .droppingTmp)
  | .droppingTmp => (if ok then { fs with tmp := none } else fs, none)

/-- Where a call goes after its read: on to the write of its rows, if it writes any. -/
def afterRead (call : ImportCall) (current : List VPNGateItem) : Option Point :=
  (call.result current).map Point.makingDirectory

/-- One step; the store has one lock. -/
def ImportState.step (overwrites : Bool) (s : ImportState) (a : ImportAction) : ImportState :=
  match a, s.point with
  | .begin call, none =>
    { s with turn := some ⟨call, s.files.items⟩, point := some .reading, readFailed := false }
  | .begin _, some _ => s
  | .stop, _ => { s with point := none }
  | .proceed _, none => s
  | .proceed ok, some .reading =>
    let current := if ok then s.files.items else []
    { s with
      point := s.turn.bind fun turn => afterRead turn.call current
      readFailed := !ok }
  | .proceed ok, some point =>
    let (files, next) := s.files.operate overwrites ok point
    { s with files := files, point := next }

/-! ### Survival -/

/-- **The rows survive**: if the process stops here, the rows are those from before the call or
    from after it, and each from before that it was not asked to remove is still there. -/
structure TurnSurvives (turn : Turn) (items : List VPNGateItem) : Prop where
  atomic : items = turn.before ∨ items = turn.after
  kept : ∀ x ∈ turn.before, ¬ turn.call.Removes x.host → ∃ y ∈ items, y.host = x.host

/-- The same, of the call that runs or ran last. -/
def Survives (s : ImportState) : Prop := ∀ turn ∈ s.turn, TurnSurvives turn s.files.items

/-- The rows are those from before the call, or from after it. -/
def Turn.Allows (turn : Turn) (items : List VPNGateItem) : Prop :=
  items = turn.before ∨ items = turn.after

/-- What a call writes that read nothing. -/
def Turn.blind (turn : Turn) : List VPNGateItem := (turn.call.result []).getD []

/-- What an operation of a call must not do, in the middle of it. -/
def Point.HarmfulAt (overwrites ok readFailed : Bool) (fs : Files) (turn : Turn) : Point → Prop
  | .installing _ | .reinstalling _ =>
    renames overwrites ok fs.file = true ∧ readFailed = true ∧ ¬ turn.Allows turn.blind
  | .settingAside _ =>
    fs.file ≠ none ∧ renames overwrites ok fs.backup = true ∧ ¬ turn.Allows []
  | .restoring =>
    fs.backup ≠ none ∧ renames overwrites ok fs.file = true ∧ ¬ turn.Allows (rowsOf fs.backup)
  | .recovering =>
    fs.backup ≠ none ∧ fs.file = none ∧ ok = true ∧ ¬ turn.Allows (rowsOf fs.backup)
  | _ => False

/-- **An operation does harm.** It installs rows after a failed read that, worked out from none, are
    neither those from before nor those from after; or it sets the file aside although neither of
    these are none; or it puts back a backup that holds neither. -/
def Harmful (overwrites : Bool) (s : ImportState) (a : ImportAction) : Prop :=
  ∃ turn ∈ s.turn, ∃ point ∈ s.point, ∃ ok, a = .proceed ok ∧
    point.HarmfulAt overwrites ok s.readFailed s.files turn

/-- Only the rows from before and from after matter: both keep what the call is not to remove. -/
theorem turnSurvives_iff {turn : Turn} {items : List VPNGateItem} :
    TurnSurvives turn items ↔ turn.Allows items := by
  constructor
  · exact fun h => h.atomic
  · intro hallows
    refine ⟨hallows, ?_⟩
    intro x hx hkeep
    rcases hallows with rfl | rfl
    · exact ⟨x, hx, rfl⟩
    · rw [Turn.after]
      cases hresult : turn.call.result turn.before with
      | none => exact ⟨x, hx, rfl⟩
      | some rows => exact ImportCall.exists_mem_result hresult hx hkeep

/-- The rows of a call are worked out from those stored when it began, or from none. -/
def Turn.Writes (turn : Turn) (readFailed : Bool) (rows : List VPNGateItem) : Prop :=
  turn.call.result (if readFailed then [] else turn.before) = some rows

/-- What holds of the files where a call is: nothing was changed before it read, and what it
    installs is what it worked out. -/
def Point.Holds (turn : Turn) (readFailed : Bool) (fs : Files) : Point → Prop
  | .reading => fs.items = turn.before
  | .makingDirectory rows | .writingTmp rows => turn.Writes readFailed rows
  | .installing rows | .clearingBackup rows | .settingAside rows | .reinstalling rows =>
    turn.Writes readFailed rows ∧ fs.tmp = some (.rows rows)
  | _ => True

/-- The invariant of a run. -/
structure ImportInv (s : ImportState) : Prop where
  turn : s.point.isSome = true → s.turn.isSome = true
  point : ∀ turn ∈ s.turn, ∀ point ∈ s.point, point.Holds turn s.readFailed s.files

/-! ### One operation -/

section Operate

variable {overwrites ok readFailed : Bool} {fs : Files} {turn : Turn} {point : Point}

/-- A call holds to its rows from one operation to the next. -/
theorem holds_operate (h : point.Holds turn readFailed fs) {next : Point}
    (hnext : (fs.operate overwrites ok point).2 = some next) :
    next.Holds turn readFailed (fs.operate overwrites ok point).1 := by
  -- once the rows are installed there is nothing to hold to
  cases point with
  | reading => exact absurd hnext (by simp [Files.operate])
  | makingDirectory rows =>
    simp only [Files.operate] at hnext ⊢
    split_ifs at hnext
    obtain rfl := Option.some.inj hnext
    exact h
  | writingTmp rows =>
    simp only [Files.operate] at hnext ⊢
    split_ifs at hnext ⊢
    · obtain rfl := Option.some.inj hnext
      exact ⟨h, rfl⟩
    · obtain rfl := Option.some.inj hnext
      trivial
  | installing rows =>
    simp only [Files.operate] at hnext ⊢
    split_ifs at hnext ⊢
    · obtain rfl := Option.some.inj hnext
      trivial
    · obtain rfl := Option.some.inj hnext
      exact h
  | clearingBackup rows =>
    simp only [Files.operate] at hnext ⊢
    split_ifs at hnext ⊢
    · obtain rfl := Option.some.inj hnext
      exact h
    · obtain rfl := Option.some.inj hnext
      exact h
  | settingAside rows =>
    simp only [Files.operate] at hnext ⊢
    split_ifs at hnext ⊢
    · obtain rfl := Option.some.inj hnext
      exact h
    · obtain rfl := Option.some.inj hnext
      exact h
  | reinstalling rows =>
    simp only [Files.operate] at hnext ⊢
    split_ifs at hnext ⊢
    · obtain rfl := Option.some.inj hnext
      trivial
    · obtain rfl := Option.some.inj hnext
      trivial
  | droppingBackup => exact absurd hnext (by simp [Files.operate])
  | restoring =>
    simp only [Files.operate] at hnext ⊢
    split_ifs at hnext ⊢
    · obtain rfl := Option.some.inj hnext
      trivial
    · obtain rfl := Option.some.inj hnext
      trivial
  | recovering =>
    simp only [Files.operate] at hnext ⊢
    split_ifs at hnext ⊢
    · obtain rfl := Option.some.inj hnext
      trivial
    · obtain rfl := Option.some.inj hnext
      trivial
  | droppingTmp => exact absurd hnext (by simp [Files.operate])

/-- The rows of a call are those from after it, unless its read failed. -/
theorem allows_written {rows : List VPNGateItem} (h : turn.Writes readFailed rows) :
    turn.Allows rows ↔ ¬ (readFailed = true ∧ ¬ turn.Allows turn.blind) := by
  cases readFailed with
  | false =>
    have hresult : turn.call.result turn.before = some rows := h
    have hafter : turn.Allows rows := by
      right
      rw [Turn.after, hresult]
      rfl
    simp [hafter]
  | true =>
    have hresult : turn.call.result [] = some rows := h
    have hblind : turn.blind = rows := by
      rw [Turn.blind, hresult]
      rfl
    simp [hblind]

/-- Where the temporary file is renamed over the file, its rows are what the file holds. -/
theorem allows_install {rows : List VPNGateItem} (h : turn.Writes readFailed rows)
    (htmp : fs.tmp = some (.rows rows)) (hitems : turn.Allows fs.items) (next : Point) :
    turn.Allows (if renames overwrites ok fs.file then
        ({ fs with file := fs.tmp, tmp := none }, some Point.droppingBackup)
      else (fs, some next)).1.items ↔
      ¬ (renames overwrites ok fs.file = true ∧ readFailed = true ∧ ¬ turn.Allows turn.blind) := by
  split_ifs with hrenames
  · have hrows : ({ fs with file := fs.tmp, tmp := none } : Files).items = rows := by
      rw [Files.items, htmp]
      rfl
    rw [hrows, allows_written h]
    simp [hrenames]
  · simp [hrenames, hitems]

/-- **What an operation leaves in the file** is allowed exactly when it does no harm. -/
theorem allows_operate (h : point.Holds turn readFailed fs) (hitems : turn.Allows fs.items) :
    turn.Allows (fs.operate overwrites ok point).1.items ↔
      ¬ point.HarmfulAt overwrites ok readFailed fs turn := by
  have hsame : turn.Allows fs.items ↔ ¬ False := by simpa using hitems
  -- only a rename changes the file
  cases point with
  | reading => exact hsame
  | makingDirectory rows => exact hsame
  | writingTmp rows =>
    simp only [Files.operate]
    split_ifs
    · exact hsame
    · exact hsame
  | installing rows => exact allows_install h.1 h.2 hitems (.clearingBackup rows)
  | clearingBackup rows =>
    simp only [Files.operate]
    split_ifs
    · exact hsame
    · exact hsame
    · exact hsame
  | settingAside rows =>
    simp only [Files.operate, Point.HarmfulAt]
    split_ifs with hmissing hrenames
    · simpa [hmissing] using hitems
    · -- the file is gone until the rows are installed
      have hnone : ({ fs with file := none, backup := fs.file } : Files).items = [] := rfl
      rw [hnone]
      simp [hmissing, hrenames]
    · simpa [hrenames] using hitems
  | reinstalling rows => exact allows_install h.1 h.2 hitems .restoring
  | droppingBackup =>
    simp only [Files.operate]
    split_ifs
    · exact hsame
    · exact hsame
  | restoring =>
    simp only [Files.operate, Point.HarmfulAt]
    split_ifs with hback
    · have hrows : ({ fs with file := fs.backup, backup := none } : Files).items =
        rowsOf fs.backup := rfl
      rw [hrows]
      simp [hback]
    · rw [← and_assoc]
      simpa [hback] using hitems
  | recovering =>
    simp only [Files.operate, Point.HarmfulAt]
    split_ifs with hback
    · have hrows : ({ fs with file := fs.backup, backup := none } : Files).items =
        rowsOf fs.backup := rfl
      rw [hrows]
      simp [hback]
    · simp only [← and_assoc] at hback ⊢
      simpa [hback] using hitems
  | droppingTmp =>
    simp only [Files.operate]
    split_ifs
    · exact hsame
    · exact hsame

end Operate

/-! ### Runs -/

variable {overwrites : Bool} {s : ImportState} {a : ImportAction}

theorem step_operate {ok : Bool} {point : Point} (hpoint : s.point = some point)
    (hread : point ≠ .reading) :
    s.step overwrites (.proceed ok) =
      { s with
        files := (s.files.operate overwrites ok point).1
        point := (s.files.operate overwrites ok point).2 } := by
  obtain ⟨files, turn, _, readFailed⟩ := s
  obtain rfl : _ = some point := hpoint
  cases point with
  | reading => exact absurd rfl hread
  | _ => rfl

theorem inv_step (hinv : ImportInv s) (overwrites : Bool) (a : ImportAction) :
    ImportInv (s.step overwrites a) := by
  cases a with
  | begin call =>
    cases hpoint : s.point with
    | some point =>
      simpa only [ImportState.step, hpoint] using hinv
    | none =>
      simp only [ImportState.step, hpoint]
      refine ⟨fun _ => rfl, ?_⟩
      rintro turn ⟨⟩ point ⟨⟩
      exact rfl
  | stop =>
    simp only [ImportState.step]
    exact ⟨nofun, nofun⟩
  | proceed ok =>
    cases hpoint : s.point with
    | none => simpa only [ImportState.step, hpoint] using hinv
    | some point =>
      by_cases hread : point = .reading
      · subst hread
        simp only [ImportState.step, hpoint]
        refine ⟨fun _ => hinv.turn (by simp [hpoint]), ?_⟩
        intro turn hturn point hnext
        have hbefore : s.files.items = turn.before := hinv.point turn hturn _ hpoint
        obtain ⟨turn', hturn', hafter⟩ := Option.bind_eq_some_iff.mp hnext
        obtain rfl : turn = turn' := Option.some.inj (hturn.symm.trans hturn')
        obtain ⟨rows, hresult, rfl⟩ := Option.map_eq_some_iff.mp hafter
        show turn.Writes (!ok) rows
        rw [hbefore] at hresult
        cases ok with
        | true => exact hresult
        | false => exact hresult
      · rw [step_operate hpoint hread]
        refine ⟨fun _ => hinv.turn (by simp [hpoint]), ?_⟩
        intro turn hturn next hnext
        exact holds_operate (hinv.point turn hturn point hpoint) hnext

/-- **Step.** From a state in which the rows survive they survive an operation exactly when it does
    no harm. -/
theorem survives_step (hinv : ImportInv s) (hs : Survives s) (overwrites : Bool)
    (a : ImportAction) : Survives (s.step overwrites a) ↔ ¬ Harmful overwrites s a := by
  simp only [Survives, turnSurvives_iff] at hs ⊢
  cases a with
  | begin call =>
    have hharmless : ¬ Harmful overwrites s (.begin call) := by
      rintro ⟨_, _, _, _, _, hop, _⟩
      exact absurd hop (by simp)
    refine iff_of_true ?_ hharmless
    cases hpoint : s.point with
    | some point => simpa only [ImportState.step, hpoint] using hs
    | none =>
      simp only [ImportState.step, hpoint]
      rintro turn ⟨⟩
      exact Or.inl rfl
  | stop =>
    have hharmless : ¬ Harmful overwrites s .stop := by
      rintro ⟨_, _, _, _, _, hop, _⟩
      exact absurd hop (by simp)
    exact iff_of_true hs hharmless
  | proceed ok =>
    cases hpoint : s.point with
    | none =>
      have hharmless : ¬ Harmful overwrites s (.proceed ok) := by
        rintro ⟨_, _, _, hnone, _⟩
        rw [hpoint] at hnone
        exact absurd hnone (by simp)
      exact iff_of_true (by simpa only [ImportState.step, hpoint] using hs) hharmless
    | some point =>
      obtain ⟨turn, hturn⟩ := Option.isSome_iff_exists.mp (hinv.turn (by simp [hpoint]))
      have hharmful : Harmful overwrites s (.proceed ok) ↔
          point.HarmfulAt overwrites ok s.readFailed s.files turn := by
        rw [Harmful, hturn, hpoint]
        simp
      rw [hharmful]
      by_cases hread : point = .reading
      · subst hread
        simp only [ImportState.step, hpoint]
        exact iff_of_true hs id
      · rw [step_operate hpoint hread]
        have hoperate : turn.Allows (s.files.operate overwrites ok point).1.items ↔
            ¬ point.HarmfulAt overwrites ok s.readFailed s.files turn :=
          allows_operate (hinv.point turn hturn point hpoint) (hs turn hturn)
        simpa [hturn] using hoperate

/-- The process has just started. -/
def ImportState.start (fs : Files) : ImportState := ⟨fs, none, none, false⟩

/-- **When imported servers survive every failure.** Wherever a run stops, the rows are those from
    before the call or from after it exactly when no operation of it does harm. -/
theorem survives_iff (overwrites : Bool) (fs : Files) (as : List ImportAction) :
    Always (ImportState.step overwrites) Survives (ImportState.start fs) as ↔
      Along (ImportState.step overwrites) (fun s a => ¬ Harmful overwrites s a)
        (ImportState.start fs) as := by
  have hinv : ImportInv (ImportState.start fs) := ⟨nofun, nofun⟩
  refine always_iff_along ?_ ?_ hinv nofun as
  · exact fun _ a h => inv_step h overwrites a
  · exact fun _ a h hs => survives_step h hs overwrites a

/-! ### Rows that do not survive -/

/-- One row is stored. -/
def oneImported : ImportState := .start ⟨some (.rows [numberedRow 0 1]), none, none⟩

/-- Another one is added: the read fails, and the write that follows does not. -/
def addAfterFailedRead : List ImportAction :=
  [.begin (.add [numberedRow 1 1]), .proceed false, .proceed true, .proceed true, .proceed true]

/-- Another one is added on a host that cannot rename over a file: the process stops after the file
    was set aside. -/
def stoppedAside : List ImportAction :=
  [.begin (.add [numberedRow 1 1]), .proceed true, .proceed true, .proceed true, .proceed true,
    .proceed true, .proceed true, .stop]

/-- The first leaves the new row alone, and the second none. -/
theorem rows_lost :
    ¬ Always (ImportState.step true) Survives oneImported addAfterFailedRead ∧
      ¬ Always (ImportState.step false) Survives oneImported stoppedAside := by
  have hfirst : run (ImportState.step true) oneImported addAfterFailedRead =
      ⟨⟨some (.rows [numberedRow 1 1]), none, none⟩,
        some ⟨.add [numberedRow 1 1], [numberedRow 0 1]⟩, some .droppingBackup, true⟩ := by
    decide
  have hsecond : run (ImportState.step false) oneImported stoppedAside =
      ⟨⟨none, some (.rows [numberedRow 0 1, numberedRow 1 1]), some (.rows [numberedRow 0 1])⟩,
        some ⟨.add [numberedRow 1 1], [numberedRow 0 1]⟩, none, false⟩ := by
    decide
  constructor
  · intro h
    have hend := always_iff.mp h _ (List.prefix_refl _)
    rw [hfirst] at hend
    exact absurd (hend _ rfl).atomic (by decide)
  · intro h
    have hend := always_iff.mp h _ (List.prefix_refl _)
    rw [hsecond] at hend
    exact absurd (hend _ rfl).atomic (by decide)

end SoftEther.Repository
