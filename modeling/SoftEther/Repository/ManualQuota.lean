import SoftEther.Repository.ImportStore

namespace SoftEther.Repository

open Lib

/-!
# The manual quota (`ManualServerAdmission.kt`, `ManualServerStore.kt`, `ManualImportStore.kt`)

One quota covers two stores: the table of manual servers and the file of imported rows. An addition
to either counts both and asks whether it needs a slot under one lock; an edit of the table and the
removals take no lock at all.

* `ManualServerEntity`, `ManualTable` — the table and the queries of its DAO;
* `Job`, `AdmitPoint` — an addition, and where it is under the lock;
* `QuotaState.step` — one query or one critical section of any call, in any order;
* `WithinQuota` — the records stay within the quota, and no edit of a stored one is refused;
* `Reliable` — no read fails that the admission relies on, and no copy outlives its record;
* `withinQuota_of_reliable` — in a run of such steps the records stay within the quota.

A call that waits for the lock has done nothing, so only the one that holds it has a place. Input
that is no server ends before the admission and is left out.
-/

/-! ### The table -/

/-- The unique index of `manual_server`. -/
structure ServerKey where
  host : JavaString
  port : Int
  protocol : JavaString
  deriving DecidableEq

/-- `ManualServerEntity`; an identity of zero is one that the table is to give. -/
structure ManualServerEntity where
  id : ℕ
  key : ServerKey
  label : Option JavaString
  notes : Option JavaString
  enabled : Bool
  createdAt : Int
  updatedAt : Int
  deriving DecidableEq

/-- `manual_server`, and the identity that it gives next. -/
structure ManualTable where
  rows : List ManualServerEntity
  nextId : ℕ
  deriving DecidableEq

namespace ManualTable

variable (t : ManualTable)

/-- `findByKey`. -/
def findByKey (key : ServerKey) : Option ManualServerEntity := t.rows.find? fun r => r.key = key

/-- The identity under which a row is written. -/
def idFor (item : ManualServerEntity) : ℕ := if item.id = 0 then t.nextId else item.id

/-- A row of another identity and another key is not replaced. -/
def stays (item r : ManualServerEntity) : Bool := r.id ≠ t.idFor item && r.key ≠ item.key

/-- `@Insert(onConflict = REPLACE)`. -/
def upsert (item : ManualServerEntity) : ManualTable where
  rows := t.rows.filter (t.stays item) ++ [{ item with id := t.idFor item }]
  nextId := max t.nextId (t.idFor item + 1)

/-- `deleteById`. -/
def deleteById (id : ℕ) : ManualTable := { t with rows := t.rows.filter fun r => r.id ≠ id }

/-- A record of the key is stored. -/
def Holds (key : ServerKey) : Prop := ∃ r ∈ t.rows, r.key = key

instance (key : ServerKey) : Decidable (t.Holds key) := inferInstanceAs (Decidable (∃ _ ∈ _, _))

end ManualTable

/-! ### The calls -/

/-- What an addition is to store: the fields of the form, or the rows of a file. -/
inductive Job
  | form (key : ServerKey) (label notes : Option JavaString) (now : Int)
  | batch (items : List VPNGateItem)
  deriving DecidableEq

/-- Where an addition is in `admit`. -/
inductive AdmitPoint
  | counting
  | countingImports (room : ℕ)
  | requesting (current : ℕ)
  | writing (current want : ℕ) (existing : Option ManualServerEntity)
  deriving DecidableEq

/-- A new record that was refused, and whether it was stored all the same. -/
structure Refusal where
  record : ServerKey ⊕ JavaString
  stored : Bool
  deriving DecidableEq

/-- The two stores, the addition that holds the lock, the copies that calls of `setEnabled` are
    about to write, and what was refused. -/
structure QuotaState where
  table : ManualTable
  imported : List VPNGateItem
  admitted : Option (Job × AdmitPoint)
  toggling : List ManualServerEntity
  refusals : List Refusal
  deriving DecidableEq

/-- The persisted records. -/
def QuotaState.total (s : QuotaState) : ℕ := s.table.rows.length + s.imported.length

/-- One query or critical section of some call; a flag says whether a read or a write succeeds. -/
inductive QuotaAction
  | enter (job : Job)
  | count (ok : Bool)
  | lookup (ok : Bool)
  | write (readOk writeOk : Bool)
  /-- the addition is cancelled, or a call of it throws -/
  | abandon
  /-- `setEnabled` reads the record, and later writes its copy -/
  | copy (id : ℕ) (enabled : Bool) (now : Int)
  | toggle (index : ℕ) (ok : Bool)
  | remove (id : ℕ)
  | removeImported (hostName : JavaString) (readOk writeOk : Bool)
  deriving DecidableEq

/-- `minOf(want, remaining)`. -/
def allowance (quota current want : ℕ) : ℕ := min want (quota - current)

/-- The entity that the form writes. -/
def formEntity (key : ServerKey) (label notes : Option JavaString) (now : Int)
    (existing : Option ManualServerEntity) : ManualServerEntity where
  id := (existing.map ManualServerEntity.id).getD 0
  key := key
  label := label
  notes := notes
  enabled := true
  createdAt := (existing.map ManualServerEntity.createdAt).getD now
  updatedAt := now

/-- `requested`: how many new records a job asks for, and the record that the form edits. -/
def requested (job : Job) (ok : Bool) (s : QuotaState) : ℕ × Option ManualServerEntity :=
  match job with
  | .form key _ _ _ =>
    let existing := if ok then s.table.findByKey key else none
    (if existing.isSome then 0 else 1, existing)
  | .batch items =>
    let current := if ok then s.imported.map VPNGateItem.host else []
    (items.countP fun item => item.host ≠ [] ∧ item.host ∉ current, none)

/-- The write of the form. -/
def writeForm (key : ServerKey) (label notes : Option JavaString) (now : Int) (granted : ℕ)
    (existing : Option ManualServerEntity) (writeOk : Bool) (s : QuotaState) : QuotaState :=
  if existing = none ∧ granted = 0 then
    { s with refusals := s.refusals ++ [⟨.inl key, decide (s.table.Holds key)⟩] }
  else if writeOk then { s with table := s.table.upsert (formEntity key label notes now existing) }
  else s

/-- The write of the import. -/
def writeBatch (items : List VPNGateItem) (granted : ℕ) (readOk writeOk : Bool) (s : QuotaState) :
    QuotaState :=
  let current := if readOk then s.imported else []
  let b := Batch.over current items (some granted)
  let refused := items.filter fun item => item.host ≠ [] ∧ b.current.read item.host = none
  { s with
    imported :=
      if writeOk then ((ImportCall.addWithinQuota items granted).result current).getD s.imported
      else s.imported
    refusals := s.refusals ++ refused.map fun item =>
      ⟨.inr item.host, decide (item.host ∈ s.imported.map VPNGateItem.host)⟩ }

/-- One step of any call. -/
def QuotaState.step (quota : ℕ) (s : QuotaState) (a : QuotaAction) : QuotaState :=
  match a, s.admitted with
  | .enter job, none => { s with admitted := some (job, .counting) }
  | .count ok, some (job, .counting) =>
    { s with admitted := some (job, .countingImports (if ok then s.table.rows.length else 0)) }
  | .count ok, some (job, .countingImports room) =>
    { s with admitted := some (job, .requesting (room + if ok then s.imported.length else 0)) }
  | .lookup ok, some (job, .requesting current) =>
    let (want, existing) := requested job ok s
    { s with admitted := some (job, .writing current want existing) }
  | .write readOk writeOk, some (job, .writing current want existing) =>
    let granted := allowance quota current want
    let s := { s with admitted := none }
    match job with
    | .form key label notes now => writeForm key label notes now granted existing writeOk s
    | .batch items => writeBatch items granted readOk writeOk s
  | .abandon, some _ => { s with admitted := none }
  | .copy id enabled now, _ =>
    match s.table.rows.find? fun r => r.id = id with
    | some r =>
      { s with toggling := s.toggling ++ [{ r with enabled := enabled, updatedAt := now }] }
    | none => s
  | .toggle index ok, _ =>
    match s.toggling[index]? with
    | some e =>
      { s with
        table := if ok then s.table.upsert e else s.table
        toggling := s.toggling.eraseIdx index }
    | none => s
  | .remove id, _ => { s with table := s.table.deleteById id }
  | .removeImported hostName readOk writeOk, _ =>
    let current := if readOk then s.imported else []
    { s with
      imported :=
        if writeOk then ((ImportCall.remove hostName).result current).getD s.imported
        else s.imported }
  | _, _ => s

/-- Nothing runs yet. -/
def QuotaState.start (table : ManualTable) (imported : List VPNGateItem) : QuotaState :=
  ⟨table, imported, none, [], []⟩

/-! ### The property and the condition -/

/-- **Within the quota**: the records do not exceed the bound, and nothing that is stored was
    refused as new. -/
structure WithinQuota (bound : ℕ) (s : QuotaState) : Prop where
  total : s.total ≤ bound
  edits : ∀ r ∈ s.refusals, r.stored = false

instance (bound : ℕ) (s : QuotaState) : Decidable (WithinQuota bound s) :=
  decidable_of_iff (s.total ≤ bound ∧ ∀ r ∈ s.refusals, r.stored = false)
    ⟨fun h => ⟨h.1, h.2⟩, fun h => ⟨h.total, h.edits⟩⟩

/-- **A reliable step.** A store that holds records can be counted; the lookup of a record that is
    stored does not fail, be it by the form or by the import; and a copy is written while a record
    of its key is still stored. -/
def Reliable (s : QuotaState) (a : QuotaAction) : Prop :=
  match a, s.admitted with
  | .count ok, some (_, .counting) => ok = true ∨ s.table.rows = []
  | .count ok, some (_, .countingImports _) => ok = true ∨ s.imported = []
  | .lookup ok, some (.form key _ _ _, .requesting _) => ok = true ∨ ¬ s.table.Holds key
  | .write readOk _, some (.batch items, .writing _ _ _) =>
    readOk = true ∨ ∀ item ∈ items, item.host ∉ s.imported.map VPNGateItem.host
  | .toggle index true, _ => ∀ e ∈ s.toggling[index]?, s.table.Holds e.key
  | _, _ => True

/-! ### The queries -/

/-- A table that another call left behind: no record more and none of a new key, and where a key
    was lost there are fewer. -/
structure Shrinks (before after : ManualTable) : Prop where
  length : after.rows.length ≤ before.rows.length
  holds : ∀ key, after.Holds key → before.Holds key
  lost : ∀ key, before.Holds key → after.Holds key ∨ after.rows.length < before.rows.length

theorem shrinks_refl (t : ManualTable) : Shrinks t t :=
  ⟨Nat.le_refl _, fun _ => id, fun _ => Or.inl⟩

section Table

variable {t : ManualTable} {item : ManualServerEntity} {key : ServerKey}

theorem mem_upsert {r : ManualServerEntity} (hr : r ∈ (t.upsert item).rows) :
    r ∈ t.rows ∨ r.key = item.key := by
  rcases List.mem_append.mp hr with hold | hnew
  · exact Or.inl (List.mem_of_mem_filter hold)
  · right
    rw [List.mem_singleton.mp hnew]

theorem holds_upsert_self : (t.upsert item).Holds item.key :=
  ⟨_, List.mem_append_right _ (List.mem_singleton.mpr rfl), rfl⟩

theorem length_upsert (t : ManualTable) (item : ManualServerEntity) :
    (t.upsert item).rows.length = (t.rows.filter (t.stays item)).length + 1 := by
  simp [ManualTable.upsert]

theorem length_upsert_le (t : ManualTable) (item : ManualServerEntity) :
    (t.upsert item).rows.length ≤ t.rows.length + 1 := by
  rw [length_upsert]
  have := List.length_filter_le (t.stays item) t.rows
  omega

/-- **A row that is written over another** of its key adds none; and where it takes a row of another
    key away with it, there are fewer. -/
theorem shrinks_upsert (hitem : t.Holds item.key) : Shrinks t (t.upsert item) := by
  obtain ⟨r, hr, hrkey⟩ := hitem
  have hlength := length_upsert t item
  have hsplit := List.length_eq_length_filter_add (l := t.rows) (t.stays item)
  have hgone : ∀ x ∈ t.rows, t.stays item x = false →
      x ∈ t.rows.filter fun r => !t.stays item r := by
    intro x hx hway
    exact List.mem_filter.mpr ⟨hx, by simp [hway]⟩
  have hrgone := hgone r hr (by simp [ManualTable.stays, hrkey])
  have hone := List.length_pos_of_mem hrgone
  refine ⟨by omega, ?_, ?_⟩
  · rintro key ⟨x, hx, hxkey⟩
    rcases mem_upsert hx with hold | hsame
    · exact ⟨x, hold, hxkey⟩
    · exact ⟨r, hr, hrkey.trans (hsame.symm.trans hxkey)⟩
  · rintro key ⟨x, hx, hxkey⟩
    cases hstays : t.stays item x with
    | true => exact Or.inl ⟨x, List.mem_append_left _ (List.mem_filter.mpr ⟨hx, hstays⟩), hxkey⟩
    | false =>
      by_cases hsame : x.key = item.key
      · left
        rw [← hxkey, hsame]
        exact holds_upsert_self
      · -- two rows make way for one
        right
        have hdistinct : [x, r].Nodup := by
          simp only [List.nodup_cons, List.mem_singleton, List.not_mem_nil, not_false_eq_true,
            List.nodup_nil, and_true]
          rintro rfl
          exact hsame hrkey
        have hboth : [x, r] ⊆ t.rows.filter fun r => !t.stays item r := by
          intro y hy
          rcases List.mem_cons.mp hy with rfl | hy
          · exact hgone _ hx hstays
          · rwa [List.mem_singleton.mp hy]
        have htwo := (List.subperm_of_subset hdistinct hboth).length_le
        simp only [List.length_cons, List.length_nil] at htwo
        omega

theorem shrinks_delete (id : ℕ) : Shrinks t (t.deleteById id) := by
  refine ⟨List.length_filter_le _ _, ?_, ?_⟩
  · rintro key ⟨x, hx, hkey⟩
    exact ⟨x, List.mem_of_mem_filter hx, hkey⟩
  · rintro key ⟨x, hx, hkey⟩
    by_cases hid : x.id = id
    · right
      refine List.length_filter_lt_length_iff_exists.mpr ⟨x, hx, ?_⟩
      simp [hid]
    · left
      exact ⟨x, List.mem_filter.mpr ⟨hx, by simpa using hid⟩, hkey⟩

theorem findByKey_eq_none : t.findByKey key = none ↔ ¬ t.Holds key := by
  simp [ManualTable.findByKey, ManualTable.Holds]

end Table

/-! ### Batches -/

/-- A row of a batch takes a slot or none is new. -/
theorem length_item {b : Batch} {item : VPNGateItem} {slots : ℕ} (hslots : b.slots = some slots) :
    ∃ left, (b.item item).slots = some left ∧
      (b.item item).current.length + left ≤ b.current.length + slots := by
  rw [Batch.item]
  split_ifs with hblank hknown hfull
  · exact ⟨slots, hslots, Nat.le_refl _⟩
  · refine ⟨slots, hslots, ?_⟩
    rw [LinkedMap.length_put, if_pos hknown]
  · exact ⟨slots, hslots, Nat.le_refl _⟩
  · refine ⟨slots - 1, by simp [hslots], ?_⟩
    have hpos : slots ≠ 0 := by
      rintro rfl
      exact hfull hslots
    show (b.current.put item.host item).length + (slots - 1) ≤ b.current.length + slots
    rw [LinkedMap.length_put, if_neg hknown]
    omega

/-- **A batch adds no more rows than it was granted.** -/
theorem length_over (current items : List VPNGateItem) (granted : ℕ) :
    (Batch.over current items (some granted)).rows.length ≤ current.length + granted := by
  have hloop : ∀ (b : Batch) (slots : ℕ), b.slots = some slots →
      (items.foldl Batch.item b).current.length ≤ b.current.length + slots := by
    induction items with
    | nil => exact fun b slots _ => Nat.le_add_right _ _
    | cons item items ih =>
      intro b slots hslots
      obtain ⟨left, hleft, hlength⟩ : ∃ left, (b.item item).slots = some left ∧
          (b.item item).current.length + left ≤ b.current.length + slots := length_item hslots
      exact (ih (b.item item) left hleft).trans hlength
  have hcurrent : (associateByHost current).length ≤ current.length := by
    have := LinkedMap.length_putAll_le [] (current.map fun item => (item.host, item))
    simpa [associateByHost] using this
  have hover := hloop ⟨associateByHost current, 0, 0, some granted⟩ granted rfl
  rw [Batch.rows, List.length_map]
  exact hover.trans (Nat.add_le_add_right hcurrent granted)

/-- What the import writes, over what it read. -/
theorem length_addWithinQuota {items current rows : List VPNGateItem} {granted : ℕ}
    (h : (ImportCall.addWithinQuota items granted).result current = some rows) :
    rows.length ≤ current.length + granted := by
  simp only [ImportCall.result] at h
  split_ifs at h
  obtain rfl := Option.some.inj h
  exact length_over current items granted

theorem length_removeImported {current rows : List VPNGateItem} {hostName : JavaString}
    (h : (ImportCall.remove hostName).result current = some rows) :
    rows.length ≤ current.length := by
  simp only [ImportCall.result] at h
  split_ifs at h
  obtain rfl := Option.some.inj h
  exact List.length_filter_le _ _

/-- A row that a batch refused is none of those it read. -/
theorem not_mem_of_refused {current items : List VPNGateItem} {slots : Option ℕ} {host : JavaString}
    (h : (Batch.over current items slots).current.read host = none) :
    host ∉ current.map VPNGateItem.host := by
  intro hmem
  obtain ⟨x, hx, rfl⟩ := List.mem_map.mp hmem
  exact LinkedMap.read_eq_none.mp h ((over_spec current items slots).1 x hx)

/-! ### The invariant -/

/-- What an addition knows of the stores: their number, as long as no other call adds a record; and
    the form, that its key is not stored, or else that there is room for it. -/
def AdmitPoint.Knows (bound : ℕ) (t : ManualTable) (imported : ℕ) (job : Job) : AdmitPoint → Prop
  | .counting => True
  | .countingImports room => t.rows.length ≤ room
  | .requesting current => t.rows.length + imported ≤ current
  | .writing current want existing =>
    match job with
    | .batch _ => t.rows.length + imported ≤ current
    | .form key _ _ _ =>
      if existing = none then want = 1 ∧ t.rows.length + imported ≤ current ∧ ¬ t.Holds key
      else t.Holds key ∨ t.rows.length + imported < bound

/-- The invariant. -/
structure QuotaInv (bound : ℕ) (s : QuotaState) : Prop where
  within : WithinQuota bound s
  knows : ∀ p ∈ s.admitted, p.2.Knows bound s.table s.imported.length p.1

section Step

variable {quota bound : ℕ} {s : QuotaState}

/-- What an addition knows stays true when another call leaves no record more. -/
theorem knows_of_shrinks {t t' : ManualTable} {imported imported' : ℕ} {job : Job}
    {point : AdmitPoint} (h : point.Knows bound t imported job)
    (hbound : t.rows.length + imported ≤ bound) (htable : Shrinks t t')
    (himported : imported' ≤ imported) : point.Knows bound t' imported' job := by
  have hlength := htable.length
  cases point with
  | counting => trivial
  | countingImports room =>
    have hroom : t.rows.length ≤ room := h
    show t'.rows.length ≤ room
    omega
  | requesting current =>
    have hcurrent : t.rows.length + imported ≤ current := h
    show t'.rows.length + imported' ≤ current
    omega
  | writing current want existing =>
    cases job with
    | batch items =>
      have hcurrent : t.rows.length + imported ≤ current := h
      show t'.rows.length + imported' ≤ current
      omega
    | form key label notes now =>
      simp only [AdmitPoint.Knows] at h ⊢
      split_ifs at h ⊢
      · obtain ⟨hwant, hcurrent, hnew⟩ := h
        exact ⟨hwant, by omega, fun hheld => hnew (htable.holds key hheld)⟩
      · rcases h with hheld | hroom
        · rcases htable.lost key hheld with hstill | hfewer
          · exact Or.inl hstill
          · exact Or.inr (by omega)
        · exact Or.inr (by omega)

/-- A call that leaves no record more keeps the invariant. -/
theorem inv_of_shrinks (hinv : QuotaInv bound s) {table : ManualTable}
    (htable : Shrinks s.table table)
    {imported : List VPNGateItem} (himported : imported.length ≤ s.imported.length)
    (toggling : List ManualServerEntity) :
    QuotaInv bound
      { s with table := table, imported := imported, toggling := toggling } where
  within := by
    refine ⟨?_, hinv.within.edits⟩
    have htotal := hinv.within.total
    have hlength := htable.length
    simp only [QuotaState.total] at htotal ⊢
    omega
  knows p hp := knows_of_shrinks (hinv.knows p hp) hinv.within.total htable himported

/-- The imported rows after a write that may fail, over what was read. -/
theorem length_getD_le {rows : Option (List VPNGateItem)} {stored : List VPNGateItem} {n : ℕ}
    (hrows : ∀ written, rows = some written → written.length ≤ n) (hstored : stored.length ≤ n)
    (writeOk : Bool) : (if writeOk then rows.getD stored else stored).length ≤ n := by
  cases writeOk with
  | false => exact hstored
  | true =>
    cases rows with
    | none => exact hstored
    | some written => exact hrows written rfl

/-- What was read is no more than what is stored. -/
theorem length_read_le (ok : Bool) (stored : List VPNGateItem) :
    (if ok then stored else []).length ≤ stored.length := by
  cases ok with
  | true => exact Nat.le_refl _
  | false => exact Nat.zero_le _

/-- A grant is within the quota. -/
theorem allowance_le {current want : ℕ} (hpos : allowance quota current want ≠ 0) :
    current + allowance quota current want ≤ quota := by
  rw [allowance] at hpos ⊢
  omega

/-- **The form** writes over its own record, or takes a slot that is free. -/
theorem inv_writeForm {key : ServerKey} {label notes : Option JavaString} {now : Int}
    {current want : ℕ} {existing : Option ManualServerEntity} (hquota : quota ≤ bound)
    (hinv : QuotaInv bound s)
    (hknows : (AdmitPoint.writing current want existing).Knows bound s.table s.imported.length
      (.form key label notes now)) (hfree : s.admitted = none) (writeOk : Bool) :
    QuotaInv bound
      (writeForm key label notes now (allowance quota current want) existing writeOk s) := by
  have hidle : ∀ s' : QuotaState, s'.admitted = s.admitted → ∀ p ∈ s'.admitted,
      p.2.Knows bound s'.table s'.imported.length p.1 := by
    intro s' hsame p hp
    rw [hsame, hfree] at hp
    exact absurd hp (by simp)
  rw [writeForm]
  split_ifs with hrefused hok
  · -- a refused record is new
    obtain ⟨hnone, -⟩ := hrefused
    simp only [AdmitPoint.Knows, hnone, if_true] at hknows
    refine ⟨⟨hinv.within.total, ?_⟩, hidle _ rfl⟩
    intro r hr
    rcases List.mem_append.mp hr with hold | hnew
    · exact hinv.within.edits r hold
    · rw [List.mem_singleton.mp hnew]
      simpa using hknows.2.2
  · have hkey : (formEntity key label notes now existing).key = key := rfl
    refine ⟨⟨?_, hinv.within.edits⟩, hidle _ rfl⟩
    have htotal := hinv.within.total
    simp only [QuotaState.total] at htotal ⊢
    simp only [AdmitPoint.Knows] at hknows
    by_cases hheld : s.table.Holds key
    · have hlength := (shrinks_upsert (hkey ▸ hheld)).length
      omega
    · have hlength := length_upsert_le s.table (formEntity key label notes now existing)
      split_ifs at hknows with hnone
      · have hgranted : allowance quota current want ≠ 0 := fun h => hrefused ⟨hnone, h⟩
        have hle := allowance_le hgranted
        omega
      · have hroom := hknows.resolve_left hheld
        omega
  · exact hinv

/-- **The import** writes what it was granted, and refuses only rows that are new. -/
theorem inv_writeBatch {items : List VPNGateItem} {current want : ℕ} (hquota : quota ≤ bound)
    (hinv : QuotaInv bound s) (hcurrent : s.table.rows.length + s.imported.length ≤ current)
    (hfree : s.admitted = none) {readOk : Bool} (writeOk : Bool)
    (hread : readOk = true ∨ ∀ item ∈ items, item.host ∉ s.imported.map VPNGateItem.host) :
    QuotaInv bound (writeBatch items (allowance quota current want) readOk writeOk s) := by
  have hlength :
      (writeBatch items (allowance quota current want) readOk writeOk s).imported.length ≤
      s.imported.length + allowance quota current want := by
    refine length_getD_le ?_ (Nat.le_add_right _ _) writeOk
    intro written hwritten
    have hle := length_addWithinQuota hwritten
    have hstored := length_read_le readOk s.imported
    omega
  refine ⟨⟨?_, ?_⟩, ?_⟩
  · have htotal := hinv.within.total
    simp only [QuotaState.total] at htotal ⊢
    have htable : (writeBatch items (allowance quota current want) readOk writeOk s).table =
      s.table := rfl
    rw [htable]
    by_cases hgranted : allowance quota current want = 0
    · omega
    · have hle := allowance_le hgranted
      omega
  · intro r hr
    rcases List.mem_append.mp hr with hold | hnew
    · exact hinv.within.edits r hold
    · obtain ⟨item, hitem, rfl⟩ := List.mem_map.mp hnew
      obtain ⟨hmem, hnone⟩ := List.mem_filter.mp hitem
      simp only [decide_eq_false_iff_not]
      rcases hread with hok | hnew
      · have hrefused := not_mem_of_refused (of_decide_eq_true hnone).2
        rwa [hok] at hrefused
      · exact hnew item hmem
  · intro p hp
    have hadmitted : (writeBatch items (allowance quota current want) readOk writeOk s).admitted =
      s.admitted := rfl
    rw [hadmitted, hfree] at hp
    exact absurd hp (by simp)

/-- What an addition learns from a query. -/
theorem inv_admitted (hinv : QuotaInv bound s) {job : Job} {point : AdmitPoint}
    (hknows : point.Knows bound s.table s.imported.length job) :
    QuotaInv bound { s with admitted := some (job, point) } where
  within := ⟨hinv.within.total, hinv.within.edits⟩
  knows := by
    rintro p ⟨⟩
    exact hknows

/-- The lookup: what is asked for, and what is known of the record of the form. -/
theorem knows_requested {job : Job} {current : ℕ} {ok : Bool}
    (hcurrent : s.table.rows.length + s.imported.length ≤ current)
    (hlookup : ∀ key label notes now, job = .form key label notes now →
      ok = true ∨ ¬ s.table.Holds key) :
    (AdmitPoint.writing current (requested job ok s).1 (requested job ok s).2).Knows bound s.table
      s.imported.length job := by
  cases job with
  | batch items => exact hcurrent
  | form key label notes now =>
    by_cases hfound : (if ok = true then s.table.findByKey key else none) = none
    · have hnew : ¬ s.table.Holds key := by
        rcases hlookup key label notes now rfl with rfl | hnew
        · exact findByKey_eq_none.mp hfound
        · exact hnew
      simp [requested, AdmitPoint.Knows, hfound, hcurrent, hnew]
    · have hheld : s.table.Holds key := by
        by_contra hnew
        rw [findByKey_eq_none.mpr hnew, ite_self] at hfound
        exact hfound rfl
      simp [requested, AdmitPoint.Knows, hfound, hheld]

/-- The lock is given back. -/
theorem inv_released (hinv : QuotaInv bound s) : QuotaInv bound { s with admitted := none } :=
  ⟨⟨hinv.within.total, hinv.within.edits⟩, nofun⟩

/-- **Step.** A reliable step keeps the invariant. -/
theorem inv_step_quota (hquota : quota ≤ bound) (hinv : QuotaInv bound s) {a : QuotaAction}
    (ha : Reliable s a) : QuotaInv bound (s.step quota a) := by
  -- `knows` carries what the job has counted over its next suspension
  cases a with
  | enter job =>
    cases hlock : s.admitted with
    | none =>
      simp only [QuotaState.step, hlock]
      exact inv_admitted hinv trivial
    | some p => simpa only [QuotaState.step, hlock] using hinv
  | count ok =>
    cases hlock : s.admitted with
    | none => simpa only [QuotaState.step, hlock] using hinv
    | some p =>
      obtain ⟨job, point⟩ := p
      have hknows : point.Knows bound s.table s.imported.length job := hinv.knows _ hlock
      cases point with
      | counting =>
        simp only [QuotaState.step, Reliable, hlock] at ha ⊢
        refine inv_admitted hinv ?_
        show s.table.rows.length ≤ if ok then s.table.rows.length else 0
        rcases ha with rfl | hempty
        · exact Nat.le_refl _
        · simp [hempty]
      | countingImports room =>
        simp only [QuotaState.step, Reliable, hlock] at ha ⊢
        refine inv_admitted hinv ?_
        have hroom : s.table.rows.length ≤ room := hknows
        show s.table.rows.length + s.imported.length ≤
          room + if ok then s.imported.length else 0
        rcases ha with rfl | hempty
        · simpa using hroom
        · simpa [hempty] using hroom
      | requesting current => simpa only [QuotaState.step, hlock] using hinv
      | writing current want existing => simpa only [QuotaState.step, hlock] using hinv
  | lookup ok =>
    cases hlock : s.admitted with
    | none => simpa only [QuotaState.step, hlock] using hinv
    | some p =>
      obtain ⟨job, point⟩ := p
      cases point with
      | requesting current =>
        have hcurrent : s.table.rows.length + s.imported.length ≤ current := hinv.knows _ hlock
        have hlookup : ∀ key label notes now, job = .form key label notes now →
            ok = true ∨ ¬ s.table.Holds key := by
          rintro key label notes now rfl
          simpa only [Reliable, hlock] using ha
        simp only [QuotaState.step, hlock]
        exact inv_admitted hinv (knows_requested hcurrent hlookup)
      | counting => simpa only [QuotaState.step, hlock] using hinv
      | countingImports room => simpa only [QuotaState.step, hlock] using hinv
      | writing current want existing => simpa only [QuotaState.step, hlock] using hinv
  | write readOk writeOk =>
    cases hlock : s.admitted with
    | none => simpa only [QuotaState.step, hlock] using hinv
    | some p =>
      obtain ⟨job, point⟩ := p
      cases point with
      | writing current want existing =>
        have hknows := hinv.knows _ hlock
        simp only [QuotaState.step, hlock]
        cases job with
        | form key label notes now =>
          exact inv_writeForm hquota (inv_released hinv) hknows rfl writeOk
        | batch items =>
          have hread : readOk = true ∨
              ∀ item ∈ items, item.host ∉ s.imported.map VPNGateItem.host := by
            simpa only [Reliable, hlock] using ha
          exact inv_writeBatch hquota (inv_released hinv) hknows rfl writeOk hread
      | counting => simpa only [QuotaState.step, hlock] using hinv
      | countingImports room => simpa only [QuotaState.step, hlock] using hinv
      | requesting current => simpa only [QuotaState.step, hlock] using hinv
  | abandon =>
    cases hlock : s.admitted with
    | none => simpa only [QuotaState.step, hlock] using hinv
    | some p =>
      simp only [QuotaState.step, hlock]
      exact inv_released hinv
  | copy id enabled now =>
    simp only [QuotaState.step]
    split
    · exact inv_of_shrinks hinv (shrinks_refl s.table) (Nat.le_refl _) _
    · exact hinv
  | toggle index ok =>
    simp only [QuotaState.step]
    split
    · next e he =>
      cases ok with
      | true => exact inv_of_shrinks hinv (shrinks_upsert (ha e he)) (Nat.le_refl _) _
      | false => exact inv_of_shrinks hinv (shrinks_refl s.table) (Nat.le_refl _) _
    · exact hinv
  | remove id => exact inv_of_shrinks hinv (shrinks_delete id) (Nat.le_refl _) _
  | removeImported hostName readOk writeOk =>
    refine inv_of_shrinks hinv (shrinks_refl s.table) (length_getD_le ?_ (Nat.le_refl _) writeOk) _
    intro written hwritten
    exact (length_removeImported hwritten).trans (length_read_le readOk s.imported)

end Step

/-! ### Runs -/

/-- **The manual quota holds** in every run of reliable steps: the records never exceed the larger
    of the quota and the number at the start, and no edit of a stored record is refused. -/
theorem withinQuota_of_reliable (quota : ℕ) (table : ManualTable) (imported : List VPNGateItem)
    (as : List QuotaAction)
    (h : Along (QuotaState.step quota) Reliable (.start table imported) as) :
    Always (QuotaState.step quota)
      (WithinQuota (max quota (QuotaState.start table imported).total))
      (.start table imported) as := by
  have hinv : QuotaInv (max quota (QuotaState.start table imported).total)
      (.start table imported) :=
    ⟨⟨Nat.le_max_right _ _, nofun⟩, nofun⟩
  refine always_of_along ?_ (fun s hs => hs.within) h hinv
  exact fun s a hs ha => inv_step_quota (Nat.le_max_left _ _) hs ha

/-! ### Runs at a quota of one and of two -/

/-- The server of a host of one letter. -/
def sampleKey (letter : UInt16) : ServerKey :=
  ⟨[letter], 443, JavaString.ofChars ['s', 's', 't', 'p']⟩

/-- One server is stored. -/
def oneServer : ManualTable := ⟨[⟨1, sampleKey 0x61, none, none, true, 1, 1⟩], 2⟩

/-- The form is submitted for a server, and counts and looks up as the flags say. -/
def submit (letter : UInt16) (countOk lookupOk : Bool) : List QuotaAction :=
  [.enter (.form (sampleKey letter) none none 2), .count countOk, .count true, .lookup lookupOk,
    .write true true]

/-- With two slots a second server is added, the first one is disabled and removed. -/
theorem withinQuota_of_reliable_sample :
    Always (QuotaState.step 2) (WithinQuota (max 2 (QuotaState.start oneServer []).total))
      (.start oneServer [])
      (submit 0x62 true true ++ [.copy 1 false 3, .toggle 0 true, .remove 1]) := by
  refine withinQuota_of_reliable 2 oneServer [] _ ⟨trivial, Or.inl rfl, Or.inl rfl, Or.inl rfl,
    trivial, trivial, ?_, trivial, trivial⟩
  rintro e ⟨⟩
  exact ⟨_, List.mem_cons_self, rfl⟩

/-- With one slot, which is taken: the table cannot be counted, and a second server is added; the
    copy of a disabled server is written after the server was removed and another one added; the
    lookup of the stored server fails, and its edit is refused. -/
theorem quota_exceeded :
    ¬ Always (QuotaState.step 1) (WithinQuota (max 1 (QuotaState.start oneServer []).total))
        (.start oneServer []) (submit 0x62 false true) ∧
      ¬ Always (QuotaState.step 1) (WithinQuota (max 1 (QuotaState.start oneServer []).total))
        (.start oneServer [])
        ([.copy 1 false 3, .remove 1] ++ submit 0x62 true true ++ [.toggle 0 true]) ∧
      ¬ Always (QuotaState.step 1) (WithinQuota (max 1 (QuotaState.start oneServer []).total))
        (.start oneServer []) (submit 0x61 true false) := by
  refine ⟨?_, ?_, ?_⟩
  · intro h
    exact absurd (always_iff.mp h _ (List.prefix_refl _)) (by decide)
  · intro h
    exact absurd (always_iff.mp h _ (List.prefix_refl _)) (by decide)
  · intro h
    exact absurd (always_iff.mp h _ (List.prefix_refl _)) (by decide)

end SoftEther.Repository
