import SoftEther.Repository.Integrity
import SoftEther.Repository.Knowledge

namespace SoftEther.Repository

open Lib

/-!
# The integrity baseline over a run (`DatasetIntegrity.kt`, `ServerListUpdates.kt`)

`DatasetIntegrity.evaluate` takes the stored rows with the newest `lastSeenAt` for the last fresh
observation. Four things write the table, and all of them may insert rows that carry a time.

* `Source`, `Addition`, `Operation` — what writes the table;
* `History`, `History.step` — the table, the clock, and what the last fresh refresh stamped;
* `BaselineIsFresh` — the baseline is what the last fresh refresh stamped and is still stored;
* `Keeps` — the operation leaves a stamped row, and adds none that is as new;
* `baselineIsFresh_iff` — the first holds throughout a run exactly when the second does.

A write of the table is one transaction, and the clock increases from each operation to the next.
-/

/-! ### The operations -/

/-- What supplies a dataset. An emergency dataset that the repository returns passes for a cached
    one, so `emergency` is the rung of the updater alone. -/
inductive Source
  | fresh
  | cache
  | emergency
  deriving DecidableEq

/-- A manual row: its fields from the form, or from a file that was imported some time ago. -/
structure UserRow where
  item : VPNGateItem
  importedAgo : Option ℕ

/-- The row as it is stored: one from the form was never seen, and an imported one was when it was
    imported. -/
def UserRow.at (now : Int) (row : UserRow) : VPNGateItem :=
  { row.item with
    lastSeenAt := match row.importedAgo with
      | none => 0
      | some ago => now - ago }

/-- An addition of manual rows: what `addManualServer` or `materializeImported` reads. -/
structure Addition where
  rows : List UserRow
  userHostNames : List JavaString
  favourites : List JavaString
  capSetting : Option Int
  order : RowOrder

/-- The rows that the user speaks of. -/
def Addition.userRows (a : Addition) (now : Int) : List VPNGateItem :=
  a.rows.map (UserRow.at now)

/-- `capForRetention`, of the stored rows and the manual ones. -/
def Addition.kept (a : Addition) (now : Int) (rows : List VPNGateItem) : List VPNGateItem :=
  capRetainedServers (withManualRows (a.order.of rows) (a.userRows now)) a.userHostNames
    (fun _ => none) (ServerListCap.current a.capSetting) a.favourites

/-- What is stored after the addition: an empty merge is not written. -/
def Addition.apply (a : Addition) (now : Int) (rows : List VPNGateItem) : List VPNGateItem :=
  if withManualRows (a.order.of rows) (a.userRows now) = [] then rows
  else replaceAll rows (a.kept now rows)

/-- What writes the table, `elapsed` milliseconds and one after the operation before. -/
inductive Operation
  | refresh (source : Source) (capability : SourceCapability) (elapsed : ℕ) (write : Write)
  | addManual (elapsed : ℕ) (addition : Addition)

/-! ### New rows and stored ones -/

/-- A manual row that is stored belongs to a host that the network does not serve. -/
theorem of_mem_withManualRows {networkRows manualRows : List VPNGateItem} {x : VPNGateItem}
    (hx : x ∈ withManualRows networkRows manualRows) :
    x ∈ networkRows ∨ x ∈ manualRows ∧ x.host ∉ networkRows.map VPNGateItem.host := by
  rw [withManualRows] at hx
  dsimp only at hx
  split_ifs at hx
  · exact Or.inl hx
  · exact Or.inl hx
  · rcases List.mem_append.mp (mem_of_mem_dedupeForStorage hx) with hnet | hfresh
    · exact Or.inl hnet
    · obtain ⟨hmanual, hhost⟩ := List.mem_filter.mp hfresh
      exact Or.inr ⟨hmanual, by simpa using hhost⟩

namespace Addition

variable {a : Addition} {now : Int} {t : Table}

theorem kept_unique : UniqueBy VPNGateItem.host (a.kept now t.rows) :=
  capRetainedServers_unique _ _ _ _
    (withManualRows_unique (t.unique.perm (a.order.perm t.rows).symm) _)

theorem apply_unique : UniqueBy VPNGateItem.host (a.apply now t.rows) := by
  rw [apply, replaceAll, dedupeForStorage_of_unique kept_unique]
  split_ifs
  · exact t.unique
  · exact t.unique
  · exact kept_unique

end Addition

variable {t : Table} {a : Addition} {now : Int} {y : VPNGateItem} {w : Write}

/-- What an addition stores is what the cap keeps, unless there is nothing to store. -/
theorem Addition.apply_eq (hne : withManualRows (a.order.of t.rows) (a.userRows now) ≠ []) :
    a.apply now t.rows = a.kept now t.rows := by
  have hkept : a.kept now t.rows ≠ [] :=
    capRetainedServers_ne_nil _ _ _ _ _ (ServerListCap.current_pos _) hne
  rw [Addition.apply, if_neg hne, replaceAll, if_neg hkept,
    dedupeForStorage_of_unique Addition.kept_unique]

/-- The table after an addition. -/
def Table.add (t : Table) (now : Int) (a : Addition) : Table where
  rows := a.apply now t.rows
  unique := Addition.apply_unique

/-! ### The state -/

/-- What the last accepted fresh refresh stamped, and when; of the hosts, those that are stored
    ever since. -/
structure Observation where
  time : Int
  hosts : List JavaString
  deriving DecidableEq

/-- The hosts that are still stored. -/
def Observation.still (f : Observation) (t : Table) : Observation :=
  { f with hosts := f.hosts.filter fun host => host ∈ t.rows.map VPNGateItem.host }

/-- The table, the time of the last operation, and the last fresh refresh. -/
structure History where
  table : Table
  clock : Int
  lastFresh : Option Observation

namespace Operation

/-- The write of a refresh, at its time. -/
def writeAt (source : Source) (now : Int) (w : Write) : Write :=
  { w with fetchedFromCache := decide (source ≠ .fresh), now := now }

/-- The verdict on the dataset of a refresh: only a cached one is compared with the size of the
    table. -/
def accepted (source : Source) (capability : SourceCapability) (w : Write) (t : Table) : Bool :=
  (evaluate w.incoming (w.order.of t.rows) capability t.rows.length
    (decide (source = .cache))).accepted

end Operation

/-- The hosts that a write stamps, if it is a fresh one. -/
def Write.stamped (w : Write) : List JavaString :=
  (withManualRows w.incoming w.manualRows).map VPNGateItem.host

/-- One operation. -/
def History.step (s : History) (op : Operation) : History :=
  match op with
  | .refresh source capability elapsed write =>
    let now := s.clock + 1 + elapsed
    let w := Operation.writeAt source now write
    if Operation.accepted source capability w s.table then
      let table := s.table.write w
      { table := table
        clock := now
        lastFresh :=
          if source = .fresh then some ((Observation.mk now w.stamped).still table)
          else s.lastFresh.map fun f => f.still table }
    else { s with clock := now }
  | .addManual elapsed addition =>
    let now := s.clock + 1 + elapsed
    let table := s.table.add now addition
    { table := table
      clock := now
      lastFresh := s.lastFresh.map fun f => f.still table }

/-- A history without a fresh refresh so far. -/
def History.start (s : Stored) : History := ⟨s.table, max 0 s.clock, none⟩

/-- **The baseline is the last fresh observation**: in whatever order the rows are read, those that
    a candidate is compared with are the stored ones that the last fresh refresh stamped. -/
def BaselineIsFresh (s : History) : Prop :=
  ∀ f ∈ s.lastFresh, ∀ rows, rows.Perm s.table.rows → ∀ x,
    x ∈ baselineOf rows ↔ x ∈ s.table.rows ∧ x.host ∈ f.hosts

/-! ### The condition -/

/-- What the cap keeps of the merged rows of a write. -/
def Write.kept (w : Write) (t : Table) : List VPNGateItem :=
  capRetainedServers (w.merged t.rows) w.manualHosts w.successCounts w.cap w.favourites

/-- **The operation keeps the baseline.** An accepted fresh refresh: the cap keeps one of its rows.
    Another accepted dataset: it keeps a row of the last fresh refresh, and none of a host that was
    not stored. An addition: it keeps a row of the last fresh refresh, and the hosts that were not
    stored were imported before that. -/
def Keeps (s : History) (op : Operation) : Prop :=
  match op with
  | .refresh source capability elapsed write =>
    let w := Operation.writeAt source (s.clock + 1 + elapsed) write
    Operation.accepted source capability w s.table = true →
      if source = .fresh then ∃ x ∈ w.kept s.table, x.host ∈ w.stamped
      else ∀ f ∈ s.lastFresh, (∃ x ∈ w.kept s.table, x.host ∈ f.hosts) ∧
        ∀ x ∈ w.kept s.table, x.host ∈ s.table.rows.map VPNGateItem.host
  | .addManual elapsed addition =>
    let kept := addition.kept (s.clock + 1 + elapsed) s.table.rows
    ∀ f ∈ s.lastFresh, (∃ x ∈ kept, x.host ∈ f.hosts) ∧
      ∀ x ∈ kept, x.host ∉ s.table.rows.map VPNGateItem.host → x.lastSeenAt < f.time

/-! ### The baseline of a table -/

/-- **When the newest rows are those of an observation.** Exactly when one of them is stored, and
    each row of another host is older. -/
theorem baseline_iff {rows : List VPNGateItem} {f : Observation} (hne : rows ≠ [])
    (hpos : 0 < f.time) (hstamped : ∀ x ∈ rows, x.host ∈ f.hosts → x.lastSeenAt = f.time) :
    (∀ x, x ∈ baselineOf rows ↔ x ∈ rows ∧ x.host ∈ f.hosts) ↔
      (∃ x ∈ rows, x.host ∈ f.hosts) ∧
        ∀ x ∈ rows, x.host ∉ f.hosts → x.lastSeenAt < f.time := by
  constructor
  · intro hbase
    obtain ⟨newest, hnewest⟩ : ∃ newest, (rows.map VPNGateItem.lastSeenAt).max? = some newest := by
      rw [← Option.isSome_iff_exists, List.isSome_max?_iff]
      simpa using hne
    obtain ⟨⟨y, hy, hymax⟩, hle⟩ : (∃ y ∈ rows, y.lastSeenAt = newest) ∧
        ∀ x ∈ rows, x.lastSeenAt ≤ newest := by
      have hmax := List.max?_eq_some_iff.mp hnewest
      simpa using hmax
    by_cases hseen : 0 < newest
    · -- the newest row is of the baseline, so it was stamped
      have hmem : ∀ x, x ∈ baselineOf rows ↔ x ∈ rows ∧ x.lastSeenAt = newest :=
        fun _ => mem_baselineOf_iff hseen hle ⟨y, hy, hymax⟩
      have hyhost := ((hbase y).mp ((hmem y).mpr ⟨hy, hymax⟩)).2
      have htime : f.time = newest := (hstamped y hy hyhost).symm.trans hymax
      refine ⟨⟨y, hy, hyhost⟩, ?_⟩
      intro x hx hhost
      have hne' : x.lastSeenAt ≠ newest := by
        intro hxmax
        exact hhost ((hbase x).mp ((hmem x).mpr ⟨hx, hxmax⟩)).2
      have := hle x hx
      omega
    · -- no row was ever seen, so all are of the baseline
      have hall : baselineOf rows = rows := by
        rw [baselineOf, hnewest]
        simp [hseen]
      have hyhost := ((hbase y).mp (by rwa [hall])).2
      have := hstamped y hy hyhost
      omega
  · rintro ⟨⟨y, hy, hyhost⟩, holder⟩ x
    have hle : ∀ x ∈ rows, x.lastSeenAt ≤ f.time := by
      intro x hx
      by_cases hhost : x.host ∈ f.hosts
      · exact Int.le_of_eq (hstamped x hx hhost)
      · exact Int.le_of_lt (holder x hx hhost)
    rw [mem_baselineOf_iff hpos hle ⟨y, hy, hstamped y hy hyhost⟩]
    constructor
    · rintro ⟨hx, htime⟩
      refine ⟨hx, ?_⟩
      by_contra hhost
      exact absurd htime (Int.ne_of_lt (holder x hx hhost))
    · rintro ⟨hx, hhost⟩
      exact ⟨hx, hstamped x hx hhost⟩

/-- The order of the rows is immaterial. -/
theorem mem_baselineOf_perm {rows rows' : List VPNGateItem} (hp : rows'.Perm rows)
    {x : VPNGateItem} : x ∈ baselineOf rows' ↔ x ∈ baselineOf rows := by
  have hmax : (rows'.map VPNGateItem.lastSeenAt).max? = (rows.map VPNGateItem.lastSeenAt).max? := by
    cases hrows : (rows.map VPNGateItem.lastSeenAt).max? with
    | none =>
      rw [List.max?_eq_none_iff, List.map_eq_nil_iff] at hrows ⊢
      subst hrows
      exact hp.eq_nil
    | some newest =>
      rw [List.max?_eq_some_iff] at hrows ⊢
      simpa [hp.mem_iff] using hrows
  simp only [baselineOf, hmax]
  split_ifs
  · simp [hp.mem_iff]
  · exact hp.mem_iff

/-- The invariant: no row was seen later than the last operation, the hosts of the last fresh
    refresh are stored, and their rows carry its time. -/
structure Inv (s : History) : Prop where
  clock : 0 ≤ s.clock
  seen : ∀ x ∈ s.table.rows, x.lastSeenAt ≤ s.clock
  time : ∀ f ∈ s.lastFresh, 0 < f.time ∧ f.time ≤ s.clock
  stored : ∀ f ∈ s.lastFresh, ∀ host ∈ f.hosts, host ∈ s.table.rows.map VPNGateItem.host
  stamped : ∀ f ∈ s.lastFresh, ∀ x ∈ s.table.rows, x.host ∈ f.hosts → x.lastSeenAt = f.time
  filled : s.lastFresh.isSome = true → s.table.rows ≠ []

variable {s : History}

/-- What the property says of a state of the invariant. -/
theorem baselineIsFresh_spec (hinv : Inv s) :
    BaselineIsFresh s ↔ ∀ f ∈ s.lastFresh, (∃ x ∈ s.table.rows, x.host ∈ f.hosts) ∧
      ∀ x ∈ s.table.rows, x.host ∉ f.hosts → x.lastSeenAt < f.time := by
  refine forall₂_congr fun f hf => ?_
  rw [← baseline_iff (hinv.filled (Option.isSome_of_mem hf)) (hinv.time f hf).1 (hinv.stamped f hf)]
  constructor
  · intro h
    exact h s.table.rows (List.Perm.refl _)
  · intro h rows hp x
    rw [mem_baselineOf_perm hp]
    exact h x

/-! ### One operation -/

/-- A table written over another without a fresh observation: a row of a stored host keeps its
    time, and the others were seen by now. -/
def Retouched (before after : Table) (now : Int) : Prop :=
  ∀ y ∈ after.rows,
    (∃ x ∈ before.rows, x.host = y.host ∧ x.lastSeenAt = y.lastSeenAt) ∨
      y.host ∉ before.rows.map VPNGateItem.host ∧ y.lastSeenAt ≤ now

theorem mem_still {f : Observation} (hy : y ∈ t.rows) :
    y.host ∈ (f.still t).hosts ↔ y.host ∈ f.hosts := by
  have hstored : ∃ x ∈ t.rows, x.host = y.host := ⟨y, hy, rfl⟩
  simp [Observation.still, hstored]

/-- The history after an operation that is no fresh refresh. -/
def History.retouched (s : History) (after : Table) (now : Int) : History where
  table := after
  clock := now
  lastFresh := s.lastFresh.map fun f => f.still after

section Retouched

variable {s : History} {after : Table} {now : Int}

theorem Inv.retouched (hinv : Inv s) (hrows : Retouched s.table after now) (hnow : s.clock < now)
    (hne : s.lastFresh.isSome = true → after.rows ≠ []) : Inv (s.retouched after now) where
  clock := by
    have := hinv.clock
    show 0 ≤ now
    omega
  seen y hy := by
    show y.lastSeenAt ≤ now
    rcases hrows y hy with ⟨x, hx, -, htime⟩ | ⟨-, hle⟩
    · have := hinv.seen x hx
      omega
    · exact hle
  time := by
    intro f' hf'
    obtain ⟨f, hf, rfl⟩ := Option.map_eq_some_iff.mp hf'
    obtain ⟨hpos, hle⟩ := hinv.time f hf
    refine ⟨hpos, ?_⟩
    show f.time ≤ now
    omega
  stored := by
    intro f' hf' host hhost
    obtain ⟨f, hf, rfl⟩ := Option.map_eq_some_iff.mp hf'
    show host ∈ after.rows.map VPNGateItem.host
    simpa using (List.mem_filter.mp hhost).2
  stamped := by
    intro f' hf' y hy hhost
    obtain ⟨f, hf, rfl⟩ := Option.map_eq_some_iff.mp hf'
    have hhost' : y.host ∈ f.hosts := (mem_still hy).mp hhost
    rcases hrows y hy with ⟨x, hx, hsame, htime⟩ | ⟨hnew, -⟩
    · rw [← htime]
      exact hinv.stamped f hf x hx (hsame ▸ hhost')
    · exact absurd (hinv.stored f hf _ hhost') hnew
  filled := by
    intro hsome
    refine hne ?_
    simpa [History.retouched] using hsome

/-- **What such an operation must not do**: leave no row of the last fresh refresh, or bring a row
    of a new host that is as new. -/
theorem baselineIsFresh_retouched (hinv : Inv s) (hfresh : BaselineIsFresh s)
    (hrows : Retouched s.table after now) (hnow : s.clock < now)
    (hne : s.lastFresh.isSome = true → after.rows ≠ []) :
    BaselineIsFresh (s.retouched after now) ↔
      ∀ f ∈ s.lastFresh, (∃ x ∈ after.rows, x.host ∈ f.hosts) ∧
        ∀ x ∈ after.rows, x.host ∉ s.table.rows.map VPNGateItem.host → x.lastSeenAt < f.time := by
  rw [baselineIsFresh_spec hinv] at hfresh
  rw [baselineIsFresh_spec (hinv.retouched hrows hnow hne)]
  constructor
  · intro h f hf
    obtain ⟨⟨y, hy, hhost⟩, holder⟩ := h (f.still after) (Option.mem_map_of_mem _ hf)
    refine ⟨⟨y, hy, (mem_still hy).mp hhost⟩, ?_⟩
    intro x hx hnew
    refine holder x hx ?_
    rw [mem_still hx]
    exact fun hold => hnew (hinv.stored f hf _ hold)
  · intro h f' hf'
    obtain ⟨f, hf, rfl⟩ := Option.map_eq_some_iff.mp hf'
    obtain ⟨⟨y, hy, hhost⟩, hnewer⟩ := h f hf
    refine ⟨⟨y, hy, (mem_still hy).mpr hhost⟩, ?_⟩
    intro x hx hold
    have hold' : x.host ∉ f.hosts := fun hhost => hold ((mem_still hx).mpr hhost)
    rcases hrows x hx with ⟨z, hz, hsame, htime⟩ | ⟨hnew, -⟩
    · -- a stored row that the last fresh refresh did not stamp was older before
      have hz' := (hfresh f hf).2 z hz (hsame ▸ hold')
      show x.lastSeenAt < f.time
      omega
    · exact hnewer x hx hnew

end Retouched

/-- Where a stored row of a write comes from: a new row over the stored one, if there is one, or a
    stored row of a host that the write does not speak of. -/
theorem cases_mem_write (hy : y ∈ (t.write w).rows) : (y.host ∈ w.stamped ∧ ∃ item,
      y = w.row (associateBy VPNGateItem.host (w.order.of t.rows) item.host) item) ∨
      y ∈ t.rows ∧ y.host ∉ w.stamped := by
  rcases List.mem_append.mp ((t.retains w).merged y hy) with hnew | hold
  · obtain ⟨item, hitem, rfl⟩ := List.mem_map.mp hnew
    refine Or.inl ⟨?_, item, rfl⟩
    rw [w.row_host]
    exact List.mem_map_of_mem hitem
  · obtain ⟨hstored, hquiet⟩ := List.mem_filter.mp hold
    exact Or.inr ⟨(w.order.perm _).mem_iff.mp hstored, by simpa [Write.stamped] using hquiet⟩

/-- A write of a fallback: a stored host keeps its time, and a new one is stamped now. -/
theorem cases_mem_fallback (hfallback : w.fetchedFromCache = true) (hy : y ∈ (t.write w).rows) :
    (∃ x ∈ t.rows, x.host = y.host ∧ x.lastSeenAt = y.lastSeenAt) ∨
      y.host ∉ t.rows.map VPNGateItem.host ∧ y.lastSeenAt = w.now := by
  rcases cases_mem_write hy with ⟨-, item, rfl⟩ | ⟨hstored, -⟩
  · rw [w.row_host]
    cases hfound : associateBy VPNGateItem.host (w.order.of t.rows) item.host with
    | some x =>
      obtain ⟨hx, hhost⟩ := associateBy_eq_some hfound
      refine Or.inl ⟨x, (w.order.perm _).mem_iff.mp hx, hhost, ?_⟩
      simp [Write.row, hfallback, fallbackRow]
    | none =>
      refine Or.inr ⟨?_, ?_⟩
      · intro hstored
        obtain ⟨x, hx, hhost⟩ := List.mem_map.mp hstored
        rw [← hhost, associateBy_stored w hx] at hfound
        exact absurd hfound (by simp)
      · simp [Write.row, hfallback, fallbackRow]
  · exact Or.inl ⟨y, hstored, rfl, rfl⟩

theorem write_retouched (hfallback : w.fetchedFromCache = true) :
    Retouched t (t.write w) w.now := by
  intro y hy
  rcases cases_mem_fallback hfallback hy with hstored | ⟨hnew, htime⟩
  · exact Or.inl hstored
  · exact Or.inr ⟨hnew, Int.le_of_eq htime⟩

/-- A write leaves no empty table. -/
theorem write_ne (t : Table) (w : Write) : (t.write w).rows ≠ [] := by
  rw [t.write_rows]
  refine capRetainedServers_ne_nil _ _ _ _ _ w.cap_pos ?_
  simp [Write.merged, mergedRows, w.withManual_ne]

/-- An addition: a stored row stays as it is, and a new one was seen by now. -/
theorem add_retouched (hnow : 0 ≤ now) : Retouched t (t.add now a) now := by
  intro y hy
  have hrows : (t.add now a).rows = a.apply now t.rows := rfl
  rw [hrows, Addition.apply] at hy
  split_ifs at hy with hempty
  · exact Or.inl ⟨y, hy, rfl, rfl⟩
  · have hkept : y ∈ a.kept now t.rows := by
      rwa [← Addition.apply_eq hempty, Addition.apply, if_neg hempty]
    rcases of_mem_withManualRows (mem_of_mem_capRetainedServers _ _ _ _ _ hkept) with
      hstored | ⟨hmanual, hhost⟩
    · exact Or.inl ⟨y, (a.order.perm _).mem_iff.mp hstored, rfl, rfl⟩
    · obtain ⟨row, -, rfl⟩ := List.mem_map.mp hmanual
      refine Or.inr ⟨?_, ?_⟩
      · simpa [(a.order.perm t.rows).mem_iff] using hhost
      · rw [UserRow.at]
        cases row.importedAgo with
        | none => exact hnow
        | some ago =>
          show now - ago ≤ now
          omega

theorem add_ne (hne : t.rows ≠ []) : (t.add now a).rows ≠ [] := by
  show a.apply now t.rows ≠ []
  by_cases hempty : withManualRows (a.order.of t.rows) (a.userRows now) = []
  · rwa [Addition.apply, if_pos hempty]
  · rw [Addition.apply_eq hempty]
    exact capRetainedServers_ne_nil _ _ _ _ _ (ServerListCap.current_pos _) hempty

/-- The history after a fresh refresh. -/
def History.refreshed (s : History) (w : Write) : History where
  table := s.table.write w
  clock := w.now
  lastFresh := some ((Observation.mk w.now w.stamped).still (s.table.write w))

section Refreshed

variable {s : History} {w : Write}

/-- A fresh write: its own rows are stamped now, and the others were stored before. -/
theorem cases_mem_fresh (hwrite : w.fetchedFromCache = false) {y : VPNGateItem}
    (hy : y ∈ (s.table.write w).rows) :
    y.host ∈ w.stamped ∧ y.lastSeenAt = w.now ∨ y.host ∉ w.stamped ∧ y ∈ s.table.rows := by
  rcases cases_mem_write hy with ⟨hstamped, item, rfl⟩ | ⟨hstored, hquiet⟩
  · refine Or.inl ⟨hstamped, ?_⟩
    simp [Write.row, hwrite, observedRow]
  · exact Or.inr ⟨hquiet, hstored⟩

theorem Inv.refreshed (hinv : Inv s) (hwrite : w.fetchedFromCache = false)
    (hnow : s.clock < w.now) : Inv (s.refreshed w) where
  clock := by
    have := hinv.clock
    show 0 ≤ w.now
    omega
  seen y hy := by
    show y.lastSeenAt ≤ w.now
    rcases cases_mem_fresh hwrite hy with ⟨-, htime⟩ | ⟨-, hstored⟩
    · exact Int.le_of_eq htime
    · have := hinv.seen y hstored
      omega
  time := by
    rintro f ⟨⟩
    have := hinv.clock
    refine ⟨?_, Int.le_refl _⟩
    show 0 < w.now
    omega
  stored := by
    rintro f ⟨⟩ host hhost
    show host ∈ (s.table.write w).rows.map VPNGateItem.host
    simpa using (List.mem_filter.mp hhost).2
  stamped := by
    rintro f ⟨⟩ y hy hhost
    rcases cases_mem_fresh hwrite hy with ⟨-, htime⟩ | ⟨hquiet, -⟩
    · exact htime
    · exact absurd ((mem_still hy).mp hhost) hquiet
  filled _ := write_ne s.table w

/-- **What a fresh refresh must not do**: have the cap cut all of its rows. -/
theorem baselineIsFresh_refreshed (hinv : Inv s) (hwrite : w.fetchedFromCache = false)
    (hnow : s.clock < w.now) :
    BaselineIsFresh (s.refreshed w) ↔ ∃ x ∈ w.kept s.table, x.host ∈ w.stamped := by
  have hkept : (s.table.write w).rows = w.kept s.table := s.table.write_rows w
  rw [baselineIsFresh_spec (hinv.refreshed hwrite hnow)]
  constructor
  · intro h
    obtain ⟨⟨y, hy, hhost⟩, -⟩ := h _ rfl
    exact ⟨y, hkept ▸ hy, (mem_still hy).mp hhost⟩
  · rintro ⟨y, hy, hhost⟩ f ⟨⟩
    rw [← hkept] at hy
    refine ⟨⟨y, hy, (mem_still hy).mpr hhost⟩, ?_⟩
    intro x hx hold
    show x.lastSeenAt < w.now
    rcases cases_mem_fresh hwrite hx with ⟨hstamped, -⟩ | ⟨-, hstored⟩
    · exact absurd ((mem_still hx).mpr hstamped) hold
    · have := hinv.seen x hstored
      omega

end Refreshed

/-- **What another write must not do**: have the cap cut all rows of the last fresh refresh, or
    store a host that was not stored, for that row is stamped now. -/
theorem baselineIsFresh_fallback (hinv : Inv s) (hfresh : BaselineIsFresh s)
    (hwrite : w.fetchedFromCache = true) (hnow : s.clock < w.now) :
    BaselineIsFresh (s.retouched (s.table.write w) w.now) ↔
      ∀ f ∈ s.lastFresh, (∃ x ∈ w.kept s.table, x.host ∈ f.hosts) ∧
        ∀ x ∈ w.kept s.table, x.host ∈ s.table.rows.map VPNGateItem.host := by
  have hkept : (s.table.write w).rows = w.kept s.table := s.table.write_rows w
  rw [baselineIsFresh_retouched hinv hfresh (write_retouched hwrite) hnow
    fun _ => write_ne s.table w, ← hkept]
  refine forall₂_congr fun f hf => and_congr_right fun _ => forall₂_congr fun x hx => ?_
  constructor
  · intro holder
    by_contra hnew
    rcases cases_mem_fallback hwrite hx with ⟨y, hy, hhost, -⟩ | ⟨-, htime⟩
    · exact hnew (hhost ▸ List.mem_map_of_mem hy)
    · have hstamped := holder hnew
      have hbefore := (hinv.time f hf).2
      omega
  · intro hstored hnew
    exact absurd hstored hnew

/-- **What an addition must not do**: have the cap cut all rows of the last fresh refresh, or store
    a host that was imported since. -/
theorem baselineIsFresh_add (hinv : Inv s) (hfresh : BaselineIsFresh s) (hnow : s.clock < now) :
    BaselineIsFresh (s.retouched (s.table.add now a) now) ↔
      ∀ f ∈ s.lastFresh, (∃ x ∈ a.kept now s.table.rows, x.host ∈ f.hosts) ∧
        ∀ x ∈ a.kept now s.table.rows, x.host ∉ s.table.rows.map VPNGateItem.host →
          x.lastSeenAt < f.time := by
  have hclock : 0 ≤ now := by
    have := hinv.clock
    omega
  rw [baselineIsFresh_retouched hinv hfresh (add_retouched hclock) hnow
    fun hsome => add_ne (hinv.filled hsome)]
  refine forall₂_congr fun f hf => ?_
  have hrows : s.table.rows ≠ [] := hinv.filled (Option.isSome_of_mem hf)
  have hmerged : withManualRows (a.order.of s.table.rows) (a.userRows now) ≠ [] := by
    obtain ⟨x, hx⟩ := List.exists_mem_of_ne_nil _ hrows
    obtain ⟨y, hy, -⟩ : ∃ y ∈ withManualRows (a.order.of s.table.rows) (a.userRows now),
        y.host = x.host := exists_mem_withManualRows ((a.order.perm _).mem_iff.mpr hx)
    exact List.ne_nil_of_mem hy
  have hkept : (s.table.add now a).rows = a.kept now s.table.rows := Addition.apply_eq hmerged
  rw [hkept]

/-! ### Runs -/

/-- What a refresh comes to: a fresh one, another write, or nothing but time. -/
theorem step_refresh (s : History) (source : Source) (capability : SourceCapability)
    (elapsed : ℕ) (write : Write) :
    s.step (.refresh source capability elapsed write) =
      let w := Operation.writeAt source (s.clock + 1 + elapsed) write
      if Operation.accepted source capability w s.table then
        if source = .fresh then s.refreshed w else s.retouched (s.table.write w) w.now
      else { s with clock := w.now } := by
  simp only [History.step]
  split_ifs with hfresh
  · rfl
  · rfl
  · rfl

theorem Inv.later (hinv : Inv s) (hnow : s.clock < now) : Inv { s with clock := now } where
  clock := by
    have := hinv.clock
    show 0 ≤ now
    omega
  seen x hx := by
    have := hinv.seen x hx
    show x.lastSeenAt ≤ now
    omega
  time f hf := by
    obtain ⟨hpos, hle⟩ := hinv.time f hf
    refine ⟨hpos, ?_⟩
    show f.time ≤ now
    omega
  stored := hinv.stored
  stamped := hinv.stamped
  filled := hinv.filled

/-- **Step.** The invariant is kept, and an operation leaves the property exactly when it keeps
    the baseline. -/
theorem step_spec (hinv : Inv s) (op : Operation) :
    Inv (s.step op) ∧ (BaselineIsFresh s → (BaselineIsFresh (s.step op) ↔ Keeps s op)) := by
  cases op with
  | refresh source capability elapsed write =>
    rw [step_refresh]
    dsimp only [Keeps]
    have hnow : s.clock < (Operation.writeAt source (s.clock + 1 + elapsed) write).now := by
      show s.clock < s.clock + 1 + elapsed
      omega
    have hcache : (Operation.writeAt source (s.clock + 1 + elapsed) write).fetchedFromCache =
        decide (source ≠ .fresh) := rfl
    generalize Operation.writeAt source (s.clock + 1 + elapsed) write = w at *
    by_cases haccepted : Operation.accepted source capability w s.table = true
    · by_cases hsource : source = .fresh
      · have hwrite : w.fetchedFromCache = false := by simp [hcache, hsource]
        rw [if_pos haccepted, if_pos hsource]
        simp only [haccepted, forall_const]
        rw [if_pos hsource]
        exact ⟨hinv.refreshed hwrite hnow, fun _ => baselineIsFresh_refreshed hinv hwrite hnow⟩
      · have hwrite : w.fetchedFromCache = true := by simp [hcache, hsource]
        rw [if_pos haccepted, if_neg hsource]
        simp only [haccepted, forall_const]
        rw [if_neg hsource]
        exact ⟨hinv.retouched (write_retouched hwrite) hnow fun _ => write_ne s.table w,
          fun hfresh => baselineIsFresh_fallback hinv hfresh hwrite hnow⟩
    · -- a refused dataset changes nothing
      rw [if_neg haccepted]
      refine ⟨hinv.later hnow, fun hfresh => ?_⟩
      constructor
      · intro _ haccept
        exact absurd haccept haccepted
      · intro _
        exact hfresh
  | addManual elapsed addition =>
    have hnow : s.clock < s.clock + 1 + elapsed := by omega
    have hclock : 0 ≤ s.clock + 1 + elapsed := by
      have := hinv.clock
      omega
    exact ⟨hinv.retouched (add_retouched hclock) hnow fun hsome => add_ne (hinv.filled hsome),
      fun hfresh => baselineIsFresh_add hinv hfresh hnow⟩

/-- **When the baseline is the last fresh observation.** Throughout a run exactly when every
    operation of it keeps the baseline. -/
theorem baselineIsFresh_iff (s : Stored) (ops : List Operation) :
    Always History.step BaselineIsFresh (History.start s) ops ↔
      Along History.step Keeps (History.start s) ops := by
  have hstart : Inv (History.start s) :=
    { clock := by
        show 0 ≤ max 0 s.clock
        omega
      seen := by
        intro x hx
        have := s.seen x hx
        show x.lastSeenAt ≤ max 0 s.clock
        omega
      time := nofun
      stored := nofun
      stamped := nofun
      filled := nofun }
  exact always_iff_along (fun _ op hinv => (step_spec hinv op).1)
    (fun _ op hinv hfresh => (step_spec hinv op).2 hfresh) hstart nofun ops

/-! ### A merge that takes the baseline over -/

/-- A refresh of rows with the given numbers. -/
def sampleRefresh (source : Source) (numbers : List ℕ)
    (hne : numbers ≠ []) : Operation :=
  .refresh source .UNKNOWN 1000
    { fetchedFromCache := false
      usable := numbers.map (numberedRow · 0)
      usable_ne := by simpa using hne
      manualRows := []
      now := 0
      successCounts := fun _ => none
      favourites := []
      capSetting := none
      order := ⟨id, fun rows => List.Perm.refl rows⟩ }

/-- Ten hosts are observed; then the snapshot lists nine of them and one that is not stored. -/
def takenOver : List Operation :=
  [sampleRefresh .fresh (List.range 10) (by decide),
    sampleRefresh .cache (List.range' 1 10) (by decide)]

/-- Nothing is stored at first. -/
def emptyStored : Stored := ⟨⟨[], by decide⟩, 0, fun _ hx => absurd hx List.not_mem_nil⟩

/-- The row of the new host alone is the baseline from then on, too small to compare anything
    with. -/
theorem baseline_taken_over :
    ¬ Always History.step BaselineIsFresh (History.start emptyStored) takenOver := by
  have hfacts : (run History.step (History.start emptyStored) takenOver).lastFresh =
        some ⟨1001, (List.range 10).map fun i => [UInt16.ofNat (0x61 + i)]⟩ ∧
      baselineOf (run History.step (History.start emptyStored) takenOver).table.rows =
        [numberedRow 10 2002] := by decide
  intro h
  have hend := always_iff.mp h takenOver (List.prefix_refl _)
  generalize run History.step (History.start emptyStored) takenOver = s at hend hfacts
  obtain ⟨hfresh, hbase⟩ := hfacts
  have hmem := hend _ hfresh _ (List.Perm.refl _) (numberedRow 10 2002)
  rw [hbase] at hmem
  exact absurd (hmem.mp (List.mem_singleton.mpr rfl)).2 (by decide)

end SoftEther.Repository
