import Mathlib.Data.List.Dedup
import SoftEther.Repository.ManualQuota

namespace SoftEther.Repository

open Lib

/-!
# The report of an import (`ManualImportStore.addWithinQuota`)

An import asks for as many slots as it has rows of new hosts, and a host may have several of them.
The loop then takes one slot a host and counts the other rows of it as updates. So a repeated host
is granted, counted and rejected differently.

* `addWithinQuota` — one import, on its own: its report and the rows that are stored after it;
* `addWithinQuota_run` — the rows are those of an import that no other call interrupts;
* `Accounted` — the report agrees with the stored rows;
* `newHosts`, `loop_invariant` — the hosts that an import adds, and what its loop has counted;
* `ReportsTruly`, `addWithinQuota_accounted_iff` — the imports whose report agrees.
-/

/-! ### One import -/

/-- `ManualServerAdmission`, without its count. -/
structure Admission where
  quota : ℕ
  totalCapacity : ℕ

/-- How `write` ends: the new file is in place; or it failed, and the old one is back or still set
    aside. -/
inductive WriteOutcome
  | installed
  | restored
  | lost
  deriving DecidableEq

/-- `QuotaAddResult`. -/
structure QuotaAddResult where
  added : ℕ
  updated : ℕ
  quotaRejected : ℕ
  manualCount : ℕ
  quota : ℕ
  totalCapacity : ℕ
  persisted : Bool

/-- The rows of a batch whose host is not stored. -/
def newRows (stored items : List VPNGateItem) : ℕ :=
  items.countP fun item => item.host ≠ [] ∧ item.host ∉ stored.map VPNGateItem.host

/-- The slots that an import is granted; `room` records are in the other store. -/
def grantedSlots (quota room : ℕ) (stored items : List VPNGateItem) : ℕ :=
  allowance quota (room + stored.length) (newRows stored items)

/-- The loop of an import. -/
def importLoop (quota room : ℕ) (stored items : List VPNGateItem) : Batch :=
  Batch.over stored items (some (grantedSlots quota room stored items))

/-- The report, of what the loop counted or of a write that failed. -/
def quotaReport (admission : Admission) (room : ℕ) (stored items : List VPNGateItem)
    (added updated : ℕ) (persisted : Bool) : QuotaAddResult where
  added := added
  updated := updated
  quotaRejected := newRows stored items - added
  manualCount := room + stored.length + grantedSlots admission.quota room stored items
  quota := admission.quota
  totalCapacity := admission.totalCapacity
  persisted := persisted

/-- `addWithinQuota`, and the rows that are stored after it. -/
def addWithinQuota (admission : Admission) (room : ℕ) (stored items : List VPNGateItem)
    (outcome : WriteOutcome) : QuotaAddResult × List VPNGateItem :=
  let b := importLoop admission.quota room stored items
  let report := quotaReport admission room stored items
  if b.added > 0 || b.updated > 0 then
    match outcome with
    | .installed => (report b.added b.updated true, b.rows)
    | .restored => (report 0 0 false, stored)
    | .lost => (report 0 0 false, [])
  else (report b.added b.updated true, stored)

/-- **An import that no other call interrupts** leaves these rows. -/
theorem addWithinQuota_run (admission : Admission) (table : ManualTable)
    (stored items : List VPNGateItem) (writeOk : Bool) :
    (run (QuotaState.step admission.quota) (QuotaState.start table stored)
      [.enter (.batch items), .count true, .count true, .lookup true,
        .write true writeOk]).imported =
      (addWithinQuota admission table.rows.length stored items
        (if writeOk then .installed else .restored)).2 := by
  have hrun : (run (QuotaState.step admission.quota) (QuotaState.start table stored)
      [.enter (.batch items), .count true, .count true, .lookup true,
        .write true writeOk]).imported =
      if writeOk then ((ImportCall.addWithinQuota items
        (grantedSlots admission.quota table.rows.length stored items)).result stored).getD stored
      else stored := rfl
  rw [hrun]
  unfold addWithinQuota ImportCall.result
  dsimp only [importLoop]
  cases writeOk with
  | false => split_ifs <;> rfl
  | true => split_ifs <;> rfl

/-! ### The property and the condition -/

/-- The hosts of some rows that other rows do not have. -/
def hostsBeyond (stored rows : List VPNGateItem) : List JavaString :=
  (rows.map VPNGateItem.host).dedup.filter (· ∉ stored.map VPNGateItem.host)

/-- **The report agrees with what is stored.** -/
structure Accounted (room : ℕ) (stored items : List VPNGateItem)
    (res : QuotaAddResult × List VPNGateItem) : Prop where
  added : res.1.added = (hostsBeyond stored res.2).length
  total : res.1.updated + res.1.added + res.1.quotaRejected = items.countP (·.host ≠ [])
  rejected : res.1.quotaRejected ≤
    items.countP fun item => item.host ≠ [] ∧ item.host ∉ res.2.map VPNGateItem.host
  manualCount : res.1.manualCount = room + res.2.length

/-- The new hosts of a batch, in the order of their first rows. -/
def newHosts (stored items : List VPNGateItem) : List JavaString :=
  addMissing [] ((items.map VPNGateItem.host).filter fun host =>
    host ≠ [] ∧ host ∉ stored.map VPNGateItem.host)

/-- The new hosts that there is room for. -/
def admitted (quota room : ℕ) (stored items : List VPNGateItem) : List JavaString :=
  (newHosts stored items).take (quota - (room + stored.length))

/-- The import has rows to write: one of a host that is stored, or one that there is room for. -/
def Writes (quota room : ℕ) (stored items : List VPNGateItem) : Prop :=
  (∃ item ∈ items, item.host ≠ [] ∧ item.host ∈ stored.map VPNGateItem.host) ∨
    admitted quota room stored items ≠ []

/-- **The report is true**: if there is anything to write, the write succeeds, no two stored rows
    have one host, and no two rows of the batch have one of the new hosts that there is room for. -/
def ReportsTruly (quota room : ℕ) (stored items : List VPNGateItem) (outcome : WriteOutcome) :
    Prop :=
  Writes quota room stored items → outcome = .installed ∧ UniqueBy VPNGateItem.host stored ∧
    ∀ host ∈ admitted quota room stored items, items.countP (·.host = host) = 1

/-! ### The loop -/

section Loop

variable {stored items : List VPNGateItem} {granted : ℕ}

variable (stored items) in
theorem mem_newHosts (host : JavaString) : host ∈ newHosts stored items ↔
    host ≠ [] ∧ host ∉ stored.map VPNGateItem.host ∧ host ∈ items.map VPNGateItem.host := by
  simp only [newHosts, mem_addMissing, List.not_mem_nil, false_or, List.mem_filter,
    decide_eq_true_eq]
  tauto

theorem nodup_newHosts (stored items : List VPNGateItem) : (newHosts stored items).Nodup :=
  nodup_addMissing List.nodup_nil _

variable (stored items) in
/-- One row more: its host is new, or there is nothing new about it. -/
theorem newHosts_concat (item : VPNGateItem) : newHosts stored (items ++ [item]) =
    if item.host = [] ∨ item.host ∈ stored.map VPNGateItem.host ∨ item.host ∈ newHosts stored items
    then newHosts stored items else newHosts stored items ++ [item.host] := by
  rw [newHosts, List.map_append, List.filter_append, List.map_singleton]
  by_cases hnew : item.host ≠ [] ∧ item.host ∉ stored.map VPNGateItem.host
  · rw [List.filter_cons_of_pos (by simpa using hnew), List.filter_nil, addMissing_concat]
    split_ifs with hold hcond hcond
    · rfl
    · exact absurd (Or.inr (Or.inr hold)) hcond
    · exact absurd hcond fun h => h.elim hnew.1 fun h => h.elim hnew.2 hold
    · rfl
  · rw [List.filter_cons_of_neg (by simpa using hnew), List.filter_nil, List.append_nil, if_pos]
    · rfl
    · tauto

/-- **What the loop has done** with the rows so far: it has added the new hosts that it had slots
    for, and has counted the rows of these and of the stored hosts. -/
structure LoopInv (stored items : List VPNGateItem) (granted : ℕ) (b : Batch) : Prop where
  keys : b.current.map Prod.fst =
    (associateByHost stored).map Prod.fst ++ (newHosts stored items).take granted
  added : b.added = ((newHosts stored items).take granted).length
  slots : b.slots = some (granted - b.added)
  counted : b.updated + b.added = items.countP fun item => item.host ≠ [] ∧
    (item.host ∈ stored.map VPNGateItem.host ∨ item.host ∈ (newHosts stored items).take granted)

theorem mem_keys_associateByHost {host : JavaString} :
    host ∈ (associateByHost stored).map Prod.fst ↔ host ∈ stored.map VPNGateItem.host := by
  simp [associateByHost, LinkedMap.mem_keys_putAll]

theorem loop_concat {b : Batch} (h : LoopInv stored items granted b) (item : VPNGateItem) :
    LoopInv stored (items ++ [item]) granted (b.item item) := by
  have hread : (b.current.read item.host).isSome = true ↔ item.host ∈ stored.map VPNGateItem.host ∨
      item.host ∈ (newHosts stored items).take granted := by
    rw [← mem_keys_associateByHost, ← List.mem_append, ← h.keys, ← not_iff_not,
      ← LinkedMap.read_eq_none]
    simp
  have hconcat := newHosts_concat stored items item
  -- rows that change no host that is added
  have hsame : ∀ b' : Batch, (newHosts stored (items ++ [item])).take granted =
      (newHosts stored items).take granted → b'.current.map Prod.fst = b.current.map Prod.fst →
      b'.added = b.added → b'.slots = b.slots →
      b'.updated = b.updated + (if item.host ≠ [] ∧ (item.host ∈ stored.map VPNGateItem.host ∨
        item.host ∈ (newHosts stored items).take granted) then 1 else 0) →
      LoopInv stored (items ++ [item]) granted b' := by
    intro b' htake hkeys hadded hslots hupdated
    refine ⟨?_, ?_, ?_, ?_⟩
    · rw [hkeys, h.keys, htake]
    · rw [hadded, h.added, htake]
    · rw [hslots, hadded, h.slots]
    · rw [hupdated, hadded, htake, List.countP_append, ← h.counted, List.countP_singleton]
      simp only [decide_eq_true_eq]
      omega
  rw [Batch.item]
  split_ifs with hblank hknown hfull
  · -- a row without a host
    refine hsame b ?_ rfl rfl rfl ?_
    · rw [hconcat, if_pos (Or.inl hblank)]
    · simp [hblank]
  · -- a host that is stored or was added before
    refine hsame _ ?_ ?_ rfl rfl ?_
    · rw [hconcat, if_pos]
      rcases hread.mp hknown with hstored | hadded
      · exact Or.inr (Or.inl hstored)
      · exact Or.inr (Or.inr (List.mem_of_mem_take hadded))
    · rw [LinkedMap.keys_put, if_pos]
      by_contra hnone
      rw [LinkedMap.read_eq_none.mpr hnone] at hknown
      cases hknown
    · rw [if_pos ⟨hblank, hread.mp hknown⟩]
  · -- there is no slot left
    have hlong : granted ≤ (newHosts stored items).length := by
      have hslots := h.slots
      have hadded := h.added
      rw [hfull, Option.some.injEq] at hslots
      rw [List.length_take] at hadded
      omega
    refine hsame b ?_ rfl rfl rfl ?_
    · rw [hconcat]
      split_ifs
      · rfl
      · rw [List.take_append_of_le_length hlong]
    · rw [if_neg fun hold => hknown (hread.mpr hold.2)]
      rfl
  · -- a new host takes a slot
    have hroom : (newHosts stored items).length < granted := by
      have hslots := h.slots
      have hadded := h.added
      have hleft : granted - b.added ≠ 0 := fun h => hfull (hslots.trans (by rw [h]))
      rw [List.length_take] at hadded
      omega
    have hall : (newHosts stored items).take granted = newHosts stored items :=
      List.take_of_length_le hroom.le
    have hnew : ¬ (item.host = [] ∨ item.host ∈ stored.map VPNGateItem.host ∨
        item.host ∈ newHosts stored items) := by
      rw [hall] at hread
      exact fun hold => hold.elim hblank fun hold => hknown (hread.mpr hold)
    rw [if_neg hnew] at hconcat
    have hmore : (newHosts stored (items ++ [item])).take granted =
        newHosts stored items ++ [item.host] := by
      rw [hconcat]
      apply List.take_of_length_le
      rw [List.length_append, List.length_singleton]
      omega
    have hkeys := h.keys
    have hadded := h.added
    have hcounted := h.counted
    rw [hall] at hkeys hadded hcounted
    refine ⟨?_, ?_, ?_, ?_⟩
    · have hput : item.host ∉ b.current.map Prod.fst :=
        LinkedMap.read_eq_none.mp (by simpa using hknown)
      rw [hmore, LinkedMap.keys_put, if_neg hput, hkeys, List.append_assoc]
    · rw [hmore, List.length_append, List.length_singleton, hadded]
    · rw [h.slots, Option.map_some, Nat.sub_sub]
    · -- no row before it has the new host
      have hbefore : items.countP (fun row => row.host ≠ [] ∧
          (row.host ∈ stored.map VPNGateItem.host ∨
            row.host ∈ newHosts stored items ++ [item.host])) =
          items.countP fun row => row.host ≠ [] ∧
            (row.host ∈ stored.map VPNGateItem.host ∨ row.host ∈ newHosts stored items) := by
        refine List.countP_congr fun row hrow => ?_
        have hmem := mem_newHosts stored items row.host
        have hin : row.host ∈ items.map VPNGateItem.host := List.mem_map_of_mem hrow
        simp only [decide_eq_true_eq, List.mem_append, List.mem_singleton]
        tauto
      rw [hmore, List.countP_append, hbefore, ← hcounted, List.countP_singleton]
      simp [hblank]
      omega

/-- **The loop** over a whole batch. -/
theorem loop_invariant (stored items : List VPNGateItem) (granted : ℕ) :
    LoopInv stored items granted (Batch.over stored items (some granted)) := by
  induction items using List.reverseRecOn with
  | nil => exact ⟨by simp [Batch.over, newHosts], by simp [Batch.over, newHosts], rfl, rfl⟩
  | append_singleton items item ih =>
    have hover : Batch.over stored (items ++ [item]) (some granted) =
        (Batch.over stored items (some granted)).item item := List.foldl_append
    rw [hover]
    exact loop_concat ih item

end Loop

/-! ### Counting rows -/

section Counting

variable {α κ : Type*} [DecidableEq κ]

theorem countP_split {p q r : α → Prop} [DecidablePred p] [DecidablePred q] [DecidablePred r]
    {xs : List α} (h : ∀ x ∈ xs, (p x ↔ q x ∨ r x) ∧ ¬ (q x ∧ r x)) :
    xs.countP (fun x => p x) = xs.countP (fun x => q x) + xs.countP fun x => r x := by
  induction xs with
  | nil => rfl
  | cons x xs ih =>
    obtain ⟨hiff, hapart⟩ := h x List.mem_cons_self
    rw [List.countP_cons, List.countP_cons, List.countP_cons,
      ih fun y hy => h y (List.mem_cons_of_mem x hy)]
    simp only [decide_eq_true_eq, hiff]
    by_cases hq : q x
    · have hr : ¬ r x := fun hr => hapart ⟨hq, hr⟩
      simp only [hq, hr, or_false, if_true, if_false]
      omega
    · simp only [hq, false_or, if_false]
      omega

/-- Keys that all occur have no fewer rows, and as many only when each has one. -/
theorem countP_keys {key : α → κ} {xs : List α} {keys : List κ} (hnodup : keys.Nodup)
    (hoccur : ∀ k ∈ keys, 0 < xs.countP (key · = k)) :
    keys.length ≤ xs.countP (key · ∈ keys) ∧
      (xs.countP (key · ∈ keys) = keys.length ↔ ∀ k ∈ keys, xs.countP (key · = k) = 1) := by
  induction keys with
  | nil => simp
  | cons k keys ih =>
    obtain ⟨hnew, hrest⟩ := List.nodup_cons.mp hnodup
    obtain ⟨hle, hiff⟩ := ih hrest fun k' hk' => hoccur k' (List.mem_cons_of_mem k hk')
    have hpos := hoccur k List.mem_cons_self
    have hsplit : xs.countP (key · ∈ k :: keys) =
        xs.countP (key · = k) + xs.countP (key · ∈ keys) := by
      refine countP_split fun x _ => ⟨List.mem_cons, ?_⟩
      rintro ⟨hk, hmem⟩
      exact hnew (hk ▸ hmem)
    rw [hsplit, List.length_cons, List.forall_mem_cons, ← hiff]
    omega

end Counting

/-! ### The report -/

section Report

variable {stored items : List VPNGateItem} {quota room : ℕ} {outcome : WriteOutcome}

/-- The rows of new hosts are no fewer than these hosts. -/
theorem length_newHosts_le (stored items : List VPNGateItem) :
    (newHosts stored items).length ≤ newRows stored items := by
  refine (length_addMissing _).1.trans (le_of_eq ?_)
  rw [newRows, List.countP_eq_length_filter, ← List.length_map VPNGateItem.host]
  rw [List.filter_map]
  rfl

/-- What the loop adds is what there is room for. -/
theorem take_granted (quota room : ℕ) (stored items : List VPNGateItem) :
    (newHosts stored items).take (grantedSlots quota room stored items) =
      admitted quota room stored items := by
  rw [grantedSlots, allowance, Nat.min_comm, ← List.take_take,
    List.take_of_length_le (length_newHosts_le stored items)]
  rfl

/-- The hosts of the rows after the loop. -/
theorem hosts_importLoop (quota room : ℕ) (stored items : List VPNGateItem) :
    (importLoop quota room stored items).rows.map VPNGateItem.host =
      (associateByHost stored).map Prod.fst ++ admitted quota room stored items := by
  rw [← take_granted, ← (loop_invariant stored items _).keys, Batch.rows, List.map_map]
  exact List.map_congr_left fun e he => (over_spec stored items _).2 e he

/-- Storing rows by host keeps their number exactly when no two have one host. -/
theorem length_associateByHost (stored : List VPNGateItem) :
    (associateByHost stored).length ≤ stored.length ∧
      ((associateByHost stored).length = stored.length ↔ UniqueBy VPNGateItem.host stored) := by
  have hkeys := LinkedMap.keys_putAll [] (stored.map fun item => (item.host, item))
  have hcount := length_addMissing (stored.map VPNGateItem.host)
  have hfst : (stored.map fun item => (item.host, item)).map Prod.fst =
      stored.map VPNGateItem.host := by
    rw [List.map_map]
    rfl
  have hlength : (associateByHost stored).length =
      (addMissing [] (stored.map VPNGateItem.host)).length := by
    rw [← hfst, ← List.map_nil, ← hkeys, List.length_map]
    rfl
  rw [hlength]
  rw [List.length_map] at hcount
  exact hcount

/-- The rows of a batch whose host is stored. -/
def knownRows (stored items : List VPNGateItem) : ℕ :=
  items.countP fun item => item.host ≠ [] ∧ item.host ∈ stored.map VPNGateItem.host

/-- The rows of the new hosts that there is room for. -/
def admittedRows (quota room : ℕ) (stored items : List VPNGateItem) : ℕ :=
  items.countP (·.host ∈ admitted quota room stored items)

theorem mem_admitted {host : JavaString} (h : host ∈ admitted quota room stored items) :
    host ≠ [] ∧ host ∉ stored.map VPNGateItem.host ∧ host ∈ items.map VPNGateItem.host :=
  (mem_newHosts _ _ _).mp (List.mem_of_mem_take h)

/-- Every row with a host has a stored one or a new one. -/
theorem validRows_eq (stored items : List VPNGateItem) :
    items.countP (·.host ≠ []) = knownRows stored items + newRows stored items :=
  countP_split fun item _ => by tauto

/-- Every row of a new host is one that there is room for, or one of a host that is not stored
    after the loop. -/
theorem newRows_eq (quota room : ℕ) (stored items : List VPNGateItem) :
    newRows stored items = admittedRows quota room stored items +
      items.countP fun item => item.host ≠ [] ∧
        item.host ∉ (associateByHost stored).map Prod.fst ++ admitted quota room stored items := by
  refine countP_split fun item _ => ?_
  have hadmitted : item.host ∈ admitted quota room stored items →
      item.host ≠ [] ∧ item.host ∉ stored.map VPNGateItem.host :=
    fun h => ⟨(mem_admitted h).1, (mem_admitted h).2.1⟩
  rw [List.mem_append, mem_keys_associateByHost]
  tauto

/-- A new host that there is room for has a row, and they are as many as their rows exactly when
    each has one. -/
theorem length_admitted (quota room : ℕ) (stored items : List VPNGateItem) :
    (admitted quota room stored items).length ≤ admittedRows quota room stored items ∧
      (admittedRows quota room stored items = (admitted quota room stored items).length ↔
        ∀ host ∈ admitted quota room stored items, items.countP (·.host = host) = 1) := by
  have hnodup : (admitted quota room stored items).Nodup :=
    (nodup_newHosts stored items).sublist (List.take_sublist _ _)
  have hoccur : ∀ host ∈ admitted quota room stored items, 0 < items.countP (·.host = host) := by
    intro host hhost
    obtain ⟨item, hitem, hsame⟩ := List.mem_map.mp (mem_admitted hhost).2.2
    exact List.countP_pos_iff.mpr ⟨item, hitem, decide_eq_true hsame⟩
  unfold admittedRows
  convert countP_keys hnodup hoccur

/-- With a slot for each new host all new rows are of hosts that there is room for. -/
theorem admittedRows_of_room
    (h : (newHosts stored items).length ≤ grantedSlots quota room stored items) :
    admittedRows quota room stored items = newRows stored items := by
  refine List.countP_congr fun item hitem => ?_
  have hmem := mem_newHosts stored items item.host
  have hin : item.host ∈ items.map VPNGateItem.host := List.mem_map_of_mem hitem
  rw [← take_granted, List.take_of_length_le h, decide_eq_true_eq, decide_eq_true_eq, hmem]
  tauto

/-- What the loop counts: the rows of stored hosts, and those of the hosts it adds. -/
theorem counted_importLoop (quota room : ℕ) (stored items : List VPNGateItem) :
    (importLoop quota room stored items).added = (admitted quota room stored items).length ∧
      (importLoop quota room stored items).updated + (importLoop quota room stored items).added =
        knownRows stored items + admittedRows quota room stored items := by
  have hinv := loop_invariant stored items (grantedSlots quota room stored items)
  have hadded := hinv.added
  have hcounted := hinv.counted
  rw [take_granted] at hadded
  refine ⟨hadded, ?_⟩
  rw [importLoop, hcounted, take_granted]
  refine countP_split fun item _ => ?_
  have hadmitted : item.host ∈ admitted quota room stored items →
      item.host ≠ [] ∧ item.host ∉ stored.map VPNGateItem.host :=
    fun h => ⟨(mem_admitted h).1, (mem_admitted h).2.1⟩
  tauto

/-- There is something to write exactly when the loop has counted a row. -/
theorem writes_iff : Writes quota room stored items ↔
    0 < knownRows stored items + admittedRows quota room stored items := by
  have hknown : 0 < knownRows stored items ↔
      ∃ item ∈ items, item.host ≠ [] ∧ item.host ∈ stored.map VPNGateItem.host := by
    rw [knownRows, List.countP_pos_iff]
    simp only [decide_eq_true_eq]
  have hadmitted : 0 < admittedRows quota room stored items ↔
      admitted quota room stored items ≠ [] := by
    have hle := (length_admitted quota room stored items).1
    rw [← List.length_pos_iff]
    constructor
    · intro hrows
      obtain ⟨item, -, hhost⟩ := List.countP_pos_iff.mp hrows
      exact List.length_pos_of_mem (of_decide_eq_true hhost)
    · omega
  rw [Writes, ← hknown, ← hadmitted]
  omega

/-- The new hosts among the rows after the loop are those that there is room for. -/
theorem length_hostsBeyond (quota room : ℕ) (stored items : List VPNGateItem) :
    (hostsBeyond stored (importLoop quota room stored items).rows).length =
      (admitted quota room stored items).length := by
  have hnodup : (admitted quota room stored items).Nodup :=
    (nodup_newHosts stored items).sublist (List.take_sublist _ _)
  have hrows : (hostsBeyond stored (importLoop quota room stored items).rows).Nodup :=
    (List.nodup_dedup _).filter _
  refine ((List.perm_ext_iff_of_nodup hrows hnodup).mpr fun host => ?_).length_eq
  rw [hostsBeyond, List.mem_filter, List.mem_dedup, hosts_importLoop, List.mem_append,
    mem_keys_associateByHost, decide_eq_true_eq]
  have hadmitted : host ∈ admitted quota room stored items →
      host ∉ stored.map VPNGateItem.host := fun h => (mem_admitted h).2.1
  tauto

/-- No host of the rows themselves is beyond them. -/
theorem hostsBeyond_self (stored : List VPNGateItem) : hostsBeyond stored stored = [] := by
  rw [hostsBeyond, List.filter_eq_nil_iff]
  intro host hhost
  simpa using List.mem_dedup.mp hhost

/-- There is something to write. -/
theorem attempted_iff : ((importLoop quota room stored items).added > 0 ||
    (importLoop quota room stored items).updated > 0) = true ↔
      Writes quota room stored items := by
  have hcounted := (counted_importLoop quota room stored items).2
  rw [writes_iff, Bool.or_eq_true, decide_eq_true_eq, decide_eq_true_eq]
  omega

/-- An import without anything to write. -/
theorem accounted_idle (admission : Admission) (h : ¬ Writes admission.quota room stored items) :
    Accounted room stored items
      (quotaReport admission room stored items
        (importLoop admission.quota room stored items).added
        (importLoop admission.quota room stored items).updated true, stored) := by
  obtain ⟨hadded, hcounted⟩ := counted_importLoop admission.quota room stored items
  have hrows := (length_admitted admission.quota room stored items).1
  have hvalid := validRows_eq stored items
  rw [writes_iff] at h
  -- no slot is granted: a new host would have taken it
  have hgranted : grantedSlots admission.quota room stored items = 0 := by
    have htake := take_granted admission.quota room stored items
    have hlength := congrArg List.length htake
    have hle := length_newHosts_le stored items
    have hnone : newRows stored items = 0 ∨ newHosts stored items ≠ [] := by
      by_cases hnew : newRows stored items = 0
      · exact Or.inl hnew
      · obtain ⟨item, hitem, hhost⟩ := List.countP_pos_iff.mp (Nat.pos_of_ne_zero hnew)
        have hfresh := of_decide_eq_true hhost
        exact Or.inr (List.ne_nil_of_mem
          ((mem_newHosts _ _ _).mpr ⟨hfresh.1, hfresh.2, List.mem_map_of_mem hitem⟩))
    rw [List.length_take] at hlength
    rcases hnone with hnone | hsome
    · rw [grantedSlots, allowance]
      omega
    · have hpos := List.length_pos_iff.mpr hsome
      omega
  constructor
  · show (importLoop admission.quota room stored items).added = (hostsBeyond stored stored).length
    rw [hostsBeyond_self, List.length_nil]
    omega
  · show (importLoop admission.quota room stored items).updated +
      (importLoop admission.quota room stored items).added +
        (newRows stored items - (importLoop admission.quota room stored items).added) = _
    rw [hvalid]
    omega
  · exact Nat.sub_le _ _
  · show room + stored.length + grantedSlots admission.quota room stored items = _
    rw [hgranted, Nat.add_zero]

/-- A write that failed: the rows of stored hosts or the granted slots are not accounted for. -/
theorem not_accounted_failed (admission : Admission) (h : Writes admission.quota room stored items)
    {left : List VPNGateItem} (hleft : left.length ≤ stored.length) :
    ¬ Accounted room stored items (quotaReport admission room stored items 0 0 false, left) := by
  intro haccounted
  have hvalid := validRows_eq stored items
  have htotal : 0 + 0 + (newRows stored items - 0) = items.countP (·.host ≠ []) :=
    haccounted.total
  have hmanual : room + stored.length + grantedSlots admission.quota room stored items =
      room + left.length := haccounted.manualCount
  -- then the rows to write are all of hosts that were granted a slot
  have hrows := (length_admitted admission.quota room stored items).2
  have hlength := congrArg List.length (take_granted admission.quota room stored items)
  rw [writes_iff] at h
  have hadmitted : admittedRows admission.quota room stored items ≠ 0 := by omega
  obtain ⟨item, -, hhost⟩ := List.countP_pos_iff.mp (Nat.pos_of_ne_zero hadmitted)
  have hpos := List.length_pos_of_mem (of_decide_eq_true hhost)
  rw [List.length_take] at hlength
  omega

/-- A write that succeeded. -/
theorem accounted_installed_iff (admission : Admission) :
    Accounted room stored items
      (quotaReport admission room stored items
        (importLoop admission.quota room stored items).added
        (importLoop admission.quota room stored items).updated true,
        (importLoop admission.quota room stored items).rows) ↔
      UniqueBy VPNGateItem.host stored ∧
        ∀ host ∈ admitted admission.quota room stored items, items.countP (·.host = host) = 1 := by
  obtain ⟨hadded, hcounted⟩ := counted_importLoop admission.quota room stored items
  obtain ⟨hrows, honce⟩ := length_admitted admission.quota room stored items
  obtain ⟨hstored, hunique⟩ := length_associateByHost stored
  have hvalid := validRows_eq stored items
  have hnew := newRows_eq admission.quota room stored items
  have hhosts := hosts_importLoop admission.quota room stored items
  have hlength := congrArg List.length (take_granted admission.quota room stored items)
  have hnewHosts := length_newHosts_le stored items
  have hdisk : (importLoop admission.quota room stored items).rows.length =
      (associateByHost stored).length + (admitted admission.quota room stored items).length := by
    have hmap := congrArg List.length hhosts
    rwa [List.length_map, List.length_append, List.length_map] at hmap
  rw [List.length_take] at hlength
  rw [← hhosts] at hnew
  rw [← hunique, ← honce]
  constructor
  · intro haccounted
    have htotal : (importLoop admission.quota room stored items).updated +
        (importLoop admission.quota room stored items).added +
          (newRows stored items - (importLoop admission.quota room stored items).added) =
            items.countP (·.host ≠ []) := haccounted.total
    have hmanual : room + stored.length + grantedSlots admission.quota room stored items =
        room + (importLoop admission.quota room stored items).rows.length := haccounted.manualCount
    omega
  · rintro ⟨hsame, hone⟩
    refine ⟨?_, ?_, ?_, ?_⟩
    · exact hadded.trans (length_hostsBeyond admission.quota room stored items).symm
    · show (importLoop admission.quota room stored items).updated +
        (importLoop admission.quota room stored items).added +
          (newRows stored items - (importLoop admission.quota room stored items).added) = _
      omega
    · show newRows stored items - (importLoop admission.quota room stored items).added ≤
        items.countP fun item => item.host ≠ [] ∧
          item.host ∉ (importLoop admission.quota room stored items).rows.map VPNGateItem.host
      omega
    · show room + stored.length + grantedSlots admission.quota room stored items =
        room + (importLoop admission.quota room stored items).rows.length
      have hgranted : grantedSlots admission.quota room stored items ≤ newRows stored items :=
        Nat.min_le_left _ _
      -- with a slot for each new host, each new row has a host of its own
      by_cases hroom : (newHosts stored items).length ≤
          grantedSlots admission.quota room stored items
      · have hall := admittedRows_of_room hroom
        omega
      · omega

/-- **The report of an import agrees with what is stored** exactly when it has nothing to write, or
    the write succeeds, no two stored rows have one host, and no two rows of the batch have one of
    the new hosts that there is room for. -/
theorem addWithinQuota_accounted_iff (admission : Admission) (room : ℕ)
    (stored items : List VPNGateItem) (outcome : WriteOutcome) :
    Accounted room stored items (addWithinQuota admission room stored items outcome) ↔
      ReportsTruly admission.quota room stored items outcome := by
  unfold addWithinQuota
  dsimp only
  by_cases hwrites : Writes admission.quota room stored items
  · rw [if_pos (attempted_iff.mpr hwrites)]
    cases outcome with
    | installed =>
      refine (accounted_installed_iff admission).trans ?_
      exact ⟨fun h _ => ⟨rfl, h⟩, fun h => (h hwrites).2⟩
    | restored =>
      refine iff_of_false (not_accounted_failed admission hwrites le_rfl) fun h => ?_
      cases (h hwrites).1
    | lost =>
      refine iff_of_false (not_accounted_failed admission hwrites (Nat.zero_le _)) fun h => ?_
      cases (h hwrites).1
  · rw [if_neg (mt attempted_iff.mp hwrites)]
    exact iff_of_true (accounted_idle admission hwrites) fun h => absurd h hwrites

/-- **A host that stands twice in a batch**: one row is added, one is counted as an update and one
    as rejected, and two records are reported where there is one. -/
theorem addWithinQuota_repeated_host :
    ¬ ∀ (admission : Admission) (room : ℕ) (stored items : List VPNGateItem)
      (outcome : WriteOutcome),
      Accounted room stored items (addWithinQuota admission room stored items outcome) := by
  intro hall
  have htotal := (hall ⟨250, 500⟩ 0 [] [numberedRow 0 0, numberedRow 0 1] .installed).total
  exact absurd htotal (by decide)

end Report

end SoftEther.Repository
