import SoftEther.Lib.Transition
import SoftEther.Repository.ServerRow

namespace SoftEther.Repository

open Lib Std

/-!
# Cumulative retention (`ServerListUpdates.kt`)

An accepted write reads the stored rows, lays the incoming and the manual rows over them, cuts the
result down to the capacity and stores it.

* `withManualRows`, `capRetainedServers`, `mergeAll`, `mergeFallback` — the functions of the source;
* `Table` — the stored rows, one per identity;
* `Write`, `Table.write` — an accepted write, as the updater makes it;
* `capRetainedServers_split` — what the cap keeps and what it cuts;
* `retention` — no accepted write of any run loses a server but to the cap.
-/

/-! ### The functions of the source -/

/-- `withManualRows`: the manual rows whose host the network does not serve come after it. -/
def withManualRows (networkRows manualRows : List VPNGateItem) : List VPNGateItem :=
  if manualRows = [] then networkRows
  else
    let fresh := manualRows.filter fun row => row.host ∉ networkRows.map VPNGateItem.host
    if fresh = [] then networkRows else dedupeForStorage (networkRows ++ fresh)

/-- The order of the cap: quality, protocol breadth, history, recency, and the host name last. -/
def retentionOrder (successCounts : JavaString → Option Int) :
    VPNGateItem → VPNGateItem → Ordering :=
  compareLex (compareByDescending VPNGateItem.healthScore) <|
  compareLex (compareByDescending VPNGateItem.connectOptions) <|
  compareLex (compareByDescending fun row => (successCounts row.host).getD 0) <|
  compareLex (compareByDescending VPNGateItem.lastSeenAt) <|
  compareBy VPNGateItem.host

/-- `ServerListCap.current`: the setting within its bounds, or the default. -/
def ServerListCap.current (setting : Option Int) : ℕ :=
  match setting with
  | none => 300
  | some value => (max 10 (min 2000 value)).toNat

theorem ServerListCap.current_pos (setting : Option Int) : 0 < ServerListCap.current setting := by
  cases setting with
  | none => decide
  | some value =>
    show 0 < (max 10 (min 2000 value)).toNat
    omega

/-- `capRetainedServers`. -/
def capRetainedServers (rows : List VPNGateItem) (manualHostNames : List JavaString)
    (successCounts : JavaString → Option Int) (cap : ℕ) (favouriteHostNames : List JavaString) :
    List VPNGateItem :=
  if rows.length ≤ cap then rows
  else
    let protectedHosts := manualHostNames ++ favouriteHostNames
    let manual := rows.filter fun row => row.host ∈ protectedHosts
    let network := rows.filter fun row => row.host ∉ protectedHosts
    let room := cap - manual.length
    if network.length ≤ room then rows
    else manual ++ best (retentionOrder successCounts) room network

/-- `retentionHealthScore`. -/
def retentionHealthScore (item : VPNGateItem) (lastSeenAt : Int) : Int :=
  if lastSeenAt = 0 then 0
  else if item.score > 0 && item.ping > 0 then 100
  else if item.score > 0 || item.ping > 0 then 50
  else 25

/-- The row `mergeAll` stores for an observed one. -/
def observedRow (now : Int) (prev : Option VPNGateItem) (item : VPNGateItem) : VPNGateItem :=
  { item with
    firstSeenAt := (prev.map VPNGateItem.firstSeenAt).getD now
    lastSeenAt := now
    healthScore := retentionHealthScore item now
    openVpnConfigData := item.openVpnConfigData.or (prev.bind VPNGateItem.openVpnConfigData) }

/-- The row `mergeFallback` stores for one of a fallback: what was measured stays. -/
def fallbackRow (now : Int) (prev : Option VPNGateItem) (item : VPNGateItem) : VPNGateItem :=
  let quality := prev.getD item
  let profile := prev.bind VPNGateItem.openVpnConfigData
  { item with
    firstSeenAt := (prev.map VPNGateItem.firstSeenAt).getD now
    lastSeenAt := (prev.map VPNGateItem.lastSeenAt).getD now
    healthScore := (prev.map VPNGateItem.healthScore).getD (retentionHealthScore item now)
    openVpnConfigData :=
      if JavaString.isNullOrBlank item.openVpnConfigData && !JavaString.isNullOrBlank profile
      then profile else item.openVpnConfigData
    score := quality.score
    ping := quality.ping
    speed := quality.speed
    numVpnSession := quality.numVpnSession
    uptime := quality.uptime
    totalUser := quality.totalUser
    totalTraffic := quality.totalTraffic }

/-- The merged rows of both writes: `row` for each incoming or manual one, then the stored rows
    that neither mentions. -/
def mergedRows (row : Option VPNGateItem → VPNGateItem → VPNGateItem)
    (stored withManual : List VPNGateItem) : List VPNGateItem :=
  withManual.map (fun item => row (associateBy VPNGateItem.host stored item.host) item) ++
    stored.filter fun old => old.host ∉ withManual.map VPNGateItem.host

/-- `VPNGateItemDao.replaceAll`: an empty list is ignored. -/
def replaceAll (table items : List VPNGateItem) : List VPNGateItem :=
  if items = [] then table else dedupeForStorage items

/-- What `mergeAll` and `mergeFallback` do alike; `stored` is what `getAll` returned of `table`. -/
def mergeInto (row : Option VPNGateItem → VPNGateItem → VPNGateItem)
    (table stored incoming manualRows : List VPNGateItem) (successCounts : JavaString → Option Int)
    (cap : ℕ) (favourites : List JavaString) : List VPNGateItem :=
  if incoming = [] then table
  else
    let withManual := withManualRows incoming manualRows
    if withManual = [] then table
    else
      replaceAll table <|
        capRetainedServers (mergedRows row stored withManual) (manualRows.map VPNGateItem.host)
          successCounts cap favourites

/-- `mergeAll`. -/
def mergeAll (now : Int) := mergeInto (observedRow now)

/-- `mergeFallback`. -/
def mergeFallback (now : Int) := mergeInto (fallbackRow now)

/-! ### Manual rows -/

variable {networkRows : List VPNGateItem}

theorem withManualRows_unique (h : UniqueBy VPNGateItem.host networkRows)
    (manualRows : List VPNGateItem) :
    UniqueBy VPNGateItem.host (withManualRows networkRows manualRows) := by
  rw [withManualRows]
  dsimp only
  split_ifs
  · exact h
  · exact h
  · exact dedupeForStorage_unique _

/-- No host of the network is lost to a manual row. -/
theorem exists_mem_withManualRows {manualRows : List VPNGateItem} {x : VPNGateItem}
    (hx : x ∈ networkRows) : ∃ y ∈ withManualRows networkRows manualRows, y.host = x.host := by
  rw [withManualRows]
  dsimp only
  split_ifs
  · exact ⟨x, hx, rfl⟩
  · exact ⟨x, hx, rfl⟩
  · exact exists_mem_dedupeForStorage (List.mem_append_left _ hx)

theorem mem_of_mem_withManualRows {manualRows : List VPNGateItem} {x : VPNGateItem}
    (hx : x ∈ withManualRows networkRows manualRows) : x ∈ networkRows ∨ x ∈ manualRows := by
  rw [withManualRows] at hx
  dsimp only at hx
  split_ifs at hx
  · exact Or.inl hx
  · exact Or.inl hx
  · rcases List.mem_append.mp (mem_of_mem_dedupeForStorage hx) with hnet | hfresh
    · exact Or.inl hnet
    · exact Or.inr (List.mem_of_mem_filter hfresh)

/-! ### Merged rows -/

section Merged

variable {row : Option VPNGateItem → VPNGateItem → VPNGateItem}
  (hrow : ∀ prev item, (row prev item).host = item.host)
  {stored withManual : List VPNGateItem}

include hrow

/-- The merged rows are an overlay of the new rows over the stored ones. -/
theorem mergedRows_eq_overlay :
    mergedRows row stored withManual =
      overlay VPNGateItem.host
        (withManual.map fun item => row (associateBy VPNGateItem.host stored item.host) item)
        stored := by
  have hhosts : (withManual.map fun item =>
        row (associateBy VPNGateItem.host stored item.host) item).map VPNGateItem.host =
      withManual.map VPNGateItem.host := by
    rw [List.map_map]
    exact List.map_congr_left fun item _ => hrow _ item
  rw [mergedRows, overlay, hhosts]
  congr 1
  refine List.filter_congr fun old _ => ?_
  simp

theorem mergedRows_unique (hstored : UniqueBy VPNGateItem.host stored)
    (hnew : UniqueBy VPNGateItem.host withManual) :
    UniqueBy VPNGateItem.host (mergedRows row stored withManual) := by
  rw [mergedRows_eq_overlay hrow]
  exact uniqueBy_overlay (hnew.map fun item => hrow _ item) hstored

/-- **The merge loses no host.** -/
theorem exists_mem_mergedRows {x : VPNGateItem} (hx : x ∈ stored) :
    ∃ y ∈ mergedRows row stored withManual, y.host = x.host := by
  rw [mergedRows_eq_overlay hrow]
  exact exists_mem_overlay hx

omit hrow in
/-- A stored row that no new row speaks of is merged as it is. -/
theorem mem_mergedRows_of_quiet {x : VPNGateItem} (hx : x ∈ stored)
    (hquiet : ∀ item ∈ withManual, item.host ≠ x.host) : x ∈ mergedRows row stored withManual := by
  refine List.mem_append_right _ (List.mem_filter.mpr ⟨hx, ?_⟩)
  simpa using hquiet

end Merged

/-! ### The cap -/

section Cap

variable (rows : List VPNGateItem) (manualHostNames : List JavaString)
  (successCounts : JavaString → Option Int) (cap : ℕ) (favouriteHostNames : List JavaString)

/-- The rows that the cap never cuts. -/
def protectedRows : List VPNGateItem :=
  rows.filter fun row => row.host ∈ manualHostNames ++ favouriteHostNames

/-- The rows that compete for the room left. -/
def otherRows : List VPNGateItem :=
  rows.filter fun row => row.host ∉ manualHostNames ++ favouriteHostNames

/-- What the cap cuts. -/
def cutRows : List VPNGateItem :=
  if rows.length ≤ cap then []
  else
    leftOut (retentionOrder successCounts)
      (cap - (protectedRows rows manualHostNames favouriteHostNames).length)
      (otherRows rows manualHostNames favouriteHostNames)

instance : TransCmp (retentionOrder successCounts) := by
  unfold retentionOrder
  infer_instance

variable {x y : VPNGateItem}

/-- The host name is the last resort, so rows that are level have one host. -/
theorem host_eq_of_retentionOrder_eq (h : retentionOrder successCounts x y = .eq) :
    x.host = y.host := by
  simp only [retentionOrder, compareLex_eq_eq, compareBy_eq_eq] at h
  exact h.2.2.2.2

theorem protected_append_other :
    (protectedRows rows manualHostNames favouriteHostNames ++
      otherRows rows manualHostNames favouriteHostNames).Perm rows := by
  have hsplit := List.filter_append_perm
    (fun row : VPNGateItem => decide (row.host ∈ manualHostNames ++ favouriteHostNames)) rows
  simpa only [protectedRows, otherRows, decide_not] using hsplit

/-- What the cap does, once it is exceeded. -/
theorem capRetainedServers_of_exceeded (h : cap < rows.length) :
    (capRetainedServers rows manualHostNames successCounts cap favouriteHostNames).Perm
      (protectedRows rows manualHostNames favouriteHostNames ++
        best (retentionOrder successCounts)
          (cap - (protectedRows rows manualHostNames favouriteHostNames).length)
          (otherRows rows manualHostNames favouriteHostNames)) := by
  rw [capRetainedServers, if_neg (by omega)]
  dsimp only
  split_ifs with hroom
  · -- all of the others fit
    refine (protected_append_other rows manualHostNames favouriteHostNames).symm.trans ?_
    refine List.Perm.append_left _ ?_
    rw [best, List.take_of_length_le]
    · exact (sortedWith_perm _ _).symm
    · rwa [(sortedWith_perm _ _).length_eq]
  · exact List.Perm.refl _

/-- **What the cap keeps and what it cuts are the rows.** -/
theorem capRetainedServers_split :
    (capRetainedServers rows manualHostNames successCounts cap favouriteHostNames ++
      cutRows rows manualHostNames successCounts cap favouriteHostNames).Perm rows := by
  rw [cutRows]
  split_ifs with hfits
  · rw [capRetainedServers, if_pos hfits, List.append_nil]
  · have hkept := capRetainedServers_of_exceeded rows manualHostNames successCounts cap
      favouriteHostNames (by omega)
    refine (hkept.append_right _).trans ?_
    rw [List.append_assoc]
    refine (List.Perm.append_left _ (best_append_leftOut _ _ _)).trans ?_
    exact protected_append_other rows manualHostNames favouriteHostNames

/-- What the cap keeps is of the rows. -/
theorem mem_of_mem_capRetainedServers
    (hx : x ∈ capRetainedServers rows manualHostNames successCounts cap favouriteHostNames) :
    x ∈ rows :=
  (capRetainedServers_split rows manualHostNames successCounts cap favouriteHostNames).mem_iff.mp
    (List.mem_append_left _ hx)

/-- An exceeded cap leaves `cap` rows, or the protected ones when these are more. -/
theorem length_capRetainedServers (h : cap < rows.length) :
    (capRetainedServers rows manualHostNames successCounts cap favouriteHostNames).length =
      max cap (protectedRows rows manualHostNames favouriteHostNames).length := by
  have hparts := (protected_append_other rows manualHostNames favouriteHostNames).length_eq
  rw [(capRetainedServers_of_exceeded rows manualHostNames successCounts cap favouriteHostNames
    h).length_eq, List.length_append, length_best]
  rw [List.length_append] at hparts
  omega

/-- **The cap leaves something** of rows that are not empty. -/
theorem capRetainedServers_ne_nil (hcap : 0 < cap) (hrows : rows ≠ []) :
    capRetainedServers rows manualHostNames successCounts cap favouriteHostNames ≠ [] := by
  intro hnil
  by_cases hfits : rows.length ≤ cap
  · rw [capRetainedServers, if_pos hfits] at hnil
    exact hrows hnil
  · have hlength := length_capRetainedServers rows manualHostNames successCounts cap
      favouriteHostNames (by omega)
    rw [hnil, List.length_nil] at hlength
    omega

/-- Rows are cut only when the cap is exceeded, and only ones that nothing protects. -/
theorem of_mem_cutRows
    (hx : x ∈ cutRows rows manualHostNames successCounts cap favouriteHostNames) :
    cap < rows.length ∧ x.host ∉ manualHostNames ∧ x.host ∉ favouriteHostNames := by
  rw [cutRows] at hx
  split_ifs at hx with hfits
  · exact absurd hx List.not_mem_nil
  · have hother : x ∈ otherRows rows manualHostNames favouriteHostNames :=
      (best_append_leftOut _ _ _).mem_iff.mp (List.mem_append_right _ hx)
    have hhost := (List.mem_filter.mp hother).2
    simp only [List.mem_append, not_or, decide_eq_true_eq] at hhost
    exact ⟨by omega, hhost.1, hhost.2⟩

variable {rows} (hunique : UniqueBy VPNGateItem.host rows)

include hunique

theorem capRetainedServers_unique :
    UniqueBy VPNGateItem.host
      (capRetainedServers rows manualHostNames successCounts cap favouriteHostNames) :=
  (hunique.perm (capRetainedServers_split _ _ _ _ _).symm).sublist (List.sublist_append_left _ _)

theorem retentionOrder_strict (hx : x ∈ rows) (hy : y ∈ rows)
    (h : retentionOrder successCounts x y = .eq) : x = y :=
  hunique.eq hx hy (host_eq_of_retentionOrder_eq successCounts h)

/-- **The cap keeps the best.** A row that is kept without protection is strictly better than
    each one that is cut. -/
theorem better_of_cut
    (hx : x ∈ capRetainedServers rows manualHostNames successCounts cap favouriteHostNames)
    (hfree : x.host ∉ manualHostNames ++ favouriteHostNames)
    (hy : y ∈ cutRows rows manualHostNames successCounts cap favouriteHostNames) :
    retentionOrder successCounts x y = .lt := by
  obtain ⟨hover, -, -⟩ := of_mem_cutRows rows manualHostNames successCounts cap _ hy
  have hkept := (capRetainedServers_of_exceeded rows manualHostNames successCounts cap
    favouriteHostNames hover).mem_iff.mp hx
  rw [cutRows, if_neg (by omega)] at hy
  have hbest := (List.mem_append.mp hkept).resolve_left
    fun hp => hfree (by simpa using (List.mem_filter.mp hp).2)
  refine best_lt _ (hunique.nodup.filter _) ?_ hbest hy
  intro a ha b hb hab
  exact retentionOrder_strict successCounts hunique (List.mem_of_mem_filter ha)
    (List.mem_of_mem_filter hb) hab

/-- **The order of the rows is immaterial** to what the cap keeps. -/
theorem capRetainedServers_perm {rows' : List VPNGateItem} (hp : rows'.Perm rows) :
    (capRetainedServers rows' manualHostNames successCounts cap favouriteHostNames).Perm
      (capRetainedServers rows manualHostNames successCounts cap favouriteHostNames) := by
  by_cases hfits : rows.length ≤ cap
  · rw [capRetainedServers, capRetainedServers, if_pos hfits, if_pos (by rwa [hp.length_eq])]
    exact hp
  · have hover : cap < rows.length := by omega
    have hprot : (protectedRows rows' manualHostNames favouriteHostNames).Perm
        (protectedRows rows manualHostNames favouriteHostNames) := hp.filter _
    refine (capRetainedServers_of_exceeded rows' manualHostNames successCounts cap
      favouriteHostNames (by rwa [hp.length_eq])).trans ?_
    refine List.Perm.trans ?_ (capRetainedServers_of_exceeded rows manualHostNames successCounts
      cap favouriteHostNames hover).symm
    have hother : (otherRows rows manualHostNames favouriteHostNames).Perm
        (otherRows rows' manualHostNames favouriteHostNames) := hp.symm.filter _
    rw [hprot.length_eq]
    refine hprot.append (List.Perm.of_eq (best_perm _ hother ?_ _).symm)
    intro a ha b hb hab
    exact retentionOrder_strict successCounts hunique (List.mem_of_mem_filter ha)
      (List.mem_of_mem_filter hb) hab

end Cap

/-! ### Accepted writes -/

/-- The stored rows; no two of them are one server. -/
structure Table where
  rows : List VPNGateItem
  unique : UniqueBy VPNGateItem.host rows

/-- The order in which `getAll` returns the rows: the query has no `ORDER BY`. -/
structure RowOrder where
  of : List VPNGateItem → List VPNGateItem
  perm : ∀ rows, (of rows).Perm rows

/-- An accepted write: the usable rows of a download, of which the updater saw that there are
    some, and what the store reads beside them. -/
structure Write where
  fetchedFromCache : Bool
  usable : List VPNGateItem
  usable_ne : usable ≠ []
  manualRows : List VPNGateItem
  now : Int
  successCounts : JavaString → Option Int
  favourites : List JavaString
  capSetting : Option Int
  order : RowOrder

namespace Write

variable (w : Write)

/-- `usableRows`: what the updater hands to the store. -/
def incoming : List VPNGateItem := dedupeForStorage w.usable

/-- The rows that the list may have. -/
def cap : ℕ := ServerListCap.current w.capSetting

/-- The hosts that the user entered. -/
def manualHosts : List JavaString := w.manualRows.map VPNGateItem.host

/-- The row that the write makes of a new row. -/
def row : Option VPNGateItem → VPNGateItem → VPNGateItem :=
  if w.fetchedFromCache then fallbackRow w.now else observedRow w.now

/-- The merged rows, before the cap. -/
def merged (rows : List VPNGateItem) : List VPNGateItem :=
  mergedRows w.row (w.order.of rows) (withManualRows w.incoming w.manualRows)

/-- The stored rows after the write. -/
def apply (rows : List VPNGateItem) : List VPNGateItem :=
  (if w.fetchedFromCache then mergeFallback w.now else mergeAll w.now)
    rows (w.order.of rows) w.incoming w.manualRows w.successCounts w.cap w.favourites

theorem row_host (prev : Option VPNGateItem) (item : VPNGateItem) :
    (w.row prev item).host = item.host := by
  rw [row]
  split_ifs <;> rfl

theorem apply_eq (rows : List VPNGateItem) :
    w.apply rows = mergeInto w.row rows (w.order.of rows) w.incoming w.manualRows w.successCounts
      w.cap w.favourites := by
  rw [apply, row]
  split_ifs <;> rfl

theorem cap_pos : 0 < w.cap := ServerListCap.current_pos w.capSetting

theorem incoming_ne : w.incoming ≠ [] := by
  obtain ⟨x, hx⟩ := List.exists_mem_of_ne_nil _ w.usable_ne
  obtain ⟨y, hy, -⟩ := exists_mem_dedupeForStorage hx
  exact List.ne_nil_of_mem hy

theorem withManual_ne : withManualRows w.incoming w.manualRows ≠ [] := by
  obtain ⟨x, hx⟩ := List.exists_mem_of_ne_nil _ w.incoming_ne
  obtain ⟨y, hy, -⟩ : ∃ y ∈ withManualRows w.incoming w.manualRows, y.host = x.host :=
    exists_mem_withManualRows hx
  exact List.ne_nil_of_mem hy

variable {w} {rows : List VPNGateItem} (hunique : UniqueBy VPNGateItem.host rows)

include hunique

theorem merged_unique : UniqueBy VPNGateItem.host (w.merged rows) :=
  mergedRows_unique w.row_host (hunique.perm (w.order.perm rows).symm)
    (withManualRows_unique (dedupeForStorage_unique w.usable) w.manualRows)

theorem capped_unique :
    UniqueBy VPNGateItem.host
      (capRetainedServers (w.merged rows) w.manualHosts w.successCounts w.cap w.favourites) :=
  capRetainedServers_unique _ _ _ _ (merged_unique hunique)

/-- **What a write stores** is what the cap keeps of the merged rows. -/
theorem apply_eq_capped :
    w.apply rows =
      capRetainedServers (w.merged rows) w.manualHosts w.successCounts w.cap w.favourites := by
  have hcapped := capped_unique (w := w) hunique
  have hne : capRetainedServers (w.merged rows) w.manualHosts w.successCounts w.cap w.favourites ≠
      [] := by
    refine capRetainedServers_ne_nil _ _ _ _ _ w.cap_pos ?_
    simp [merged, mergedRows, w.withManual_ne]
  rw [apply_eq, mergeInto, if_neg w.incoming_ne]
  dsimp only
  rw [if_neg w.withManual_ne]
  show replaceAll rows (capRetainedServers (w.merged rows) w.manualHosts w.successCounts w.cap
    w.favourites) = _
  rw [replaceAll, if_neg hne, dedupeForStorage_of_unique hcapped]

end Write

/-- An accepted write of the table. -/
def Table.write (t : Table) (w : Write) : Table where
  rows := w.apply t.rows
  unique := by
    rw [Write.apply_eq_capped t.unique]
    exact Write.capped_unique t.unique

/-- The merged rows of a write that are not stored after it. -/
def Write.removed (w : Write) (t : Table) : List VPNGateItem :=
  (w.merged t.rows).filter fun x => x ∉ (t.write w).rows

/-- How many merged rows the cap must not touch. -/
def Write.protectedCount (w : Write) (t : Table) : ℕ :=
  (protectedRows (w.merged t.rows) w.manualHosts w.favourites).length

/-- What an accepted write keeps of a table. -/
structure Retains (t : Table) (w : Write) : Prop where
  /-- Every stored host is stored after, unless the cap removed it. -/
  hosts : ∀ x ∈ t.rows,
    (∃ y ∈ (t.write w).rows, y.host = x.host) ∨ ∃ y ∈ w.removed t, y.host = x.host
  /-- Rows that neither the download nor the user speaks of are stored unchanged. -/
  quiet : ∀ x ∈ t.rows, x.host ∉ w.usable.map VPNGateItem.host → x.host ∉ w.manualHosts →
    x ∈ (t.write w).rows ∨ x ∈ w.removed t
  /-- What is stored is of the merged rows. -/
  merged : ∀ x ∈ (t.write w).rows, x ∈ w.merged t.rows
  /-- Only an exceeded cap removes rows, and none that are manual or favourite. -/
  removed : ∀ x ∈ w.removed t,
    w.cap < (w.merged t.rows).length ∧ x.host ∉ w.manualHosts ∧ x.host ∉ w.favourites
  /-- The other rows that are kept are strictly better than the removed ones. -/
  best : ∀ x ∈ (t.write w).rows, x.host ∉ w.manualHosts → x.host ∉ w.favourites →
    ∀ y ∈ w.removed t, retentionOrder w.successCounts x y = .lt
  /-- An exceeded cap leaves `max(cap, |protected|)` rows. -/
  length : w.cap < (w.merged t.rows).length →
    (t.write w).rows.length = max w.cap (w.protectedCount t)
  /-- In whatever order the merged rows come, the same ones are kept. -/
  order : ∀ rows, rows.Perm (w.merged t.rows) →
    (capRetainedServers rows w.manualHosts w.successCounts w.cap w.favourites).Perm
      (t.write w).rows

theorem Table.write_rows (t : Table) (w : Write) :
    (t.write w).rows =
      capRetainedServers (w.merged t.rows) w.manualHosts w.successCounts w.cap w.favourites :=
  Write.apply_eq_capped t.unique

/-- A merged row is stored or removed. -/
theorem mem_write_or_removed {t : Table} {w : Write} {x : VPNGateItem}
    (hx : x ∈ w.merged t.rows) : x ∈ (t.write w).rows ∨ x ∈ w.removed t := by
  by_cases h : x ∈ (t.write w).rows
  · exact Or.inl h
  · exact Or.inr (List.mem_filter.mpr ⟨hx, by simpa using h⟩)

/-- What is removed is what the cap cuts. -/
theorem mem_cutRows_of_removed {t : Table} {w : Write} {x : VPNGateItem} (hx : x ∈ w.removed t) :
    x ∈ cutRows (w.merged t.rows) w.manualHosts w.successCounts w.cap w.favourites := by
  obtain ⟨hmerged, hgone⟩ := List.mem_filter.mp hx
  rw [t.write_rows] at hgone
  have hsplit := (capRetainedServers_split (w.merged t.rows) w.manualHosts w.successCounts w.cap
    w.favourites).mem_iff.mpr hmerged
  exact (List.mem_append.mp hsplit).resolve_left (by simpa using hgone)

theorem Table.retains (t : Table) (w : Write) : Retains t w where
  hosts x hx := by
    have hread : x ∈ w.order.of t.rows := (w.order.perm _).mem_iff.mpr hx
    obtain ⟨y, hy, hhost⟩ : ∃ y ∈ w.merged t.rows, y.host = x.host :=
      exists_mem_mergedRows w.row_host hread
    rcases mem_write_or_removed hy with hstored | hremoved
    · exact Or.inl ⟨y, hstored, hhost⟩
    · exact Or.inr ⟨y, hremoved, hhost⟩
  quiet x hx hincoming hmanual := by
    have hread : x ∈ w.order.of t.rows := (w.order.perm _).mem_iff.mpr hx
    refine mem_write_or_removed (mem_mergedRows_of_quiet hread ?_)
    intro item hitem hhost
    rcases mem_of_mem_withManualRows hitem with hnet | hman
    · exact hincoming (hhost ▸ List.mem_map_of_mem (mem_of_mem_dedupeForStorage hnet))
    · exact hmanual (hhost ▸ List.mem_map_of_mem hman)
  merged x hx := by
    rw [t.write_rows] at hx
    exact (capRetainedServers_split _ _ _ _ _).mem_iff.mp (List.mem_append_left _ hx)
  removed x hx := of_mem_cutRows _ _ _ _ _ (mem_cutRows_of_removed hx)
  best x hx hmanual hfavourite y hy := by
    rw [t.write_rows] at hx
    refine better_of_cut _ _ _ _ (Write.merged_unique t.unique) hx ?_ (mem_cutRows_of_removed hy)
    rw [List.mem_append, not_or]
    exact ⟨hmanual, hfavourite⟩
  length hover := by
    rw [t.write_rows]
    exact length_capRetainedServers _ _ _ _ _ hover
  order rows hp := by
    rw [t.write_rows]
    exact capRetainedServers_perm _ _ _ _ (Write.merged_unique t.unique) hp

/-- **Cumulative retention.** In every run of accepted writes, from any stored table, each write
    keeps the hosts stored before it but for those that the cap removes, which are the worst ones
    that nothing protects. -/
theorem retention (t : Table) (ws : List Write) (w : Write) : Retains (run Table.write t ws) w :=
  (run Table.write t ws).retains w

end SoftEther.Repository
