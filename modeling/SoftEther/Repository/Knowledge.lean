import SoftEther.Repository.Retention

namespace SoftEther.Repository

open Lib

/-!
# What is known of a server that stays stored

The two writes of `ServerListUpdates.kt` carry over what is known of a stored host: when it was
first and last seen, its profile, and, for a fallback, what was measured of it.

* `Stored` — a table and the clock; no row was seen after it;
* `TimedWrite` — an accepted write, some time after the one before;
* `Monotone` — what a write keeps of the hosts that stay stored;
* `BlanksProfile` — a fresh write carries a blank profile for a host that has one;
* `monotone_along` — in a run without such a write all of it is kept.
-/

/-- A row with a profile. -/
def VPNGateItem.HasProfile (x : VPNGateItem) : Prop :=
  JavaString.isNullOrBlank x.openVpnConfigData = false

instance (x : VPNGateItem) : Decidable x.HasProfile :=
  inferInstanceAs (Decidable (JavaString.isNullOrBlank x.openVpnConfigData = false))

/-- The measured fields of a row. -/
def VPNGateItem.measured (x : VPNGateItem) : List Int :=
  [x.score, x.ping, x.speed, x.numVpnSession, x.uptime, x.totalUser, x.totalTraffic]

/-- What is kept of `x` when `y` is stored in its place. -/
structure KeptIn (fetchedFromCache : Bool) (x y : VPNGateItem) : Prop where
  firstSeenAt : y.firstSeenAt = x.firstSeenAt
  lastSeenAt : x.lastSeenAt ≤ y.lastSeenAt
  profile : x.HasProfile → y.HasProfile
  fallback : fetchedFromCache = true →
    y.lastSeenAt = x.lastSeenAt ∧ y.healthScore = x.healthScore ∧ y.measured = x.measured

/-- What a write keeps of each host that stays stored. -/
def Monotone (t : Table) (w : Write) : Prop :=
  ∀ x ∈ t.rows, ∀ y ∈ (t.write w).rows, y.host = x.host → KeptIn w.fetchedFromCache x y

/-- **A fresh write blanks a profile**: one of its rows has a profile of nothing but white space,
    and the stored row of that host has a real one. -/
def BlanksProfile (t : Table) (w : Write) : Prop :=
  w.fetchedFromCache = false ∧
    ∃ item ∈ withManualRows w.incoming w.manualRows,
      item.openVpnConfigData.isSome ∧ ¬ item.HasProfile ∧
        ∃ x ∈ t.rows, x.host = item.host ∧ x.HasProfile

/-! ### One row -/

theorem observedRow_keeps {now : Int} {x item : VPNGateItem} (hclock : x.lastSeenAt ≤ now)
    (hprofile : item.openVpnConfigData.isSome → x.HasProfile → item.HasProfile) :
    KeptIn false x (observedRow now (some x) item) where
  firstSeenAt := rfl
  lastSeenAt := hclock
  profile hx := by
    show JavaString.isNullOrBlank (item.openVpnConfigData.or x.openVpnConfigData) = false
    cases hitem : item.openVpnConfigData with
    | none => exact hx
    | some s =>
      have hkept := hprofile (by simp [hitem]) hx
      rwa [VPNGateItem.HasProfile, hitem] at hkept
  fallback := nofun

theorem fallbackRow_keeps (now : Int) (x item : VPNGateItem) :
    KeptIn true x (fallbackRow now (some x) item) where
  firstSeenAt := rfl
  lastSeenAt := Int.le_refl x.lastSeenAt
  profile hx := by
    show JavaString.isNullOrBlank
      (if JavaString.isNullOrBlank item.openVpnConfigData && !JavaString.isNullOrBlank
        x.openVpnConfigData then x.openVpnConfigData else item.openVpnConfigData) = false
    have hstored : JavaString.isNullOrBlank x.openVpnConfigData = false := hx
    cases hitem : JavaString.isNullOrBlank item.openVpnConfigData with
    | true => simp [hstored]
    | false => simp [hitem]
  fallback _ := ⟨rfl, rfl, rfl⟩

theorem keptIn_refl (fromCache : Bool) (x : VPNGateItem) : KeptIn fromCache x x where
  firstSeenAt := rfl
  lastSeenAt := Int.le_refl x.lastSeenAt
  profile hx := hx
  fallback _ := ⟨rfl, rfl, rfl⟩

/-! ### One write -/

/-- Where a stored row comes from: a new row over the stored one, if there is one, or the stored
    row itself. -/
theorem of_mem_write {t : Table} {w : Write} {y : VPNGateItem} (hy : y ∈ (t.write w).rows) :
    (∃ item ∈ withManualRows w.incoming w.manualRows,
      y = w.row (associateBy VPNGateItem.host (w.order.of t.rows) item.host) item) ∨
      y ∈ t.rows := by
  rcases List.mem_append.mp ((t.retains w).merged y hy) with hnew | hold
  · obtain ⟨item, hitem, rfl⟩ := List.mem_map.mp hnew
    exact Or.inl ⟨item, hitem, rfl⟩
  · exact Or.inr ((w.order.perm _).mem_iff.mp (List.mem_of_mem_filter hold))

theorem associateBy_stored {t : Table} (w : Write) {x : VPNGateItem} (hx : x ∈ t.rows) :
    associateBy VPNGateItem.host (w.order.of t.rows) x.host = some x :=
  (t.unique.perm (w.order.perm _).symm).associateBy ((w.order.perm _).mem_iff.mpr hx)

/-- **One write** keeps what is known, unless it blanks a profile. -/
theorem monotone_of_not_blanks {t : Table} {w : Write}
    (hclock : ∀ x ∈ t.rows, x.lastSeenAt ≤ w.now) (hblank : ¬ BlanksProfile t w) :
    Monotone t w := by
  intro x hx y hy hhost
  rcases of_mem_write hy with ⟨item, hitem, rfl⟩ | hold
  · rw [w.row_host] at hhost
    have hfound : associateBy VPNGateItem.host (w.order.of t.rows) item.host = some x := by
      rw [hhost]
      exact associateBy_stored w hx
    rw [hfound, Write.row]
    cases hcache : w.fetchedFromCache with
    | true => exact fallbackRow_keeps w.now x item
    | false =>
      refine observedRow_keeps (hclock x hx) ?_
      intro hsome hprofile
      by_contra hnone
      exact hblank ⟨hcache, item, hitem, hsome, hnone, x, hx, hhost.symm, hprofile⟩
  · obtain rfl : y = x := t.unique.eq hold hx hhost
    exact keptIn_refl _ _

/-- After a write nothing was seen later than its clock. -/
theorem lastSeenAt_write {t : Table} {w : Write} (hclock : ∀ x ∈ t.rows, x.lastSeenAt ≤ w.now)
    {y : VPNGateItem} (hy : y ∈ (t.write w).rows) : y.lastSeenAt ≤ w.now := by
  rcases of_mem_write hy with ⟨item, -, rfl⟩ | hold
  · rw [Write.row]
    split_ifs
    · -- a fallback keeps the moment stored, or starts at the clock
      cases hfound : associateBy VPNGateItem.host (w.order.of t.rows) item.host with
      | none => exact Int.le_refl w.now
      | some x =>
        exact hclock x ((w.order.perm _).mem_iff.mp (associateBy_eq_some hfound).1)
    · exact Int.le_refl w.now
  · exact hclock y hold

/-! ### Runs -/

/-- The table and the clock. -/
structure Stored where
  table : Table
  clock : Int
  seen : ∀ x ∈ table.rows, x.lastSeenAt ≤ clock

/-- A write, `elapsed` milliseconds after the one before. -/
structure TimedWrite where
  elapsed : ℕ
  write : Write

/-- The write at its time. -/
def TimedWrite.at (op : TimedWrite) (clock : Int) : Write :=
  { op.write with now := clock + op.elapsed }

theorem Stored.seen_at (s : Stored) (op : TimedWrite) :
    ∀ x ∈ s.table.rows, x.lastSeenAt ≤ (op.at s.clock).now := by
  intro x hx
  have h := s.seen x hx
  show x.lastSeenAt ≤ s.clock + op.elapsed
  omega

/-- One write, at its time. -/
def Stored.step (s : Stored) (op : TimedWrite) : Stored where
  table := s.table.write (op.at s.clock)
  clock := (op.at s.clock).now
  seen _ hy := lastSeenAt_write (s.seen_at op) hy

/-- **Retained knowledge is monotone** in every run in which no fresh write blanks a profile. -/
theorem monotone_along (s : Stored) (ops : List TimedWrite)
    (h : Along Stored.step (fun s op => ¬ BlanksProfile s.table (op.at s.clock)) s ops) :
    Along Stored.step (fun s op => Monotone s.table (op.at s.clock)) s ops := by
  induction ops generalizing s with
  | nil => trivial
  | cons op ops ih => exact ⟨monotone_of_not_blanks (s.seen_at op) h.1, ih _ h.2⟩

/-! ### A profile of white space -/

/-- A row of one host, with a profile. -/
def sampleRow (profile : List Char) : VPNGateItem where
  hostName := JavaString.ofChars ['v', 'p', 'n', '1']
  ip := some (JavaString.ofChars ['1', '.', '2', '.', '3', '.', '4'])
  score := 1
  ping := 1
  speed := 0
  countryLong := none
  countryShort := none
  numVpnSession := 0
  uptime := 0
  totalUser := 0
  totalTraffic := 0
  logType := none
  operator := none
  message := none
  openVpnConfigData := some (JavaString.ofChars profile)
  tcpPort := 0
  udpPort := 0
  isL2TPSupport := false
  isSSTPSupport := false
  sstpPort := 0
  sstpPortSource := JavaString.ofChars ['U', 'N', 'K', 'N', 'O', 'W', 'N']
  seTcpPort := 0
  seUdpPort := 0
  seUdpSupported := false
  firstSeenAt := 1
  lastSeenAt := 1
  healthScore := 100

/-- The host is stored with a profile. -/
def sampleStored : Stored where
  table := ⟨[sampleRow ['d', 'e', 'v']], by decide⟩
  clock := 1
  seen := by decide

/-- A write of one row, a second later. -/
def sampleWrite (fetchedFromCache : Bool) (profile : List Char) : TimedWrite where
  elapsed := 1000
  write :=
    { fetchedFromCache := fetchedFromCache
      usable := [sampleRow profile]
      usable_ne := List.cons_ne_nil _ _
      manualRows := []
      now := 0
      successCounts := fun _ => none
      favourites := []
      capSetting := none
      order := ⟨id, fun rows => List.Perm.refl rows⟩ }

/-- A feed whose decoded profile is one line break takes the profile from the stored host. -/
theorem profile_lost :
    ¬ Along Stored.step (fun s op => Monotone s.table (op.at s.clock)) sampleStored
      [sampleWrite false ['\n']] := by
  rintro ⟨hmonotone, -⟩
  have hkept := hmonotone (sampleRow ['d', 'e', 'v']) (by decide)
    { sampleRow ['\n'] with lastSeenAt := 1001 } (by decide) (by decide)
  exact absurd (hkept.profile (by decide)) (by decide)

/-- A run that keeps all: the feed brings a new profile, then a fallback a blank one. -/
theorem monotone_along_sample :
    Along Stored.step (fun s op => Monotone s.table (op.at s.clock)) sampleStored
      [sampleWrite false ['d', 'e', 'v', '2'], sampleWrite true ['\n']] := by
  refine monotone_along sampleStored _ ⟨?_, ?_, trivial⟩
  · rintro ⟨-, item, hitem, -, hnone, -⟩
    obtain rfl : item = sampleRow ['d', 'e', 'v', '2'] := by
      have hrows : withManualRows (Write.incoming
          ((sampleWrite false ['d', 'e', 'v', '2']).at sampleStored.clock)) [] =
          [sampleRow ['d', 'e', 'v', '2']] := by decide
      exact List.mem_singleton.mp (hrows ▸ hitem)
    exact hnone (by decide)
  · rintro ⟨hfresh, -⟩
    exact absurd hfresh (by decide)

end SoftEther.Repository
