import SoftEther.Lib.JavaString
import SoftEther.Lib.KeyedRows
import SoftEther.Lib.Ranking

namespace SoftEther.Repository

open Lib

/-!
# Rows of the stored server list (`VPNGateItem.kt`)

* `VPNGateItem` — a row; its identity is the trimmed host name, `VPNGateItem.host`;
* `VPNGateItem.connectOptions` — how many protocols a row can be dialled on;
* `dedupeForStorage` — one row per identity, the most connectable one;
* `dedupeForStorage_unique`, `dedupeForStorage_of_unique` — it makes identities unique, and leaves
  a list alone whose identities are unique already;
* `numberedRow` — rows for the examples of the modules after this one.
-/

/-- `VpnPortSource.UNKNOWN` and its siblings. -/
inductive VpnPortSource
  | EXPLICIT
  | DEFAULT
  | UNKNOWN
  deriving DecidableEq, Repr

/-- `uppercase`, as far as a comparison with the constants below can tell: of the units that are
    no ASCII letters only the dotless i turns into one that a constant has. -/
def upper (c : UInt16) : UInt16 :=
  if 0x61 ≤ c && c ≤ 0x7A then c - 0x20 else if c = 0x131 then 0x49 else c

/-- `VpnPortSource.normalized`. -/
def VpnPortSource.normalized (value : Option JavaString) : VpnPortSource :=
  match value with
  | none => .UNKNOWN
  | some s =>
    if s.trim.map upper = JavaString.ofChars ['E', 'X', 'P', 'L', 'I', 'C', 'I', 'T'] then .EXPLICIT
    else if s.trim.map upper = JavaString.ofChars ['D', 'E', 'F', 'A', 'U', 'L', 'T'] then .DEFAULT
    else .UNKNOWN

/-- `VPNGateItem`. -/
structure VPNGateItem where
  hostName : JavaString
  ip : Option JavaString
  score : Int
  ping : Int
  speed : Int
  countryLong : Option JavaString
  countryShort : Option JavaString
  numVpnSession : Int
  uptime : Int
  totalUser : Int
  totalTraffic : Int
  logType : Option JavaString
  operator : Option JavaString
  message : Option JavaString
  openVpnConfigData : Option JavaString
  tcpPort : Int
  udpPort : Int
  isL2TPSupport : Bool
  isSSTPSupport : Bool
  sstpPort : Int
  sstpPortSource : JavaString
  seTcpPort : Int
  seUdpPort : Int
  seUdpSupported : Bool
  firstSeenAt : Int
  lastSeenAt : Int
  healthScore : Int
  deriving DecidableEq

namespace VPNGateItem

/-- `hostName.trim()`, the identity of a row. -/
def host (item : VPNGateItem) : JavaString := item.hostName.trim

/-- `connectOptions`: how many protocols this row can actually be dialled on. -/
def connectOptions (item : VPNGateItem) : ℕ :=
  (if !JavaString.isNullOrBlank item.openVpnConfigData then 1 else 0) +
  (if item.seTcpPort > 0 then 1 else 0) +
  (if item.seUdpPort > 0 || item.seUdpSupported then 1 else 0) +
  (if item.isSSTPSupport && item.sstpPort > 0 then 1 else 0) +
  (if item.isSSTPSupport && VpnPortSource.normalized item.sstpPortSource = .DEFAULT then 1 else 0) +
  (if item.isL2TPSupport then 1 else 0)

end VPNGateItem

/-- `WINNER_FIRST`: the most connectable row first, the smallest address as the last tie-break. -/
def WINNER_FIRST : VPNGateItem → VPNGateItem → Ordering :=
  compareLex (compareByDescending VPNGateItem.connectOptions) <|
  compareLex (compareByDescending VPNGateItem.score) <|
  compareLex (compareByDescending VPNGateItem.speed) <|
  compareLex (compareByDescending VPNGateItem.ping) <|
  compareBy fun item => item.ip.getD []

/-- `VPNGateItem.dedupeForStorage`. -/
def dedupeForStorage (items : List VPNGateItem) : List VPNGateItem :=
  if items.length < 2 then items
  else if UniqueBy VPNGateItem.host items then items
  else distinctBy VPNGateItem.host (sortedWith WINNER_FIRST items)

/-- A list whose identities are unique is stored as it is. -/
theorem dedupeForStorage_of_unique {items : List VPNGateItem}
    (h : UniqueBy VPNGateItem.host items) : dedupeForStorage items = items := by
  rw [dedupeForStorage, if_pos h, ite_self]

/-- **What is stored has one row per identity.** -/
theorem dedupeForStorage_unique (items : List VPNGateItem) :
    UniqueBy VPNGateItem.host (dedupeForStorage items) := by
  rw [dedupeForStorage]
  split_ifs with hshort hunique
  · -- a list of at most one row
    cases items with
    | nil => exact List.nodup_nil
    | cons item rest =>
      obtain rfl : rest = [] := by
        rw [List.length_cons] at hshort
        exact List.length_eq_zero_iff.mp (by omega)
      exact List.nodup_singleton _
  · exact hunique
  · exact uniqueBy_distinctBy _ _

/-- Nothing is made up. -/
theorem mem_of_mem_dedupeForStorage {items : List VPNGateItem} {x : VPNGateItem}
    (hx : x ∈ dedupeForStorage items) : x ∈ items := by
  rw [dedupeForStorage] at hx
  split_ifs at hx
  · exact hx
  · exact hx
  · exact (sortedWith_perm _ items).mem_iff.mp ((distinctBy_sublist _ _).subset hx)

/-- **No identity is lost.** -/
theorem exists_mem_dedupeForStorage {items : List VPNGateItem} {x : VPNGateItem} (hx : x ∈ items) :
    ∃ y ∈ dedupeForStorage items, y.host = x.host := by
  rw [dedupeForStorage]
  split_ifs
  · exact ⟨x, hx, rfl⟩
  · exact ⟨x, hx, rfl⟩
  · exact exists_mem_distinctBy ((sortedWith_perm _ items).mem_iff.mpr hx)

/-! ### Rows for examples -/

/-- A row of a host of one letter, with one protocol. -/
def numberedRow (i : ℕ) (lastSeenAt : Int) : VPNGateItem where
  hostName := [UInt16.ofNat (0x61 + i)]
  ip := some (JavaString.ofChars ['1', '.', '2', '.', '3', '.', '4'])
  score := 1
  ping := 1
  speed := 0
  countryLong := none
  countryShort := none
  numVpnSession := 0
  uptime := 0
  totalUser := 0
  totalTraffic := 0
  logType := none
  operator := none
  message := none
  openVpnConfigData := none
  tcpPort := 0
  udpPort := 0
  isL2TPSupport := true
  isSSTPSupport := false
  sstpPort := 0
  sstpPortSource := JavaString.ofChars ['U', 'N', 'K', 'N', 'O', 'W', 'N']
  seTcpPort := 0
  seUdpPort := 0
  seUdpSupported := false
  firstSeenAt := lastSeenAt
  lastSeenAt := lastSeenAt
  healthScore := 100

end SoftEther.Repository
