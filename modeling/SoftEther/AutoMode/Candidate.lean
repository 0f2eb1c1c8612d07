import SoftEther.Lib.JavaString
import SoftEther.Lib.LinkedMap
import SoftEther.Lib.Ranking

namespace SoftEther.AutoMode

open Lib

/-!
# Candidates and the orders on them (`AutoModeModels.kt`, `AutoModeHistory.kt`)

* `AutoModeCandidate` — a server, with what its protocols need;
* `ServerHistoryView` — its summary row, of which the ranking reads the first fields and the walk
  the others;
* `byQuality` — the quality order;
* `historyComparator` — the tie-break by persisted history.
-/

/-- `AutoModeCandidate`. -/
structure AutoModeCandidate where
  hostname : Option JavaString
  ip : Option JavaString
  speed : ℤ
  ping : ℤ
  sessions : ℤ
  score : ℤ
  /-- Missing until the candidate has been measured. -/
  activeRttMs : Option ℤ := none
  sources : ℤ := 0
  seTcpPort : ℤ := 0
  seUdpPort : ℤ := 0
  seUdpSupported : Bool := false
  openVpnTcpPort : ℤ := 0
  openVpnUdpPort : ℤ := 0
  openVpnConfigAvailable : Bool := false
  l2tpSupported : Bool := false
  sstpSupported : Bool := false
  sstpPort : ℤ := 0
  sstpPortSource : JavaString := JavaString.ofChars ['U', 'N', 'K', 'N', 'O', 'W', 'N']
  sstpConnectPort : ℤ := 0
  /-- The platform object, by its identity. -/
  payload : Option ℕ := none
  deriving DecidableEq, Repr

/-- `NetworkType`. -/
inductive NetworkType
  | WIFI
  | CELLULAR
  | UNKNOWN
  deriving DecidableEq, Repr

/-- `ServerHistoryView`, the summary row of one server. -/
structure ServerHistoryView where
  successCount : ℤ := 0
  failureCount : ℤ := 0
  consecutiveFailures : ℤ := 0
  lastSuccessAt : ℤ := 0
  wifiSuccessCount : ℤ := 0
  cellularSuccessCount : ℤ := 0
  unknownNetworkSuccessCount : ℤ := 0
  timeoutCount : ℤ := 0
  qualityRejectionCount : ℤ := 0
  wifiConsecutiveFailures : ℤ := 0
  cellularConsecutiveFailures : ℤ := 0
  unknownConsecutiveFailures : ℤ := 0
  lastAttemptAt : Option ℤ := none
  missedRefreshCount : ℤ := 0
  wifiLastFailureAt : Option ℤ := none
  cellularLastFailureAt : Option ℤ := none
  unknownLastFailureAt : Option ℤ := none
  deriving DecidableEq, Repr

/-- `successesOn`. -/
def ServerHistoryView.successesOn (view : ServerHistoryView) : NetworkType → ℤ
  | .WIFI => view.wifiSuccessCount
  | .CELLULAR => view.cellularSuccessCount
  | .UNKNOWN => view.unknownNetworkSuccessCount

/-- `hasHistory`: an attempt was recorded. -/
def ServerHistoryView.hasHistory (view : ServerHistoryView) : Bool :=
  decide (view.successCount + view.failureCount + view.timeoutCount > 0)

/-- `consecutiveFailuresOn`. -/
def ServerHistoryView.consecutiveFailuresOn (view : ServerHistoryView) : NetworkType → ℤ
  | .WIFI => view.wifiConsecutiveFailures
  | .CELLULAR => view.cellularConsecutiveFailures
  | .UNKNOWN => view.unknownConsecutiveFailures

/-- `lastFailureAtOn`. -/
def ServerHistoryView.lastFailureAtOn (view : ServerHistoryView) : NetworkType → Option ℤ
  | .WIFI => view.wifiLastFailureAt
  | .CELLULAR => view.cellularLastFailureAt
  | .UNKNOWN => view.unknownLastFailureAt

/-- `Map<String, ServerHistoryView>`. -/
abbrev History := LinkedMap JavaString ServerHistoryView

/-- `viewOf`: a candidate without a host name has no history. -/
def History.viewOf (history : History) (candidate : AutoModeCandidate) :
    Option ServerHistoryView :=
  match candidate.hostname with
  | none => none
  | some hostname =>
    if hostname.trim.isEmpty then none else LinkedMap.read history hostname.trim

/-- The ordinal of the `HistoryTier` of a summary row. -/
def historyTierOf (view : Option ServerHistoryView) (network : NetworkType) : ℕ :=
  match view with
  | none => 2
  | some view =>
    if network ≠ .UNKNOWN ∧ view.successesOn network > 0 then 0
    else if view.successCount > 0 then 1
    else if view.consecutiveFailures > 0 then 3
    else 2

/-- `historyComparator`. -/
def historyComparator (history : History) (network : NetworkType) :
    AutoModeCandidate → AutoModeCandidate → Ordering :=
  compareLex (compareBy fun c => historyTierOf (history.viewOf c) network) <|
  compareLex (compareByDescending fun c => ((history.viewOf c).map (·.lastSuccessAt)).getD 0) <|
  compareLex (compareBy fun c => ((history.viewOf c).map (·.consecutiveFailures)).getD 0)
    (compareBy fun c => ((history.viewOf c).map (·.failureCount)).getD 0)

/-- `byQuality`: a ping of zero is unknown, and comes after every measured one. -/
def byQuality : AutoModeCandidate → AutoModeCandidate → Ordering :=
  compareLex (compareByDescending fun c => decide (c.speed > 0)) <|
  compareLex (compareByDescending AutoModeCandidate.speed) <|
  compareLex (compareByDescending fun c => decide (c.ping > 0)) <|
  compareLex (compareBy AutoModeCandidate.ping) <|
  compareLex (compareBy AutoModeCandidate.sessions)
    (compareByDescending AutoModeCandidate.score)

instance : Std.TransCmp byQuality := by
  unfold byQuality
  infer_instance

end SoftEther.AutoMode
