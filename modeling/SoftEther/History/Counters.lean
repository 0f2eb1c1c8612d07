import SoftEther.AutoMode.Candidate
import SoftEther.Lib.Transition

namespace SoftEther.History

open Lib
open AutoMode (NetworkType)

/-!
# The connection history (`ServerHistoryTypes.kt`, `HistoryCounters.kt`, `ServerHistoryDao.kt`)

A record of an attempt goes to an append-only log of events and, in the same transaction, to the
summary row of its server and to the row of its server and protocol. The refreshes of the server
list leave their markers in the summary rows. A counter is an `Int` of 32 bits, as in the code.

* `HistoryRecord`, `ServerHistoryEvent` — a fact to persist, and its row in the log;
* `ServerHistorySummary`, `ServerProtocolSummary` — the two tables of summaries;
* `nextSummary`, `nextProtocol` — what a record makes of a row;
* `HistoryDb.record`, `markSeen`, `incrementMissedRefresh` — the calls of the DAO.
-/

/-! ### Records and events -/

/-- `HistoryEventType`. -/
inductive HistoryEventType
  | CONNECTED
  | PROTOCOL_ATTEMPT
  | SERVER_ABANDONED
  | CONNECTION_LOST
  | SERVER_FIRST_SEEN
  | QUALITY_REJECTED
  | ATTEMPT_CANCELLED
  deriving DecidableEq, Repr

/-- `HistoryEventType.CONNECTED.name`. -/
def HistoryEventType.connectedName : JavaString :=
  JavaString.ofChars ['C', 'O', 'N', 'N', 'E', 'C', 'T', 'E', 'D']

/-- `HistoryOutcome`. -/
inductive HistoryOutcome
  | SUCCESS
  | FAILURE
  | NEUTRAL
  deriving DecidableEq, Repr

namespace HistoryFailureReason

def SERVER_REJECTED : JavaString := JavaString.ofChars
  ['S', 'E', 'R', 'V', 'E', 'R', '_', 'R', 'E', 'J', 'E', 'C', 'T', 'E', 'D']

def TIMEOUT_UNATTRIBUTED : JavaString := JavaString.ofChars
  ['T', 'I', 'M', 'E', 'O', 'U', 'T', '_', 'U', 'N', 'A', 'T', 'T', 'R', 'I', 'B', 'U', 'T', 'E',
    'D']

def UNKNOWN : JavaString := JavaString.ofChars ['U', 'N', 'K', 'N', 'O', 'W', 'N']

end HistoryFailureReason

/-- `HistoryRecord`. The source's `at` is `atTime` here. -/
structure HistoryRecord where
  hostName : JavaString
  ip : Option JavaString := none
  eventType : HistoryEventType
  outcome : HistoryOutcome
  networkType : NetworkType
  protocol : Option JavaString := none
  token : Option JavaString := none
  durationMs : Option ℤ := none
  failureReason : Option JavaString := none
  atTime : ℤ
  deriving DecidableEq, Repr

/-- `ServerHistoryEvent`. The columns with the name of an enumeration hold the enumeration. -/
structure ServerHistoryEvent where
  hostName : JavaString
  ip : Option JavaString
  eventType : HistoryEventType
  outcome : HistoryOutcome
  networkType : NetworkType
  protocol : Option JavaString
  attemptToken : Option JavaString
  durationMs : Option ℤ
  failureReason : Option JavaString
  createdAt : ℤ
  deriving DecidableEq, Repr

/-- `fromRecord`. -/
def ServerHistoryEvent.fromRecord (record : HistoryRecord) : ServerHistoryEvent where
  hostName := record.hostName
  ip := record.ip
  eventType := record.eventType
  outcome := record.outcome
  networkType := record.networkType
  protocol := record.protocol
  attemptToken := record.token
  durationMs := record.durationMs
  failureReason := record.failureReason
  createdAt := record.atTime

/-! ### Rows -/

/-- `ServerHistorySummary`. -/
structure ServerHistorySummary where
  hostName : JavaString
  firstObservedAt : Option ℤ := none
  lastAttemptAt : Option ℤ := none
  lastSuccessAt : Option ℤ := none
  lastFailureAt : Option ℤ := none
  lastTimeoutAt : Option ℤ := none
  successCount : Int32 := 0
  failureCount : Int32 := 0
  timeoutCount : Int32 := 0
  consecutiveFailures : Int32 := 0
  lastSuccessProtocol : Option JavaString := none
  lastSuccessNetwork : Option NetworkType := none
  lastFailureReason : Option JavaString := none
  wifiSuccessCount : Int32 := 0
  wifiFailureCount : Int32 := 0
  cellularSuccessCount : Int32 := 0
  cellularFailureCount : Int32 := 0
  unknownNetworkSuccessCount : Int32 := 0
  unknownNetworkFailureCount : Int32 := 0
  qualityRejectionCount : Int32 := 0
  lastRefreshSeenAt : Option ℤ := none
  firstListedAt : Option ℤ := none
  wifiConsecutiveFailures : Int32 := 0
  cellularConsecutiveFailures : Int32 := 0
  unknownConsecutiveFailures : Int32 := 0
  missedRefreshCount : Int32 := 0
  wifiLastFailureAt : Option ℤ := none
  cellularLastFailureAt : Option ℤ := none
  unknownLastFailureAt : Option ℤ := none
  deriving DecidableEq, Repr

/-- `ServerProtocolSummary`. -/
structure ServerProtocolSummary where
  hostName : JavaString
  protocol : JavaString
  successCount : Int32 := 0
  failureCount : Int32 := 0
  timeoutCount : Int32 := 0
  lastSuccessAt : Option ℤ := none
  lastFailureAt : Option ℤ := none
  lastOutcome : Option JavaString := none
  deriving DecidableEq, Repr

/-! ### `HistoryCounters` -/

/-- `ifNetwork`. -/
def HistoryRecord.ifNetwork (record : HistoryRecord) (network : NetworkType) : Int32 :=
  if record.networkType = network then 1 else 0

/-- `nextSummary`. -/
def nextSummary (current : Option ServerHistorySummary) (record : HistoryRecord) :
    ServerHistorySummary :=
  let base := current.getD { hostName := record.hostName }
  let firstObservedAt := some (base.firstObservedAt.getD record.atTime)
  match record.eventType with
  | .SERVER_FIRST_SEEN => { base with firstObservedAt := firstObservedAt }
  | .CONNECTED =>
    { base with
      firstObservedAt := firstObservedAt
      lastAttemptAt := some record.atTime
      lastSuccessAt := some record.atTime
      successCount := base.successCount + 1
      consecutiveFailures := 0
      lastSuccessProtocol := record.protocol.or base.lastSuccessProtocol
      lastSuccessNetwork := some record.networkType
      wifiSuccessCount := base.wifiSuccessCount + record.ifNetwork .WIFI
      cellularSuccessCount := base.cellularSuccessCount + record.ifNetwork .CELLULAR
      unknownNetworkSuccessCount :=
        base.unknownNetworkSuccessCount + record.ifNetwork .UNKNOWN
      wifiConsecutiveFailures :=
        if record.networkType = .WIFI then 0 else base.wifiConsecutiveFailures
      cellularConsecutiveFailures :=
        if record.networkType = .CELLULAR then 0 else base.cellularConsecutiveFailures
      unknownConsecutiveFailures :=
        if record.networkType = .UNKNOWN then 0 else base.unknownConsecutiveFailures
      wifiLastFailureAt :=
        if record.networkType = .WIFI then none else base.wifiLastFailureAt
      cellularLastFailureAt :=
        if record.networkType = .CELLULAR then none else base.cellularLastFailureAt
      unknownLastFailureAt :=
        if record.networkType = .UNKNOWN then none else base.unknownLastFailureAt }
  | .PROTOCOL_ATTEMPT =>
    if record.failureReason = some HistoryFailureReason.TIMEOUT_UNATTRIBUTED then
      { base with
        firstObservedAt := firstObservedAt
        lastAttemptAt := some record.atTime
        lastTimeoutAt := some record.atTime
        timeoutCount := base.timeoutCount + 1 }
    else
      { base with
        firstObservedAt := firstObservedAt
        lastAttemptAt := some record.atTime }
  | .SERVER_ABANDONED =>
    match record.outcome with
    | .FAILURE =>
      { base with
        firstObservedAt := firstObservedAt
        lastAttemptAt := some record.atTime
        lastFailureAt := some record.atTime
        failureCount := base.failureCount + 1
        consecutiveFailures := base.consecutiveFailures + 1
        lastFailureReason :=
          some (record.failureReason.getD HistoryFailureReason.SERVER_REJECTED)
        wifiFailureCount := base.wifiFailureCount + record.ifNetwork .WIFI
        cellularFailureCount := base.cellularFailureCount + record.ifNetwork .CELLULAR
        unknownNetworkFailureCount :=
          base.unknownNetworkFailureCount + record.ifNetwork .UNKNOWN
        wifiConsecutiveFailures := base.wifiConsecutiveFailures + record.ifNetwork .WIFI
        cellularConsecutiveFailures :=
          base.cellularConsecutiveFailures + record.ifNetwork .CELLULAR
        unknownConsecutiveFailures :=
          base.unknownConsecutiveFailures + record.ifNetwork .UNKNOWN
        wifiLastFailureAt :=
          if record.networkType = .WIFI then some record.atTime else base.wifiLastFailureAt
        cellularLastFailureAt :=
          if record.networkType = .CELLULAR then some record.atTime
          else base.cellularLastFailureAt
        unknownLastFailureAt :=
          if record.networkType = .UNKNOWN then some record.atTime
          else base.unknownLastFailureAt }
    | .NEUTRAL | .SUCCESS =>
      { base with
        firstObservedAt := firstObservedAt
        lastAttemptAt := some record.atTime }
  | .CONNECTION_LOST => { base with firstObservedAt := firstObservedAt }
  | .ATTEMPT_CANCELLED =>
    { base with
      firstObservedAt := firstObservedAt
      lastAttemptAt := some record.atTime }
  | .QUALITY_REJECTED =>
    { base with
      firstObservedAt := firstObservedAt
      qualityRejectionCount := base.qualityRejectionCount + 1 }

/-- `nextProtocol`, for a record with a protocol. -/
def nextProtocolOf (current : Option ServerProtocolSummary) (record : HistoryRecord)
    (protocol : JavaString) : Option ServerProtocolSummary :=
  let base := current.getD { hostName := record.hostName, protocol := protocol }
  match record.eventType with
  | .CONNECTED =>
    some { base with
      successCount := base.successCount + 1
      lastSuccessAt := some record.atTime
      lastOutcome := some HistoryEventType.connectedName }
  | .PROTOCOL_ATTEMPT =>
    if record.failureReason = some HistoryFailureReason.SERVER_REJECTED then
      some { base with
        failureCount := base.failureCount + 1
        lastFailureAt := some record.atTime
        lastOutcome := record.failureReason }
    else if record.failureReason = some HistoryFailureReason.TIMEOUT_UNATTRIBUTED then
      some { base with
        timeoutCount := base.timeoutCount + 1
        lastOutcome := record.failureReason }
    else
      some { base with
        lastOutcome := some (record.failureReason.getD HistoryFailureReason.UNKNOWN) }
  | _ => none

/-- `nextProtocol`. -/
def nextProtocol (current : Option ServerProtocolSummary) (record : HistoryRecord) :
    Option ServerProtocolSummary :=
  record.protocol.bind (nextProtocolOf current record)

/-! ### `ServerHistoryDao` -/

/-- The three tables; the log holds the latest event first. -/
structure HistoryDb where
  summary : JavaString → Option ServerHistorySummary := fun _ => none
  protocolSummary : JavaString × JavaString → Option ServerProtocolSummary := fun _ => none
  events : List ServerHistoryEvent := []

namespace HistoryDb

def countToken (db : HistoryDb) (token : JavaString) (eventType : HistoryEventType) : ℕ :=
  db.events.countP fun e => decide (e.attemptToken = some token ∧ e.eventType = eventType)

def upsertSummary (db : HistoryDb) (row : ServerHistorySummary) : HistoryDb :=
  { db with summary := Function.update db.summary row.hostName (some row) }

def upsertProtocol (db : HistoryDb) (row : ServerProtocolSummary) : HistoryDb :=
  { db with
    protocolSummary := Function.update db.protocolSummary (row.hostName, row.protocol) (some row) }

def insertEvent (db : HistoryDb) (row : ServerHistoryEvent) : HistoryDb :=
  { db with events := row :: db.events }

/-- The success of this token is in the log already. -/
def repeated (db : HistoryDb) (record : HistoryRecord) : Bool :=
  record.eventType == .CONNECTED &&
    record.token.any fun token => decide (db.countToken token record.eventType > 0)

/-- `record`. -/
def record (db : HistoryDb) (record : HistoryRecord) : HistoryDb :=
  if record.hostName.isBlank then db
  else if db.repeated record then db
  else
    let db' := db.upsertSummary (nextSummary (db.summary record.hostName) record)
    let existingProtocol := record.protocol.bind fun p => db'.protocolSummary (record.hostName, p)
    let db'' := match nextProtocol existingProtocol record with
      | some row => db'.upsertProtocol row
      | none => db'
    db''.insertEvent (ServerHistoryEvent.fromRecord record)

/-- One host name of `markSeen`. -/
def markSeenOne (marker : ℤ) (db : HistoryDb) (raw : JavaString) : HistoryDb :=
  let host := raw.trim
  if host.isEmpty then db
  else
    match db.summary host with
    | none =>
      db.upsertSummary
        { hostName := host, firstListedAt := some marker, lastRefreshSeenAt := some marker }
    | some current =>
      if current.lastRefreshSeenAt ≠ some marker then
        db.upsertSummary
          { current with
            lastRefreshSeenAt := some marker
            firstListedAt := some (current.firstListedAt.getD marker)
            missedRefreshCount := 0 }
      else db

/-- `markSeen`. -/
def markSeen (db : HistoryDb) (hostNames : List JavaString) (marker : ℤ) : HistoryDb :=
  hostNames.foldl (markSeenOne marker) db

/-- What the `UPDATE` does to a row. -/
def missed (marker : ℤ) (row : ServerHistorySummary) : ServerHistorySummary :=
  if row.lastRefreshSeenAt.all fun seen => decide (seen < marker) then
    { row with missedRefreshCount := row.missedRefreshCount + 1 }
  else row

/-- `incrementMissedRefresh`. -/
def incrementMissedRefresh (db : HistoryDb) (marker : ℤ) : HistoryDb :=
  { db with summary := fun host => (db.summary host).map (missed marker) }

end HistoryDb

/-- A call of the DAO. -/
inductive HistoryCall
  | record (record : HistoryRecord)
  | markSeen (hostNames : List JavaString) (marker : ℤ)
  | incrementMissedRefresh (marker : ℤ)

/-- One call. -/
def historyStep (db : HistoryDb) : HistoryCall → HistoryDb
  | .record record => db.record record
  | .markSeen hostNames marker => db.markSeen hostNames marker
  | .incrementMissedRefresh marker => db.incrementMissedRefresh marker

/-- The tables after the calls, from empty ones. -/
def historyOf (calls : List HistoryCall) : HistoryDb := run historyStep {} calls

end SoftEther.History
