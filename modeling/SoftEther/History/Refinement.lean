import SoftEther.Lib.EventSourcing
import SoftEther.History.Counters

namespace SoftEther.History

open Lib
open AutoMode (NetworkType)

/-!
# The summary refines the event log

* `summaryFold`, `protocolFold` — how the rows of the two tables follow from the log;
* `Tallies` — what the counters of a summary row count;
* `HistoryInv` — what holds of the three tables, and `historyInv_run`, that it always does;
* `history_refines` — the summary after any calls, and what further calls change of it.
-/

/-! ### The log -/

/-- A verified tunnel. -/
def ServerHistoryEvent.isSuccess (e : ServerHistoryEvent) : Bool := e.eventType == .CONNECTED

/-- A failure that counts against the server. -/
def ServerHistoryEvent.isFailure (e : ServerHistoryEvent) : Bool :=
  e.eventType == .SERVER_ABANDONED && e.outcome == .FAILURE

/-- A timeout with no verdict. -/
def ServerHistoryEvent.isTimeout (e : ServerHistoryEvent) : Bool :=
  e.eventType == .PROTOCOL_ATTEMPT &&
    e.failureReason == some HistoryFailureReason.TIMEOUT_UNATTRIBUTED

/-- The events on a network. -/
def onNetwork (network : NetworkType) (events : List ServerHistoryEvent) :
    List ServerHistoryEvent :=
  events.filter fun e => e.networkType == network

/-- The failures since the last success. -/
def streak : List ServerHistoryEvent → ℕ
  | [] => 0
  | e :: before =>
    if e.isSuccess then 0
    else if e.isFailure then streak before + 1
    else streak before

/-- The record that an event was made from. -/
def ServerHistoryEvent.toRecord (e : ServerHistoryEvent) : HistoryRecord where
  hostName := e.hostName
  ip := e.ip
  eventType := e.eventType
  outcome := e.outcome
  networkType := e.networkType
  protocol := e.protocol
  token := e.attemptToken
  durationMs := e.durationMs
  failureReason := e.failureReason
  atTime := e.createdAt

/-! ### Rows by network -/

namespace ServerHistorySummary

/-- `successesOn`. -/
def successesOn (row : ServerHistorySummary) : NetworkType → Int32
  | .WIFI => row.wifiSuccessCount
  | .CELLULAR => row.cellularSuccessCount
  | .UNKNOWN => row.unknownNetworkSuccessCount

/-- The failures on a network. -/
def failuresOn (row : ServerHistorySummary) : NetworkType → Int32
  | .WIFI => row.wifiFailureCount
  | .CELLULAR => row.cellularFailureCount
  | .UNKNOWN => row.unknownNetworkFailureCount

/-- `consecutiveFailuresOn`. -/
def consecutiveFailuresOn (row : ServerHistorySummary) : NetworkType → Int32
  | .WIFI => row.wifiConsecutiveFailures
  | .CELLULAR => row.cellularConsecutiveFailures
  | .UNKNOWN => row.unknownConsecutiveFailures

/-- The row without what the refreshes leave in it. -/
def forgetRefresh (row : ServerHistorySummary) : ServerHistorySummary :=
  { row with lastRefreshSeenAt := none, firstListedAt := none, missedRefreshCount := 0 }

/-- The counters of failures. -/
def failureCounters (row : ServerHistorySummary) : List Int32 :=
  [row.failureCount, row.wifiFailureCount, row.cellularFailureCount, row.unknownNetworkFailureCount,
    row.consecutiveFailures, row.wifiConsecutiveFailures, row.cellularConsecutiveFailures,
    row.unknownConsecutiveFailures]

/-- The counters of successes. -/
def successCounters (row : ServerHistorySummary) : List Int32 :=
  [row.successCount, row.wifiSuccessCount, row.cellularSuccessCount,
    row.unknownNetworkSuccessCount]

/-- All counters of a row. -/
def counters (row : ServerHistorySummary) : List Int32 :=
  row.successCounters ++ row.failureCounters ++
    [row.timeoutCount, row.qualityRejectionCount, row.missedRefreshCount]

end ServerHistorySummary

section Rows

variable {row row' : ServerHistorySummary}

/-- Equal counters of successes are equal one by one. -/
theorem successes_congr (h : row'.successCounters = row.successCounters) :
    row'.successCount = row.successCount ∧ ∀ n, row'.successesOn n = row.successesOn n := by
  simp only [ServerHistorySummary.successCounters, List.cons.injEq] at h
  refine ⟨h.1, ?_⟩
  intro n
  cases n with
  | WIFI => exact h.2.1
  | CELLULAR => exact h.2.2.1
  | UNKNOWN => exact h.2.2.2.1

/-- Equal counters of failures are equal one by one. -/
theorem failures_congr (h : row'.failureCounters = row.failureCounters) :
    row'.failureCount = row.failureCount ∧ (∀ n, row'.failuresOn n = row.failuresOn n) ∧
      row'.consecutiveFailures = row.consecutiveFailures ∧
      ∀ n, row'.consecutiveFailuresOn n = row.consecutiveFailuresOn n := by
  simp only [ServerHistorySummary.failureCounters, List.cons.injEq] at h
  obtain ⟨hall, hwifi, hcellular, hunknown, hstreak, hwifi', hcellular', hunknown', -⟩ := h
  refine ⟨hall, ?_, hstreak, ?_⟩
  · intro n
    cases n with
    | WIFI => exact hwifi
    | CELLULAR => exact hcellular
    | UNKNOWN => exact hunknown
  · intro n
    cases n with
    | WIFI => exact hwifi'
    | CELLULAR => exact hcellular'
    | UNKNOWN => exact hunknown'

/-- The markers of the refreshes are no counters of failures. -/
theorem failureCounters_congr (h : row'.forgetRefresh = row.forgetRefresh) :
    row'.failureCounters = row.failureCounters := by
  have hcounters := congrArg ServerHistorySummary.failureCounters h
  exact hcounters

end Rows

/-! ### Folds -/

theorem forgetRefresh_nextSummary (row : ServerHistorySummary) (record : HistoryRecord) :
    (nextSummary (some row) record).forgetRefresh =
      nextSummary (some row.forgetRefresh) record := by
  unfold nextSummary
  cases record.eventType with
  | PROTOCOL_ATTEMPT =>
    dsimp only
    split <;> rfl
  | SERVER_ABANDONED => cases record.outcome <;> rfl
  | _ => rfl

/-- The summary rows. -/
def summaryFold : RowFold JavaString ServerHistorySummary ServerHistoryEvent where
  key e := some e.hostName
  empty host := { hostName := host }
  next row e := nextSummary (some row) e.toRecord
  strip := ServerHistorySummary.forgetRefresh
  strip_empty _ := rfl
  strip_next row e := forgetRefresh_nextSummary row e.toRecord

/-- The rows of a server and a protocol. -/
def protocolFold : RowFold (JavaString × JavaString) ServerProtocolSummary ServerHistoryEvent where
  key e :=
    match e.eventType with
    | .CONNECTED | .PROTOCOL_ATTEMPT => e.protocol.map fun protocol => (e.hostName, protocol)
    | _ => none
  empty key := { hostName := key.1, protocol := key.2 }
  next row e := (nextProtocolOf (some row) e.toRecord row.protocol).getD row
  strip := id
  strip_empty _ := rfl
  strip_next _ _ := rfl

/-- The events of a server. -/
def HistoryDb.eventsOf (db : HistoryDb) (host : JavaString) : List ServerHistoryEvent :=
  summaryFold.eventsOf host db.events

/-- The summary row of a server, or the row of one that has none. -/
def HistoryDb.rowOf (db : HistoryDb) (host : JavaString) : ServerHistorySummary :=
  (db.summary host).getD { hostName := host }

/-! ### What the counters count -/

/-- **What a summary row says of the events of its server.** The counters are 32 bits wide. -/
structure Tallies (events : List ServerHistoryEvent) (row : ServerHistorySummary) : Prop where
  success : row.successCount = Int32.ofNat (events.countP ServerHistoryEvent.isSuccess)
  successOn : ∀ network, row.successesOn network =
    Int32.ofNat ((onNetwork network events).countP ServerHistoryEvent.isSuccess)
  failure : row.failureCount = Int32.ofNat (events.countP ServerHistoryEvent.isFailure)
  failureOn : ∀ network, row.failuresOn network =
    Int32.ofNat ((onNetwork network events).countP ServerHistoryEvent.isFailure)
  timeout : row.timeoutCount = Int32.ofNat (events.countP ServerHistoryEvent.isTimeout)
  consecutive : row.consecutiveFailures = Int32.ofNat (streak events)
  consecutiveOn : ∀ network, row.consecutiveFailuresOn network =
    Int32.ofNat (streak (onNetwork network events))
  firstObserved : row.firstObservedAt = (events.getLast?).map ServerHistoryEvent.createdAt

section Tallies

variable {e : ServerHistoryEvent} {events : List ServerHistoryEvent} {row : ServerHistorySummary}
  {network : NetworkType} {host : JavaString}

theorem onNetwork_cons :
    onNetwork network (e :: events) =
      if e.networkType = network then e :: onNetwork network events
      else onNetwork network events := by
  by_cases h : e.networkType = network
  · simp [onNetwork, h]
  · simp [onNetwork, h]

variable {p : ServerHistoryEvent → Bool}

/-- One more event in a count of 32 bits. -/
theorem ofNat_countP_cons : Int32.ofNat ((e :: events).countP p) =
      Int32.ofNat (events.countP p) + if p e then 1 else 0 := by
  rw [List.countP_cons]
  split <;> simp

theorem ofNat_countP_onNetwork_cons : Int32.ofNat ((onNetwork network (e :: events)).countP p) =
      Int32.ofNat ((onNetwork network events).countP p) +
        if e.networkType = network ∧ p e = true then 1 else 0 := by
  rw [onNetwork_cons]
  by_cases h : e.networkType = network
  · rw [if_pos h, ofNat_countP_cons]
    simp [h]
  · rw [if_neg h]
    simp [h]

theorem countP_networks :
    events.countP p = (onNetwork .WIFI events).countP p + (onNetwork .CELLULAR events).countP p +
      (onNetwork .UNKNOWN events).countP p := by
  induction events with
  | nil => rfl
  | cons e events ih =>
    rw [onNetwork_cons, onNetwork_cons, onNetwork_cons, List.countP_cons, ih]
    cases e.networkType with
    | _ =>
      simp [List.countP_cons]
      omega

/-! ### One event -/

/-- The row after an attempt that timed out, or did not. -/
theorem next_of_attempt (h : e.eventType = .PROTOCOL_ATTEMPT) :
    summaryFold.next row e =
      { row with
        firstObservedAt := some (row.firstObservedAt.getD e.createdAt)
        lastAttemptAt := some e.createdAt
        lastTimeoutAt := if e.isTimeout then some e.createdAt else row.lastTimeoutAt
        timeoutCount := row.timeoutCount + if e.isTimeout then 1 else 0 } := by
  simp only [summaryFold, nextSummary, ServerHistoryEvent.toRecord, ServerHistoryEvent.isTimeout, h]
  by_cases hr : e.failureReason = some HistoryFailureReason.TIMEOUT_UNATTRIBUTED
  · simp [hr]
  · simp [hr]

/-- An event that is neither a success nor a failure leaves these counters alone. -/
theorem next_of_neutral (row : ServerHistorySummary) (hs : e.isSuccess = false)
    (hf : e.isFailure = false) :
    (summaryFold.next row e).successCounters = row.successCounters ∧
      (summaryFold.next row e).failureCounters = row.failureCounters := by
  cases htype : e.eventType with
  | PROTOCOL_ATTEMPT =>
    rw [next_of_attempt htype]
    exact ⟨rfl, rfl⟩
  | CONNECTED => simp [ServerHistoryEvent.isSuccess, htype] at hs
  | SERVER_ABANDONED =>
    simp only [summaryFold, nextSummary, ServerHistoryEvent.toRecord, htype]
    cases houtcome : e.outcome with
    | FAILURE => simp [ServerHistoryEvent.isFailure, htype, houtcome] at hf
    | _ => exact ⟨rfl, rfl⟩
  | _ =>
    simp only [summaryFold, nextSummary, ServerHistoryEvent.toRecord, htype]
    exact ⟨rfl, rfl⟩

theorem next_timeoutCount :
    (summaryFold.next row e).timeoutCount = row.timeoutCount + if e.isTimeout then 1 else 0 := by
  cases htype : e.eventType with
  | PROTOCOL_ATTEMPT => rw [next_of_attempt htype]
  | SERVER_ABANDONED =>
    simp only [summaryFold, nextSummary, ServerHistoryEvent.toRecord, htype]
    cases e.outcome with
    | _ => simp [ServerHistoryEvent.isTimeout, htype]
  | _ => simp [summaryFold, nextSummary, ServerHistoryEvent.toRecord,
      ServerHistoryEvent.isTimeout, htype]

/-- No event renames a row, and the first one stays the first. -/
theorem next_fixed :
    (summaryFold.next row e).hostName = row.hostName ∧
      (summaryFold.next row e).firstObservedAt = some (row.firstObservedAt.getD e.createdAt) := by
  cases htype : e.eventType with
  | PROTOCOL_ATTEMPT =>
    rw [next_of_attempt htype]
    exact ⟨rfl, rfl⟩
  | SERVER_ABANDONED =>
    simp only [summaryFold, nextSummary, ServerHistoryEvent.toRecord, htype]
    cases e.outcome with
    | _ => exact ⟨rfl, rfl⟩
  | _ => simp [summaryFold, nextSummary, ServerHistoryEvent.toRecord, htype]

/-- A success counts on its network, and ends the streaks of failures there and overall. -/
theorem next_of_success (row : ServerHistorySummary) (h : e.eventType = .CONNECTED) :
    (summaryFold.next row e).successCount = row.successCount + 1 ∧
      (∀ n, (summaryFold.next row e).successesOn n =
        row.successesOn n + if e.networkType = n then 1 else 0) ∧
      (summaryFold.next row e).failureCount = row.failureCount ∧
      (∀ n, (summaryFold.next row e).failuresOn n = row.failuresOn n) ∧
      (summaryFold.next row e).consecutiveFailures = 0 ∧
      ∀ n, (summaryFold.next row e).consecutiveFailuresOn n =
        if e.networkType = n then 0 else row.consecutiveFailuresOn n := by
  simp only [summaryFold, nextSummary, ServerHistoryEvent.toRecord, h]
  refine ⟨rfl, ?_, rfl, ?_, trivial, ?_⟩
  · intro n
    cases n with
    | _ => rfl
  · intro n
    cases n with
    | _ => rfl
  · intro n
    cases n with
    | _ => rfl

/-- A failure counts on its network, and makes the streaks there and overall longer. -/
theorem next_of_failure (row : ServerHistorySummary) (h : e.eventType = .SERVER_ABANDONED)
    (ho : e.outcome = .FAILURE) :
    (summaryFold.next row e).successCounters = row.successCounters ∧
      (summaryFold.next row e).failureCount = row.failureCount + 1 ∧
      (∀ n, (summaryFold.next row e).failuresOn n =
        row.failuresOn n + if e.networkType = n then 1 else 0) ∧
      (summaryFold.next row e).consecutiveFailures = row.consecutiveFailures + 1 ∧
      ∀ n, (summaryFold.next row e).consecutiveFailuresOn n =
        row.consecutiveFailuresOn n + if e.networkType = n then 1 else 0 := by
  simp only [summaryFold, nextSummary, ServerHistoryEvent.toRecord, h, ho]
  refine ⟨rfl, rfl, ?_, rfl, ?_⟩
  · intro n
    cases n with
    | _ => rfl
  · intro n
    cases n with
    | _ => rfl

theorem eventType_of_isSuccess (h : e.isSuccess = true) : e.eventType = .CONNECTED := by
  simpa [ServerHistoryEvent.isSuccess] using h

theorem of_isFailure (h : e.isFailure = true) :
    e.eventType = .SERVER_ABANDONED ∧ e.outcome = .FAILURE := by
  simpa [ServerHistoryEvent.isFailure] using h

/-- An event is not a success and a failure. -/
theorem isFailure_of_isSuccess (h : e.isSuccess = true) : e.isFailure = false := by
  simp [ServerHistoryEvent.isFailure, eventType_of_isSuccess h]

/-! ### The induction over the log -/

/-- The counts by network, for an event that may or may not be on it. -/
theorem streak_onNetwork_cons :
    streak (onNetwork network (e :: events)) =
      if e.networkType = network ∧ e.isSuccess = true then 0
      else streak (onNetwork network events) +
        if e.networkType = network ∧ e.isFailure = true then 1 else 0 := by
  rw [onNetwork_cons]
  by_cases hn : e.networkType = network
  · rw [if_pos hn, streak]
    by_cases hs : e.isSuccess = true
    · simp [hs, hn]
    · by_cases hf : e.isFailure = true
      · simp [hs, hf, hn]
      · simp [hs, hf, hn]
  · simp [hn]

theorem tallies_empty : Tallies [] (summaryFold.empty host) := by
  refine ⟨rfl, ?_, rfl, ?_, rfl, rfl, ?_, rfl⟩
  all_goals
    intro n
    cases n with
    | _ => rfl

/-- **One more event.** -/
theorem Tallies.cons (h : Tallies events row) : Tallies (e :: events) (summaryFold.next row e) := by
  have htimeout : (summaryFold.next row e).timeoutCount =
      Int32.ofNat ((e :: events).countP ServerHistoryEvent.isTimeout) := by
    rw [next_timeoutCount, ofNat_countP_cons, h.timeout]
  have hfirst : (summaryFold.next row e).firstObservedAt =
      ((e :: events).getLast?).map ServerHistoryEvent.createdAt := by
    rw [next_fixed.2, h.firstObserved]
    cases hlast : events.getLast? with
    | none => simp [List.getLast?_eq_none_iff.mp hlast]
    | some first => simp [List.getLast?_cons, hlast]
  by_cases hs : e.isSuccess = true
  · -- A success.
    obtain ⟨h₁, h₂, h₃, h₄, h₅, h₆⟩ := next_of_success row (eventType_of_isSuccess hs)
    have hf := isFailure_of_isSuccess hs
    refine ⟨?_, ?_, ?_, ?_, htimeout, ?_, ?_, hfirst⟩
    · rw [h₁, ofNat_countP_cons, h.success, if_pos hs]
    · intro n
      rw [h₂, ofNat_countP_onNetwork_cons, h.successOn]
      simp [hs]
    · rw [h₃, ofNat_countP_cons, h.failure]
      simp [hf]
    · intro n
      rw [h₄, ofNat_countP_onNetwork_cons, h.failureOn]
      simp [hf]
    · rw [h₅, streak, if_pos hs]
      rfl
    · intro n
      rw [h₆, streak_onNetwork_cons, h.consecutiveOn]
      by_cases hn : e.networkType = n
      · simp [hn, hs]
      · simp [hn]
  · by_cases hf : e.isFailure = true
    · -- A failure that counts.
      obtain ⟨ht, ho⟩ := of_isFailure hf
      obtain ⟨hsame, h₁, h₂, h₃, h₄⟩ := next_of_failure row ht ho
      obtain ⟨hall, hon⟩ := successes_congr hsame
      refine ⟨?_, ?_, ?_, ?_, htimeout, ?_, ?_, hfirst⟩
      · rw [hall, ofNat_countP_cons, h.success]
        simp [hs]
      · intro n
        rw [hon, ofNat_countP_onNetwork_cons, h.successOn]
        simp [hs]
      · rw [h₁, ofNat_countP_cons, h.failure, if_pos hf]
      · intro n
        rw [h₂, ofNat_countP_onNetwork_cons, h.failureOn]
        simp [hf]
      · rw [h₃, streak, if_neg hs, if_pos hf, h.consecutive]
        simp
      · intro n
        rw [h₄, streak_onNetwork_cons, h.consecutiveOn]
        by_cases hn : e.networkType = n
        · simp [hn, hs, hf]
        · simp [hn]
    · -- Any other event.
      obtain ⟨hsame, hsame'⟩ := next_of_neutral row (eq_false_of_ne_true hs)
        (eq_false_of_ne_true hf)
      obtain ⟨hall, hon⟩ := successes_congr hsame
      obtain ⟨hall', hon', hstreak, hstreak'⟩ := failures_congr hsame'
      refine ⟨?_, ?_, ?_, ?_, htimeout, ?_, ?_, hfirst⟩
      · rw [hall, ofNat_countP_cons, h.success]
        simp [hs]
      · intro n
        rw [hon, ofNat_countP_onNetwork_cons, h.successOn]
        simp [hs]
      · rw [hall', ofNat_countP_cons, h.failure]
        simp [hf]
      · intro n
        rw [hon', ofNat_countP_onNetwork_cons, h.failureOn]
        simp [hf]
      · rw [hstreak, streak, if_neg hs, if_neg hf, h.consecutive]
      · intro n
        rw [hstreak', streak_onNetwork_cons, h.consecutiveOn]
        simp [hs, hf]

/-- **The counters of the row that a list of events decides.** -/
theorem tallies_rowOf : Tallies events (summaryFold.rowOf host events) := by
  induction events with
  | nil => exact tallies_empty
  | cons e events ih => exact ih.cons

end Tallies

/-! ### The invariant of the tables -/

/-- No two successes in the log have the same token. -/
def DistinctTokens (events : List ServerHistoryEvent) : Prop :=
  events.Pairwise fun later earlier =>
    later.isSuccess = true → earlier.isSuccess = true →
      later.attemptToken ≠ none → earlier.attemptToken ≠ later.attemptToken

/-- **What holds of the three tables.** -/
structure HistoryInv (db : HistoryDb) : Prop where
  summaries : summaryFold.Sourced db.summary db.events
  protocols : protocolFold.Sourced db.protocolSummary db.events
  tokens : DistinctTokens db.events

section Invariant

variable {db : HistoryDb} {host raw : JavaString} {record : HistoryRecord} {marker : ℤ}
  {row : ServerHistorySummary} {events : List ServerHistoryEvent} {call : HistoryCall}

theorem rowOf_hostName : (summaryFold.rowOf host events).hostName = host := by
  induction events with
  | nil => rfl
  | cons e events ih => rw [RowFold.rowOf_cons, next_fixed.1, ih]

/-- The row of a host has its name. -/
theorem HistoryInv.hostName (h : HistoryInv db) (host : JavaString) :
    (db.rowOf host).hostName = host := by
  have hrow := (h.summaries host).1
  calc (db.rowOf host).hostName = (db.rowOf host).forgetRefresh.hostName := rfl
    _ = (summaryFold.rowOf host (summaryFold.eventsOf host db.events)).hostName :=
      congrArg ServerHistorySummary.hostName hrow
    _ = host := rowOf_hostName

theorem nextSummary_getD :
    nextSummary (db.summary record.hostName) record =
      summaryFold.next (db.rowOf record.hostName) (.fromRecord record) := by
  show _ = nextSummary (some ((db.summary record.hostName).getD _)) record
  cases db.summary record.hostName with
  | none => rfl
  | some row => rfl

/-- A record with a row for its protocol. -/
theorem nextProtocolOf_of_key {current : Option ServerProtocolSummary} {protocol : JavaString}
    (hkey : protocolFold.key (.fromRecord record) = some (record.hostName, protocol)) :
    nextProtocolOf current record protocol =
      some (protocolFold.next (current.getD (protocolFold.empty (record.hostName, protocol)))
        (.fromRecord record)) := by
  have hbase : nextProtocolOf current record protocol =
      nextProtocolOf (some (current.getD (protocolFold.empty (record.hostName, protocol)))) record
        (current.getD (protocolFold.empty (record.hostName, protocol))).protocol := by
    cases current with
    | none => rfl
    | some row => rfl
  have hsome : (nextProtocolOf current record protocol).isSome := by
    simp only [protocolFold, ServerHistoryEvent.fromRecord] at hkey
    unfold nextProtocolOf
    cases htype : record.eventType with
    | CONNECTED => rfl
    | PROTOCOL_ATTEMPT =>
      dsimp only
      split_ifs <;> rfl
    | _ => simp [htype] at hkey
  obtain ⟨row, hrow⟩ := Option.isSome_iff_exists.mp hsome
  show _ = some ((nextProtocolOf (some _) record _).getD _)
  rw [← hbase, hrow]
  rfl

/-- A record without one. -/
theorem nextProtocolOf_of_none {current : Option ServerProtocolSummary} {protocol : JavaString}
    (hkey : protocolFold.key (.fromRecord record) = none)
    (hprotocol : record.protocol = some protocol) :
    nextProtocolOf current record protocol = none := by
  simp only [protocolFold, ServerHistoryEvent.fromRecord, hprotocol] at hkey
  unfold nextProtocolOf
  cases htype : record.eventType with
  | CONNECTED => simp [htype] at hkey
  | PROTOCOL_ATTEMPT => simp [htype] at hkey
  | _ => rfl

theorem protocolFold_key_keep {row : ServerProtocolSummary} {e : ServerHistoryEvent} :
    ((protocolFold.next row e).hostName, (protocolFold.next row e).protocol) =
      (row.hostName, row.protocol) := by
  simp only [protocolFold, nextProtocolOf]
  split
  · rfl
  · split_ifs <;> rfl
  · rfl

/-- A protocol row has the names of its key. -/
theorem protocolRow_names {key : JavaString × JavaString} {events : List ServerHistoryEvent} :
    ((protocolFold.rowOf key events).hostName, (protocolFold.rowOf key events).protocol) =
      key := by
  induction events with
  | nil => rfl
  | cons e events ih => rw [RowFold.rowOf_cons, protocolFold_key_keep, ih]

theorem protocol_of_key {key : JavaString × JavaString}
    (hkey : protocolFold.key (.fromRecord record) = some key) :
    ∃ p, record.protocol = some p ∧ (record.hostName, p) = key := by
  simp only [protocolFold, ServerHistoryEvent.fromRecord] at hkey
  cases htype : record.eventType with
  | CONNECTED =>
    simp only [htype] at hkey
    exact Option.map_eq_some_iff.mp hkey
  | PROTOCOL_ATTEMPT =>
    simp only [htype] at hkey
    exact Option.map_eq_some_iff.mp hkey
  | _ => simp [htype] at hkey

/-- The record writes the row of its protocol, if there is one. -/
theorem HistoryInv.protocols_record (h : HistoryInv db) :
    protocolFold.Sourced
      (match nextProtocol
          (record.protocol.bind fun p => db.protocolSummary (record.hostName, p)) record with
        | some row => (db.upsertProtocol row).protocolSummary
        | none => db.protocolSummary)
      (.fromRecord record :: db.events) := by
  cases hkey : protocolFold.key (.fromRecord record) with
  | none =>
    have hnone : nextProtocol
        (record.protocol.bind fun p => db.protocolSummary (record.hostName, p)) record = none := by
      cases hp : record.protocol with
      | none => simp [nextProtocol, hp]
      | some p => simp [nextProtocol, hp, nextProtocolOf_of_none hkey hp]
    rw [hnone]
    exact h.protocols.skip hkey
  | some key =>
    obtain ⟨p, hp, rfl⟩ := protocol_of_key hkey
    have hsome : nextProtocol
        (record.protocol.bind fun p => db.protocolSummary (record.hostName, p)) record =
          some (protocolFold.next ((db.protocolSummary (record.hostName, p)).getD
            (protocolFold.empty (record.hostName, p))) (.fromRecord record)) := by
      simp only [nextProtocol, hp, Option.bind_some]
      exact nextProtocolOf_of_key hkey
    rw [hsome]
    have hnames : ((protocolFold.next ((db.protocolSummary (record.hostName, p)).getD
        (protocolFold.empty (record.hostName, p))) (.fromRecord record)).hostName,
        (protocolFold.next ((db.protocolSummary (record.hostName, p)).getD
        (protocolFold.empty (record.hostName, p))) (.fromRecord record)).protocol) =
          (record.hostName, p) := by
      rw [protocolFold_key_keep]
      have hrow : (db.protocolSummary (record.hostName, p)).getD
          (protocolFold.empty (record.hostName, p)) = _ := (h.protocols (record.hostName, p)).1
      rw [hrow, protocolRow_names]
    show protocolFold.Sourced (Function.update _ _ _) _
    rw [hnames]
    exact h.protocols.record hkey

/-! ### The calls -/

/-- A record that is not dropped. -/
theorem record_tables (hblank : record.hostName.isBlank = false)
    (hrepeated : db.repeated record = false) :
    (db.record record).summary =
        (db.upsertSummary (nextSummary (db.summary record.hostName) record)).summary ∧
      (db.record record).protocolSummary =
        (match nextProtocol
            (record.protocol.bind fun p => db.protocolSummary (record.hostName, p)) record with
          | some row => (db.upsertProtocol row).protocolSummary
          | none => db.protocolSummary) ∧
      (db.record record).events = .fromRecord record :: db.events := by
  unfold HistoryDb.record
  simp only [hblank, hrepeated, Bool.false_eq_true, if_false]
  cases h : nextProtocol (record.protocol.bind fun p =>
      db.protocolSummary (record.hostName, p)) record with
  | none => simp [HistoryDb.upsertSummary, HistoryDb.insertEvent, h]
  | some row =>
    simp [HistoryDb.upsertSummary, HistoryDb.upsertProtocol, HistoryDb.insertEvent, h]

/-- A token in the log is not given to a second success. -/
theorem countToken_of_mem {e : ServerHistoryEvent} {token : JavaString} (he : e ∈ db.events)
    (htoken : e.attemptToken = some token) (hs : e.isSuccess = true) :
    db.countToken token .CONNECTED > 0 := by
  apply List.countP_pos_iff.mpr
  exact ⟨e, he, by simp [htoken, eventType_of_isSuccess hs]⟩

theorem HistoryInv.recorded (h : HistoryInv db) : HistoryInv (db.record record) := by
  cases hblank : record.hostName.isBlank with
  | true => simpa [HistoryDb.record, hblank] using h
  | false =>
    cases hrepeated : db.repeated record with
    | true => simpa [HistoryDb.record, hblank, hrepeated] using h
    | false =>
      obtain ⟨hsummary, hprotocol, hevents⟩ := record_tables hblank hrepeated
      refine ⟨?_, ?_, ?_⟩
      · rw [hsummary, hevents, nextSummary_getD]
        show summaryFold.Sourced (Function.update _ (summaryFold.next _ _).hostName _) _
        rw [next_fixed.1, h.hostName]
        exact h.summaries.record rfl
      · rw [hprotocol, hevents]
        exact h.protocols_record
      · rw [hevents]
        refine List.pairwise_cons.mpr ⟨?_, h.tokens⟩
        intro e he hs hs' htoken heq
        obtain ⟨token, htoken'⟩ := Option.ne_none_iff_exists'.mp htoken
        have hpos := countToken_of_mem he (heq.trans htoken') hs'
        have htype : record.eventType = .CONNECTED := eventType_of_isSuccess hs
        have hrecord : record.token = some token := htoken'
        simp [HistoryDb.repeated, htype, hrecord] at hrepeated
        omega

theorem HistoryInv.markSeenOne (h : HistoryInv db) : HistoryInv (db.markSeenOne marker raw) := by
  unfold HistoryDb.markSeenOne
  simp only
  split_ifs with hempty
  · exact h
  · cases hrow : db.summary raw.trim with
    | none =>
      refine ⟨h.summaries.touch ?_, h.protocols, h.tokens⟩
      rw [hrow]
      rfl
    | some current =>
      dsimp only
      split_ifs with hseen
      · have hname : current.hostName = raw.trim := by
          have hhost := h.hostName raw.trim
          rwa [HistoryDb.rowOf, hrow, Option.getD_some] at hhost
        refine ⟨?_, h.protocols, h.tokens⟩
        show summaryFold.Sourced (Function.update _ current.hostName _) _
        rw [← hname] at hrow
        apply h.summaries.touch
        rw [hrow]
        rfl
      · exact h

theorem markSeenOne_events (db : HistoryDb) (raw : JavaString) :
    (db.markSeenOne marker raw).events = db.events := by
  unfold HistoryDb.markSeenOne
  simp only
  split_ifs with hempty
  · rfl
  · cases db.summary raw.trim with
    | none => rfl
    | some current =>
      dsimp only
      split_ifs <;> rfl

theorem HistoryInv.markSeen (h : HistoryInv db) (hostNames : List JavaString) :
    HistoryInv (db.markSeen hostNames marker) :=
  run_invariant (fun _ _ h => h.markSeenOne) h hostNames

theorem HistoryInv.incrementMissedRefresh (h : HistoryInv db) :
    HistoryInv (db.incrementMissedRefresh marker) := by
  refine ⟨h.summaries.touchAll ?_, h.protocols, h.tokens⟩
  intro row
  show (HistoryDb.missed marker row).forgetRefresh = row.forgetRefresh
  unfold HistoryDb.missed
  split
  · rfl
  · rfl

theorem HistoryInv.step (h : HistoryInv db) (call : HistoryCall) :
    HistoryInv (historyStep db call) := by
  cases call with
  | record record => exact h.recorded
  | markSeen hostNames marker => exact h.markSeen hostNames
  | incrementMissedRefresh marker => exact h.incrementMissedRefresh

/-- **The invariant holds after any calls.** -/
theorem historyInv_run (calls : List HistoryCall) : HistoryInv (historyOf calls) :=
  run_invariant (fun _ call h => h.step call)
    ⟨RowFold.sourced_nil, RowFold.sourced_nil, List.Pairwise.nil⟩ calls

/-! ### What a call changes -/

/-- A summary row follows from the events of its server. -/
theorem HistoryInv.row_eq (h : HistoryInv db) (host : JavaString) :
    (db.rowOf host).forgetRefresh = summaryFold.rowOf host (db.eventsOf host) :=
  (h.summaries host).1

theorem HistoryInv.tallies (h : HistoryInv db) (host : JavaString) :
    Tallies (db.eventsOf host) (db.rowOf host) := by
  have hrow : Tallies (db.eventsOf host) (db.rowOf host).forgetRefresh := by
    rw [h.row_eq]
    exact tallies_rowOf
  refine ⟨hrow.success, ?_, hrow.failure, ?_, hrow.timeout, hrow.consecutive, ?_,
    hrow.firstObserved⟩
  · intro n
    rw [← hrow.successOn n]
    cases n with
    | _ => rfl
  · intro n
    rw [← hrow.failureOn n]
    cases n with
    | _ => rfl
  · intro n
    rw [← hrow.consecutiveOn n]
    cases n with
    | _ => rfl

/-- Every event is on one of the three networks. -/
theorem Tallies.sums (h : Tallies events row) :
    row.successCount = row.successesOn .WIFI + row.successesOn .CELLULAR +
        row.successesOn .UNKNOWN ∧
      row.failureCount = row.failuresOn .WIFI + row.failuresOn .CELLULAR +
        row.failuresOn .UNKNOWN := by
  rw [h.success, h.failure, h.successOn, h.successOn, h.successOn, h.failureOn, h.failureOn,
    h.failureOn]
  simp only [← Int32.ofNat_add, ← countP_networks, and_self]

/-- The events that a call adds to the log. -/
theorem historyStep_events (db : HistoryDb) (call : HistoryCall) :
    (historyStep db call).events = db.events ∨
      ∃ record, call = .record record ∧
        (historyStep db call).events = .fromRecord record :: db.events := by
  cases call with
  | record record =>
    by_cases hblank : record.hostName.isBlank = true
    · left
      simp [historyStep, HistoryDb.record, hblank]
    · by_cases hrepeated : db.repeated record = true
      · left
        simp [historyStep, HistoryDb.record, hblank, hrepeated]
      · right
        refine ⟨record, rfl, ?_⟩
        exact (record_tables (eq_false_of_ne_true hblank) (eq_false_of_ne_true hrepeated)).2.2
  | markSeen hostNames marker =>
    left
    have hkeep : ∀ (db' : HistoryDb) (raw : JavaString), db'.events = db.events →
        (db'.markSeenOne marker raw).events = db.events := by
      intro db' raw h
      rw [markSeenOne_events, h]
    exact run_invariant hkeep rfl hostNames
  | incrementMissedRefresh marker => exact .inl rfl

/-- A record goes to the log, unless it is a success whose token is there. -/
theorem record_logged (hblank : record.hostName.isBlank = false) :
    (db.record record).events = .fromRecord record :: db.events ∨
      record.eventType = .CONNECTED ∧ record.token ≠ none ∧
        ∃ e ∈ db.events, e.isSuccess = true ∧ e.attemptToken = record.token := by
  cases hrepeated : db.repeated record with
  | false => exact .inl (record_tables hblank hrepeated).2.2
  | true =>
    right
    simp only [HistoryDb.repeated, Bool.and_eq_true, beq_iff_eq, Option.any_eq_true,
      decide_eq_true_eq] at hrepeated
    obtain ⟨htype, token, htoken, hcount⟩ := hrepeated
    obtain ⟨e, he, hmatch⟩ := List.countP_pos_iff.mp hcount
    obtain ⟨htoken', htype'⟩ := of_decide_eq_true hmatch
    refine ⟨htype, by simp [htoken], e, he, ?_, htoken'.trans htoken.symm⟩
    simp [ServerHistoryEvent.isSuccess, htype', htype]

/-- The log of a server after more calls. -/
theorem eventsOf_run (db : HistoryDb) (host : JavaString) (calls : List HistoryCall) :
    db.eventsOf host <:+ (run historyStep db calls).eventsOf host := by
  apply List.IsSuffix.filter
  have hgrow : ∀ (db' : HistoryDb) (call : HistoryCall), db.events <:+ db'.events →
      db.events <:+ (historyStep db' call).events := by
    intro db' call h
    obtain heq | ⟨record, -, heq⟩ := historyStep_events db' call
    · rwa [heq]
    · rw [heq]
      exact h.trans (List.suffix_cons _ _)
  exact run_invariant hgrow List.suffix_rfl calls

/-- The first observation of a server does not move. -/
theorem HistoryInv.firstObserved_run (h : HistoryInv db) (calls : List HistoryCall)
    (h' : HistoryInv (run historyStep db calls)) {t : ℤ}
    (ht : (db.rowOf host).firstObservedAt = some t) :
    ((run historyStep db calls).rowOf host).firstObservedAt = some t := by
  rw [(h.tallies host).firstObserved] at ht
  rw [(h'.tallies host).firstObserved]
  obtain ⟨later, hlater⟩ := eventsOf_run db host calls
  obtain ⟨first, hfirst, -⟩ := Option.map_eq_some_iff.mp ht
  rw [← hlater, List.getLast?_append, hfirst, Option.some_or, ← hfirst]
  exact ht

/-- What does not change the log changes a row by its markers only. -/
theorem HistoryInv.forgetRefresh_of_events {db' : HistoryDb} (h : HistoryInv db)
    (h' : HistoryInv db') (hevents : db'.events = db.events) :
    (db'.rowOf host).forgetRefresh = (db.rowOf host).forgetRefresh := by
  rw [h'.row_eq, h.row_eq, HistoryDb.eventsOf, hevents, HistoryDb.eventsOf]

/-- An event that is neither a success nor a failure changes no counter of failures. -/
theorem HistoryInv.failureCounters_of_neutral (h : HistoryInv db)
    (hs : (ServerHistoryEvent.fromRecord record).isSuccess = false)
    (hf : (ServerHistoryEvent.fromRecord record).isFailure = false) :
    ((db.record record).rowOf host).failureCounters = (db.rowOf host).failureCounters := by
  have h' := h.step (.record record)
  obtain heq | ⟨r, hr, heq⟩ := historyStep_events db (.record record)
  · exact failureCounters_congr (h.forgetRefresh_of_events h' heq)
  · obtain rfl : record = r := by simpa using hr
    have hrow : ((db.record record).rowOf host).forgetRefresh = _ := h'.row_eq host
    rw [HistoryDb.eventsOf, show (historyStep db (.record record)).events = _ from heq] at hrow
    by_cases hkey : summaryFold.key (.fromRecord record) = some host
    · rw [RowFold.eventsOf_cons_of_key hkey, RowFold.rowOf_cons] at hrow
      have hold := h.row_eq host
      rw [HistoryDb.eventsOf] at hold
      rw [← hold] at hrow
      calc ((db.record record).rowOf host).failureCounters
          = ((db.record record).rowOf host).forgetRefresh.failureCounters := rfl
        _ = (db.rowOf host).forgetRefresh.failureCounters := by
            rw [hrow]
            exact (next_of_neutral _ hs hf).2
        _ = (db.rowOf host).failureCounters := rfl
    · rw [RowFold.eventsOf_cons_of_ne hkey] at hrow
      exact failureCounters_congr (hrow.trans (h.row_eq host).symm)

end Invariant

/-! ### The refinement -/

/-- A refresh of the server list. -/
def HistoryCall.isRefresh : HistoryCall → Bool
  | .record _ => false
  | .markSeen _ _ | .incrementMissedRefresh _ => true

/-- **The summary row of a server refines its events.** -/
structure SummaryRefines (db : HistoryDb) (host : JavaString) : Prop where
  /-- But for the markers of the refreshes, the row is the fold of the events. -/
  fold : (db.rowOf host).forgetRefresh =
    (db.eventsOf host).foldr (fun e row => nextSummary (some row) e.toRecord) { hostName := host }
  tallies : Tallies (db.eventsOf host) (db.rowOf host)
  successSum : (db.rowOf host).successCount = (db.rowOf host).successesOn .WIFI +
    (db.rowOf host).successesOn .CELLULAR + (db.rowOf host).successesOn .UNKNOWN
  failureSum : (db.rowOf host).failureCount = (db.rowOf host).failuresOn .WIFI +
    (db.rowOf host).failuresOn .CELLULAR + (db.rowOf host).failuresOn .UNKNOWN
  absent : db.summary host = none → db.eventsOf host = []

/-- **The history after any calls.** The summary refines the log, in which no two successes have
the same token; and of the calls that may come next,
* a record goes to the log, unless it is a success whose token is there;
* an attempt that failed, was cancelled or was lost later changes no counter of failures;
* a refresh changes nothing but its own markers, of which the count of absences is one;
* none moves the first observation of a server. -/
theorem history_refines (calls : List HistoryCall) (host : JavaString) :
    SummaryRefines (historyOf calls) host ∧ DistinctTokens (historyOf calls).events ∧
      (∀ record : HistoryRecord, record.hostName.isBlank = false →
        (historyOf (calls ++ [.record record])).events =
            .fromRecord record :: (historyOf calls).events ∨
          record.eventType = .CONNECTED ∧ record.token ≠ none ∧
            ∃ e ∈ (historyOf calls).events, e.isSuccess = true ∧ e.attemptToken = record.token) ∧
      (∀ record : HistoryRecord,
        record.eventType ∈ [.PROTOCOL_ATTEMPT, .ATTEMPT_CANCELLED, .CONNECTION_LOST] →
        ((historyOf (calls ++ [.record record])).rowOf host).failureCounters =
          ((historyOf calls).rowOf host).failureCounters) ∧
      (∀ call : HistoryCall, call.isRefresh = true →
        ((historyOf (calls ++ [call])).rowOf host).forgetRefresh =
          ((historyOf calls).rowOf host).forgetRefresh) ∧
      ∀ (more : List HistoryCall) (t : ℤ),
        ((historyOf calls).rowOf host).firstObservedAt = some t →
        ((historyOf (calls ++ more)).rowOf host).firstObservedAt = some t := by
  have h := historyInv_run calls
  refine ⟨?_, h.tokens, ?_, ?_, ?_, ?_⟩
  · have hsums := (h.tallies host).sums
    exact ⟨h.row_eq host, h.tallies host, hsums.1, hsums.2, (h.summaries host).2⟩
  · intro record hblank
    rw [historyOf, run_append]
    exact record_logged hblank
  · intro record htype
    rw [historyOf, run_append]
    apply h.failureCounters_of_neutral
    · simp only [List.mem_cons, List.not_mem_nil, or_false] at htype
      obtain htype | htype | htype := htype <;>
        simp [ServerHistoryEvent.isSuccess, ServerHistoryEvent.fromRecord, htype]
    · simp only [List.mem_cons, List.not_mem_nil, or_false] at htype
      obtain htype | htype | htype := htype <;>
        simp [ServerHistoryEvent.isFailure, ServerHistoryEvent.fromRecord, htype]
  · intro call hcall
    have h' := historyInv_run (calls ++ [call])
    apply h.forgetRefresh_of_events h'
    rw [historyOf, run_append]
    obtain heq | ⟨record, rfl, -⟩ := historyStep_events (historyOf calls) call
    · exact heq
    · exact absurd hcall nofun
  · intro more t ht
    have h' := historyInv_run (calls ++ more)
    rw [historyOf, run_append] at h' ⊢
    exact h.firstObserved_run more h' ht

/-! ### A refresh that counts -/

/-- A verified tunnel of the server `a`. -/
def connectedRecord : HistoryRecord where
  hostName := JavaString.ofChars ['a']
  eventType := .CONNECTED
  outcome := .SUCCESS
  networkType := .WIFI
  token := some (JavaString.ofChars ['t'])
  atTime := 7

/-- **The absences are counted by the refreshes**, so not every counter of a row follows from its
events. -/
theorem absence_counted :
    ¬ ∀ (calls : List HistoryCall) (marker : ℤ) (host : JavaString),
      ((historyOf (calls ++ [.incrementMissedRefresh marker])).rowOf host).counters =
        ((historyOf calls).rowOf host).counters := by
  intro h
  have hcounters := h [.record connectedRecord] 9 (JavaString.ofChars ['a'])
  revert hcounters
  decide

end SoftEther.History
