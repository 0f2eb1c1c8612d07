import Mathlib.Data.List.Infix
import SoftEther.Lib.Flow
import SoftEther.Repository.ServerRow

namespace SoftEther.Repository

open Lib

/-!
# The server list updater (`ServerListUpdater.kt`)

One update fetches a dataset, judges it and stores it. What it is built from (the fetches and the
store) is injected, and each call of it may return anything or throw.

* `Throwable`, `Callbacks` — what the injected calls come to in one update;
* `Persisted`, `World` — what is stored, and the process-wide gate;
* `prepare`, `commit`, `update` — the source, up to the write, the write, and all of it;
* `Contains` — what "contains every failure" asks of an update;
* `Contained` — the calls that no `catch` covers return, or are cancelled;
* `update_contains_iff` — the first holds exactly when the second does, or the gate was held.

A write of the store that throws changes nothing: the interface asks for one transaction. The
verdict `DatasetIntegrity.evaluate` is a pure function, and any function here.
-/

/-! ### What is injected -/

/-- `CancellationException`, another `Exception`, or a `Throwable` that is none. -/
inductive ThrowableKind
  | cancellation
  | exception
  | error
  deriving DecidableEq

/-- What a call throws; `names` are the simple class names of it and of its causes in turn. -/
structure Throwable where
  kind : ThrowableKind
  isParseException : Bool
  names : List JavaString
  deriving DecidableEq

/-- `catch (e: Exception)` catches it; a cancellation is an `Exception` too. -/
def Throwable.isException (e : Throwable) : Prop := e.kind ≠ .error

instance (e : Throwable) : Decidable e.isException := inferInstanceAs (Decidable (e.kind ≠ .error))

/-- `ServerListUpdater.Reason`. -/
inductive Reason
  | NETWORK_FAILURE
  | EMPTY_RESPONSE
  | PARSE_FAILURE
  | INVALID_DATASET
  | DEGRADED_DATASET
  | STORE_FAILURE
  | STORE_CONFLICT
  deriving DecidableEq

/-- `ServerListUpdater.Outcome`. -/
inductive Outcome
  | Updated (serverCount : Int) (snapshotSaved sourcedFromCache : Bool)
  | Preserved (reason : Reason) (serverCount : Int)
  | SkippedConcurrent
  deriving DecidableEq

/-- `SourceCapability`. -/
structure SourceCapability where
  providesProtocolColumns : Bool
  providesOpenVpnProfiles : Bool

/-- `SourceCapability.UNKNOWN`. -/
def SourceCapability.UNKNOWN : SourceCapability := ⟨true, true⟩

/-- The history markers: the marker of the refresh that last listed a host. -/
abbrev Markers := List (JavaString × Int)

/-- Where the updater asks for `currentCount`; one update comes to each place at most once. -/
inductive CountSite
  | outcome
  | baseline
  | log
  | caught

/-- What the injected calls come to in one update. A write that returns gives what is stored
    after it. -/
structure Callbacks where
  fetch : CallResult Throwable (Option (List VPNGateItem))
  fetchedFromCache : CallResult Throwable Bool
  emergencyFetch : CallResult Throwable (Option (List VPNGateItem))
  fetchCapability : CallResult Throwable SourceCapability
  currentCount : CountSite → CallResult Throwable Int
  currentOpenVpnConfigCount : CallResult Throwable Int
  currentDataset : CallResult Throwable (List VPNGateItem)
  lastAcceptedFreshSize : CallResult Throwable Int
  replaceAll : List VPNGateItem → CallResult Throwable (List VPNGateItem)
  replaceAllAndMarkSeen : List VPNGateItem → Int → CallResult Throwable (List VPNGateItem × Markers)
  recordAcceptedFreshSize : Int → CallResult Throwable Unit
  saveLastKnownGood : List VPNGateItem → CallResult Throwable Bool

/-- What an update may change. -/
structure Persisted where
  dataset : List VPNGateItem
  markers : Markers
  freshSize : Int
  snapshot : List VPNGateItem
  deriving DecidableEq

/-- The stored things, the process-wide gate and the flag of this updater. -/
structure World where
  persisted : Persisted
  gateHeld : Bool
  running : Bool
  deriving DecidableEq

/-! ### The source -/

/-- `isUsable`: a server without an address can never be dialled. -/
def isUsable (item : VPNGateItem) : Bool :=
  let host := item.hostName.trim
  let ip := (item.ip.map JavaString.trim).getD []
  let dot : UInt16 := 0x2E
  !host.isEmpty && !ip.isEmpty &&
    (ip.any (fun c => JavaString.isDigit c || c == dot) || host.contains dot)

/-- `classify`. -/
def classify (e : Throwable) : Reason :=
  if e.isParseException then .PARSE_FAILURE else .NETWORK_FAILURE

/-- `isKeyConflict`: the walk along the causes is bounded by eight. -/
def isKeyConflict (e : Throwable) : Bool :=
  (e.names.take 8).any fun name =>
    decide (JavaString.ofChars "ConstraintException".toList <:+: name) ||
      decide (JavaString.ofChars "ConstraintViolation".toList <:+: name)

/-- A dataset that was accepted, and where it comes from. -/
structure Prepared where
  usableRows : List VPNGateItem
  fromCache : Bool
  suppliedByEmergency : Bool

section Update

variable (evaluate : List VPNGateItem → List VPNGateItem → SourceCapability → Int → Bool → Bool)
  (cb : Callbacks)

/-- The emergency rung, when `fetch` had nothing. -/
def downloadOrEmergency (fetched : Option (List VPNGateItem)) :
    Flow Throwable Reason (List VPNGateItem × Bool) :=
  match fetched with
  | some rows => .next (rows, false)
  | none =>
    (cb.emergencyFetch.attempt fun e => if e.kind = .exception then .next none else .raised e).bind
      fun emergency =>
        match emergency with
        | none => .exit .NETWORK_FAILURE
        | some [] => .exit .NETWORK_FAILURE
        | some rows => .next (rows, true)

/-- From the downloaded rows to the verdict. -/
def judge (downloaded : List VPNGateItem) (fromCache suppliedByEmergency : Bool) :
    Flow Throwable Reason Prepared :=
  if downloaded = [] then .exit .EMPTY_RESPONSE
  else
    let usable := downloaded.filter isUsable
    if usable = [] then .exit .INVALID_DATASET
    else
      let usableRows := dedupeForStorage usable
      -- `dropsOpenVpnProfiles`, for the log only
      cb.currentOpenVpnConfigCount.flow.bind fun _ =>
      (cb.fetchCapability.attempt fun e =>
        if e.isException then .next SourceCapability.UNKNOWN else .raised e).bind fun capability =>
      (if fromCache then (cb.currentCount .baseline).flow
        else if suppliedByEmergency then .next 0
        else cb.lastAcceptedFreshSize.flow).bind fun baseline =>
      cb.currentDataset.flow.bind fun stored =>
      if evaluate usableRows stored capability baseline fromCache then
        .next ⟨usableRows, fromCache, suppliedByEmergency⟩
      else (cb.currentCount .log).flow.bind fun _ => .exit .DEGRADED_DATASET

/-- `update` up to the write: `exit` is a `return Outcome.Preserved`. -/
def prepare : Flow Throwable Reason Prepared :=
  (cb.fetch.attempt fun e =>
    if e.kind = .exception then .exit (classify e) else .raised e).bind fun fetched =>
  (cb.fetchedFromCache.attempt fun e =>
    if e.isException then .next false else .raised e).bind fun fromCache =>
  (downloadOrEmergency cb fetched).bind fun downloaded =>
  judge evaluate cb downloaded.1 fromCache downloaded.2

/-- The body of the last `try`. -/
def commit (refreshMarker : Int) (p : Prepared) (s : Persisted) :
    CallResult Throwable Outcome × Persisted :=
  let size : Int := p.usableRows.length
  if p.fromCache || p.suppliedByEmergency then
    match cb.replaceAll p.usableRows with
    | .threw e => (.threw e, s)
    | .returned dataset =>
      (.returned (.Updated size true p.fromCache), { s with dataset := dataset })
  else
    match cb.replaceAllAndMarkSeen p.usableRows refreshMarker with
    | .threw e => (.threw e, s)
    | .returned (dataset, markers) =>
      let s := { s with dataset := dataset, markers := markers }
      match cb.recordAcceptedFreshSize size with
      | .threw e => (.threw e, s)
      | .returned () =>
        let s := { s with freshSize := size }
        match cb.saveLastKnownGood p.usableRows with
        | .returned saved =>
          (.returned (.Updated size saved p.fromCache),
            if saved then { s with snapshot := p.usableRows } else s)
        | .threw e =>
          (if e.isException then .returned (.Updated size false p.fromCache) else .threw e, s)

/-- `Outcome.Preserved(reason, store.currentCount())`. -/
def preserved (site : CountSite) (reason : Reason) : CallResult Throwable Outcome :=
  match cb.currentCount site with
  | .returned count => .returned (.Preserved reason count)
  | .threw e => .threw e

/-- The last `catch`, after the body of its `try`. -/
def caught (done : CallResult Throwable Outcome × Persisted) :
    CallResult Throwable Outcome × Persisted :=
  match done with
  | (.returned outcome, s) => (.returned outcome, s)
  | (.threw e, s) =>
    if e.isException then
      (preserved cb .caught (if isKeyConflict e then .STORE_CONFLICT else .STORE_FAILURE), s)
    else (.threw e, s)

/-- `update` under the gate. -/
def body (refreshMarker : Int) (s : Persisted) : CallResult Throwable Outcome × Persisted :=
  match prepare evaluate cb with
  | .raised e => (.threw e, s)
  | .exit reason => (preserved cb .outcome reason, s)
  | .next p => caught cb (commit cb refreshMarker p s)

/-- `update`: what it returns or throws, and the world it leaves. -/
def update (refreshMarker : Int) (w : World) : CallResult Throwable Outcome × World :=
  if w.gateHeld then (.returned .SkippedConcurrent, w)
  else
    let done := body evaluate cb refreshMarker w.persisted
    -- the `finally` block gives the gate back on every way out
    (done.1, { persisted := done.2, gateHeld := false, running := false })

end Update

/-! ### What an update must contain -/

/-- `Updated`, and not `Preserved` or a throw. -/
def IsUpdated (result : CallResult Throwable Outcome) : Prop :=
  result.Meets (fun _ => False) fun outcome =>
    match outcome with
    | .Updated _ _ _ => True
    | _ => False

/-- **Every failure is contained**: nothing but cancellation is thrown, the gate is given back,
    without `Updated` all is stored as before, and a concurrent call does nothing. -/
structure Contains (before : World) (result : CallResult Throwable Outcome) (after : World) :
    Prop where
  outcome : result.Meets (fun e => e.kind = .cancellation) fun _ => True
  gate : before.gateHeld = false → after.gateHeld = false
  preserved : ¬ IsUpdated result → after.persisted = before.persisted
  concurrent : before.gateHeld = true → result = .returned .SkippedConcurrent ∧ after = before

/-! ### The calls that no `catch` covers -/

/-- A call returns, and then `P` holds of what it returns, or it is cancelled. -/
def Passes {α : Type} (c : CallResult Throwable α) (P : α → Prop) : Prop :=
  c.Meets (fun e => e.kind = .cancellation) P

/-- A call under a `catch (e: Exception)` that goes on with `fallback`. -/
def PassesOr {α : Type} (c : CallResult Throwable α) (fallback : α) (P : α → Prop) : Prop :=
  c.Meets (fun e => e.isException ∧ P fallback) P

section Contained

variable (evaluate : List VPNGateItem → List VPNGateItem → SourceCapability → Int → Bool → Bool)
  (cb : Callbacks)

/-- The count for the outcome is read outside every `catch`. -/
def CountPasses (site : CountSite) : Prop := Passes (cb.currentCount site) fun _ => True

/-- A write of a fallback returns, or throws what the last `catch` takes. -/
def ReplaceContained (rows : List VPNGateItem) : Prop :=
  (cb.replaceAll rows).Meets (fun e => e.isException ∧ CountPasses cb .caught) fun _ => True

/-- A write of an observation: when the size cannot be recorded after it, it must have changed
    nothing. -/
def ObservationContained (refreshMarker : Int) (s : Persisted) (rows : List VPNGateItem) : Prop :=
  (cb.replaceAllAndMarkSeen rows refreshMarker).Meets
    (fun e => e.isException ∧ CountPasses cb .caught) fun written =>
      (cb.recordAcceptedFreshSize rows.length).Meets
        (fun e => e.isException ∧ CountPasses cb .caught ∧
          written = (s.dataset, s.markers)) fun _ =>
          (cb.saveLastKnownGood rows).Meets Throwable.isException fun _ => True

/-- The calls of the write. -/
def CommitContained (refreshMarker : Int) (s : Persisted) (p : Prepared) : Prop :=
  if p.fromCache || p.suppliedByEmergency then ReplaceContained cb p.usableRows
  else ObservationContained cb refreshMarker s p.usableRows

/-- The calls from the downloaded rows to the verdict, and `P` of what is accepted. -/
def JudgePasses (P : Prepared → Prop) (downloaded : List VPNGateItem)
    (fromCache suppliedByEmergency : Bool) : Prop :=
  if downloaded.filter isUsable = [] then CountPasses cb .outcome
  else
    let usableRows := dedupeForStorage (downloaded.filter isUsable)
    Passes cb.currentOpenVpnConfigCount fun _ =>
    PassesOr cb.fetchCapability SourceCapability.UNKNOWN fun capability =>
    Passes (if fromCache then cb.currentCount .baseline
      else if suppliedByEmergency then .returned 0 else cb.lastAcceptedFreshSize) fun baseline =>
    Passes cb.currentDataset fun stored =>
    if evaluate usableRows stored capability baseline fromCache = true then
      P ⟨usableRows, fromCache, suppliedByEmergency⟩
    else Passes (cb.currentCount .log) fun _ => CountPasses cb .outcome

/-- A fetch: a cancellation passes on, and another exception ends in a count. -/
def FetchPasses {α : Type} (c : CallResult Throwable α) (P : α → Prop) : Prop :=
  c.Meets (fun e => e.kind = .cancellation ∨ e.kind = .exception ∧ CountPasses cb .outcome) P

/-- **The exact condition**: of the calls that an update comes to, those outside a `catch` return
    or are cancelled, no other throws an `Error`, and after the write of an observation its size
    is recorded. -/
def Contained (refreshMarker : Int) (s : Persisted) : Prop :=
  FetchPasses cb cb.fetch fun fetched =>
  PassesOr cb.fetchedFromCache false fun fromCache =>
  match fetched with
  | some rows => JudgePasses evaluate cb (CommitContained cb refreshMarker s) rows fromCache false
  | none =>
    FetchPasses cb cb.emergencyFetch fun emergency =>
      if emergency.getD [] = [] then CountPasses cb .outcome
      else
        JudgePasses evaluate cb (CommitContained cb refreshMarker s) (emergency.getD []) fromCache
          true

/-! ### Up to the write -/

variable {evaluate cb} {P : Prepared → Prop}

/-- What a computation of the source asks of the calls: a `Preserved` reads the count. -/
abbrev Quiet {α : Type} (cb : Callbacks) (P : α → Prop) (x : Flow Throwable Reason α) : Prop :=
  x.Meets (fun e => e.kind = .cancellation) (fun _ => CountPasses cb .outcome) P

variable {α β : Type} {before after : Persisted}

theorem quiet_flow_bind {P : β → Prop} {c : CallResult Throwable α}
    {f : α → Flow Throwable Reason β} :
    Quiet cb P (c.flow.bind f) ↔ Passes c fun a => Quiet cb P (f a) := by
  rw [Quiet, Flow.meets_bind, CallResult.meets_flow, Passes]

@[simp] theorem passes_returned {a : α} {P : α → Prop} : Passes (.returned a) P ↔ P a := Iff.rfl

/-- Under `catch (e: Exception)` only an `Error` gets through. -/
theorem quiet_attempt_bind {P : β → Prop} {c : CallResult Throwable α} {fallback : α}
    {f : α → Flow Throwable Reason β} :
    Quiet cb P ((c.attempt fun e => if e.isException then .next fallback else .raised e).bind f) ↔
      PassesOr c fallback fun a => Quiet cb P (f a) := by
  rw [Quiet, Flow.meets_bind, CallResult.meets_attempt, PassesOr]
  cases c with
  | returned a => rfl
  | threw e =>
    simp only [CallResult.meets_threw]
    split_ifs with hexc
    · simp [hexc]
    · have herror : e.kind = .error := not_not.mp hexc
      simp [herror, Throwable.isException]

/-- A fetch whose exceptions are handled by `onException`, which passes when a count does. -/
theorem quiet_fetch_bind {P : β → Prop} {c : CallResult Throwable α}
    {onException : Throwable → Flow Throwable Reason α} {f : α → Flow Throwable Reason β}
    (h : ∀ e, Quiet cb P ((onException e).bind f) ↔ CountPasses cb .outcome) :
    Quiet cb P ((c.attempt fun e =>
      if e.kind = .exception then onException e else .raised e).bind f) ↔
      FetchPasses cb c fun a => Quiet cb P (f a) := by
  rw [Quiet, Flow.meets_bind, CallResult.meets_attempt, FetchPasses]
  cases c with
  | returned a => rfl
  | threw e =>
    have he := h e
    rw [Quiet, Flow.meets_bind] at he
    simp only [CallResult.meets_threw]
    split_ifs with hexc
    · simp [he, hexc]
    · simp [hexc]

theorem judge_quiet {downloaded : List VPNGateItem} {fromCache suppliedByEmergency : Bool} :
    Quiet cb P (judge evaluate cb downloaded fromCache suppliedByEmergency) ↔
      JudgePasses evaluate cb P downloaded fromCache suppliedByEmergency := by
  rw [judge, JudgePasses]
  by_cases hempty : downloaded = []
  · simp [hempty]
  rw [if_neg hempty]
  by_cases husable : downloaded.filter isUsable = []
  · rw [if_pos husable]
    dsimp only
    rw [if_pos husable]
    exact Flow.meets_exit
  rw [if_neg husable]
  dsimp only
  rw [if_neg husable]
  generalize dedupeForStorage (downloaded.filter isUsable) = usableRows
  -- the verdict, after all was read
  have hverdict : ∀ capability baseline stored,
      Quiet cb P (if evaluate usableRows stored capability baseline fromCache = true then
          .next ⟨usableRows, fromCache, suppliedByEmergency⟩
        else (cb.currentCount .log).flow.bind fun _ => .exit .DEGRADED_DATASET) ↔
      if evaluate usableRows stored capability baseline fromCache = true then
        P ⟨usableRows, fromCache, suppliedByEmergency⟩
      else Passes (cb.currentCount .log) fun _ => CountPasses cb .outcome := by
    intro capability baseline stored
    split_ifs
    · exact Flow.meets_next
    · exact quiet_flow_bind
  cases fromCache with
  | true => simp only [if_true, quiet_flow_bind, quiet_attempt_bind, hverdict]
  | false =>
    cases suppliedByEmergency with
    | true =>
      simp only [Bool.false_eq_true, if_false, if_true, Flow.next_bind, quiet_flow_bind,
        quiet_attempt_bind, hverdict, passes_returned]
    | false =>
      simp only [Bool.false_eq_true, if_false, quiet_flow_bind, quiet_attempt_bind, hverdict]

theorem downloadOrEmergency_quiet {Q : List VPNGateItem × Bool → Prop}
    {fetched : Option (List VPNGateItem)} :
    Quiet cb Q (downloadOrEmergency cb fetched) ↔
      match fetched with
      | some rows => Q (rows, false)
      | none =>
        FetchPasses cb cb.emergencyFetch fun emergency =>
          if emergency.getD [] = [] then CountPasses cb .outcome
          else Q (emergency.getD [], true) := by
  cases fetched with
  | some rows => exact Flow.meets_next
  | none =>
    rw [downloadOrEmergency, quiet_fetch_bind]
    · refine iff_of_eq (congrArg _ (funext fun emergency => propext ?_))
      match emergency with
      | none => exact Flow.meets_exit
      | some [] => exact Flow.meets_exit
      | some (row :: rows) => exact Flow.meets_next
    · intro e
      exact Flow.meets_exit

/-- **Up to the write**, the source throws nothing but cancellation exactly when the calls it
    comes to pass. -/
theorem prepare_quiet (refreshMarker : Int) (s : Persisted) :
    Quiet cb (CommitContained cb refreshMarker s) (prepare evaluate cb) ↔
      Contained evaluate cb refreshMarker s := by
  have hdownload : ∀ fetched fromCache,
      Quiet cb (CommitContained cb refreshMarker s)
        ((downloadOrEmergency cb fetched).bind fun downloaded =>
          judge evaluate cb downloaded.1 fromCache downloaded.2) ↔
      match fetched with
      | some rows =>
        JudgePasses evaluate cb (CommitContained cb refreshMarker s) rows fromCache false
      | none =>
        FetchPasses cb cb.emergencyFetch fun emergency =>
          if emergency.getD [] = [] then CountPasses cb .outcome
          else
            JudgePasses evaluate cb (CommitContained cb refreshMarker s) (emergency.getD [])
              fromCache true := by
    intro fetched fromCache
    rw [Quiet, Flow.meets_bind]
    refine downloadOrEmergency_quiet.trans ?_
    simp only [judge_quiet]
  rw [prepare, quiet_fetch_bind, Contained]
  · simp only [quiet_attempt_bind, hdownload]
  · intro e
    exact Flow.meets_exit

/-! ### The write, and the whole update -/

/-- The property of what the body of an update comes to. -/
def BodyContains (before : Persisted) (done : CallResult Throwable Outcome × Persisted) : Prop :=
  (done.1.Meets (fun e => e.kind = .cancellation) fun _ => True) ∧
    (¬ IsUpdated done.1 → done.2 = before)

/-- A `Preserved` outcome, after a write that left `after`. -/
theorem preserved_contains {site : CountSite} {reason : Reason} :
    BodyContains before (preserved cb site reason, after) ↔
      CountPasses cb site ∧ after = before := by
  rw [BodyContains, preserved, CountPasses, Passes]
  cases cb.currentCount site with
  | returned count => simp [IsUpdated]
  | threw e => simp [IsUpdated]

theorem caught_threw_contains {e : Throwable} : BodyContains before (caught cb (.threw e, after)) ↔
      e.isException ∧ CountPasses cb .caught ∧ after = before := by
  rw [caught]
  by_cases hexc : e.isException
  · rw [if_pos hexc, preserved_contains]
    exact (and_iff_right hexc).symm
  · rw [if_neg hexc]
    have herror : e.kind = .error := not_not.mp hexc
    simp [BodyContains, herror, hexc]

theorem caught_updated_contains {count : Int} {saved cached : Bool} :
    BodyContains before (caught cb (.returned (.Updated count saved cached), after)) ↔ True := by
  simp [caught, BodyContains, IsUpdated]

/-- **The write** is contained exactly when its calls are. -/
theorem commit_contains {refreshMarker : Int} {p : Prepared} {s : Persisted} :
    BodyContains s (caught cb (commit cb refreshMarker p s)) ↔
      CommitContained cb refreshMarker s p := by
  rw [commit, CommitContained]
  dsimp only
  split_ifs with hfallback
  · rw [ReplaceContained]
    cases cb.replaceAll p.usableRows with
    | returned dataset => simp [caught_updated_contains]
    | threw e => simp [caught_threw_contains]
  · rw [ObservationContained]
    cases cb.replaceAllAndMarkSeen p.usableRows refreshMarker with
    | threw e => simp [caught_threw_contains]
    | returned written =>
      obtain ⟨dataset, markers⟩ := written
      simp only [CallResult.meets_returned]
      cases cb.recordAcceptedFreshSize p.usableRows.length with
      | threw e =>
        have hsame : ({ s with dataset := dataset, markers := markers } : Persisted) = s ↔
            (dataset, markers) = (s.dataset, s.markers) := by
          rw [Prod.mk.injEq]
          constructor
          · intro h
            exact ⟨congrArg Persisted.dataset h, congrArg Persisted.markers h⟩
          · rintro ⟨rfl, rfl⟩
            rfl
        simp only [caught_threw_contains, CallResult.meets_threw, hsame]
      | returned _ =>
        simp only [CallResult.meets_returned]
        cases cb.saveLastKnownGood p.usableRows with
        | returned saved => simp [caught_updated_contains]
        | threw e =>
          simp only [CallResult.meets_threw]
          split_ifs with hexc
          · simp [caught_updated_contains, hexc]
          · simp [caught_threw_contains, hexc]

theorem body_contains {refreshMarker : Int} {s : Persisted} :
    BodyContains s (body evaluate cb refreshMarker s) ↔ Contained evaluate cb refreshMarker s := by
  rw [← prepare_quiet, body]
  cases prepare evaluate cb with
  | raised e => simp [BodyContains]
  | exit reason => simp [preserved_contains]
  | next p => exact commit_contains

/-- **When an update contains every failure.** Exactly when another one holds the gate, or the
    calls that no `catch` covers return or are cancelled. -/
theorem update_contains_iff (refreshMarker : Int) (w : World) :
    Contains w (update evaluate cb refreshMarker w).1 (update evaluate cb refreshMarker w).2 ↔
      w.gateHeld = true ∨ Contained evaluate cb refreshMarker w.persisted := by
  cases hgate : w.gateHeld with
  | true =>
    have hskip : update evaluate cb refreshMarker w = (.returned .SkippedConcurrent, w) := by
      rw [update, if_pos hgate]
    rw [hskip]
    simp only [true_or, iff_true]
    exact ⟨trivial, id, fun _ => rfl, fun _ => ⟨rfl, rfl⟩⟩
  | false =>
    rw [← body_contains, update, if_neg (by simp [hgate])]
    simp only [Bool.false_eq_true, false_or]
    constructor
    · intro h
      exact ⟨h.outcome, h.preserved⟩
    · rintro ⟨houtcome, hpreserved⟩
      exact ⟨houtcome, fun _ => rfl, hpreserved, fun hheld => absurd hheld (by simp [hgate])⟩

end Contained

/-! ### A failure that is not contained -/

/-- The network is down, and the table cannot be read either. -/
def brokenCallbacks : Callbacks :=
  let thrown : Throwable := ⟨.exception, false, []⟩
  { fetch := .threw thrown
    fetchedFromCache := .returned false
    emergencyFetch := .returned none
    fetchCapability := .returned .UNKNOWN
    currentCount := fun _ => .threw thrown
    currentOpenVpnConfigCount := .returned 0
    currentDataset := .returned []
    lastAcceptedFreshSize := .returned 0
    replaceAll := fun _ => .threw thrown
    replaceAllAndMarkSeen := fun _ _ => .threw thrown
    recordAcceptedFreshSize := fun _ => .returned ()
    saveLastKnownGood := fun _ => .returned true }

/-- The update throws what the count for its outcome throws. -/
theorem update_throws :
    let w : World := ⟨⟨[], [], 0, []⟩, false, false⟩
    ¬ Contains w (update (fun _ _ _ _ _ => true) brokenCallbacks 1 w).1
      (update (fun _ _ _ _ _ => true) brokenCallbacks 1 w).2 := by
  intro w h
  have hthrown : ThrowableKind.exception = ThrowableKind.cancellation := h.outcome
  exact absurd hthrown (by decide)

end SoftEther.Repository
