import SoftEther.AutoMode.Controller

namespace SoftEther.AutoMode

open Lib
open Controller

/-!
# The slots of the controller

* `RunEffect` — what a step of a run that is not cancelled can do;
* `runFrom_cancelled` — what one of a cancelled run can do;
* `Slots` — the runs, the network retry and the watcher that are live are those in their slots;
* `SingleRun` — at most one run is live, and then the controller says that it is running;
* `singleRun_of_noLateEnd` — this holds in every run of the controller in which no cancelled run
  empties the slot of another one.
-/

/-! ### What a step of a run can do -/

/-- What the steps of a run leave alone, apart from its exits and from `publishConnected`. -/
structure Frame (c c' : Controller) : Prop where
  scope : c'.scope = c.scope
  job : c'.job = c.job
  networkRetryJob : c'.networkRetryJob = c.networkRetryJob
  connectedWatcher : c'.connectedWatcher = c.connectedWatcher
  onTunnelLost : c'.onTunnelLost = c.onTunnelLost
  reconnectTimestamps : c'.reconnectTimestamps = c.reconnectTimestamps
  currentTimeMillis : c'.currentTimeMillis = c.currentTimeMillis
  launches : c'.launches = c.launches
  decisions : c'.decisions = c.decisions
  autoStarts : c'.autoStarts = c.autoStarts

/-- Nothing is changed. -/
theorem Frame.refl (c : Controller) : Frame c c :=
  ⟨rfl, rfl, rfl, rfl, rfl, rfl, rfl, rfl, rfl, rfl⟩

/-- The published state is not in the frame. -/
theorem frame_setState (c : Controller) (s : AutoModeState) : Frame c (c.setState s) :=
  ⟨rfl, rfl, rfl, rfl, rfl, rfl, rfl, rfl, rfl, rfl⟩

/-- A step of a run that is not cancelled. -/
inductive RunEffect (w : Reading) (c : Controller) : Controller × Option RunPoint → Prop
  | goesOn {c' : Controller} (hframe : Frame c c') (p : RunPoint) : RunEffect w c (c', some p)
  | ends {c' : Controller} (hframe : Frame c c') : RunEffect w c (c', none)
  | exits (e : RunError) : RunEffect w c (c.exit e, none)
  | offline : RunEffect w c (scheduleNetworkRetry w (c.exit .ERROR_NO_NETWORK), none)
  | connects (q : Option RunPoint) :
    RunEffect w c (startConnectedWatcher (c.setState .Connected), q)

section Effect

variable {cfg : Config} {w : Reading} {c : Controller} {skipped : Bool}

/-- The run suspends and changes nothing. -/
theorem RunEffect.stays (p : RunPoint) : RunEffect w c (c, some p) := .goesOn (Frame.refl c) p

variable {p : RunPoint}

/-- With a sink the run first suspends in it. -/
theorem RunEffect.record {rest : Controller × Option RunPoint} (h : RunEffect w c rest) :
    RunEffect w c (record cfg c p rest) := by
  unfold AutoMode.record
  split_ifs
  · exact .stays p
  · exact h

/-- It connects, and goes on only to record that. -/
theorem publishConnected_effect : RunEffect w c (publishConnected cfg c) := by
  unfold publishConnected AutoMode.record
  split_ifs
  · exact .connects _
  · exact .connects _

/-- No server left is an exit, no network an exit and a retry. -/
theorem walk_effect : RunEffect w c (walk w false c) := by
  unfold walk
  split_ifs
  · exact .exits _
  · contradiction
  · exact .offline
  · exact .goesOn (by constructor <;> rfl) _

theorem afterProtocols_effect : RunEffect w c (afterProtocols cfg w false skipped c) := by
  unfold afterProtocols
  split_ifs
  · exact walk_effect
  · exact walk_effect.record

theorem nextProtocol_effect : RunEffect w c (nextProtocol cfg w false skipped c) := by
  unfold nextProtocol
  split_ifs
  · exact afterProtocols_effect
  · contradiction
  · exact .goesOn (frame_setState c _) _

/-- An empty list ends the run. -/
theorem ranked_effect : RunEffect w c (ranked w false c) := by
  unfold ranked
  split_ifs
  · exact .ends (frame_setState c _)
  · exact walk_effect

theorem probe_effect : RunEffect w c (probe cfg w false c) := by
  unfold probe
  split_ifs
  · exact .stays _
  · exact ranked_effect

/-- It may end without emptying the slot. -/
theorem resolved_effect : RunEffect w c (resolved w c) := by
  unfold resolved
  simp only
  split_ifs
  · exact .ends (by constructor <;> rfl)
  · exact .ends (by constructor <;> rfl)
  · exact .goesOn (by constructor <;> rfl) _

/-- What stops a run in its first lines is an exit. -/
theorem begin_effect : RunEffect w c (begin_ w c) := by
  unfold begin_
  split_ifs
  · exact .exits _
  · exact .offline
  · exact resolved_effect
  · exact .stays _

/-- Only an owned tunnel connects. -/
theorem judged_effect (outcome : AttemptOutcome) :
    RunEffect w c (judged cfg w skipped outcome c) := by
  unfold judged
  split_ifs
  · exact publishConnected_effect
  · cases outcome
    case TIMED_OUT => exact (RunEffect.stays _).record
    case NATIVE_ERROR => exact (RunEffect.stays _).record
    all_goals exact .stays _

theorem busy_effect : RunEffect w c (busy cfg w skipped c) := by
  unfold busy
  split_ifs
  · exact publishConnected_effect
  · exact .stays _

/-- A skip comes before the outcome. -/
theorem attempted_effect : RunEffect w c (attempted cfg w skipped c) := by
  unfold attempted
  split_ifs
  · exact .goesOn (by constructor <;> rfl) _
  · cases w.outcome
    case TUNNEL_UP => exact publishConnected_effect
    case MISSING_CONFIG => exact nextProtocol_effect.record
    case NATIVE_BUSY => exact busy_effect.record
    all_goals exact judged_effect _

/-- **What a step of a run can do.** -/
theorem runFrom_effect (p : RunPoint) : RunEffect w c (runFrom cfg w false c p) := by
  cases p with
  | launched => exact begin_effect
  | serverProvider => exact resolved_effect
  | loadHistory wasOverride wasReconnect =>
    simp only [runFrom]
    split_ifs
    · exact .goesOn (frame_setState c _) _
    · exact probe_effect
  | fastConnect =>
    simp only [runFrom]
    cases w.connect <;> exact .stays _
  | fastThrewDisconnect => exact .goesOn (by constructor <;> rfl) _
  | fastAwait =>
    simp only [runFrom]
    split_ifs
    · exact publishConnected_effect
    · exact .goesOn (by constructor <;> rfl) _
  | fastDisconnect => exact probe_effect.record
  | fastRecord => exact probe_effect
  | reachabilityFilter => exact ranked_effect
  | connect skipped =>
    simp only [runFrom]
    cases w.connect
    case VpnPermissionMissingException => exact (RunEffect.stays _).record
    all_goals exact .stays _
  | permissionRecord => exact .stays _
  | permissionDisconnect => exact .exits _
  | threwDisconnect skipped => exact nextProtocol_effect.record
  | threwRecord skipped => exact nextProtocol_effect
  | awaitOutcome skipped => exact attempted_effect
  | skipDisconnect => exact nextProtocol_effect.record
  | skipRecord => exact nextProtocol_effect
  | configRecord skipped => exact nextProtocol_effect
  | busyRecord skipped => exact busy_effect
  | slotAwait skipped =>
    simp only [runFrom]
    split_ifs
    · exact .stays _
    · exact nextProtocol_effect
    · exact .stays _
  | slotDisconnect skipped => exact afterProtocols_effect
  | retryConnect skipped =>
    simp only [runFrom]
    cases w.connect <;> exact .stays _
  | retryThrewDisconnect skipped => exact nextProtocol_effect
  | retryAwait skipped =>
    simp only [runFrom]
    split_ifs
    · exact publishConnected_effect
    · exact judged_effect _
  | timeoutRecord skipped => exact .stays _
  | errorRecord skipped => exact .stays _
  | cleanupDisconnect skipped outcome =>
    simp only [runFrom]
    split_ifs
    · exact nextProtocol_effect
    · exact .stays _
  | postSlotAwait skipped =>
    simp only [runFrom]
    split_ifs
    · exact nextProtocol_effect
    · exact .stays _
  | postSlotDisconnect skipped => exact afterProtocols_effect
  | abandonRecord => exact walk_effect
  | connectedRecord => exact .ends (Frame.refl c)

/-- From a teardown that cannot be cancelled, a run comes to the end of its list without
suspending again. -/
def RunPoint.exhausted (cfg : Config) (w : Reading) : RunPoint → Bool
  | .threwDisconnect _ => !cfg.historySink && !w.moreProtocols && !w.moreServers
  | .retryThrewDisconnect skipped =>
    (skipped || !cfg.historySink) && !w.moreProtocols && !w.moreServers
  | .fastDisconnect =>
    !cfg.historySink && !(cfg.reachabilityFilter && w.anyTarget) && w.anyReachable &&
      !w.moreServers
  | _ => false

/-- Likewise it comes to an empty list. -/
def RunPoint.noneReachable (cfg : Config) (w : Reading) : RunPoint → Bool
  | .fastDisconnect =>
    !cfg.historySink && !(cfg.reachabilityFilter && w.anyTarget) && !w.anyReachable
  | _ => false

/-- A step of a cancelled run. -/
inductive CancelledEffect (cfg : Config) (w : Reading) (c : Controller) (p : RunPoint)
    (r : Controller × Option RunPoint) : Prop
  | quiet (hframe : Frame c r.1) (hstate : r.1.state = c.state)
  | exhausted (hp : p.exhausted cfg w = true) (hr : r = (c.exit .ERROR_NO_SERVER, none))
  | noneReachable (hp : p.noneReachable cfg w = true) (hframe : Frame c r.1)

/-- The controller is as it was. -/
theorem CancelledEffect.same {r : Controller × Option RunPoint} (h : r.1 = c) :
    CancelledEffect cfg w c p r := by
  obtain ⟨c', q⟩ := r
  obtain rfl : c' = c := h
  exact .quiet (Frame.refl c') rfl

/-- A cancelled run still finds that no server is left. -/
theorem walk_cancelled (w : Reading) (c : Controller) :
    walk w true c = if w.moreServers then (c, none) else (c.exit .ERROR_NO_SERVER, none) := by
  cases h : w.moreServers <;> simp [walk, h]

/-- **What a step of a cancelled run can do.** It publishes nothing, unless it comes to the end
of its list or to an empty one. -/
theorem runFrom_cancelled (hp : p.cancellable = false) :
    CancelledEffect cfg w c p (runFrom cfg w true c p) := by
  cases p with
  | fastThrewDisconnect => exact .quiet (by constructor <;> rfl) rfl
  | fastDisconnect =>
    simp only [runFrom, AutoMode.record, probe, ranked, walk_cancelled]
    split_ifs with hsink hfilter hreach hmore
    · exact .same rfl
    · exact .same rfl
    · refine .noneReachable ?_ (frame_setState c _)
      simp only [RunPoint.noneReachable, hfilter, hreach]
      simp [hsink]
    · exact .same rfl
    · refine .exhausted ?_ rfl
      simp only [RunPoint.exhausted, hfilter]
      simp_all
  | permissionRecord => exact .same rfl
  | threwDisconnect skipped =>
    simp only [runFrom, AutoMode.record, nextProtocol, afterProtocols, walk_cancelled]
    split_ifs
    all_goals first
      | exact .same rfl
      | exact .exhausted (by simp_all [RunPoint.exhausted]) rfl
  | retryThrewDisconnect skipped =>
    simp only [runFrom, AutoMode.record, nextProtocol, afterProtocols, walk_cancelled]
    split_ifs
    all_goals first
      | exact .same rfl
      | exact .exhausted (by simp_all [RunPoint.exhausted]) rfl
  | connectedRecord => exact .same rfl
  | _ => simp [RunPoint.cancellable] at hp

end Effect

/-! ### The slots -/

/-- The coroutines that `job` holds: runs, and the continuations that launch them. -/
def InJob (_ : ℕ) : Point → Prop
  | .run _ | .skip _ => True
  | _ => False

/-- A coroutine of the network retry. -/
def IsRetry (_ : ℕ) : Point → Prop
  | .retry _ => True
  | _ => False

/-- A coroutine of the connected watcher. -/
def IsWatcher (_ : ℕ) : Point → Prop
  | .watcher _ => True
  | _ => False

/-- What is live, of three kinds, is in the slot for its kind. -/
structure SlotsOf (job retry watcher : ℕ → Point → Prop) (c : Controller) : Prop where
  job : c.scope.Owned job c.job
  retry : c.scope.Owned retry c.networkRetryJob
  watcher : c.scope.Owned watcher c.connectedWatcher

/-- **What is live is in its slot.** -/
abbrev Slots : Controller → Prop := SlotsOf InJob IsRetry IsWatcher

/-- The same, the coroutine `i` apart, which is taking its step. -/
abbrev SlotsBut (i : ℕ) : Controller → Prop :=
  SlotsOf (Scope.But i InJob) (Scope.But i IsRetry) (Scope.But i IsWatcher)

section Operations

variable {job retry watcher : ℕ → Point → Prop} {c c' : Controller} {i : ℕ}

/-- All slots are right, so those of the others are. -/
theorem Slots.but (h : Slots c) (i : ℕ) : SlotsBut i c :=
  ⟨h.job.but i, h.retry.but i, h.watcher.but i⟩

/-- Slots only read fields of the frame. -/
theorem SlotsOf.of_frame (h : SlotsOf job retry watcher c) (hframe : Frame c c') :
    SlotsOf job retry watcher c' := by
  obtain ⟨hjob, hretry, hwatcher⟩ := h
  constructor
  · rw [hframe.scope, hframe.job]
    exact hjob
  · rw [hframe.scope, hframe.networkRetryJob]
    exact hretry
  · rw [hframe.scope, hframe.connectedWatcher]
    exact hwatcher

/-- A run goes to `job` when nothing live is there. -/
theorem SlotsOf.launchRun (h : SlotsOf job retry watcher c) (hnone : ∀ j, ¬ c.scope.Live job j)
    (hretry : ∀ j a, ¬ retry j (.run a)) (hwatcher : ∀ j a, ¬ watcher j (.run a)) :
    SlotsOf job retry watcher c.launchRun where
  job := Scope.Owned.launch hnone _
  retry := h.retry.launch_of_not (hretry _ _)
  watcher := h.watcher.launch_of_not (hwatcher _ _)

/-- A run is launched only when none is active; a pending retry is given up. -/
theorem SlotsOf.startLocked (h : SlotsOf job retry watcher c)
    (hretry : ∀ j a, ¬ retry j (.run a)) (hwatcher : ∀ j a, ¬ watcher j (.run a)) :
    SlotsOf job retry watcher c.startLocked := by
  unfold Controller.startLocked
  split_ifs with hrunning
  · exact h
  · have hinactive : c.scope.isActive c.job = false := by simpa [isRunning] using hrunning
    apply SlotsOf.launchRun _ _ hretry hwatcher
    · exact ⟨h.job.cancel _, Scope.Owned.of_none fun _ => h.retry.not_live_cancel,
        h.watcher.cancel _⟩
    · intro j hj
      exact h.job.not_live_of_inactive hinactive (Scope.live_cancel.mp hj).2

/-- An exit may empty `job` when nobody else is there. -/
theorem SlotsOf.exit (h : SlotsOf job retry watcher c) (hnone : ∀ j, ¬ c.scope.Live job j)
    (e : RunError) : SlotsOf job retry watcher (c.exit e) :=
  ⟨Scope.Owned.of_none hnone, h.retry, h.watcher⟩

/-- The retry before it is cancelled first. -/
theorem SlotsOf.scheduleNetworkRetry (h : SlotsOf job retry watcher c)
    (hjob : ∀ j a, ¬ job j (.retry a)) (hwatcher : ∀ j a, ¬ watcher j (.retry a)) (w : Reading) :
    SlotsOf job retry watcher (scheduleNetworkRetry w c) := by
  unfold Controller.scheduleNetworkRetry
  split_ifs
  · exact h
  · exact ⟨(h.job.cancel _).launch_of_not (hjob _ _),
      Scope.Owned.launch (fun _ => h.retry.not_live_cancel) _,
      (h.watcher.cancel _).launch_of_not (hwatcher _ _)⟩

/-- The watcher before it is cancelled first. -/
theorem SlotsOf.startConnectedWatcher (h : SlotsOf job retry watcher c)
    (hjob : ∀ j a, ¬ job j (.watcher a)) (hretry : ∀ j a, ¬ retry j (.watcher a)) :
    SlotsOf job retry watcher c.startConnectedWatcher :=
  ⟨(h.job.cancel _).launch_of_not (hjob _ _), (h.retry.cancel _).launch_of_not (hretry _ _),
    Scope.Owned.launch (fun _ => h.watcher.not_live_cancel) _⟩

/-- The watcher is cancelled, and the reconnect is of no kind. -/
theorem SlotsOf.reportArmedTunnelLoss (h : SlotsOf job retry watcher c)
    (hjob : ∀ j a, ¬ job j (.reconnect a)) (hretry : ∀ j a, ¬ retry j (.reconnect a))
    (hwatcher : ∀ j a, ¬ watcher j (.reconnect a)) :
    SlotsOf job retry watcher c.reportArmedTunnelLoss :=
  ⟨(h.job.cancel _).launch_of_not (hjob _ _), (h.retry.cancel _).launch_of_not (hretry _ _),
    (Scope.Owned.of_none fun _ => h.watcher.not_live_cancel).launch_of_not (hwatcher _ _)⟩

/-- The retry and the watcher are cancelled before their slots are emptied. -/
theorem SlotsOf.disarm (h : SlotsOf job retry watcher c) : SlotsOf job retry watcher c.disarm where
  job := (h.job.cancel _).cancel _
  retry := Scope.Owned.of_none fun _ => (h.retry.cancel _).not_live_cancel
  watcher := Scope.Owned.cancel (Scope.Owned.of_none fun _ => h.watcher.not_live_cancel) _

/-- The run is cancelled before its slot is emptied. -/
theorem SlotsOf.cancelRun (h : SlotsOf job retry watcher c) :
    SlotsOf job retry watcher c.cancelRun := by
  unfold Controller.cancelRun
  split_ifs
  · exact ⟨Scope.Owned.of_none fun _ => h.job.not_live_cancel, h.retry.cancel _,
      h.watcher.cancel _⟩
  · exact h

/-- The continuation takes the slot of what it cancels. -/
theorem SlotsOf.launchSkip (h : SlotsOf job retry watcher c)
    (hretry : ∀ j a, ¬ retry j (.skip a)) (hwatcher : ∀ j a, ¬ watcher j (.skip a)) :
    SlotsOf job retry watcher c.launchSkip :=
  ⟨Scope.Owned.launch (fun _ => h.job.not_live_cancel) _,
    (h.retry.cancel _).launch_of_not (hretry _ _),
    (h.watcher.cancel _).launch_of_not (hwatcher _ _)⟩

/-- The coroutine that took a step is put back. -/
theorem SlotsOf.settleAt {π : Type} {kind : π → Point} {r : Controller × Option π}
    (h : SlotsBut i r.1)
    (hjob : ∀ p ∈ r.2, InJob i (kind p) → (r.1.scope.jobs i).cancelled = false →
      r.1.job = some i)
    (hretry : ∀ p ∈ r.2, IsRetry i (kind p) → (r.1.scope.jobs i).cancelled = false →
      r.1.networkRetryJob = some i)
    (hwatcher : ∀ p ∈ r.2, IsWatcher i (kind p) → (r.1.scope.jobs i).cancelled = false →
      r.1.connectedWatcher = some i) : Slots (settleAt i kind r) where
  job := h.job.move (by simpa using hjob)
  retry := h.retry.move (by simpa using hretry)
  watcher := h.watcher.move (by simpa using hwatcher)

end Operations

/-! ### A step -/

section Step

variable {cfg : Config} {w : Reading} {c : Controller} {i : ℕ}

/-- A coroutine ends. -/
theorem Slots.finish (h : Slots c) (i : ℕ) : Slots { c with scope := c.scope.move i none } :=
  ⟨h.job.finish i, h.retry.finish i, h.watcher.finish i⟩

/-- A coroutine that has ended takes no step. -/
theorem resume_none (hpoint : (c.scope.jobs i).point = none) : resume cfg i w c = c := by
  simp [resume, hpoint]

variable {p : RunPoint}

/-- A cancelled run goes on only from where it cannot be cancelled. -/
theorem resume_run (hpoint : (c.scope.jobs i).point = some (.run p)) : resume cfg i w c =
      if (c.scope.jobs i).cancelled && p.cancellable then
        { c with scope := c.scope.move i none }
      else settleAt i .run (runFrom cfg w (c.scope.jobs i).cancelled c p) := by
  simp [resume, hpoint]

/-- The coroutines that are no runs end when they are cancelled. -/
theorem resume_cancelled {p : Point} (hpoint : (c.scope.jobs i).point = some p)
    (hrun : ∀ a, p ≠ .run a) (hcancelled : (c.scope.jobs i).cancelled = true) :
    resume cfg i w c = { c with scope := c.scope.move i none } := by
  cases p with
  | run a => exact absurd rfl (hrun a)
  | _ => simp [resume, hpoint, hcancelled]

/-- A run that is not cancelled takes a step. -/
theorem Slots.resume_run (h : Slots c) (hpoint : (c.scope.jobs i).point = some (.run p))
    (hlive : (c.scope.jobs i).cancelled = false) :
    Slots (settleAt i .run (runFrom cfg w false c p)) := by
  have hslot : c.job = some i := h.job i ⟨⟨.run p, hpoint, trivial⟩, hlive⟩
  have hothers : ∀ j, ¬ c.scope.Live (Scope.But i InJob) j := by
    intro j
    have hjob := h.job
    rw [hslot] at hjob
    exact hjob.not_live_but
  have heffect : RunEffect w c (runFrom cfg w false c p) := runFrom_effect p
  revert heffect
  generalize runFrom cfg w false c p = r
  intro heffect
  cases heffect with
  | goesOn hframe p =>
    refine ((h.but i).of_frame hframe).settleAt ?_ (by simp [IsRetry]) (by simp [IsWatcher])
    intro _ _ _ _
    rw [hframe.job, hslot]
  | ends hframe => exact ((h.but i).of_frame hframe).settleAt (by simp) (by simp) (by simp)
  | exits e => exact ((h.but i).exit hothers e).settleAt (by simp) (by simp) (by simp)
  | offline =>
    refine SlotsOf.settleAt ?_ (by simp) (by simp) (by simp)
    apply SlotsOf.scheduleNetworkRetry ((h.but i).exit hothers _)
    · simp [Scope.But, InJob]
    · simp [Scope.But, IsWatcher]
  | connects q =>
    refine SlotsOf.settleAt ?_ (fun _ _ _ _ => hslot) (by simp [IsRetry]) (by simp [IsWatcher])
    apply SlotsOf.startConnectedWatcher ((h.but i).of_frame (frame_setState c _))
    · simp [Scope.But, InJob]
    · simp [Scope.But, IsRetry]

/-- A cancelled run takes a step: it empties `job` only when nothing runs. -/
theorem Slots.resume_cancelled_run (h : Slots c) (hcancelled : (c.scope.jobs i).cancelled = true)
    (hp : p.cancellable = false) (hlate : p.exhausted cfg w = true → c.isRunning = false) :
    Slots (settleAt i .run (runFrom cfg w true c p)) := by
  have hquiet : Frame c (runFrom cfg w true c p).1 →
      Slots (settleAt i .run (runFrom cfg w true c p)) := by
    intro hframe
    refine ((h.but i).of_frame hframe).settleAt ?_ (by simp [IsRetry]) (by simp [IsWatcher])
    intro _ _ _ hlive
    rw [hframe.scope, hcancelled] at hlive
    exact Bool.noConfusion hlive
  have heffect : CancelledEffect cfg w c p (runFrom cfg w true c p) := runFrom_cancelled hp
  obtain ⟨hframe, -⟩ | ⟨hexhausted, hr⟩ | ⟨-, hframe⟩ := heffect
  · exact hquiet hframe
  · rw [hr]
    refine ((h.but i).exit ?_ _).settleAt (by simp) (by simp) (by simp)
    intro j hj
    exact h.job.not_live_of_inactive (hlate hexhausted) (Scope.live_but.mp hj).2
  · exact hquiet hframe

/-- The continuation empties its own slot, or launches a run into it. -/
theorem Slots.resume_skip (h : Slots c) {p : SkipPoint}
    (hpoint : (c.scope.jobs i).point = some (.skip p))
    (hlive : (c.scope.jobs i).cancelled = false) :
    Slots (settleAt i .skip (skipFrom w c p)) := by
  have hslot : c.job = some i := h.job i ⟨⟨.skip p, hpoint, trivial⟩, hlive⟩
  have hothers : ∀ j, ¬ c.scope.Live (Scope.But i InJob) j := by
    intro j
    have hjob := h.job
    rw [hslot] at hjob
    exact hjob.not_live_but
  have hstays : ∀ q, Slots (settleAt i .skip (c, some q)) := fun q =>
    (h.but i).settleAt (fun _ _ _ _ => hslot) (by simp [IsRetry]) (by simp [IsWatcher])
  cases p with
  | loadHistory =>
    simp only [skipFrom]
    split_ifs
    · exact ((h.but i).exit hothers _).settleAt (by simp) (by simp) (by simp)
    · have hempty : SlotsBut i { c with job := none } :=
        ⟨Scope.Owned.of_none hothers, (h.but i).retry, (h.but i).watcher⟩
      exact hempty.settleAt (by simp) (by simp) (by simp)
    · have hready : SlotsBut i { c with overrideServers := true, runOrigin := .AUTO_CONNECT } :=
        ⟨(h.but i).job, (h.but i).retry, (h.but i).watcher⟩
      have hrun := hready.launchRun hothers (by simp [Scope.But, IsRetry])
        (by simp [Scope.But, IsWatcher])
      exact hrun.settleAt (by simp) (by simp) (by simp)
  | _ => exact hstays _

/-- The reconnect is in no slot; it starts a run when none is active. -/
theorem Slots.resume_reconnect (h : Slots c) (p : ReconnectPoint) :
    Slots (settleAt i .reconnect (reconnectFrom w i c p)) := by
  have hsettle : ∀ r : Controller × Option ReconnectPoint, SlotsBut i r.1 →
      Slots (settleAt i .reconnect r) := fun r hr =>
    hr.settleAt (by simp [InJob]) (by simp [IsRetry]) (by simp [IsWatcher])
  apply hsettle
  cases p with
  | launched =>
    simp only [reconnectFrom]
    split_ifs <;> exact ⟨(h.but i).job, (h.but i).retry, (h.but i).watcher⟩
  | settling decided wakeAt =>
    simp only [reconnectFrom]
    split_ifs
    · exact h.but i
    · exact h.but i
    · exact h.but i
    · refine SlotsOf.startLocked ?_ (by simp [Scope.But, IsRetry]) (by simp [Scope.But, IsWatcher])
      exact ⟨(h.but i).job, (h.but i).retry, (h.but i).watcher⟩

/-- The retry that starts a run is itself at its end. -/
theorem Slots.resume_retry (h : Slots c) {p : RetryPoint}
    (hpoint : (c.scope.jobs i).point = some (.retry p))
    (hlive : (c.scope.jobs i).cancelled = false) :
    Slots (settleAt i .retry (retryFrom w c p)) := by
  have hslot : c.networkRetryJob = some i := h.retry i ⟨⟨.retry p, hpoint, trivial⟩, hlive⟩
  have hstays : ∀ q : Option RetryPoint, Slots (settleAt i .retry (c, q)) := fun q =>
    (h.but i).settleAt (by simp [InJob]) (fun _ _ _ _ => hslot) (by simp [IsWatcher])
  cases p with
  | launched => exact hstays _
  | polling deadline wakeAt =>
    simp only [retryFrom]
    split_ifs
    · exact hstays _
    · exact hstays _
    · exact hstays _
    · exact hstays _
    · refine SlotsOf.settleAt ?_ (by simp) (by simp) (by simp)
      refine SlotsOf.startLocked ?_ (by simp [Scope.But, IsRetry]) (by simp [Scope.But, IsWatcher])
      exact ⟨(h.but i).job, (h.but i).retry, (h.but i).watcher⟩

/-- The watcher that sees the loss is itself at its end. -/
theorem Slots.resume_watcher (h : Slots c) {p : WatcherPoint}
    (hpoint : (c.scope.jobs i).point = some (.watcher p))
    (hlive : (c.scope.jobs i).cancelled = false) :
    Slots (settleAt i .watcher (watcherFrom w c p)) := by
  have hslot : c.connectedWatcher = some i := h.watcher i ⟨⟨.watcher p, hpoint, trivial⟩, hlive⟩
  have hstays : ∀ q : Option WatcherPoint, Slots (settleAt i .watcher (c, q)) := fun q =>
    (h.but i).settleAt (by simp [InJob]) (by simp [IsRetry]) (fun _ _ _ _ => hslot)
  cases p with
  | launched => exact hstays _
  | sleeping wakeAt =>
    simp only [watcherFrom]
    split_ifs
    · exact hstays _
    · exact hstays _
    · refine SlotsOf.settleAt ?_ (by simp) (by simp) (by simp)
      apply SlotsOf.reportArmedTunnelLoss (h.but i)
      · simp [Scope.But, InJob]
      · simp [Scope.But, IsRetry]
      · simp [Scope.But, IsWatcher]
    · exact hstays _

/-- A cancelled run comes to the end of its list, right after a teardown that cannot be cancelled,
while another run or continuation is active. -/
def endsLate (cfg : Config) (c : Controller) : Event → Bool
  | .resume i w =>
    match (c.scope.jobs i).point with
    | some (.run p) => (c.scope.jobs i).cancelled && p.exhausted cfg w && c.isRunning
    | _ => false
  | _ => false

/-- The condition of an event. -/
abbrev NoLateEnd (cfg : Config) (c : Controller) (e : Event) : Prop := endsLate cfg c e = false

/-- What the condition says of a cancelled run. -/
theorem NoLateEnd.not_running (h : NoLateEnd cfg c (.resume i w))
    (hpoint : (c.scope.jobs i).point = some (.run p))
    (hcancelled : (c.scope.jobs i).cancelled = true) (hp : p.exhausted cfg w = true) :
    c.isRunning = false := by
  simpa [NoLateEnd, endsLate, hpoint, hcancelled, hp] using h

/-- One step of any coroutine. -/
theorem Slots.resume (h : Slots c) (hlate : NoLateEnd cfg c (.resume i w)) :
    Slots (resume cfg i w c) := by
  cases hpoint : (c.scope.jobs i).point with
  | none =>
    rw [resume_none hpoint]
    exact h
  | some p =>
    cases hcancelled : (c.scope.jobs i).cancelled with
    | true =>
      cases p with
      | run p =>
        rw [AutoMode.resume_run hpoint, hcancelled]
        cases hp : p.cancellable with
        | true => exact h.finish i
        | false => exact h.resume_cancelled_run hcancelled hp (hlate.not_running hpoint hcancelled)
      | _ =>
        rw [resume_cancelled hpoint (by simp) hcancelled]
        exact h.finish i
    | false =>
      simp only [AutoMode.resume, hpoint, hcancelled, Bool.false_eq_true, if_false]
      cases p with
      | run p => exact h.resume_run hpoint hcancelled
      | skip p => exact h.resume_skip hpoint hcancelled
      | reconnect p => exact h.resume_reconnect p
      | retry p => exact h.resume_retry hpoint hcancelled
      | watcher p => exact h.resume_watcher hpoint hcancelled

theorem Slots.stop (h : Slots c) : Slots c.stop :=
  SlotsOf.of_frame h.disarm.cancelRun (frame_setState _ _)

theorem Slots.startFresh (h : Slots c) : Slots c.startFresh :=
  SlotsOf.startLocked ⟨h.job, h.retry, h.watcher⟩ (by simp [IsRetry]) (by simp [IsWatcher])

/-- A press starts or stops. -/
theorem Slots.onButtonPressed (h : Slots c) (w : Reading) : Slots (c.onButtonPressed w) := by
  unfold Controller.onButtonPressed
  cases c.state with
  | Disconnected =>
    simp only
    split_ifs
    · exact h
    · exact h.startFresh
  | Error e =>
    simp only
    split_ifs
    · exact h
    · exact h.startFresh
  | Connecting => exact h.stop
  | Connected => exact h.stop

theorem Slots.launchSkip (h : Slots c) : Slots c.launchSkip :=
  SlotsOf.launchSkip h (by simp [IsRetry]) (by simp [IsWatcher])

/-- The watcher goes, the continuation comes. -/
theorem Slots.skipConnected (h : Slots c) : Slots c.skipConnected := by
  unfold Controller.skipConnected
  split_ifs
  · exact h
  · apply Slots.launchSkip
    exact ⟨h.job.cancel _, h.retry.cancel _,
      Scope.Owned.of_none fun _ => h.watcher.not_live_cancel⟩

theorem Slots.skipFromExternal (h : Slots c) (w : Reading) : Slots (c.skipFromExternal w) := by
  unfold Controller.skipFromExternal
  split_ifs
  · exact h.launchSkip
  · exact h

theorem Slots.skipToNextServer (h : Slots c) (w : Reading) : Slots (c.skipToNextServer w) := by
  unfold Controller.skipToNextServer
  cases c.state with
  | Connected => exact h.skipConnected
  | Error e =>
    exact SlotsOf.startLocked ⟨h.job, h.retry, h.watcher⟩ (by simp [IsRetry]) (by simp [IsWatcher])
  | Connecting =>
    simp only
    split_ifs
    · exact ⟨h.job, h.retry, h.watcher⟩
    · exact h.skipFromExternal w
  | Disconnected => exact h.skipFromExternal w

/-- Only an armed watcher reports. -/
theorem Slots.tunnelLost (h : Slots c) : Slots c.tunnelLost := by
  unfold Controller.tunnelLost
  split_ifs
  · exact SlotsOf.reportArmedTunnelLoss h (by simp [InJob]) (by simp [IsRetry])
      (by simp [IsWatcher])
  · exact h

/-- **One event keeps the slots.** -/
theorem Slots.step (h : Slots c) (e : Event) (hlate : NoLateEnd cfg c e) :
    Slots (step cfg c e) := by
  cases e with
  | press w => exact h.onButtonPressed w
  | skip w => exact h.skipToNextServer w
  | stop => exact h.stop
  | disconnectNow => exact h.stop
  | tunnelLost => exact h.tunnelLost
  | resume i w => exact h.resume hlate
  | tick ms => exact ⟨h.job, h.retry, h.watcher⟩

/-- Nothing is live before the first event. -/
theorem slots_initial : Slots {} := by
  constructor <;> exact Scope.Owned.of_none (by simp [Scope.Live])

end Step

/-! ### A single run -/

/-- A coroutine of `runAutoMode`. -/
def IsRun (_ : ℕ) : Point → Prop
  | .run _ => True
  | _ => False

/-- **Single run.** -/
structure SingleRun (c : Controller) : Prop where
  one : ∀ i j, c.scope.Live IsRun i → c.scope.Live IsRun j → i = j
  running : ∀ i, c.scope.Live IsRun i → c.isRunning = true

/-- A run is one of the coroutines of `job`. -/
theorem live_inJob {s : Scope Point} {i : ℕ} (h : s.Live IsRun i) : s.Live InJob i := by
  obtain ⟨⟨p, hp, hrun⟩, hcancelled⟩ := h
  refine ⟨⟨p, hp, ?_⟩, hcancelled⟩
  cases p with
  | run a => trivial
  | _ => exact absurd hrun id

/-- The slot has one place. -/
theorem Slots.singleRun {c : Controller} (h : Slots c) : SingleRun c where
  one _ _ hi hj := h.job.unique (live_inJob hi) (live_inJob hj)
  running _ hi := h.job.isActive (live_inJob hi)

/-- **A single run, as long as no cancelled run ends late.** -/
theorem singleRun_of_noLateEnd (cfg : Config) (events : List Event)
    (h : Along (step cfg) (NoLateEnd cfg) {} events) :
    Always (step cfg) SingleRun {} events :=
  always_of_along (I := Slots) (fun _ e hc hlate => hc.step e hlate) (fun _ hc => hc.singleRun) h
    slots_initial

/-- A skip on the first protocol of the last server; its second protocol finds the native layer
busy, is tried again once, and throws. -/
def lateRun : List Event :=
  [.press {}, .resume 0 {}, .resume 0 {}, .resume 0 { anyTarget := false }, .resume 0 {},
    .skip {}, .resume 0 {}, .resume 0 {}, .resume 0 { moreProtocols := true }, .resume 0 {},
    .resume 0 { outcome := .NATIVE_BUSY }, .resume 0 {}, .resume 0 {},
    .resume 0 { connect := .threw }]

/-- The user stops in that teardown and presses again; then the teardown ends. -/
def overtakenRun : List Event := lateRun ++ [.stop, .press {}, .resume 0 { moreServers := false }]

/-- A second run has been started, and the cancelled one is not at its end. -/
theorem singleRun_lateRun :
    Always (step {}) SingleRun {} (lateRun ++ [.stop, .press {}, .resume 0 {}]) :=
  singleRun_of_noLateEnd {} _ (by decide)

/-- The new run goes on while nothing says that it is running. -/
theorem overtaken_not_singleRun : ¬ Always (step {}) SingleRun {} overtakenRun := by
  rw [always_iff]
  intro h
  have hrunning := (h overtakenRun (List.prefix_refl _)).running 1 ⟨⟨.run .launched, by decide,
    trivial⟩, by decide⟩
  exact absurd hrunning (by decide)

end SoftEther.AutoMode
