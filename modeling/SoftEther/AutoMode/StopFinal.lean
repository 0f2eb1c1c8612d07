import SoftEther.AutoMode.Slots

namespace SoftEther.AutoMode

open Lib
open Controller

/-!
# After a stop

`stop` and `disconnectNow` cancel the run, the network retry and the watcher, which have slots. A
reconnect has none, so it goes on; and a cancelled run may still come to the end of its list.

* `watch` — the controller, with what was launched when the user stopped it;
* `Final` — until the next start by the user, nothing is launched and it stays `Disconnected`;
* `revives` — what breaks this;
* `final_iff` — nothing else does.
-/

/-! ### Stops and starts of the user -/

/-- `stop`, `disconnectNow`, or a press that comes to one of them. -/
def isUserStop (c : Controller) : Event → Bool
  | .stop | .disconnectNow => true
  | .press _ => c.state == .Connecting || c.state == .Connected
  | _ => false

/-- A press that is not refused, or a skip that is not ignored. -/
def isUserStart (c : Controller) : Event → Bool
  | .press w => !(c.state == .Connecting || c.state == .Connected) && !w.isTunnelBusy
  | .skip w => c.state != .Disconnected || (w.trackerConnected && !c.skipInFlight)
  | _ => false

/-- The controller, with the number of runs launched at the last stop, until the next start. -/
structure Watched where
  ctl : Controller := {}
  stopped : Option ℕ := none

/-- One event, with the launches up to the last stop of the user. -/
def watch (cfg : Config) (x : Watched) (e : Event) : Watched where
  ctl := step cfg x.ctl e
  stopped :=
    if isUserStop x.ctl e then some (step cfg x.ctl e).launches
    else if isUserStart x.ctl e then none
    else x.stopped

/-- **A stop is final.** -/
def Final (x : Watched) : Prop :=
  ∀ n, x.stopped = some n → x.ctl.state = .Disconnected ∧ x.ctl.launches = n

/-! ### What a stop leaves -/

/-- A stopped controller. -/
structure Rests (n : ℕ) (c : Controller) : Prop where
  state : c.state = .Disconnected
  launches : c.launches = n
  job : ∀ i, ¬ c.scope.Live InJob i
  retry : ∀ i, ¬ c.scope.Live IsRetry i
  watcher : ∀ i, ¬ c.scope.Live IsWatcher i
  onTunnelLost : c.onTunnelLost = false

theorem Slots.rests_stop {c : Controller} (h : Slots c) : Rests c.stop.launches c.stop := by
  have hdisarmed : Slots c.disarm := SlotsOf.disarm h
  have hretry : ∀ i, ¬ c.disarm.scope.Live IsRetry i := fun _ =>
    (h.retry.cancel _).not_live_cancel
  have hwatcher : ∀ i, ¬ c.disarm.scope.Live IsWatcher i := by
    intro i hi
    exact h.watcher.not_live_cancel (Scope.live_cancel.mp hi).2
  by_cases hrunning : c.disarm.isRunning = true
  · have hstop : c.stop =
        { c.disarm with scope := c.disarm.scope.cancel c.disarm.job, job := none }.setState
          .Disconnected := by
      simp only [Controller.stop, cancelRun, hrunning, if_true]
    rw [hstop]
    refine ⟨rfl, rfl, ?_, ?_, ?_, rfl⟩
    · exact fun i => hdisarmed.job.not_live_cancel
    · exact fun i hi => hretry i (Scope.live_cancel.mp hi).2
    · exact fun i hi => hwatcher i (Scope.live_cancel.mp hi).2
  · have hstop : c.stop = c.disarm.setState .Disconnected := by
      simp only [Controller.stop, cancelRun, hrunning, if_false, Bool.false_eq_true]
    rw [hstop]
    refine ⟨rfl, rfl, ?_, hretry, hwatcher, rfl⟩
    exact fun i => hdisarmed.job.not_live_of_inactive (by simpa [isRunning] using hrunning)

/-- What breaks a stop: a cancelled run comes to the end of its list, or to an empty one; or a
reconnect goes on. -/
def revives (cfg : Config) (c : Controller) : Event → Bool
  | .resume i w =>
    match (c.scope.jobs i).point, (c.scope.jobs i).cancelled with
    | some (.run p), true => p.exhausted cfg w || p.noneReachable cfg w
    | some (.reconnect .launched), false =>
      !w.isConnectingToAnotherServer && w.autoReconnectEnabled &&
        decide (RECONNECT_MAX_ATTEMPTS ≤
          (recent c.currentTimeMillis c.reconnectTimestamps).length)
    | some (.reconnect (.settling _ wakeAt)), false =>
      decide (wakeAt ≤ c.currentTimeMillis) && !w.isConnectingToAnotherServer && !c.isRunning
    | _, _ => false
  | _ => false

/-- The condition of an event: nothing breaks a stop. -/
abbrev StaysDown (cfg : Config) (x : Watched) (e : Event) : Prop :=
  x.stopped.isSome = true → revives cfg x.ctl e = false

section Rest

variable {cfg : Config} {w : Reading} {c : Controller} {n i : ℕ}

/-- A step that launches nothing of the three kinds. -/
theorem Rests.settleAt {π : Type} {kind : π → Point} {r : Controller × Option π} (h : Rests n r.1)
    (hq : ∀ p ∈ r.2.map kind, (r.1.scope.jobs i).cancelled = true ∨ ∃ a, p = .reconnect a) :
    Rests n (settleAt i kind r) := by
  refine ⟨h.state, h.launches, ?_, ?_, ?_, h.onTunnelLost⟩
  · refine fun j => Scope.not_live_move h.job fun p hp hkind => ?_
    obtain hcancelled | ⟨a, rfl⟩ := hq p hp
    · exact hcancelled
    · exact absurd hkind id
  · refine fun j => Scope.not_live_move h.retry fun p hp hkind => ?_
    obtain hcancelled | ⟨a, rfl⟩ := hq p hp
    · exact hcancelled
    · exact absurd hkind id
  · refine fun j => Scope.not_live_move h.watcher fun p hp hkind => ?_
    obtain hcancelled | ⟨a, rfl⟩ := hq p hp
    · exact hcancelled
    · exact absurd hkind id

theorem Rests.finish (h : Rests n c) (i : ℕ) : Rests n { c with scope := c.scope.move i none } :=
  ⟨h.state, h.launches, fun _ => Scope.not_live_move h.job (by simp),
    fun _ => Scope.not_live_move h.retry (by simp),
    fun _ => Scope.not_live_move h.watcher (by simp), h.onTunnelLost⟩

theorem Rests.of_frame {c' : Controller} (h : Rests n c) (hframe : Frame c c')
    (hstate : c'.state = c.state) : Rests n c' := by
  obtain ⟨state, launches, job, retry, watcher, onTunnelLost⟩ := h
  constructor
  · rw [hstate, state]
  · rw [hframe.launches, launches]
  · rw [hframe.scope]
    exact job
  · rw [hframe.scope]
    exact retry
  · rw [hframe.scope]
    exact watcher
  · rw [hframe.onTunnelLost, onTunnelLost]

theorem Rests.reconnectFrom (h : Rests n c) {p : ReconnectPoint}
    (hpoint : (c.scope.jobs i).point = some (.reconnect p))
    (hlive : (c.scope.jobs i).cancelled = false)
    (hstays : revives cfg c (.resume i w) = false) : Rests n (reconnectFrom w i c p).1 := by
  cases p with
  | launched =>
    simp only [revives, hpoint, hlive] at hstays
    simp only [AutoMode.reconnectFrom]
    split_ifs with hbusy hdisabled hlimit
    · exact h.of_frame (frame_setState c _) (by simp [setState, h.state])
    · exact h.of_frame (frame_setState c _) (by simp [setState, h.state])
    · simp_all
    · exact ⟨rfl, h.launches, h.job, h.retry, h.watcher, h.onTunnelLost⟩
  | settling decided wakeAt =>
    simp only [revives, hpoint, hlive] at hstays
    simp only [AutoMode.reconnectFrom]
    split_ifs with hasleep hbusy hrunning
    · exact h
    · exact h
    · exact h
    · simp_all

/-- A coroutine goes on, and the controller stays stopped. -/
theorem Rests.resume (h : Rests n c) (hstays : revives cfg c (.resume i w) = false) :
    Rests n (resume cfg i w c) := by
  cases hpoint : (c.scope.jobs i).point with
  | none =>
    rw [resume_none hpoint]
    exact h
  | some p =>
    cases hcancelled : (c.scope.jobs i).cancelled with
    | true =>
      cases p with
      | run p =>
        rw [resume_run hpoint, hcancelled]
        cases hp : p.cancellable with
        | true => exact h.finish i
        | false =>
          simp only [revives, hpoint, hcancelled, Bool.or_eq_false_iff] at hstays
          have heffect : CancelledEffect cfg w c p (runFrom cfg w true c p) :=
            runFrom_cancelled hp
          obtain ⟨hframe, hstate⟩ | ⟨hexhausted, -⟩ | ⟨hnone, -⟩ := heffect
          · refine (h.of_frame hframe hstate).settleAt fun q hq => .inl ?_
            rw [hframe.scope, hcancelled]
          · rw [hstays.1] at hexhausted
            exact Bool.noConfusion hexhausted
          · rw [hstays.2] at hnone
            exact Bool.noConfusion hnone
      | _ =>
        rw [resume_cancelled hpoint (by simp) hcancelled]
        exact h.finish i
    | false =>
      cases p with
      | reconnect p =>
        simp only [AutoMode.resume, hpoint, hcancelled, Bool.false_eq_true, if_false]
        refine (h.reconnectFrom hpoint hcancelled hstays).settleAt fun q hq => .inr ?_
        obtain ⟨a, -, rfl⟩ := Option.map_eq_some_iff.mp hq
        exact ⟨a, rfl⟩
      | run p => exact absurd ⟨⟨_, hpoint, trivial⟩, hcancelled⟩ (h.job i)
      | skip p => exact absurd ⟨⟨_, hpoint, trivial⟩, hcancelled⟩ (h.job i)
      | retry p => exact absurd ⟨⟨_, hpoint, trivial⟩, hcancelled⟩ (h.retry i)
      | watcher p => exact absurd ⟨⟨_, hpoint, trivial⟩, hcancelled⟩ (h.watcher i)

/-- **One event leaves a stopped controller stopped.** -/
theorem Rests.step (h : Rests n c) {e : Event} (hstop : isUserStop c e = false)
    (hstart : isUserStart c e = false) (hstays : revives cfg c e = false) :
    Rests n (step cfg c e) := by
  have hstate := h.state
  cases e with
  | press w =>
    have hbusy : w.isTunnelBusy = true := by simpa [isUserStart, hstate] using hstart
    simpa [AutoMode.step, onButtonPressed, hstate, hbusy] using h
  | skip w =>
    have hignored : (w.trackerConnected && !c.skipInFlight) = false := by
      simpa [isUserStart, hstate] using hstart
    simpa only [AutoMode.step, skipToNextServer, skipFromExternal, hstate, hignored,
      Bool.false_eq_true, if_false] using h
  | stop => simp [isUserStop] at hstop
  | disconnectNow => simp [isUserStop] at hstop
  | tunnelLost => simpa [AutoMode.step, Controller.tunnelLost, h.onTunnelLost] using h
  | resume i w => exact h.resume hstays
  | tick ms => exact ⟨h.state, h.launches, h.job, h.retry, h.watcher, h.onTunnelLost⟩

/-! ### Why the condition is exact -/

variable {p : RunPoint}

theorem runFrom_exhausted (hp : p.exhausted cfg w = true) :
    runFrom cfg w true c p = (c.exit .ERROR_NO_SERVER, none) := by
  cases p with
  | threwDisconnect skipped =>
    simp only [RunPoint.exhausted, Bool.and_eq_true, Bool.not_eq_true'] at hp
    simp [runFrom, AutoMode.record, nextProtocol, afterProtocols, walk, hp]
  | retryThrewDisconnect skipped =>
    simp only [RunPoint.exhausted, Bool.and_eq_true, Bool.or_eq_true, Bool.not_eq_true'] at hp
    obtain ⟨⟨hskipped | hsink, hprotocols⟩, hservers⟩ := hp
    · simp [runFrom, nextProtocol, afterProtocols, walk, hskipped, hprotocols, hservers]
    · simp [runFrom, AutoMode.record, nextProtocol, afterProtocols, walk, hsink, hprotocols,
        hservers]
  | fastDisconnect =>
    simp only [RunPoint.exhausted, Bool.and_eq_true, Bool.not_eq_true'] at hp
    simp [runFrom, AutoMode.record, probe, ranked, walk, hp]
  | _ => simp [RunPoint.exhausted] at hp

theorem runFrom_noneReachable (hp : p.noneReachable cfg w = true) :
    runFrom cfg w true c p = (c.setState (.Error .ERROR_NO_SERVER), none) := by
  cases p with
  | fastDisconnect =>
    simp only [RunPoint.noneReachable, Bool.and_eq_true, Bool.not_eq_true'] at hp
    simp [runFrom, AutoMode.record, probe, ranked, hp]
  | _ => simp [RunPoint.noneReachable] at hp

/-- These points may not be cancelled at. -/
theorem cancellable_of_ends (hp : (p.exhausted cfg w || p.noneReachable cfg w) = true) :
    p.cancellable = false := by
  cases p <;> simp [RunPoint.exhausted, RunPoint.noneReachable, RunPoint.cancellable] at *

theorem launches_startLocked (h : c.isRunning = false) :
    c.startLocked.launches = c.launches + 1 := by
  simp [startLocked, h, launchRun]

/-- What breaks a stop does break it. -/
theorem not_rests_of_revives {e : Event} (h : Rests n c) (hrevives : revives cfg c e = true) :
    (step cfg c e).state ≠ .Disconnected ∨ (step cfg c e).launches ≠ n := by
  -- a late end of a cancelled run, or a reconnect that nobody cancelled
  cases e with
  | resume i w =>
    cases hpoint : (c.scope.jobs i).point with
    | none => simp [revives, hpoint] at hrevives
    | some p =>
      cases hcancelled : (c.scope.jobs i).cancelled with
      | true =>
        cases p with
        | run p =>
          simp only [revives, hpoint, hcancelled] at hrevives
          left
          show (resume cfg i w c).state ≠ .Disconnected
          rw [resume_run hpoint, hcancelled, cancellable_of_ends hrevives]
          obtain hexhausted | hnone := Bool.or_eq_true_iff.mp hrevives
          · rw [runFrom_exhausted hexhausted]
            simp [AutoMode.settleAt, exit, setState]
          · rw [runFrom_noneReachable hnone]
            simp [AutoMode.settleAt, setState]
        | _ => simp [revives, hpoint, hcancelled] at hrevives
      | false =>
        cases p with
        | reconnect p =>
          have hstep : AutoMode.step cfg c (.resume i w) =
              settleAt i .reconnect (AutoMode.reconnectFrom w i c p) := by
            simp [AutoMode.step, AutoMode.resume, hpoint, hcancelled]
          rw [hstep]
          cases p with
          | launched =>
            simp only [revives, hpoint, hcancelled, Bool.and_eq_true, Bool.not_eq_true',
              decide_eq_true_eq] at hrevives
            left
            simp [AutoMode.settleAt, AutoMode.reconnectFrom, setState, hrevives]
          | settling decided wakeAt =>
            simp only [revives, hpoint, hcancelled, Bool.and_eq_true, Bool.not_eq_true',
              decide_eq_true_eq] at hrevives
            obtain ⟨⟨hawake, hbusy⟩, hrunning⟩ := hrevives
            have hgoes : (AutoMode.reconnectFrom w i c (.settling decided wakeAt)).1.launches =
                c.launches + 1 := by
              simp only [AutoMode.reconnectFrom]
              rw [if_neg (by omega), if_neg (by simp [hbusy]), if_neg (by simp [hrunning])]
              exact launches_startLocked hrunning
            right
            show (AutoMode.reconnectFrom w i c (.settling decided wakeAt)).1.launches ≠ n
            rw [hgoes, h.launches]
            omega
        | _ => simp [revives, hpoint, hcancelled] at hrevives
  | _ => simp [revives] at hrevives

end Rest

/-! ### Runs -/

/-- What holds of the controller and of what is remembered of its stop. -/
structure StopInv (x : Watched) : Prop where
  slots : Slots x.ctl
  rests : ∀ n, x.stopped = some n → Rests n x.ctl

variable {x : Watched} {cfg : Config} {e : Event}

theorem StopInv.final (h : StopInv x) : Final x :=
  fun n hn => ⟨(h.rests n hn).state, (h.rests n hn).launches⟩

/-- A stop by the user, whatever its name. -/
theorem step_of_isUserStop {c : Controller} (h : isUserStop c e = true) :
    step cfg c e = c.stop := by
  cases e with
  | stop => rfl
  | disconnectNow => rfl
  | press w =>
    simp only [isUserStop, Bool.or_eq_true, beq_iff_eq] at h
    obtain hstate | hstate := h
    · simp [step, onButtonPressed, hstate]
    · simp only [step, onButtonPressed, hstate]
      rfl
  | _ => simp [isUserStop] at h

/-- **One event keeps the invariant.** -/
theorem StopInv.watch (h : StopInv x) (hlate : NoLateEnd cfg x.ctl e)
    (hdown : isUserStop x.ctl e = false → isUserStart x.ctl e = false → StaysDown cfg x e) :
    StopInv (watch cfg x e) where
  slots := h.slots.step e hlate
  rests := by
    intro n hn
    show Rests n (step cfg x.ctl e)
    simp only [AutoMode.watch] at hn
    split_ifs at hn with hstop hstart
    · obtain rfl := Option.some.inj hn
      rw [step_of_isUserStop hstop]
      exact h.slots.rests_stop
    · have hrevives : revives cfg x.ctl e = false :=
        hdown (by simpa using hstop) (by simpa using hstart) (by simp [hn])
      exact (h.rests n hn).step (by simpa using hstop) (by simpa using hstart) hrevives

theorem final_watch_iff (h : StopInv x) (hlate : NoLateEnd cfg x.ctl e) :
    Final (watch cfg x e) ↔ StaysDown cfg x e := by
  constructor
  · intro hfinal hstopped
    by_contra hrevives
    rw [Bool.not_eq_false] at hrevives
    obtain ⟨n, hn⟩ := Option.isSome_iff_exists.mp hstopped
    have hkept : (watch cfg x e).stopped = some n := by
      cases e with
      | resume i w => simpa [watch, isUserStop, isUserStart] using hn
      | _ => simp [revives] at hrevives
    obtain ⟨hstate, hlaunches⟩ := hfinal n hkept
    obtain hmoved | hlaunched := not_rests_of_revives (h.rests n hn) hrevives
    · exact hmoved hstate
    · exact hlaunched hlaunches
  · intro hdown
    exact (h.watch hlate fun _ _ => hdown).final

theorem stopInv_initial : StopInv {} := ⟨slots_initial, by simp⟩

/-- **When a stop is final.** In a run in which no cancelled run empties the slot of another one,
exactly when nothing breaks a stop. -/
theorem final_iff (cfg : Config) (events : List Event)
    (h : Along (watch cfg) (fun x e => NoLateEnd cfg x.ctl e) {} events) :
    Always (watch cfg) Final {} events ↔ Along (watch cfg) (StaysDown cfg) {} events := by
  refine always_iff_along_of (I := StopInv) ?_ ?_ stopInv_initial stopInv_initial.final h
  · intro x e hx _ hlate hfinal
    exact hx.watch hlate fun _ _ => (final_watch_iff hx hlate).mp hfinal
  · intro x e hx _ hlate
    exact final_watch_iff hx hlate

/-- A tunnel of a run is lost, and its reconnect waits. -/
def droppedRun : List Event :=
  [.press {}, .resume 0 {}, .resume 0 {}, .resume 0 { anyTarget := false }, .resume 0 {},
    .resume 0 { outcome := .TUNNEL_UP }, .resume 0 {}, .tunnelLost, .resume 2 {}]

/-- The user stops while it waits. -/
def revivedRun : List Event := droppedRun ++ [.stop, .tick 2000, .resume 2 {}]

/-- The reconnect starts a run after the stop. -/
theorem revived_not_final : ¬ Always (watch {}) Final {} revivedRun := by
  rw [always_iff]
  intro h
  have hfinal := h revivedRun (List.prefix_refl _) 1 (by decide)
  exact absurd hfinal.2 (by decide)

/-- Another server is connecting when it has waited. -/
theorem final_droppedRun :
    Always (watch {}) Final {}
      (droppedRun ++ [.stop, .tick 2000, .resume 2 { isConnectingToAnotherServer := true }]) :=
  (final_iff {} _ (by decide)).mpr (by decide)

end SoftEther.AutoMode
