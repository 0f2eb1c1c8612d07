import SoftEther.Controller.KeepAlive

namespace SoftEther.Controller

open Lib SoftEther.Packet

/-!
# When the watchdog cuts a live tunnel

* `NoFalseAlarm` — a reconnect is triggered only after a silent timeout;
* `SilentSinceRecorded` — at the third miss in a row, no call that returned data lies within
  the timeout;
* `TunnelInv` — what the watchdog's stamps know about the receptions;
* `watchdog_iff` — the watchdog raises no false alarm exactly when every tick meets
  `SilentSinceRecorded`.

The receive loop stamps the manager only for a call that returned zero, so calls that return
data without a pause leave the stamp to grow old.
-/

/-- The watchdog's timeout, as `startKeepalive` sets it. -/
abbrev watchdogTimeoutMs : ℤ := 10000

/-- **No false alarm.** Whatever was read before a triggered reconnect is older than the
    timeout. -/
def NoFalseAlarm (s : Tunnel) : Prop :=
  ∀ a ∈ s.alarms, ∀ r ∈ a.received, watchdogTimeoutMs < a.time - r.time

/-- The clock does not run backwards. -/
def ClockForward (s : Tunnel) (a : TunnelAction) : Prop := s.clock ≤ a.now

/-- The condition of a tick: if it is the third one in a row to find the last call that returned
    zero older than the timeout, the last call that returned data is older too. -/
def SilentSinceRecorded (s : Tunnel) : TunnelAction → Prop
  | .tick now flags guard =>
    s.watching = true → flags.goesOn = true → guard.triggerReconnect = true →
      s.keepAlive.missedCount = 2 →
      watchdogTimeoutMs < longSub now s.keepAlive.lastReceivedTime →
      ∀ r ∈ s.received, r.recorded = false → watchdogTimeoutMs < now - r.time
  | _ => True

/-- While the watchdog runs, it counts from a stamp that no recorded reception is younger
    than. -/
structure Watched (s : Tunnel) : Prop where
  running : s.keepAlive.isRunning = true
  timeout : s.keepAlive.timeoutMs = watchdogTimeoutMs
  misses : s.keepAlive.missedCount ≤ 2
  stamp : s.keepAlive.lastReceivedTime ≤ s.clock
  recorded : ∀ r ∈ s.received, r.recorded = true → r.time ≤ s.keepAlive.lastReceivedTime

/-- What the watchdog rests on. -/
structure TunnelInv (s : Tunnel) : Prop where
  past : ∀ r ∈ s.received, r.time ≤ s.clock
  idle : s.started = false → s.keepAlive.isRunning = false ∧ s.watching = false
  watched : s.watching = true → Watched s

theorem tunnelInv_start : TunnelInv {} := ⟨nofun, fun _ => ⟨rfl, rfl⟩, nofun⟩

/-! ### What one pass keeps -/

variable {s : Tunnel} {now : ℤ}

theorem TunnelInv.startKeepalive (h : TunnelInv s) (hnow : s.clock ≤ now) (interval : ℤ) :
    TunnelInv (tunnelStep s (.startKeepalive now interval)) := by
  have hpast : ∀ r ∈ s.received, r.time ≤ now := fun r hr => le_trans (h.past r hr) hnow
  cases hstarted : s.started with
  | true =>
    simp only [tunnelStep, SoftEther.Controller.startKeepalive, hstarted, if_true]
    refine ⟨hpast, fun hs => absurd hs nofun, ?_⟩
    intro hw
    obtain ⟨hrun, htimeout, hmiss, hstamp, hrec⟩ := h.watched hw
    exact ⟨hrun, htimeout, hmiss, le_trans hstamp hnow, hrec⟩
  | false =>
    have hrun := (h.idle hstarted).1
    simp only [tunnelStep, SoftEther.Controller.startKeepalive, hstarted, Bool.false_eq_true,
      if_false]
    refine ⟨hpast, nofun, fun _ => ?_⟩
    -- `start` takes effect, so the stamp is the present.
    simp only [KeepAliveManager.start, KeepAliveManager.setTimeout, KeepAliveManager.setInterval,
      hrun, Bool.false_eq_true, if_false]
    exact ⟨rfl, rfl, Nat.zero_le _, le_refl now, fun r hr _ => hpast r hr⟩

/-- A call that is noted as a reception, or is not. -/
theorem noteReception_cases (received : List Reception) (now : ℤ) (readsBytes recorded : Bool) :
    noteReception received now readsBytes recorded = received ∨
      noteReception received now readsBytes recorded = ⟨now, recorded⟩ :: received := by
  cases readsBytes with
  | false => exact .inl rfl
  | true => exact .inr rfl

/-- What a pass of the receive loop does to the watchdog: it stamps the manager exactly when the
    call returned zero. -/
structure ReceiveEffect (s s' : Tunnel) (now : ℤ) (recorded : Bool) : Prop where
  started : s'.started = s.started
  watching : s'.watching = s.watching
  alarms : s'.alarms = s.alarms
  keepAlive : s'.keepAlive = if recorded then s.keepAlive.recordReceived now else s.keepAlive
  received : s'.received = s.received ∨ s'.received = ⟨now, recorded⟩ :: s.received

theorem receivePass_effect (s : Tunnel) (now : ℤ) (flags : LoopFlags) (call : ReceiveCall) :
    ∃ recorded, ReceiveEffect s (receivePass s now flags call) now recorded := by
  unfold receivePass
  split_ifs with hreceiving hflags
  · exact ⟨false, rfl, rfl, rfl, rfl, .inl rfl⟩
  · exact ⟨false, rfl, rfl, rfl, rfl, .inl rfl⟩
  · refine ⟨decide ((receiveBatch s.recvQueue call).rc = 0), ?_⟩
    have hnoted := noteReception_cases s.received now (call.readsBytes s.recvQueue)
      (decide ((receiveBatch s.recvQueue call).rc = 0))
    simp only
    split_ifs with hdata hzero
    · have hne : ¬ (receiveBatch s.recvQueue call).rc = 0 := by omega
      refine ⟨rfl, rfl, rfl, ?_, hnoted⟩
      simp only [hne, decide_false, Bool.false_eq_true, if_false]
    · refine ⟨rfl, rfl, rfl, ?_, hnoted⟩
      simp only [hzero, decide_true, if_true]
    · refine ⟨rfl, rfl, rfl, ?_, hnoted⟩
      simp only [hzero, decide_false, Bool.false_eq_true, if_false]

theorem TunnelInv.receive (h : TunnelInv s) (hnow : s.clock ≤ now) (flags : LoopFlags)
    (call : ReceiveCall) : TunnelInv (tunnelStep s (.receive now flags call)) := by
  obtain ⟨recorded, hstarted, hwatching, _, hkeep, hreceived⟩ := receivePass_effect s now flags call
  have hpast : ∀ r ∈ (receivePass s now flags call).received, r.time ≤ now := by
    intro r hr
    rcases hreceived with hsame | hmore
    · rw [hsame] at hr
      exact le_trans (h.past r hr) hnow
    · rw [hmore] at hr
      rcases List.mem_cons.mp hr with rfl | hold
      · exact le_refl _
      · exact le_trans (h.past r hold) hnow
  refine ⟨hpast, ?_, ?_⟩
  · intro hs
    have hidle := h.idle (hstarted.symm.trans hs)
    refine ⟨?_, hwatching.trans hidle.2⟩
    show (receivePass s now flags call).keepAlive.isRunning = false
    rw [hkeep]
    split_ifs
    · exact hidle.1
    · exact hidle.1
  · intro hw
    have hwas := h.watched (hwatching.symm.trans hw)
    cases recorded with
    | true =>
      -- The stamp is the present, so nothing is younger.
      rw [if_pos rfl] at hkeep
      constructor
      · exact (congrArg KeepAliveManager.isRunning hkeep).trans hwas.running
      · exact (congrArg KeepAliveManager.timeoutMs hkeep).trans hwas.timeout
      · exact le_of_eq_of_le (congrArg KeepAliveManager.missedCount hkeep) (Nat.zero_le _)
      · exact le_of_eq (congrArg KeepAliveManager.lastReceivedTime hkeep)
      · intro r hr _
        exact le_of_le_of_eq (hpast r hr) (congrArg KeepAliveManager.lastReceivedTime hkeep).symm
    | false =>
      rw [if_neg Bool.false_ne_true] at hkeep
      constructor
      · exact (congrArg KeepAliveManager.isRunning hkeep).trans hwas.running
      · exact (congrArg KeepAliveManager.timeoutMs hkeep).trans hwas.timeout
      · exact le_of_eq_of_le (congrArg KeepAliveManager.missedCount hkeep) hwas.misses
      · exact le_of_eq_of_le (congrArg KeepAliveManager.lastReceivedTime hkeep)
          (le_trans hwas.stamp hnow)
      · intro r hr hrec
        have hold : r ∈ s.received := by
          rcases hreceived with hsame | hmore
          · exact hsame ▸ hr
          · have hr' : r ∈ (⟨now, false⟩ :: s.received : List Reception) := hmore ▸ hr
            rcases List.mem_cons.mp hr' with rfl | hold
            · exact absurd hrec nofun
            · exact hold
        exact le_of_le_of_eq (hwas.recorded r hold hrec)
          (congrArg KeepAliveManager.lastReceivedTime hkeep).symm

/-! ### One tick -/

/-- The manager after the first half of a tick: a keep-alive may be due. -/
def afterSending (k : KeepAliveManager) (now : ℤ) : KeepAliveManager :=
  if k.shouldSendKeepAlive now then k.recordSent now else k

theorem afterSending_fields (k : KeepAliveManager) (now : ℤ) :
    (afterSending k now).isRunning = k.isRunning ∧ (afterSending k now).timeoutMs = k.timeoutMs ∧
      (afterSending k now).missedCount = k.missedCount ∧
      (afterSending k now).lastReceivedTime = k.lastReceivedTime := by
  unfold afterSending
  split_ifs <;> exact ⟨rfl, rfl, rfl, rfl⟩

/-- **The third miss.** A watched connection counts as dead exactly when two misses are counted
    and the stamp is older than the timeout. -/
theorem isConnectionDead_iff (h : Watched s) :
    ((afterSending s.keepAlive now).isConnectionDead now).2 = true ↔
      s.keepAlive.missedCount = 2 ∧
        watchdogTimeoutMs < longSub now s.keepAlive.lastReceivedTime := by
  obtain ⟨hrun, htimeout, hmiss, hstamp⟩ := afterSending_fields s.keepAlive now
  have hcount := h.misses
  simp only [KeepAliveManager.isConnectionDead, hrun, h.running, Bool.not_true, Bool.false_eq_true,
    if_false, htimeout, h.timeout, hmiss, hstamp, decide_eq_true_eq, MISSED_THRESHOLD]
  split_ifs with hold
  · constructor
    · exact fun h3 => ⟨by omega, hold⟩
    · exact fun h2 => by omega
  · constructor
    · exact fun h3 => by omega
    · exact fun h2 => absurd h2.2 hold

/-- A tick that does not count the third miss leaves the session watched. -/
theorem Watched.tick (h : Watched s) (hnow : s.clock ≤ now)
    (hdead : ¬ ((afterSending s.keepAlive now).isConnectionDead now).2 = true) :
    Watched { s with
      keepAlive := ((afterSending s.keepAlive now).isConnectionDead now).1
      clock := now } := by
  obtain ⟨hrun, htimeout, hmiss, hstamp⟩ := afterSending_fields s.keepAlive now
  rw [isConnectionDead_iff h] at hdead
  have hcount := h.misses
  simp only [KeepAliveManager.isConnectionDead, hrun, h.running, Bool.not_true, Bool.false_eq_true,
    if_false, htimeout, h.timeout, hmiss, hstamp]
  refine ⟨rfl, rfl, ?_, le_trans h.stamp hnow, h.recorded⟩
  dsimp only
  split_ifs with hold
  · have hnot : s.keepAlive.missedCount ≠ 2 := fun h2 => hdead ⟨h2, hold⟩
    exact Nat.succ_le_of_lt (lt_of_le_of_ne hcount hnot)
  · exact hcount

/-- The three outcomes of a tick. -/
theorem watchdogPass_cases (s : Tunnel) (now : ℤ) (flags : LoopFlags) (guard : ReconnectGuard) :
    (s.watching = false ∧ watchdogPass s now flags guard = s) ∨
    (s.watching = true ∧ (watchdogPass s now flags guard).watching = false ∧
      (watchdogPass s now flags guard).started = s.started ∧
      (watchdogPass s now flags guard).received = s.received ∧
      (watchdogPass s now flags guard).alarms =
        if flags.goesOn = true ∧ ((afterSending s.keepAlive now).isConnectionDead now).2 = true ∧
          guard.triggerReconnect = true then ⟨now, s.received⟩ :: s.alarms else s.alarms) ∨
    (s.watching = true ∧ ¬ ((afterSending s.keepAlive now).isConnectionDead now).2 = true ∧
      watchdogPass s now flags guard =
        { s with keepAlive := ((afterSending s.keepAlive now).isConnectionDead now).1 }) := by
  by_cases hon : s.watching = true
  · right
    by_cases hgo : flags.goesOn = true
    · have hpass : watchdogPass s now flags guard =
          if ((afterSending s.keepAlive now).isConnectionDead now).2 = true then
            { s with
              keepAlive := ((afterSending s.keepAlive now).isConnectionDead now).1.stop
              watching := false
              alarms :=
                if guard.triggerReconnect = true then ⟨now, s.received⟩ :: s.alarms else s.alarms }
          else { s with keepAlive := ((afterSending s.keepAlive now).isConnectionDead now).1 } := by
        rw [watchdogPass, if_neg (by simpa using hon), if_neg (by simpa using hgo)]
        rfl
      by_cases hdead : ((afterSending s.keepAlive now).isConnectionDead now).2 = true
      · rw [hpass, if_pos hdead]
        refine .inl ⟨hon, rfl, rfl, rfl, ?_⟩
        simp only [hgo, hdead, true_and]
      · rw [hpass, if_neg hdead]
        exact .inr ⟨hon, hdead, rfl⟩
    · rw [watchdogPass, if_neg (by simpa using hon), if_pos (by simpa using hgo)]
      refine .inl ⟨hon, rfl, rfl, rfl, ?_⟩
      rw [if_neg (fun h => hgo h.1)]
  · rw [watchdogPass, if_pos (by simpa using hon)]
    exact .inl ⟨by simpa using hon, rfl⟩

theorem TunnelInv.tick (h : TunnelInv s) (hnow : s.clock ≤ now) (flags : LoopFlags)
    (guard : ReconnectGuard) : TunnelInv (tunnelStep s (.tick now flags guard)) := by
  have hpast : ∀ r ∈ s.received, r.time ≤ now := fun r hr => le_trans (h.past r hr) hnow
  rcases watchdogPass_cases s now flags guard with
    ⟨hoff, hsame⟩ | ⟨hon, hoff, hstarted, hreceived, _⟩ | ⟨hon, hdead, hsame⟩
  · simp only [tunnelStep, hsame]
    exact ⟨hpast, h.idle, fun hw => absurd (hoff.symm.trans hw) nofun⟩
  · -- The session had been started, or it would not have been watched.
    refine ⟨fun r hr => hpast r (hreceived ▸ hr), ?_, fun hw => absurd (hoff.symm.trans hw) nofun⟩
    intro hs
    have hidle := h.idle (hstarted.symm.trans hs)
    exact absurd (hon.symm.trans hidle.2) nofun
  · simp only [tunnelStep, hsame]
    refine ⟨hpast, ?_, fun _ => (h.watched hon).tick hnow hdead⟩
    intro hs
    exact absurd (hon.symm.trans (h.idle hs).2) nofun

/-- **Every pass keeps the invariant.** -/
theorem TunnelInv.step (h : TunnelInv s) (a : TunnelAction) (hclock : ClockForward s a) :
    TunnelInv (tunnelStep s a) := by
  cases a with
  | startKeepalive now interval => exact h.startKeepalive hclock interval
  | receive now flags call => exact h.receive hclock flags call
  | tick now flags guard => exact h.tick hclock flags guard

/-! ### Whole sessions -/

/-- **One pass decides.** -/
theorem noFalseAlarm_iff (h : TunnelInv s) (hP : NoFalseAlarm s) (a : TunnelAction)
    (hclock : ClockForward s a) :
    NoFalseAlarm (tunnelStep s a) ↔ SilentSinceRecorded s a := by
  cases a with
  | startKeepalive now interval =>
    have halarms : (tunnelStep s (.startKeepalive now interval)).alarms = s.alarms := by
      simp only [tunnelStep, SoftEther.Controller.startKeepalive]
      split_ifs <;> rfl
    exact ⟨fun _ => trivial, fun _ a ha => hP a (halarms ▸ ha)⟩
  | receive now flags call =>
    obtain ⟨_, heffect⟩ := receivePass_effect s now flags call
    exact ⟨fun _ => trivial, fun _ a ha => hP a (heffect.alarms ▸ ha)⟩
  | tick now flags guard =>
    rcases watchdogPass_cases s now flags guard with
      ⟨hoff, hsame⟩ | ⟨hon, hoff, _, _, halarms⟩ | ⟨hon, hdead, hsame⟩
    · constructor
      · exact fun _ hon => absurd (hoff.symm.trans hon) nofun
      · intro _ a ha
        simp only [tunnelStep, hsame] at ha
        exact hP a ha
    · have hw := h.watched hon
      split_ifs at halarms with hfires
      · obtain ⟨hgo, hdead, hguard⟩ := hfires
        obtain ⟨hmiss, hold⟩ := (isConnectionDead_iff hw).mp hdead
        constructor
        · intro hquiet _ _ _ _ _ r hr _
          have hnew := hquiet ⟨now, s.received⟩
          rw [show (tunnelStep s (.tick now flags guard)).alarms = _ from halarms] at hnew
          exact hnew List.mem_cons_self r hr
        · intro hsilent a ha
          rw [show (tunnelStep s (.tick now flags guard)).alarms = _ from halarms] at ha
          rcases List.mem_cons.mp ha with rfl | hbefore
          · intro r hr
            cases hrec : r.recorded with
            | false => exact hsilent hon hgo hguard hmiss hold r hr hrec
            | true =>
              -- A recorded reception is not younger than the stamp.
              have hstamp := hw.recorded r hr hrec
              have hnow : s.clock ≤ now := hclock
              have hsub := longSub_le (le_trans hw.stamp hnow)
                (le_trans (by decide) (le_of_lt hold))
              have hold' := lt_of_lt_of_le hold hsub
              show watchdogTimeoutMs < now - r.time
              omega
          · exact hP a hbefore
      · constructor
        · intro _ _ hgo hguard hmiss hold
          exact absurd ⟨hgo, (isConnectionDead_iff hw).mpr ⟨hmiss, hold⟩, hguard⟩ hfires
        · intro _ a ha
          exact hP a (halarms ▸ ha)
    · rw [isConnectionDead_iff (h.watched hon)] at hdead
      constructor
      · intro _ _ _ _ hmiss hold
        exact absurd ⟨hmiss, hold⟩ hdead
      · intro _ a ha
        simp only [tunnelStep, hsame] at ha
        exact hP a ha

/-- **The watchdog.** In a session on a clock that does not run backwards, no reconnect is
    triggered within the timeout after bytes of the server were read, if and only if every tick
    meets `SilentSinceRecorded`. -/
theorem watchdog_iff (as : List TunnelAction) (hclock : Along tunnelStep ClockForward {} as) :
    Always tunnelStep NoFalseAlarm {} as ↔ Along tunnelStep SilentSinceRecorded {} as :=
  always_iff_along_of (I := TunnelInv) (P := NoFalseAlarm) (fun _ a h _ hclock _ => h.step a hclock)
    (fun _ a h hP hclock => noFalseAlarm_iff h hP a hclock) tunnelInv_start nofun hclock

/-- A call that returns one IP packet, read from the wire in the same call. -/
def dataCall : ReceiveCall where
  hasHandle := true
  connected := true
  fill := ⟨1, [⟨List.replicate 12 0 ++ [0x08, 0x00, 0x45], 1⟩], true, fun _ => rfl⟩
  throws := false

/-- The end of a session in which every receive call returns data. -/
def busyRun : List TunnelAction :=
  [.startKeepalive 0 60000,
    .receive 10500 ⟨true, false⟩ dataCall, .tick 11000 ⟨true, false⟩ ⟨false, false, false, false⟩,
    .receive 11500 ⟨true, false⟩ dataCall, .tick 12000 ⟨true, false⟩ ⟨false, false, false, false⟩,
    .receive 12500 ⟨true, false⟩ dataCall, .tick 13000 ⟨true, false⟩ ⟨false, false, false, false⟩]

/-- Every action sets the clock, so a run is on a forward clock when its readings are sorted. -/
theorem along_clockForward {as : List TunnelAction}
    (hsorted : (s.clock :: as.map TunnelAction.now).IsChain (· ≤ ·)) :
    Along tunnelStep ClockForward s as := by
  induction as generalizing s with
  | nil => trivial
  | cons a as ih =>
    rw [List.map_cons, List.isChain_cons_cons] at hsorted
    have hclock : (tunnelStep s a).clock = a.now := by cases a <;> rfl
    exact ⟨hsorted.1, ih (hclock ▸ hsorted.2)⟩

theorem busyRun_clock : Along tunnelStep ClockForward {} busyRun :=
  along_clockForward (by simp [busyRun, TunnelAction.now])

theorem watchdog_iff_busy :
    Along tunnelStep ClockForward {} busyRun ∧
      (Always tunnelStep NoFalseAlarm {} busyRun ↔
        Along tunnelStep SilentSinceRecorded {} busyRun) :=
  ⟨busyRun_clock, watchdog_iff busyRun busyRun_clock⟩

/-- Sustained traffic is cut: the third tick after the timeout finds data half a second old. -/
theorem watchdog_fails :
    ¬ ∀ as : List TunnelAction, Along tunnelStep ClockForward {} as →
      Always tunnelStep NoFalseAlarm {} as := by
  intro hall
  have hend := always_iff.mp (hall busyRun busyRun_clock) busyRun (List.prefix_refl _)
  have halarms : (run tunnelStep {} busyRun).alarms =
      [⟨13000, [⟨12500, false⟩, ⟨11500, false⟩, ⟨10500, false⟩]⟩] := rfl
  rw [NoFalseAlarm, halarms] at hend
  have hquiet := hend _ List.mem_cons_self ⟨12500, false⟩ List.mem_cons_self
  exact absurd hquiet (by decide)

end SoftEther.Controller
