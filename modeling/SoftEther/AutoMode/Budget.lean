import SoftEther.Lib.RateLimit
import SoftEther.AutoMode.Slots

namespace SoftEther.AutoMode

open Lib
open Controller

/-!
# The reconnect budget

The budget limits the reconnects that are decided in a rolling window. What the network retry
starts is not counted, and a reconnect that is decided starts its run at least
`RECONNECT_INITIAL_DELAY_MS` later.

* `StartsBounded` — the starts in any window, whatever their cause and counted when they happen;
* `Budgeted` — the reconnects that have started, counted when they were decided;
* `budgeted_always` — this holds in every run of the controller;
* `autoStarts_not_bounded` — `StartsBounded` does not.
-/

/-! ### What is bounded -/

/-- The runs that the controller has started by itself since the last press. -/
def StartsBounded (c : Controller) : Prop :=
  ∀ t, countIn RECONNECT_WINDOW_MS t (c.autoStarts.map AutoStart.time) ≤ RECONNECT_MAX_ATTEMPTS

/-- The reconnects that have started a run, with the time each was decided. -/
def startedReconnects (c : Controller) : List (ℕ × ℤ) := c.autoStarts.filterMap AutoStart.reconnect

/-- Those that were decided since the last press. -/
def countedReconnects (c : Controller) : List (ℕ × ℤ) :=
  (startedReconnects c).filter fun x => decide (x ∈ c.decisions)

/-- **The budget.** -/
structure Budgeted (c : Controller) : Prop where
  /-- What is decided in any window. -/
  decided : ∀ t, countIn RECONNECT_WINDOW_MS t (c.decisions.map Prod.snd) ≤ RECONNECT_MAX_ATTEMPTS
  /-- What has started of what was decided in any window. -/
  started : ∀ t, countIn RECONNECT_WINDOW_MS t ((countedReconnects c).map Prod.snd) ≤
    RECONNECT_MAX_ATTEMPTS
  /-- A reconnect starts one run, and not at once. -/
  once : (startedReconnects c).Nodup
  settled : ∀ s ∈ c.autoStarts, ∀ x ∈ s.reconnect, x.2 + RECONNECT_INITIAL_DELAY_MS ≤ s.time

/-! ### The invariant -/

/-- A reconnect waits for the delay from its decision on. -/
def Settles (p : Point) : Prop :=
  ∀ decided wakeAt, p = .reconnect (.settling decided wakeAt) →
    wakeAt = decided + RECONNECT_INITIAL_DELAY_MS

/-- What the budget rests on. -/
structure BudgetInv (c : Controller) : Prop where
  limited : Limited RECONNECT_WINDOW_MS RECONNECT_MAX_ATTEMPTS c.currentTimeMillis
    (c.decisions.map Prod.snd) c.reconnectTimestamps
  settles : ∀ i p, (c.scope.jobs i).point = some p → Settles p
  used : ∀ i, (c.scope.jobs i).point ≠ none → i < c.scope.next
  ended : ∀ x ∈ startedReconnects c, x.1 < c.scope.next ∧ (c.scope.jobs x.1).point = none
  once : (startedReconnects c).Nodup
  settled : ∀ s ∈ c.autoStarts, ∀ x ∈ s.reconnect, x.2 + RECONNECT_INITIAL_DELAY_MS ≤ s.time

theorem BudgetInv.budgeted {c : Controller} (h : BudgetInv c) : Budgeted c where
  decided := h.limited.admitted
  started t := by
    let inWindow := (countedReconnects c).filter fun x =>
      decide (t ≤ x.2 ∧ x.2 ≤ t + RECONNECT_WINDOW_MS)
    have hcount : countIn RECONNECT_WINDOW_MS t ((countedReconnects c).map Prod.snd) =
        inWindow.length := by
      rw [countIn, List.countP_map, List.countP_eq_length_filter]
      rfl
    have huses : ∀ x ∈ inWindow,
        x ∈ c.decisions ∧ t ≤ x.2 ∧ x.2 ≤ t + RECONNECT_WINDOW_MS := by
      intro x hx
      simp only [inWindow, countedReconnects, List.mem_filter, decide_eq_true_eq] at hx
      exact ⟨hx.1.2, hx.2⟩
    rw [hcount]
    exact (length_le_of_window ((h.once.filter _).filter _) huses).trans (h.limited.admitted t)
  once := h.once
  settled := h.settled

/-- A step that decides nothing and starts nothing by itself. -/
structure Ledger (c c' : Controller) : Prop where
  scope : c.scope.Grows Settles c'.scope
  reconnectTimestamps : c'.reconnectTimestamps = c.reconnectTimestamps
  currentTimeMillis : c'.currentTimeMillis = c.currentTimeMillis
  decisions : c'.decisions = c.decisions
  autoStarts : c'.autoStarts = c.autoStarts

section Ledger

variable {w : Reading} {c c' : Controller} {i : ℕ}

theorem Settles.of_ne {p : Point}
    (h : ∀ decided wakeAt, p ≠ .reconnect (.settling decided wakeAt)) : Settles p :=
  fun decided wakeAt hp => absurd hp (h decided wakeAt)

theorem Ledger.refl (c : Controller) : Ledger c c := ⟨Scope.Grows.refl _ _, rfl, rfl, rfl, rfl⟩

theorem Ledger.of_frame (h : Frame c c') : Ledger c c' := by
  refine ⟨?_, h.reconnectTimestamps, h.currentTimeMillis, h.decisions, h.autoStarts⟩
  rw [h.scope]
  exact Scope.Grows.refl _ _

/-- The scope grows, and nothing else of the ledger changes. -/
theorem BudgetInv.of_ledger (h : BudgetInv c) (hledger : Ledger c c') : BudgetInv c' where
  limited := by
    rw [hledger.currentTimeMillis, hledger.decisions, hledger.reconnectTimestamps]
    exact h.limited
  settles i p hp := (hledger.scope.fresh i p hp).elim id (h.settles i p)
  used i hp := (hledger.scope.used i hp).elim id fun hold =>
    (h.used i hold).trans_le hledger.scope.next_le
  ended x hx := by
    simp only [startedReconnects, hledger.autoStarts] at hx
    obtain ⟨hlt, hpoint⟩ := h.ended x hx
    exact ⟨hlt.trans_le hledger.scope.next_le, hledger.scope.ended _ hlt hpoint⟩
  once := by
    simp only [startedReconnects, hledger.autoStarts]
    exact h.once
  settled := by
    rw [hledger.autoStarts]
    exact h.settled

theorem Ledger.exit (h : Ledger c c') (e : RunError) : Ledger c (c'.exit e) :=
  ⟨h.scope, h.reconnectTimestamps, h.currentTimeMillis, h.decisions, h.autoStarts⟩

theorem Ledger.setState (h : Ledger c c') (s : AutoModeState) : Ledger c (c'.setState s) :=
  ⟨h.scope, h.reconnectTimestamps, h.currentTimeMillis, h.decisions, h.autoStarts⟩

theorem Ledger.launchRun (h : Ledger c c') : Ledger c c'.launchRun :=
  ⟨h.scope.launch (.of_ne (by simp)), h.reconnectTimestamps, h.currentTimeMillis, h.decisions,
    h.autoStarts⟩

theorem Ledger.startLocked (h : Ledger c c') : Ledger c c'.startLocked := by
  unfold Controller.startLocked
  split_ifs
  · exact h
  · exact Ledger.launchRun ⟨h.scope.cancel _, h.reconnectTimestamps, h.currentTimeMillis,
      h.decisions, h.autoStarts⟩

theorem Ledger.scheduleNetworkRetry (h : Ledger c c') :
    Ledger c (scheduleNetworkRetry w c') := by
  unfold Controller.scheduleNetworkRetry
  split_ifs
  · exact h
  · exact ⟨(h.scope.cancel _).launch (.of_ne (by simp)), h.reconnectTimestamps,
      h.currentTimeMillis, h.decisions, h.autoStarts⟩

theorem Ledger.startConnectedWatcher (h : Ledger c c') : Ledger c c'.startConnectedWatcher :=
  ⟨(h.scope.cancel _).launch (.of_ne (by simp)), h.reconnectTimestamps, h.currentTimeMillis,
    h.decisions, h.autoStarts⟩

theorem Ledger.reportArmedTunnelLoss (h : Ledger c c') : Ledger c c'.reportArmedTunnelLoss :=
  ⟨(h.scope.cancel _).launch (.of_ne (by simp)), h.reconnectTimestamps, h.currentTimeMillis,
    h.decisions, h.autoStarts⟩

theorem Ledger.launchSkip (h : Ledger c c') : Ledger c c'.launchSkip :=
  ⟨(h.scope.cancel _).launch (.of_ne (by simp)), h.reconnectTimestamps, h.currentTimeMillis,
    h.decisions, h.autoStarts⟩

theorem Ledger.disarm (h : Ledger c c') : Ledger c c'.disarm :=
  ⟨(h.scope.cancel _).cancel _, h.reconnectTimestamps, h.currentTimeMillis, h.decisions,
    h.autoStarts⟩

theorem Ledger.cancelRun (h : Ledger c c') : Ledger c c'.cancelRun := by
  unfold Controller.cancelRun
  split_ifs
  · exact ⟨h.scope.cancel _, h.reconnectTimestamps, h.currentTimeMillis, h.decisions,
      h.autoStarts⟩
  · exact h

theorem Ledger.stop (c : Controller) : Ledger c c.stop :=
  ((Ledger.refl c).disarm.cancelRun).setState _

/-- The coroutine that took a step is put back. -/
theorem Ledger.settleAt {π : Type} {kind : π → Point} {r : Controller × Option π}
    (h : Ledger c r.1) (hi : (c.scope.jobs i).point ≠ none)
    (hq : ∀ p ∈ r.2, Settles (kind p) ∨ (c.scope.jobs i).point = some (kind p)) :
    Ledger c (settleAt i kind r) :=
  ⟨h.scope.move hi (by simpa using hq), h.reconnectTimestamps, h.currentTimeMillis, h.decisions,
    h.autoStarts⟩

theorem runFrom_ledger {cfg : Config} {cancelled : Bool} {p : RunPoint}
    (h : cancelled = true → p.cancellable = false) :
    Ledger c (runFrom cfg w cancelled c p).1 := by
  cases cancelled with
  | false =>
    have heffect : RunEffect w c (runFrom cfg w false c p) := runFrom_effect p
    revert heffect
    generalize runFrom cfg w false c p = r
    intro heffect
    cases heffect with
    | goesOn hframe p => exact .of_frame hframe
    | ends hframe => exact .of_frame hframe
    | exits e => exact (Ledger.refl c).exit e
    | offline => exact ((Ledger.refl c).exit _).scheduleNetworkRetry
    | connects q => exact ((Ledger.refl c).setState _).startConnectedWatcher
  | true =>
    have heffect : CancelledEffect cfg w c p (runFrom cfg w true c p) := runFrom_cancelled (h rfl)
    obtain ⟨hframe, -⟩ | ⟨-, hr⟩ | ⟨-, hframe⟩ := heffect
    · exact .of_frame hframe
    · rw [hr]
      exact (Ledger.refl c).exit _
    · exact .of_frame hframe

theorem skipFrom_ledger (p : SkipPoint) : Ledger c (skipFrom w c p).1 := by
  cases p with
  | loadHistory =>
    simp only [skipFrom]
    split_ifs
    · exact (Ledger.refl c).exit _
    · exact ⟨.refl _ _, rfl, rfl, rfl, rfl⟩
    · exact Ledger.launchRun ⟨.refl _ _, rfl, rfl, rfl, rfl⟩
  | _ => exact .refl c

theorem watcherFrom_ledger (p : WatcherPoint) : Ledger c (watcherFrom w c p).1 := by
  cases p with
  | launched => exact .refl c
  | sleeping wakeAt =>
    simp only [watcherFrom]
    split_ifs
    · exact .refl c
    · exact .refl c
    · exact (Ledger.refl c).reportArmedTunnelLoss
    · exact .refl c

theorem skipToNextServer_ledger (w : Reading) (c : Controller) :
    Ledger c (c.skipToNextServer w) := by
  have hexternal : Ledger c (c.skipFromExternal w) := by
    unfold skipFromExternal
    split_ifs
    · exact (Ledger.refl c).launchSkip
    · exact .refl c
  unfold skipToNextServer
  cases c.state with
  | Connected =>
    simp only [skipConnected]
    split_ifs
    · exact .refl c
    · exact Ledger.launchSkip ⟨(Scope.Grows.refl _ _).cancel _, rfl, rfl, rfl, rfl⟩
  | Error e => exact Ledger.startLocked ⟨.refl _ _, rfl, rfl, rfl, rfl⟩
  | Connecting =>
    simp only
    split_ifs
    · exact ⟨.refl _ _, rfl, rfl, rfl, rfl⟩
    · exact hexternal
  | Disconnected => exact hexternal

end Ledger

/-! ### Steps -/

section Step

variable {cfg : Config} {w : Reading} {c c' : Controller} {i : ℕ}

/-- A press starts a new budget. -/
theorem BudgetInv.startFresh (h : BudgetInv c) : BudgetInv c.startFresh := by
  have hreset : BudgetInv { c.resetReconnectBudget with
      overrideServers := false, runOrigin := .AUTO_CONNECT } :=
    { limited := Limited.empty
      settles := h.settles
      used := h.used
      ended := by simp [startedReconnects, resetReconnectBudget]
      once := by simp [startedReconnects, resetReconnectBudget]
      settled := by simp [resetReconnectBudget] }
  exact hreset.of_ledger (Ledger.refl _).startLocked

theorem BudgetInv.onButtonPressed (h : BudgetInv c) (w : Reading) :
    BudgetInv (c.onButtonPressed w) := by
  unfold Controller.onButtonPressed
  cases c.state with
  | Disconnected =>
    simp only
    split_ifs
    · exact h
    · exact h.startFresh
  | Error e =>
    simp only
    split_ifs
    · exact h
    · exact h.startFresh
  | Connecting => exact h.of_ledger (.stop c)
  | Connected => exact h.of_ledger (.stop c)

/-- The coroutine `i` starts a run by itself, and ends. -/
theorem BudgetInv.starts (h : BudgetInv c) (hi : (c.scope.jobs i).point ≠ none) {π : Type}
    {kind : π → Point} {c₁ : Controller} {s : AutoStart} (hscope : c₁.scope = c.scope)
    (hkept : c₁.reconnectTimestamps = c.reconnectTimestamps)
    (htime : c₁.currentTimeMillis = c.currentTimeMillis) (hdecisions : c₁.decisions = c.decisions)
    (hstarts : c₁.autoStarts = s :: c.autoStarts)
    (hs : ∀ x ∈ s.reconnect, x.1 = i ∧ x.2 + RECONNECT_INITIAL_DELAY_MS ≤ s.time) :
    BudgetInv (settleAt i kind (c₁.startLocked, none)) := by
  have hledger : Ledger c₁ c₁.startLocked := (Ledger.refl c₁).startLocked
  have hgrows : c.scope.Grows Settles (c₁.startLocked.scope.move i none) := by
    rw [← hscope]
    exact hledger.scope.move (by rwa [hscope]) (by simp)
  have hended : ((c₁.startLocked.scope.move i none).jobs i).point = none := by
    simp [Scope.move]
  have hlog : (settleAt i kind (c₁.startLocked, none)).autoStarts = s :: c.autoStarts :=
    hledger.autoStarts.trans hstarts
  have hstarted : startedReconnects (settleAt i kind (c₁.startLocked, none)) =
      s.reconnect.toList ++ startedReconnects c := by
    unfold startedReconnects
    rw [hlog]
    cases hreconnect : s.reconnect <;> simp [hreconnect]
  constructor
  · show Limited _ _ c₁.startLocked.currentTimeMillis (c₁.startLocked.decisions.map Prod.snd)
      c₁.startLocked.reconnectTimestamps
    rw [hledger.currentTimeMillis, hledger.decisions, hledger.reconnectTimestamps, hkept, htime,
      hdecisions]
    exact h.limited
  · exact fun j p hp => (hgrows.fresh j p hp).elim id (h.settles j p)
  · exact fun j hp => (hgrows.used j hp).elim id fun hold => (h.used j hold).trans_le hgrows.next_le
  · intro x hx
    rw [hstarted, List.mem_append, Option.mem_toList] at hx
    obtain hnew | hold := hx
    · obtain ⟨rfl, -⟩ := hs x hnew
      exact ⟨(h.used _ hi).trans_le hgrows.next_le, hended⟩
    · obtain ⟨hlt, hpoint⟩ := h.ended x hold
      exact ⟨hlt.trans_le hgrows.next_le, hgrows.ended _ hlt hpoint⟩
  · rw [hstarted]
    cases hreconnect : s.reconnect with
    | none => exact h.once
    | some x =>
      -- what has started has ended, and this one has not
      refine List.nodup_cons.mpr ⟨?_, h.once⟩
      intro hx
      obtain ⟨rfl, -⟩ := hs x hreconnect
      exact hi (h.ended x hx).2
  · intro s' hs' x hx
    rw [hlog] at hs'
    obtain rfl | hs' := List.mem_cons.mp hs'
    · exact (hs x hx).2
    · exact h.settled s' hs' x hx

theorem BudgetInv.reconnectFrom (h : BudgetInv c) {p : ReconnectPoint}
    (hpoint : (c.scope.jobs i).point = some (.reconnect p)) :
    BudgetInv (settleAt i .reconnect (reconnectFrom w i c p)) := by
  have hi : (c.scope.jobs i).point ≠ none := by simp [hpoint]
  -- the decision is counted at the launch, the start at the end of the delay
  cases p with
  | launched =>
    have hstands : ∀ s, Ledger c (c.setState s) := fun s => (Ledger.refl c).setState s
    simp only [AutoMode.reconnectFrom]
    split_ifs
    · exact h.of_ledger ((hstands _).settleAt hi (by simp))
    · exact h.of_ledger ((hstands _).settleAt hi (by simp))
    · have hforgot : BudgetInv
          { c with reconnectTimestamps := recent c.currentTimeMillis c.reconnectTimestamps } :=
        ⟨h.limited.forget, h.settles, h.used, h.ended, h.once, h.settled⟩
      exact hforgot.of_ledger (((Ledger.refl _).setState _).settleAt hi (by simp))
    · rename_i hfree
      have hadmitted : BudgetInv { c with
          reconnectTimestamps :=
            recent c.currentTimeMillis c.reconnectTimestamps ++ [c.currentTimeMillis],
          decisions := (i, c.currentTimeMillis) :: c.decisions } :=
        ⟨h.limited.forget.admits (not_le.mp hfree), h.settles, h.used, h.ended, h.once, h.settled⟩
      refine hadmitted.of_ledger (((Ledger.refl _).setState _).settleAt hi ?_)
      intro q hq
      obtain rfl := Option.some.inj hq
      refine .inl fun decided wakeAt heq => ?_
      cases heq
      rfl
  | settling decided wakeAt =>
    have hwake : wakeAt = decided + RECONNECT_INITIAL_DELAY_MS := h.settles i _ hpoint _ _ rfl
    have hstays : ∀ q : Option ReconnectPoint, (∀ p ∈ q, p = .settling decided wakeAt) →
        BudgetInv (settleAt i .reconnect (c, q)) := by
      intro q hq
      refine h.of_ledger ((Ledger.refl c).settleAt hi fun p hp => .inr ?_)
      rw [hpoint, hq p hp]
    simp only [AutoMode.reconnectFrom]
    split_ifs
    · exact hstays _ (by simp)
    · exact hstays _ (by simp)
    · exact hstays _ (by simp)
    · rename_i hawake _ _
      refine h.starts hi rfl rfl rfl rfl rfl ?_
      rintro _ ⟨⟩
      refine ⟨rfl, ?_⟩
      show decided + RECONNECT_INITIAL_DELAY_MS ≤ c.currentTimeMillis
      omega

theorem BudgetInv.retryFrom (h : BudgetInv c) {p : RetryPoint}
    (hpoint : (c.scope.jobs i).point = some (.retry p)) :
    BudgetInv (settleAt i .retry (retryFrom w c p)) := by
  have hi : (c.scope.jobs i).point ≠ none := by simp [hpoint]
  have hstays : ∀ q : Option RetryPoint, BudgetInv (settleAt i .retry (c, q)) := fun q =>
    h.of_ledger ((Ledger.refl c).settleAt hi fun p _ => .inl (.of_ne (by simp)))
  cases p with
  | launched => exact hstays _
  | polling deadline wakeAt =>
    simp only [AutoMode.retryFrom]
    split_ifs
    · exact hstays _
    · exact hstays _
    · exact hstays _
    · exact hstays _
    · exact h.starts hi rfl rfl rfl rfl rfl (by simp)

theorem BudgetInv.resume (h : BudgetInv c) : BudgetInv (resume cfg i w c) := by
  cases hpoint : (c.scope.jobs i).point with
  | none =>
    rw [resume_none hpoint]
    exact h
  | some p =>
    have hi : (c.scope.jobs i).point ≠ none := by simp [hpoint]
    have hfinish : BudgetInv { c with scope := c.scope.move i none } :=
      h.of_ledger ⟨(Scope.Grows.refl _ _).move hi (by simp), rfl, rfl, rfl, rfl⟩
    have hrun : ∀ p, (c.scope.jobs i).point = some (.run p) →
        BudgetInv (AutoMode.resume cfg i w c) := by
      intro p hpoint
      rw [resume_run hpoint]
      split_ifs with hcancellable
      · exact hfinish
      · refine h.of_ledger ((runFrom_ledger ?_).settleAt hi fun p _ => .inl (.of_ne (by simp)))
        intro hcancelled
        simpa [hcancelled] using hcancellable
    -- runs, skips and watchers leave the ledger alone
    cases hcancelled : (c.scope.jobs i).cancelled with
    | true =>
      cases p with
      | run p => exact hrun p hpoint
      | _ =>
        rw [resume_cancelled hpoint (by simp) hcancelled]
        exact hfinish
    | false =>
      simp only [AutoMode.resume, hpoint, hcancelled, Bool.false_eq_true, if_false] at hrun ⊢
      cases p with
      | run p => exact hrun p rfl
      | skip p =>
        exact h.of_ledger ((skipFrom_ledger p).settleAt hi fun p _ => .inl (.of_ne (by simp)))
      | reconnect p => exact h.reconnectFrom hpoint
      | retry p => exact h.retryFrom hpoint
      | watcher p =>
        exact h.of_ledger ((watcherFrom_ledger p).settleAt hi fun p _ => .inl (.of_ne (by simp)))

/-- **One event keeps the budget.** -/
theorem BudgetInv.step (h : BudgetInv c) (e : Event) : BudgetInv (step cfg c e) := by
  cases e with
  | press w => exact h.onButtonPressed w
  | skip w => exact h.of_ledger (skipToNextServer_ledger w c)
  | stop => exact h.of_ledger (.stop c)
  | disconnectNow => exact h.of_ledger (.stop c)
  | tunnelLost =>
    show BudgetInv c.tunnelLost
    unfold Controller.tunnelLost
    split_ifs
    · exact h.of_ledger (Ledger.refl c).reportArmedTunnelLoss
    · exact h
  | resume i w => exact h.resume
  | tick ms =>
    exact ⟨h.limited.later (by simp [AutoMode.step]), h.settles, h.used, h.ended, h.once, h.settled⟩

theorem budgetInv_initial : BudgetInv {} := by
  constructor <;> simp [startedReconnects, Limited.empty]

end Step

/-! ### Runs -/

/-- **The budget holds at every point of every run.** -/
theorem budgeted_always (cfg : Config) (events : List Event) :
    Always (step cfg) Budgeted {} events :=
  always_of_along (I := BudgetInv) (fun _ e hc _ => hc.step e) (fun _ hc => hc.budgeted)
    (along_true (step cfg) {} events) budgetInv_initial

/-! ### What the budget does not bound -/

/-- The network comes back for each poll of the retry and is gone when the run begins. -/
def flappingRun : List Event :=
  [.press {}, .resume 0 { isNetworkAvailable := false }] ++
    (List.range 6).flatMap fun k =>
      [.resume (2 * k + 1) {}, .tick 2000, .resume (2 * k + 1) {},
        .resume (2 * k + 2) { isNetworkAvailable := false }]

/-- A tunnel is lost right after it came up, and the reconnect is resumed `delay` later. -/
def dropAfter (run : ℕ) (delay : ℕ) : List Event :=
  [.resume run {}, .resume run { anyTarget := false }, .resume run {},
    .resume run { outcome := .TUNNEL_UP }, .resume run {}, .tunnelLost, .resume (run + 2) {},
    .tick delay, .resume (run + 2) {}]

/-- Six reconnects; the first is resumed ten seconds late, and the last is decided when the first
decision has just left the window. -/
def lateReconnectRun : List Event :=
  [.press {}, .resume 0 {}] ++ dropAfter 0 12000 ++
    (List.range 4).flatMap (fun k => dropAfter (3 * k + 3) 2000) ++
    [.tick 580001] ++ dropAfter 15 2000

/-- Neither cause keeps the starts in a window down to the budget. -/
theorem autoStarts_not_bounded :
    ¬ Always (step {}) StartsBounded {} flappingRun ∧
      ¬ Always (step {}) StartsBounded {} lateReconnectRun := by
  constructor
  · rw [always_iff]
    intro h
    exact absurd (h flappingRun (List.prefix_refl _) 0) (by decide)
  · rw [always_iff]
    intro h
    exact absurd (h lateReconnectRun (List.prefix_refl _) 12000) (by decide +kernel)

end SoftEther.AutoMode
