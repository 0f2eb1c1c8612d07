import SoftEther.Lib.EventLog
import SoftEther.AutoMode.Candidate
import SoftEther.AutoMode.Controller

namespace SoftEther.AutoMode

open Lib

/-!
# Wedges (`WedgeTracker`)

The runs of one process share a ledger of the servers that took a connection attempt and brought
up no tunnel. A run asks it before it visits a server, and at most once for each server.

* `WedgeTracker` — the ledger;
* `Visit`, `Stage` — what a run keeps of the server it is at, and where it waits;
* `resumeRun` — a run goes on; runs may overlap in any way;
* `Act`, `Fits` — what the runs do, and what each of these acts has before it;
* `fits_always` — every act of every process fits.
-/

/-! ### The ledger -/

def EXCLUSION_THRESHOLD : ℕ := 2
def NATIVE_BUSY_WEDGE_THRESHOLD : ℕ := 2

/-- `WedgeTracker`. A key that is not in the map has no wedges. -/
structure WedgeTracker where
  wedges : JavaString → ℕ := fun _ => 0

namespace WedgeTracker

def record (t : WedgeTracker) (key : JavaString) : WedgeTracker :=
  ⟨Function.update t.wedges key (t.wedges key + 1)⟩

def countFor (t : WedgeTracker) (key : JavaString) : ℕ := t.wedges key

def isExcluded (t : WedgeTracker) (key : JavaString) : Bool :=
  decide (EXCLUSION_THRESHOLD ≤ t.countFor key)

/-- `clear`, after a verified tunnel. -/
def clear (t : WedgeTracker) (key : JavaString) : WedgeTracker :=
  ⟨Function.update t.wedges key 0⟩

end WedgeTracker

/-- `serverKey`, which is also `wedgeKey`. -/
def serverKey (candidate : AutoModeCandidate) : JavaString :=
  candidate.ip.getD (JavaString.ofChars ['n', 'u', 'l', 'l']) ++ JavaString.ofChars ['|'] ++
    candidate.hostname.getD []

/-! ### A run -/

/-- The locals of a run while it is at a server. -/
structure Visit where
  key : JavaString
  wedgedThisServer : Bool := false
  nativeBusyThisServer : ℕ := 0

/-- Where a run waits, as far as the ledger is concerned. -/
inductive Stage
  | started
  | fastAwait (key : JavaString)
  | nextServer
  | nextProtocol (v : Visit)
  | awaitOutcome (v : Visit)
  | slotAwait (v : Visit)
  | retryAwait (v : Visit)
  | cleanup (v : Visit) (outcome : AttemptOutcome)
  | ended

/-- The server a stage is at. -/
def Stage.visit : Stage → Option Visit
  | .nextProtocol v | .awaitOutcome v | .slotAwait v | .retryAwait v | .cleanup v _ => some v
  | _ => none

/-- What a run keeps for itself. -/
structure RunState where
  stage : Stage := .started
  /-- `attempted` -/
  attempted : List JavaString := []

/-- What the runs do. -/
inductive Act
  | fastDialled (run : ℕ) (key : JavaString)
  | visited (run : ℕ) (key : JavaString)
  | dialled (run : ℕ) (key : JavaString)
  | answered (run : ℕ) (key : JavaString) (outcome : AttemptOutcome)
  | wedged (run : ℕ) (key : JavaString)
  /-- A verified tunnel. -/
  | cleared (run : ℕ) (key : JavaString)
  deriving DecidableEq

/-- The run that acts. -/
def Act.run : Act → ℕ
  | .fastDialled r _ | .visited r _ | .dialled r _ | .answered r _ _ | .wedged r _ | .cleared r _ =>
    r

/-- The ledger, the runs by their number, and what they have done, the latest act first. -/
structure Process where
  wedgeTracker : WedgeTracker := {}
  runs : ℕ → RunState := fun _ => {}
  log : List Act := []

/-- What a run reads from outside while it goes on. -/
structure WedgeReading where
  /-- `knownGoodFastTarget`, if the run takes the fast path. -/
  fastTarget : Option AutoModeCandidate := none
  /-- The next server of the list, if there is one and the network is up. -/
  server : Option AutoModeCandidate := none
  /-- `supported.isNotEmpty()` -/
  supported : Bool := true
  moreProtocols : Bool := true
  connect : ConnectReply := .returned
  skipRequested : Bool := false
  outcome : AttemptOutcome := .TIMED_OUT
  isOwnTunnelEstablished : Bool := false
  slotReleased : Bool := true
  lastTeardownWasResolved : Bool := true

namespace Process

variable (p : Process) (r : ℕ)

/-- A run has a new state. -/
def put (s : RunState) : Process := { p with runs := Function.update p.runs r s }

/-- A run goes on at a stage. -/
def goTo (stage : Stage) : Process := p.put r { p.runs r with stage := stage }

/-- What is done is noted. -/
def act (a : Act) : Process := { p with log := a :: p.log }

/-- `recordWedge`. -/
def recordWedge (key : JavaString) : Process :=
  { p.act (.wedged r key) with wedgeTracker := p.wedgeTracker.record key }

/-- `publishConnected`, which ends the run. -/
def publishConnected (key : JavaString) : Process :=
  { p.act (.cleared r key) with wedgeTracker := p.wedgeTracker.clear key }.goTo r .ended

/-- The fast path failed: the walk will not visit its server. -/
def fastFailed (key : JavaString) : Process :=
  p.put r { stage := .nextServer, attempted := key :: (p.runs r).attempted }

/-- The head of the loop over the servers. -/
def visitServer (w : WedgeReading) (server : AutoModeCandidate) : Process :=
  let key := serverKey server
  let attempted := key :: (p.runs r).attempted
  if key ∈ (p.runs r).attempted then p
  else if p.wedgeTracker.isExcluded key || !w.supported then
    p.put r { p.runs r with attempted := attempted }
  else
    (p.act (.visited r key)).put r
      { stage := .nextProtocol { key := key }, attempted := attempted }

/-- `adapter.connect` in a visit, and the stage in which its outcome is awaited. -/
def dial (w : WedgeReading) (v : Visit) (await : Stage) : Process :=
  match w.connect with
  | .returned => (p.act (.dialled r v.key)).goTo r await
  | .VpnPermissionMissingException => (p.act (.dialled r v.key)).goTo r .ended
  | .threw => (p.act (.dialled r v.key)).goTo r (.nextProtocol v)

/-- The branch of a refused attempt. -/
def refused (v : Visit) : Process :=
  let v := { v with nativeBusyThisServer := v.nativeBusyThisServer + 1 }
  if !v.wedgedThisServer && decide (NATIVE_BUSY_WEDGE_THRESHOLD ≤ v.nativeBusyThisServer) then
    (p.recordWedge r v.key).goTo r (.slotAwait { v with wedgedThisServer := true })
  else p.goTo r (.slotAwait v)

/-- The branch of an attempt that timed out. -/
def timedOut (v : Visit) : Process :=
  if !v.wedgedThisServer then
    (p.recordWedge r v.key).goTo r (.cleanup { v with wedgedThisServer := true } .TIMED_OUT)
  else p.goTo r (.cleanup v .TIMED_OUT)

/-- An attempt whose outcome is known. -/
def judge (w : WedgeReading) (v : Visit) : Process :=
  match w.outcome with
  | .TUNNEL_UP => p.publishConnected r v.key
  | .MISSING_CONFIG => p.goTo r (.nextProtocol v)
  | .NATIVE_BUSY =>
    if w.isOwnTunnelEstablished then p.publishConnected r v.key else p.refused r v
  | .TIMED_OUT =>
    if w.isOwnTunnelEstablished then p.publishConnected r v.key else p.timedOut r v
  | .NATIVE_ERROR =>
    if w.isOwnTunnelEstablished then p.publishConnected r v.key
    else p.goTo r (.cleanup v .NATIVE_ERROR)

end Process

/-- The run `r` goes on. -/
def resumeRun (p : Process) (r : ℕ) (w : WedgeReading) : Process :=
  match (p.runs r).stage with
  | .started =>
    match w.fastTarget with
    | none => p.goTo r .nextServer
    | some server =>
      let dialled := p.act (.fastDialled r (serverKey server))
      match w.connect with
      | .returned => dialled.goTo r (.fastAwait (serverKey server))
      | _ => dialled.fastFailed r (serverKey server)
  | .fastAwait key =>
    if !w.skipRequested && w.outcome == .TUNNEL_UP then p.publishConnected r key
    else p.fastFailed r key
  | .nextServer =>
    match w.server with
    | none => p.goTo r .ended
    | some server => p.visitServer r w server
  | .nextProtocol v =>
    if !w.moreProtocols then p.goTo r .nextServer else p.dial r w v (.awaitOutcome v)
  | .awaitOutcome v =>
    if w.skipRequested then p.goTo r (.nextProtocol v)
    else (p.act (.answered r v.key w.outcome)).judge r w v
  | .slotAwait v =>
    if !w.slotReleased then p.goTo r .nextServer
    else if !w.lastTeardownWasResolved then p.goTo r (.nextProtocol v)
    else p.dial r w v (.retryAwait v)
  | .retryAwait v =>
    if w.outcome == .TUNNEL_UP || w.isOwnTunnelEstablished then p.publishConnected r v.key
    else p.goTo r (.cleanup v .NATIVE_BUSY)
  | .cleanup v outcome =>
    if outcome == .NATIVE_ERROR || w.slotReleased then p.goTo r (.nextProtocol v)
    else p.goTo r .nextServer
  | .ended => p

/-- A run goes on, or is cancelled. -/
inductive WedgeEvent
  | resume (r : ℕ) (w : WedgeReading)
  | cancel (r : ℕ)

/-- One event of the process. -/
def wedgeStep (p : Process) : WedgeEvent → Process
  | .resume r w => resumeRun p r w
  | .cancel r => p.goTo r .ended

/-! ### What the acts have before them -/

/-- The wedges of a server since its last verified tunnel. -/
def wedgesSince (key : JavaString) : List Act → ℕ
  | [] => 0
  | .wedged _ k :: before => if k = key then wedgesSince key before + 1 else wedgesSince key before
  | .cleared _ k :: before => if k = key then 0 else wedgesSince key before
  | _ :: before => wedgesSince key before

/-- The server that a run visited last. -/
def lastVisit (r : ℕ) (log : List Act) : Option JavaString :=
  log.findSome? fun
    | .visited r' key => if r' = r then some key else none
    | _ => none

/-- **Sticky exclusion**, as it would be without exceptions: nobody dials an excluded server. -/
def NeverDialled : Act → List Act → Prop
  | .dialled _ key, before | .fastDialled _ key, before =>
    wedgesSince key before < EXCLUSION_THRESHOLD
  | _, _ => True

instance : ∀ a before, Decidable (NeverDialled a before)
  | .dialled _ key, before | .fastDialled _ key, before =>
    inferInstanceAs (Decidable (wedgesSince key before < EXCLUSION_THRESHOLD))
  | .visited _ _, _ | .answered _ _ _, _ | .wedged _ _, _ | .cleared _ _, _ =>
    inferInstanceAs (Decidable True)

/-- What an act has before it.
* A run visits a server only while it is not excluded, and once.
* The walk dials the server that it visits.
* A run adds a wedge to a server once: when the attempt has just timed out, or when the server has
  been refused twice in this run. -/
def Fits : Act → List Act → Prop
  | .visited r key, before =>
    wedgesSince key before < EXCLUSION_THRESHOLD ∧ .visited r key ∉ before
  | .dialled r key, before => lastVisit r before = some key
  | .wedged r key, before =>
    .wedged r key ∉ before ∧
      (before.head? = some (.answered r key .TIMED_OUT) ∨
        NATIVE_BUSY_WEDGE_THRESHOLD ≤ before.count (.answered r key .NATIVE_BUSY))
  | _, _ => True

/-! ### The invariant -/

/-- What a run knows of the server it is at. -/
structure VisitInv (log : List Act) (r : ℕ) (attempted : List JavaString) (v : Visit) : Prop where
  last : lastVisit r log = some v.key
  attempted : v.key ∈ attempted
  wedged : .wedged r v.key ∈ log → v.wedgedThisServer = true
  busy : v.nativeBusyThisServer ≤ log.count (.answered r v.key .NATIVE_BUSY)

/-- What a run knows of what it has done. -/
structure RunInv (log : List Act) (r : ℕ) (s : RunState) : Prop where
  visited : ∀ key, .visited r key ∈ log → key ∈ s.attempted
  wedged : ∀ key, .wedged r key ∈ log → key ∈ s.attempted
  visit : ∀ v ∈ s.stage.visit, VisitInv log r s.attempted v

/-- **What holds of the process.** -/
structure WedgeInv (p : Process) : Prop where
  tracker : ∀ key, p.wedgeTracker.wedges key = wedgesSince key p.log
  checked : Checked Fits p.log
  runs : ∀ r, RunInv p.log r (p.runs r)

section Invariant

variable {p : Process} {log : List Act} {r : ℕ} {s : RunState} {a : Act} {v : Visit}
  {attempted : List JavaString} {w : WedgeReading} {key : JavaString} {stage : Stage}

/-- An act that says nothing about the wedges and visits of the run. -/
def Act.Quiet (r : ℕ) : Act → Prop
  | .visited r' _ | .wedged r' _ => r' ≠ r
  | _ => True

theorem lastVisit_quiet (ha : a.Quiet r) : lastVisit r (a :: log) = lastVisit r log := by
  cases a with
  | visited r' key => simp [lastVisit, show r' ≠ r from ha]
  | _ => simp [lastVisit]

theorem VisitInv.quiet (h : VisitInv log r attempted v) (ha : a.Quiet r) :
    VisitInv (a :: log) r attempted v where
  last := by
    rw [lastVisit_quiet ha]
    exact h.last
  attempted := h.attempted
  wedged := by
    intro hmem
    obtain rfl | hmem := List.mem_cons.mp hmem
    · exact absurd rfl ha
    · exact h.wedged hmem
  busy := h.busy.trans List.count_le_count_cons

theorem RunInv.quiet (h : RunInv log r s) (ha : a.Quiet r) : RunInv (a :: log) r s where
  visited key hmem := by
    obtain rfl | hmem := List.mem_cons.mp hmem
    · exact absurd rfl ha
    · exact h.visited key hmem
  wedged key hmem := by
    obtain rfl | hmem := List.mem_cons.mp hmem
    · exact absurd rfl ha
    · exact h.wedged key hmem
  visit v hv := (h.visit v hv).quiet ha

/-- A run goes to another stage. -/
theorem RunInv.goTo (h : RunInv log r s)
    (hvisit : ∀ v ∈ stage.visit, VisitInv log r s.attempted v) :
    RunInv log r { s with stage := stage } := ⟨h.visited, h.wedged, hvisit⟩

theorem quiet_of_run_ne (h : a.run ≠ r) : a.Quiet r := by
  cases a with
  | visited r' key => exact h
  | wedged r' key => exact h
  | _ => trivial

/-- A run changes its own state only. -/
theorem WedgeInv.put (h : WedgeInv p) (hs : RunInv p.log r s) : WedgeInv (p.put r s) where
  tracker := h.tracker
  checked := h.checked
  runs r' := by
    by_cases hr : r' = r
    · subst hr
      simpa [Process.put] using hs
    · simpa [Process.put, hr] using h.runs r'

/-- A run acts, with what this does to the ledger, and changes its own state. -/
theorem WedgeInv.moves (h : WedgeInv p) (ha : a.run = r) (hfits : Fits a p.log) {t : WedgeTracker}
    (ht : ∀ key, t.wedges key = wedgesSince key (a :: p.log)) (hs : RunInv (a :: p.log) r s) :
    WedgeInv (Process.put { p.act a with wedgeTracker := t } r s) where
  tracker := ht
  checked := ⟨hfits, h.checked⟩
  runs r' := by
    by_cases hr : r' = r
    · subst hr
      simpa [Process.put, Process.act] using hs
    · have hother := (h.runs r').quiet (quiet_of_run_ne (a := a) (by omega))
      simpa [Process.put, Process.act, hr] using hother

/-- The acts that the ledger does not hear of. -/
def Act.Silent : Act → Prop
  | .wedged _ _ | .cleared _ _ => False
  | _ => True

theorem wedgesSince_silent (ha : a.Silent) : wedgesSince key (a :: log) = wedgesSince key log := by
  cases a with
  | wedged => exact absurd ha id
  | cleared => exact absurd ha id
  | _ => rfl

theorem WedgeInv.says (h : WedgeInv p) (ha : a.run = r) (hfits : Fits a p.log) (hsilent : a.Silent)
    (hs : RunInv (a :: p.log) r s) : WedgeInv ((p.act a).put r s) := by
  refine h.moves ha hfits ?_ hs
  intro key
  rw [wedgesSince_silent hsilent]
  exact h.tracker key

/-! ### Steps -/

theorem WedgeInv.goTo (h : WedgeInv p)
    (hvisit : ∀ v ∈ stage.visit, VisitInv p.log r (p.runs r).attempted v) :
    WedgeInv (p.goTo r stage) := h.put ((h.runs r).goTo hvisit)

/-- A verified tunnel. -/
theorem WedgeInv.publishConnected (h : WedgeInv p) (key : JavaString) :
    WedgeInv (p.publishConnected r key) := by
  have hrun : RunInv (.cleared r key :: p.log) r (p.runs r) := (h.runs r).quiet trivial
  refine h.moves (a := .cleared r key) (r := r) rfl trivial ?_
    (hrun.goTo (by simp [Stage.visit]))
  intro k
  by_cases hk : k = key
  · subst hk
    simp [WedgeTracker.clear, wedgesSince]
  · simp [WedgeTracker.clear, wedgesSince, hk, Ne.symm hk, h.tracker k]

/-- A wedge, after which the visit is marked. -/
theorem WedgeInv.recordWedge (h : WedgeInv p) (hv : VisitInv p.log r (p.runs r).attempted v)
    (hfits : Fits (.wedged r v.key) p.log)
    (hvisit : ∀ v' ∈ stage.visit, v'.key = v.key ∧ v'.wedgedThisServer = true ∧
      v'.nativeBusyThisServer ≤ p.log.count (.answered r v.key .NATIVE_BUSY)) :
    WedgeInv ((p.recordWedge r v.key).goTo r stage) := by
  have hrun := h.runs r
  refine h.moves (a := .wedged r v.key) (r := r) rfl hfits ?_ ?_
  · intro k
    by_cases hk : k = v.key
    · subst hk
      simp [WedgeTracker.record, wedgesSince, h.tracker]
    · simp [WedgeTracker.record, wedgesSince, hk, Ne.symm hk, h.tracker k]
  · constructor
    · intro key hmem
      exact hrun.visited key (by simpa using hmem)
    · intro key hmem
      obtain heq | hmem := List.mem_cons.mp hmem
      · cases heq
        exact hv.attempted
      · exact hrun.wedged key hmem
    · intro v' hv'
      obtain ⟨hkey, hmarked, hbusy⟩ := hvisit v' hv'
      refine ⟨?_, ?_, fun _ => hmarked, ?_⟩
      · rw [hkey]
        exact hv.last
      · rw [hkey]
        exact hv.attempted
      · rw [hkey]
        exact hbusy.trans List.count_le_count_cons

theorem WedgeInv.visitServer (h : WedgeInv p) (w : WedgeReading) (server : AutoModeCandidate)
    (hstage : (p.runs r).stage = .nextServer) : WedgeInv (p.visitServer r w server) := by
  have hrun := h.runs r
  have htried : RunInv p.log r
      { p.runs r with attempted := serverKey server :: (p.runs r).attempted } :=
    ⟨fun key hmem => List.mem_cons_of_mem _ (hrun.visited key hmem),
      fun key hmem => List.mem_cons_of_mem _ (hrun.wedged key hmem), by simp [hstage, Stage.visit]⟩
  simp only [Process.visitServer]
  split_ifs with hseen hexcluded
  · exact h
  · exact h.put htried
  · -- the server is new to the run, so the run has not visited and not wedged it
    have hfree : wedgesSince (serverKey server) p.log < EXCLUSION_THRESHOLD := by
      simp only [Bool.or_eq_true, not_or, WedgeTracker.isExcluded, WedgeTracker.countFor,
        decide_eq_true_eq, not_le, h.tracker] at hexcluded
      exact hexcluded.1
    have hnew : .visited r (serverKey server) ∉ p.log := fun hmem =>
      hseen (hrun.visited _ hmem)
    refine h.says rfl ⟨hfree, hnew⟩ trivial ⟨?_, ?_, ?_⟩
    · intro key hmem
      obtain heq | hmem := List.mem_cons.mp hmem
      · cases heq
        exact List.mem_cons_self
      · exact htried.visited key hmem
    · intro key hmem
      exact htried.wedged key (by simpa using hmem)
    · rintro _ ⟨⟩
      refine ⟨by simp [lastVisit], List.mem_cons_self, ?_, Nat.zero_le _⟩
      intro hmem
      exact absurd (hrun.wedged _ (by simpa using hmem)) hseen

theorem WedgeInv.dial (h : WedgeInv p) (w : WedgeReading)
    (hv : VisitInv p.log r (p.runs r).attempted v) (hstage : stage.visit = some v) :
    WedgeInv (p.dial r w v stage) := by
  have hrun : RunInv (.dialled r v.key :: p.log) r (p.runs r) := (h.runs r).quiet trivial
  have hkept : VisitInv (.dialled r v.key :: p.log) r (p.runs r).attempted v := hv.quiet trivial
  have hgoes : ∀ stage' : Stage, (∀ v' ∈ stage'.visit, v' = v) →
      WedgeInv ((p.act (.dialled r v.key)).goTo r stage') := by
    intro stage' hstage'
    refine h.says rfl hv.last trivial (hrun.goTo ?_)
    intro v' hv'
    rw [hstage' v' hv']
    exact hkept
  unfold Process.dial
  cases w.connect with
  | returned => exact hgoes _ (by simp [hstage])
  | VpnPermissionMissingException => exact hgoes _ (by simp [Stage.visit])
  | threw => exact hgoes _ (by simp [Stage.visit])

/-- The first wedge of a visit. -/
theorem VisitInv.not_wedged (h : VisitInv log r attempted v) (hv : v.wedgedThisServer = false) :
    .wedged r v.key ∉ log := by
  intro hmem
  rw [h.wedged hmem] at hv
  exact Bool.noConfusion hv

theorem WedgeInv.refused (h : WedgeInv p) (hv : VisitInv p.log r (p.runs r).attempted v)
    (hbusy : v.nativeBusyThisServer + 1 ≤ p.log.count (.answered r v.key .NATIVE_BUSY)) :
    WedgeInv (p.refused r v) := by
  simp only [Process.refused]
  split_ifs with hwedge
  · simp only [Bool.and_eq_true, Bool.not_eq_true', decide_eq_true_eq] at hwedge
    refine h.recordWedge hv ⟨hv.not_wedged hwedge.1, .inr (hwedge.2.trans hbusy)⟩ ?_
    rintro _ ⟨⟩
    exact ⟨rfl, rfl, hbusy⟩
  · refine h.goTo ?_
    rintro _ ⟨⟩
    exact ⟨hv.last, hv.attempted, hv.wedged, hbusy⟩

theorem WedgeInv.timedOut (h : WedgeInv p) (hv : VisitInv p.log r (p.runs r).attempted v)
    (hlast : p.log.head? = some (.answered r v.key .TIMED_OUT)) : WedgeInv (p.timedOut r v) := by
  unfold Process.timedOut
  split_ifs with hwedge
  · refine h.recordWedge hv ⟨hv.not_wedged (by simpa using hwedge), .inl hlast⟩ ?_
    rintro _ ⟨⟩
    exact ⟨rfl, rfl, hv.busy⟩
  · refine h.goTo ?_
    rintro _ ⟨⟩
    exact hv

/-- The outcome of an attempt. -/
theorem WedgeInv.judge (h : WedgeInv p) (hv : VisitInv p.log r (p.runs r).attempted v) :
    WedgeInv ((p.act (.answered r v.key w.outcome)).judge r w v) := by
  have hsaid : WedgeInv (p.act (.answered r v.key w.outcome)) := by
    refine ⟨fun key => ?_, ⟨trivial, h.checked⟩, fun r' => (h.runs r').quiet trivial⟩
    exact (h.tracker key).trans
      (wedgesSince_silent (a := .answered r v.key w.outcome) trivial).symm
  have hkept : VisitInv (.answered r v.key w.outcome :: p.log) r (p.runs r).attempted v :=
    hv.quiet trivial
  have hsame : ∀ stage' : Stage, (∀ v' ∈ stage'.visit, v' = v) →
      WedgeInv ((p.act (.answered r v.key w.outcome)).goTo r stage') := by
    intro stage' hstage'
    refine hsaid.goTo fun v' hv' => ?_
    rw [hstage' v' hv']
    exact hkept
  unfold Process.judge
  cases houtcome : w.outcome with
  | TUNNEL_UP =>
    rw [houtcome] at hsaid
    exact hsaid.publishConnected _
  | MISSING_CONFIG =>
    rw [houtcome] at hsame
    exact hsame _ (by simp [Stage.visit])
  | NATIVE_BUSY =>
    rw [houtcome] at hsaid hkept
    simp only
    split_ifs
    · exact hsaid.publishConnected _
    · refine hsaid.refused hkept ?_
      show _ ≤ List.count _ (_ :: p.log)
      rw [List.count_cons_self]
      exact Nat.succ_le_succ hv.busy
  | TIMED_OUT =>
    rw [houtcome] at hsaid hkept
    simp only
    split_ifs
    · exact hsaid.publishConnected _
    · exact hsaid.timedOut hkept rfl
  | NATIVE_ERROR =>
    rw [houtcome] at hsaid hsame
    simp only
    split_ifs
    · exact hsaid.publishConnected _
    · exact hsame _ (by simp [Stage.visit])

/-- **A run goes on.** -/
theorem WedgeInv.resumeRun (h : WedgeInv p) (r : ℕ) (w : WedgeReading) :
    WedgeInv (resumeRun p r w) := by
  have hrun := h.runs r
  have hleaves : ∀ stage' : Stage, stage'.visit = none → WedgeInv (p.goTo r stage') := by
    intro stage' hstage'
    exact h.goTo (by simp [hstage'])
  have hstays : ∀ v stage', VisitInv p.log r (p.runs r).attempted v →
      stage'.visit = some v → WedgeInv (p.goTo r stage') := by
    intro v stage' hv hstage'
    refine h.goTo fun v' hv' => ?_
    obtain rfl : v = v' := Option.some.inj (hstage'.symm.trans hv')
    exact hv
  -- a step leaves the visit, stays in it, or says something
  unfold AutoMode.resumeRun
  cases hstage : (p.runs r).stage with
  | started =>
    cases w.fastTarget with
    | none => exact hleaves _ rfl
    | some server =>
      have hdialled : RunInv (.fastDialled r (serverKey server) :: p.log) r (p.runs r) :=
        hrun.quiet trivial
      have hfailed : WedgeInv
          ((p.act (.fastDialled r (serverKey server))).fastFailed r (serverKey server)) := by
        refine h.says rfl trivial trivial ⟨?_, ?_, by simp [Stage.visit]⟩
        · exact fun key hmem => List.mem_cons_of_mem _ (hdialled.visited key hmem)
        · exact fun key hmem => List.mem_cons_of_mem _ (hdialled.wedged key hmem)
      simp only
      cases w.connect with
      | returned => exact h.says rfl trivial trivial (hdialled.goTo (by simp [Stage.visit]))
      | _ => exact hfailed
  | fastAwait key =>
    simp only
    split_ifs
    · exact h.publishConnected _
    · refine h.put ⟨?_, ?_, by simp [Stage.visit]⟩
      · exact fun k hmem => List.mem_cons_of_mem _ (hrun.visited k hmem)
      · exact fun k hmem => List.mem_cons_of_mem _ (hrun.wedged k hmem)
  | nextServer =>
    cases w.server with
    | none => exact hleaves _ rfl
    | some server => exact h.visitServer w server hstage
  | nextProtocol v =>
    have hv := hrun.visit v (by simp [hstage, Stage.visit])
    simp only
    split_ifs
    · exact hleaves _ rfl
    · exact h.dial w hv rfl
  | awaitOutcome v =>
    have hv := hrun.visit v (by simp [hstage, Stage.visit])
    simp only
    split_ifs
    · exact hstays v _ hv rfl
    · exact h.judge hv
  | slotAwait v =>
    have hv := hrun.visit v (by simp [hstage, Stage.visit])
    simp only
    split_ifs
    · exact hleaves _ rfl
    · exact hstays v _ hv rfl
    · exact h.dial w hv rfl
  | retryAwait v =>
    have hv := hrun.visit v (by simp [hstage, Stage.visit])
    simp only
    split_ifs
    · exact h.publishConnected _
    · exact hstays v _ hv rfl
  | cleanup v outcome =>
    have hv := hrun.visit v (by simp [hstage, Stage.visit])
    simp only
    split_ifs
    · exact hstays v _ hv rfl
    · exact hleaves _ rfl
  | ended => exact h

theorem WedgeInv.step (h : WedgeInv p) (e : WedgeEvent) : WedgeInv (wedgeStep p e) := by
  cases e with
  | resume r w => exact h.resumeRun r w
  | cancel r => exact h.goTo (by simp [Stage.visit])

theorem wedgeInv_initial : WedgeInv {} := by
  refine ⟨fun _ => rfl, trivial, fun r => ⟨?_, ?_, ?_⟩⟩ <;> simp [Stage.visit]

end Invariant

/-! ### Runs of the process -/

/-- **Every act fits**, however the runs of the process overlap. -/
theorem fits_always (events : List WedgeEvent) : Checked Fits (run wedgeStep {} events).log := by
  have hinv : WedgeInv (run wedgeStep {} events) :=
    run_invariant (I := WedgeInv) (fun _ e h => h.step e) wedgeInv_initial events
  exact hinv.checked

/-! ### Dials of an excluded server -/

/-- A server with two protocols, without a name or an address. -/
def someServer : AutoModeCandidate :=
  { hostname := none, ip := none, speed := 0, ping := 0, sessions := 0, score := 0,
    seTcpPort := 443, openVpnTcpPort := 1194, openVpnConfigAvailable := true }

/-- The run `r` visits the server, and what it dials times out. -/
def timeoutRun (r : ℕ) : List WedgeEvent :=
  [.resume r {}, .resume r { server := some someServer }, .resume r {}, .resume r {}, .resume r {}]

/-- The second run in which it times out goes on with its next protocol. -/
def nextProtocolRun : List WedgeEvent := timeoutRun 0 ++ timeoutRun 1 ++ [.resume 1 {}]

/-- The third run takes the fast path to it. -/
def fastPathRun : List WedgeEvent :=
  timeoutRun 0 ++ timeoutRun 1 ++ [.resume 2 { fastTarget := some someServer }]

/-- An excluded server is dialled by the visit that excluded it, and by the fast path. -/
theorem excluded_dialled :
    ¬ Checked NeverDialled (run wedgeStep {} nextProtocolRun).log ∧
      ¬ Checked NeverDialled (run wedgeStep {} fastPathRun).log :=
  ⟨by decide, by decide⟩

end SoftEther.AutoMode
