import Mathlib.Algebra.Order.Ring.Int
import SoftEther.Tracker.Ledger

namespace SoftEther.Tracker

open Lib VpnStackLedger

/-!
# The producers of the tracker (`GlobalVpnTracker`)

What the stacks and the controller report to the tracker, and the event each report becomes. A
report that leaves out a field stands for the field of the published state.

* `GlobalVpnTracker` — the live stacks, the published state and the time of the connection;
* `updateState` — an event is folded in and its verdict published;
* `onSoftEtherStateChanged`, `openVpnStateChanged`, `sstpListener`, `reportConnecting`,
  `reportDisconnecting` — the producers;
* `Report`, `report` — what can be reported, and one report;
* `report_connects`, `report_attempts`, `report_closes`, `report_disconnecting`, `report_nothing` —
  the event that a report becomes, if it becomes one;
* `Reported` — the tracker with what has been reported to it.
-/

/-! ### The tracker -/

/-- `ledger` is `liveStacks` and `_vpnState`. -/
structure GlobalVpnTracker where
  ledger : Stacks := {}
  connectedAtMsValue : ℤ := 0
  currentTimeMillis : ℤ := 0
  deriving DecidableEq, Repr

/-- The published state. -/
abbrev GlobalVpnTracker.vpnState (t : GlobalVpnTracker) : GlobalVpnState := t.ledger.current

namespace GlobalVpnTracker

def currentStatus (t : GlobalVpnTracker) : VpnConnectionStatus := t.vpnState.status

def isActiveOrBusy (t : GlobalVpnTracker) : Bool := t.currentStatus.isActiveOrBusy

/-- The anchor of the connection, after `published` has been published. -/
def anchor (t : GlobalVpnTracker) (published : GlobalVpnState) : ℤ :=
  match published.status with
  | .CONNECTED => if t.connectedAtMsValue = 0 then t.currentTimeMillis else t.connectedAtMsValue
  | .DISCONNECTED | .ERROR => 0
  | _ => t.connectedAtMsValue

/-- The arguments of `updateState` that its caller leaves out. -/
def defaults (t : GlobalVpnTracker) (status : VpnConnectionStatus) : VpnStackEvent where
  status := status
  protocol := t.vpnState.protocol
  serverHost := t.vpnState.serverHost
  serverIp := t.vpnState.serverIp
  assignedIp := t.vpnState.assignedIp
  errorMessage := none

/-- `updateState`. -/
def updateState (t : GlobalVpnTracker) (event : VpnStackEvent) : GlobalVpnTracker :=
  { t with
    ledger := t.ledger.fold event
    connectedAtMsValue :=
      match (reconcile t.ledger.live t.vpnState event).publish with
      | some published => t.anchor published
      | none => t.connectedAtMsValue }

end GlobalVpnTracker

/-! ### The producers -/

/-- The states of `SoftEtherVpnService`. -/
inductive SoftEtherState
  | STATE_CONNECTED
  | STATE_DISCONNECTED
  | STATE_ERROR
  | STATE_CONNECTING
  | STATE_TLS_HANDSHAKE
  | STATE_PROTOCOL_HANDSHAKE
  | STATE_AUTHENTICATING
  | STATE_SESSION_SETUP
  | STATE_DISCONNECTING
  deriving DecidableEq, Repr

/-- The levels of OpenVPN. -/
inductive ConnectionStatus
  | LEVEL_CONNECTED
  | LEVEL_VPNPAUSED
  | LEVEL_CONNECTING_SERVER_REPLIED
  | LEVEL_CONNECTING_NO_SERVER_REPLY_YET
  | LEVEL_NONETWORK
  | LEVEL_NOTCONNECTED
  | LEVEL_START
  | LEVEL_AUTH_FAILED
  | LEVEL_WAITING_FOR_USER_INPUT
  | UNKNOWN_LEVEL
  deriving DecidableEq, Repr

namespace GlobalVpnTracker

variable (t : GlobalVpnTracker)

def onSoftEtherStateChanged (state : SoftEtherState) (assignedIp : String) : GlobalVpnTracker :=
  match state with
  | .STATE_CONNECTED =>
    t.updateState { t.defaults .CONNECTED with
      protocol := some "SoftEther", assignedIp := some assignedIp }
  | .STATE_CONNECTING | .STATE_TLS_HANDSHAKE | .STATE_PROTOCOL_HANDSHAKE =>
    t.updateState { t.defaults .CONNECTING with protocol := some "SoftEther" }
  | .STATE_DISCONNECTED =>
    t.updateState { t.defaults .DISCONNECTED with protocol := some "SoftEther" }
  | .STATE_ERROR =>
    t.updateState { t.defaults .ERROR with
      protocol := some "SoftEther", errorMessage := some "SoftEther error" }
  | _ => t

/-- `updateState` of `VpnStatus.StateListener`. -/
def openVpnStateChanged (status : ConnectionStatus) : GlobalVpnTracker :=
  match status with
  | .LEVEL_CONNECTED => t.updateState { t.defaults .CONNECTED with protocol := some "OpenVPN" }
  | .LEVEL_CONNECTING_NO_SERVER_REPLY_YET | .LEVEL_CONNECTING_SERVER_REPLIED | .LEVEL_START
  | .LEVEL_WAITING_FOR_USER_INPUT =>
    t.updateState { t.defaults .CONNECTING with protocol := some "OpenVPN" }
  | .LEVEL_NOTCONNECTED =>
    t.updateState { t.defaults .DISCONNECTED with protocol := some "OpenVPN" }
  | .LEVEL_AUTH_FAILED =>
    t.updateState { t.defaults .ERROR with
      protocol := some "OpenVPN", errorMessage := some "Auth failed" }
  | _ => t

/-- `sstpListener`, for the key `ROOT_STATE`; the preferences are read when it is called. -/
def sstpListener (rootState : Bool) (homeConnectedIp : String) : GlobalVpnTracker :=
  if rootState then
    t.updateState { t.defaults .CONNECTED with
      protocol := some "SSTP", serverIp := some homeConnectedIp }
  else if t.vpnState.protocol = some "SSTP" ∧ t.vpnState.status = .CONNECTED then
    t.updateState (t.defaults .DISCONNECTED)
  else t

def reportConnecting (protocol : String) (serverHost serverIp : Option String) :
    GlobalVpnTracker :=
  if t.currentStatus = .CONNECTED then t
  else t.updateState { t.defaults .CONNECTING with
    protocol := some protocol, serverHost := serverHost, serverIp := serverIp }

def reportDisconnecting : GlobalVpnTracker := t.updateState (t.defaults .DISCONNECTING)

end GlobalVpnTracker

/-- What is reported to the tracker; and the passing of time. -/
inductive Report
  | softEther (state : SoftEtherState) (assignedIp : String)
  | openVpn (status : ConnectionStatus)
  | sstp (rootState : Bool) (homeConnectedIp : String)
  | connecting (protocol : String) (serverHost serverIp : Option String)
  | disconnecting
  | tick (ms : ℕ)
  deriving DecidableEq, Repr

/-- One report. -/
def GlobalVpnTracker.report (t : GlobalVpnTracker) : Report → GlobalVpnTracker
  | .softEther state assignedIp => t.onSoftEtherStateChanged state assignedIp
  | .openVpn status => t.openVpnStateChanged status
  | .sstp rootState homeConnectedIp => t.sstpListener rootState homeConnectedIp
  | .connecting protocol serverHost serverIp => t.reportConnecting protocol serverHost serverIp
  | .disconnecting => t.reportDisconnecting
  | .tick ms => { t with currentTimeMillis := t.currentTimeMillis + ms }

/-! ### Reports as events -/

namespace Report

/-- The stack that a report says is up. -/
def connects : Report → Option String
  | .softEther .STATE_CONNECTED _ => some "SoftEther"
  | .openVpn .LEVEL_CONNECTED => some "OpenVPN"
  | .sstp true _ => some "SSTP"
  | _ => none

/-- The stack that a report says is being connected. -/
def attempts : Report → Option String
  | .softEther .STATE_CONNECTING _ | .softEther .STATE_TLS_HANDSHAKE _
  | .softEther .STATE_PROTOCOL_HANDSHAKE _ => some "SoftEther"
  | .openVpn .LEVEL_CONNECTING_NO_SERVER_REPLY_YET | .openVpn .LEVEL_CONNECTING_SERVER_REPLIED
  | .openVpn .LEVEL_START | .openVpn .LEVEL_WAITING_FOR_USER_INPUT => some "OpenVPN"
  | .connecting protocol _ _ => some protocol
  | _ => none

/-- The stack that a report says is gone. -/
def closes : Report → Option String
  | .softEther .STATE_DISCONNECTED _ | .softEther .STATE_ERROR _ => some "SoftEther"
  | .openVpn .LEVEL_NOTCONNECTED | .openVpn .LEVEL_AUTH_FAILED => some "OpenVPN"
  | .sstp false _ => some "SSTP"
  | _ => none

end Report

/-- The three fields of an identity. -/
inductive IdentityField
  | serverHost
  | serverIp
  | assignedIp
  deriving DecidableEq, Repr

/-- A field of the published state. -/
def GlobalVpnState.get (x : GlobalVpnState) : IdentityField → Option String
  | .serverHost => x.serverHost
  | .serverIp => x.serverIp
  | .assignedIp => x.assignedIp

/-- A field of a report. -/
def VpnStackReport.get (x : VpnStackReport) : IdentityField → Option String
  | .serverHost => x.serverHost
  | .serverIp => x.serverIp
  | .assignedIp => x.assignedIp

/-- A field of an event. -/
def VpnStackEvent.get (x : VpnStackEvent) : IdentityField → Option String
  | .serverHost => x.serverHost
  | .serverIp => x.serverIp
  | .assignedIp => x.assignedIp

/-- What a report says of the identity of stack `p`. -/
def Report.supplied : Report → String → IdentityField → Option String
  | .softEther _ assignedIp, p, .assignedIp => if p = "SoftEther" then some assignedIp else none
  | .sstp true homeConnectedIp, p, .serverIp => if p = "SSTP" then some homeConnectedIp else none
  | .connecting q serverHost _, p, .serverHost => if p = q then serverHost else none
  | .connecting q _ serverIp, p, .serverIp => if p = q then serverIp else none
  | _, _, _ => none

section Reports

variable (t : GlobalVpnTracker) (r : Report)

/-- **A stack that is up.** What the report does not say is taken from the published state. -/
theorem report_connects {p : String} (h : r.connects = some p) :
    ∃ event : VpnStackEvent, (t.report r).ledger = t.ledger.fold event ∧
      event.protocol = some p ∧ event.status = .CONNECTED ∧
      ∀ f, event.get f = (r.supplied p f <|> t.vpnState.get f) := by
  unfold Report.connects at h
  split at h <;> cases h
  · exact ⟨_, rfl, rfl, rfl, fun f => by cases f <;> rfl⟩
  · exact ⟨_, rfl, rfl, rfl, fun f => by cases f <;> rfl⟩
  · exact ⟨_, rfl, rfl, rfl, fun f => by cases f <;> rfl⟩

/-- **A stack that is being connected.** When a tunnel is shown, an attempt of the controller is
    not. -/
theorem report_attempts {p : String} (h : r.attempts = some p) :
    (t.report r).ledger = t.ledger ∧ t.vpnState.status = .CONNECTED ∨
      ∃ event : VpnStackEvent, (t.report r).ledger = t.ledger.fold event ∧
        event.protocol = some p ∧ event.status = .CONNECTING := by
  cases r with
  | connecting protocol serverHost serverIp =>
    cases h
    by_cases hup : t.currentStatus = .CONNECTED
    · left
      exact ⟨by simp [GlobalVpnTracker.report, GlobalVpnTracker.reportConnecting, hup], hup⟩
    · right
      refine ⟨{ t.defaults .CONNECTING with
        protocol := some p, serverHost := serverHost, serverIp := serverIp }, ?_, rfl, rfl⟩
      simp [GlobalVpnTracker.report, GlobalVpnTracker.reportConnecting, hup,
        GlobalVpnTracker.updateState]
  | softEther state assignedIp =>
    cases state <;> first
      | (cases h; done)
      | (cases h; exact .inr ⟨_, rfl, rfl, rfl⟩)
  | openVpn status =>
    cases status <;> first
      | (cases h; done)
      | (cases h; exact .inr ⟨_, rfl, rfl, rfl⟩)
  | _ => cases h

/-- The tunnel of SSTP is shown. -/
def SstpShown (t : GlobalVpnTracker) : Prop :=
  t.vpnState.protocol = some "SSTP" ∧ t.vpnState.status = .CONNECTED

instance (t : GlobalVpnTracker) : Decidable (SstpShown t) := inferInstanceAs (Decidable (_ ∧ _))

/-- **A stack that is gone.** SSTP is heard only while its tunnel is shown. -/
theorem report_closes {p : String} (h : r.closes = some p) :
    (∀ homeConnectedIp, r = .sstp false homeConnectedIp → SstpShown t) ∧
        (∃ event : VpnStackEvent, (t.report r).ledger = t.ledger.fold event ∧
          event.protocol = some p ∧ event.status.isTerminal = true) ∨
      (t.report r).ledger = t.ledger ∧ ∃ homeConnectedIp, r = .sstp false homeConnectedIp ∧
        ¬ SstpShown t := by
  unfold Report.closes at h
  split at h <;> cases h
  case h_5 homeConnectedIp =>
    by_cases hshown : SstpShown t
    · refine .inl ⟨fun _ _ => hshown, t.defaults .DISCONNECTED, ?_, hshown.1, rfl⟩
      simp [GlobalVpnTracker.report, GlobalVpnTracker.sstpListener, hshown.1, hshown.2,
        GlobalVpnTracker.updateState]
    · right
      refine ⟨?_, homeConnectedIp, rfl, hshown⟩
      unfold SstpShown at hshown
      simp only [GlobalVpnTracker.report, GlobalVpnTracker.sstpListener, hshown, if_false]
      rfl
  all_goals
    refine .inl ⟨?_, _, rfl, rfl, rfl⟩
    intro _ hr
    cases hr

/-- A teardown of whatever is shown. -/
theorem report_disconnecting :
    (t.report .disconnecting).ledger = t.ledger.fold (t.defaults .DISCONNECTING) := rfl

theorem report_nothing (hconnects : r.connects = none) (hattempts : r.attempts = none)
    (hcloses : r.closes = none) (hne : r ≠ .disconnecting) : (t.report r).ledger = t.ledger := by
  cases r with
  | softEther state assignedIp =>
    cases state <;> first
      | rfl
      | (cases hconnects; done)
      | (cases hattempts; done)
      | cases hcloses
  | openVpn status =>
    cases status <;> first
      | rfl
      | (cases hconnects; done)
      | (cases hattempts; done)
      | cases hcloses
  | sstp rootState homeConnectedIp =>
    cases rootState <;> first
      | (cases hconnects; done)
      | cases hcloses
  | connecting protocol serverHost serverIp => cases hattempts
  | disconnecting => exact absurd rfl hne
  | tick ms => rfl

/-- A report that no stack is up becomes no `CONNECTED` event. -/
theorem report_folds (h : r.connects = none) :
    (t.report r).ledger = t.ledger ∨ ∃ event : VpnStackEvent,
      (t.report r).ledger = t.ledger.fold event ∧ event.status ≠ .CONNECTED := by
  rcases hattempts : r.attempts with _ | p
  · rcases hcloses : r.closes with _ | p
    · by_cases hr : r = .disconnecting
      · subst hr
        exact .inr ⟨_, report_disconnecting t, by simp [GlobalVpnTracker.defaults]⟩
      · exact .inl (report_nothing t r h hattempts hcloses hr)
    · rcases report_closes t r hcloses with ⟨_, event, hfold, _, hstatus⟩ | ⟨hsame, _⟩
      · refine .inr ⟨event, hfold, ?_⟩
        intro heq
        rw [heq] at hstatus
        cases hstatus
      · exact .inl hsame
  · rcases report_attempts t r hattempts with ⟨hsame, _⟩ | ⟨event, hfold, _, hstatus⟩
    · exact .inl hsame
    · exact .inr ⟨event, hfold, by simp [hstatus]⟩

end Reports

/-! ### What has been reported -/

/-- The tracker, and what has been reported to it, the latest first. -/
structure Reported where
  tracker : GlobalVpnTracker := {}
  past : List Report := []
  deriving DecidableEq, Repr

/-- One report. -/
def Reported.step (s : Reported) (r : Report) : Reported := ⟨s.tracker.report r, r :: s.past⟩

/-- A report of stack `p` has supplied `v` for field `f`. -/
def Supplied (past : List Report) (p : String) (f : IdentityField) (v : String) : Prop :=
  ∃ r ∈ past, r.supplied p f = some v

/-- The last report about stack `p` that says anything of its being up or gone does not say that
    it is gone. -/
def outstanding : List Report → String → Bool
  | [], _ => false
  | r :: past, p =>
    if r.connects = some p ∨ r.attempts = some p then true
    else if r.closes = some p then false
    else outstanding past p

end SoftEther.Tracker
