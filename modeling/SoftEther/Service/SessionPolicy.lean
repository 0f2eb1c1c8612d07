import SoftEther.Controller.Flows

namespace SoftEther.Service

open SoftEther.Controller (ConnectionState)

/-!
# The lifecycle policy of the service (`SoftEtherSessionPolicy.kt`)

* `SessionPolicy` — the teardown latch, the two flags and the identity of the session;
* `SessionPolicy.decideStart`, `SessionPolicy.beginTeardown` — the two gates;
* `SessionPolicy.shouldDeliver` — whether a state may be published.
-/

/-- `SoftEtherSessionPolicy`. -/
structure SessionPolicy where
  isStopping : Bool := false
  isRunning : Bool := false
  wasConnected : Bool := false
  sessionGeneration : Int := 0
  deriving DecidableEq, Repr

/-- `StartDecision`. -/
inductive StartDecision
  | ACCEPT
  | REFUSE_CONNECTED
  | REFUSE_CONNECTING
  | REFUSE_TEARDOWN
  deriving DecidableEq, Repr

namespace SessionPolicy

/-- `onSessionStart`; the generation after it is what it returns. -/
def onSessionStart (p : SessionPolicy) : SessionPolicy where
  isStopping := false
  isRunning := false
  wasConnected := false
  sessionGeneration := p.sessionGeneration + 1

def isCurrentSession (p : SessionPolicy) (generation : Int) : Bool :=
  generation = p.sessionGeneration

def onRunning (p : SessionPolicy) : SessionPolicy := { p with isRunning := true }

def onConnectedDelivered (p : SessionPolicy) : SessionPolicy := { p with wasConnected := true }

def onConnectionLost (p : SessionPolicy) : SessionPolicy := { p with wasConnected := false }

def decideStart (p : SessionPolicy) (resourcesLive : Bool) : StartDecision :=
  if !resourcesLive then .ACCEPT
  else if p.isStopping then .REFUSE_TEARDOWN
  else if p.isRunning then .REFUSE_CONNECTED
  else .REFUSE_CONNECTING

/-- `shouldTearDownOnError`. -/
def shouldTearDownOnError (p : SessionPolicy) (generation : Int) : Bool :=
  p.isCurrentSession generation

/-- `beginTeardown`, and whether the caller must run the teardown. -/
def beginTeardown (p : SessionPolicy) (resourcesLive : Bool) : SessionPolicy × Bool :=
  if p.isStopping && !resourcesLive then (p, false)
  else ({ p with isStopping := true, isRunning := false }, true)

/-- `shouldDeliver`: nothing is delivered while the session is tearing down. -/
def shouldDeliver (p : SessionPolicy) (_state : ConnectionState) : Bool := !p.isStopping

@[simp] theorem onSessionStart_isStopping (p : SessionPolicy) :
    p.onSessionStart.isStopping = false := rfl

@[simp] theorem onSessionStart_generation (p : SessionPolicy) :
    p.onSessionStart.sessionGeneration = p.sessionGeneration + 1 := rfl

@[simp] theorem beginTeardown_generation (p : SessionPolicy) (live : Bool) :
    (p.beginTeardown live).1.sessionGeneration = p.sessionGeneration := by
  rw [beginTeardown]
  split_ifs <;> rfl

/-- **A teardown request leaves the latch set**, whether it runs or is a repetition. -/
@[simp] theorem beginTeardown_isStopping (p : SessionPolicy) (live : Bool) :
    (p.beginTeardown live).1.isStopping = true := by
  rw [beginTeardown]
  split_ifs with h
  · rw [Bool.and_eq_true] at h
    exact h.1
  · rfl

/-- With something live a teardown always runs. -/
@[simp] theorem beginTeardown_live (p : SessionPolicy) : (p.beginTeardown true).2 = true := by
  simp [beginTeardown]

/-- A start is accepted exactly when nothing is live. -/
@[simp] theorem decideStart_eq_accept (p : SessionPolicy) (live : Bool) :
    p.decideStart live = .ACCEPT ↔ live = false := by
  rw [decideStart]
  split_ifs <;> simp_all

end SessionPolicy

end SoftEther.Service
