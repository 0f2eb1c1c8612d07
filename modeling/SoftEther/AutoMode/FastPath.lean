import SoftEther.AutoMode.Controller

namespace SoftEther.AutoMode

open Lib Controller

/-!
# The fast path and the walk (`runAutoMode`)

The attempt loop is written twice: once for the known-good server that a run dials first, and once
for the servers of the walk. The same attempt is dialled at `fastConnect` and at `connect`.

* `RunPoint.pending`, `settle` — the run goes on until the attempt is decided;
* `Consequence` — what the attempt comes to before anything else is dialled;
* `LateTunnel` — the tunnel is up although the awaited outcome is not `TUNNEL_UP`;
* `fastPath_agrees_iff` — exactly when the two loops agree.
-/

/-! ### An attempt -/

/-- The points after the dial at which the run has not decided what to make of the attempt. -/
def RunPoint.pending : RunPoint → Bool
  | fastAwait | awaitOutcome _ | busyRecord _ | permissionRecord | permissionDisconnect => true
  | _ => false

section Attempt

variable (cfg : Config) (w : Reading) (cancelled : Bool)

/-- The run goes on while the attempt is pending, for a number of steps. -/
def settle : ℕ → Controller × Option RunPoint → Controller × Option RunPoint
  | n + 1, (c, some p) =>
    if p.pending then settle n (runFrom cfg w cancelled c p) else (c, some p)
  | _, x => x

/-- The attempt that is dialled at the point `p`. Before the consequence is known, the run reads
each of `w.connect`, `w.outcome` and `w.isOwnTunnelEstablished` once at most. -/
def attemptFrom (p : RunPoint) (c : Controller) : Controller × Option RunPoint :=
  settle cfg w cancelled 2 (runFrom cfg w cancelled (c.setState .Connecting) p)

end Attempt

/-- What an attempt comes to: its tunnel is published, the run stops, or the run goes on to
whatever it does next. -/
inductive Consequence
  | published
  | stopped
  | goesOn
  deriving DecidableEq, Repr

/-- What a caller of the path sees of its end. -/
def consequence (x : Controller × Option RunPoint) : Consequence :=
  if x.1.state = .Connected then .published
  else if x.2 = none ∧ x.1.state = .Error .ERROR_VPN_PERMISSION then .stopped
  else .goesOn

/-- The own tunnel is up once the attempt is decided, although the outcome was another one. -/
def LateTunnel (w : Reading) (c : Controller) : Prop :=
  w.connect = .returned ∧ c.skipRequested = false ∧
    w.outcome ∈ [.NATIVE_BUSY, .TIMED_OUT, .NATIVE_ERROR] ∧ w.isOwnTunnelEstablished = true

instance (w : Reading) (c : Controller) : Decidable (LateTunnel w c) :=
  inferInstanceAs (Decidable (_ ∧ _ ∧ _ ∧ _))

/-- The outcome was awaited and is the tunnel. -/
def TunnelUp (w : Reading) (c : Controller) : Prop :=
  w.connect = .returned ∧ c.skipRequested = false ∧ w.outcome = .TUNNEL_UP

instance (w : Reading) (c : Controller) : Decidable (TunnelUp w c) :=
  inferInstanceAs (Decidable (_ ∧ _ ∧ _))

/-! ### The two loops -/

section Loops

variable {cfg : Config} {w : Reading} {cancelled cancelled' skipped : Bool} {c : Controller}
  {n : ℕ}

/-- A tunnel that is published, with or without a history to record it in. -/
theorem consequence_published :
    consequence (settle cfg w cancelled n (publishConnected cfg c)) = .published := by
  unfold publishConnected record
  cases cfg.historySink with
  | true => cases n <;> rfl
  | false => cases n <;> rfl

/-- What a run does when it has given an attempt up. -/
theorem consequence_walk (hc : c.state = .Connecting) :
    consequence (settle cfg w cancelled n (walk w cancelled' c)) = .goesOn := by
  unfold walk
  split_ifs
  · cases n <;> rfl
  · cases n <;> simp [settle, consequence, hc]
  · unfold scheduleNetworkRetry
    split
    · cases n <;> rfl
    · cases n <;> rfl
  · cases n <;> rfl

theorem consequence_nextProtocol (hc : c.state = .Connecting) :
    consequence (settle cfg w cancelled n (nextProtocol cfg w cancelled' skipped c)) =
      .goesOn := by
  unfold nextProtocol afterProtocols record
  split_ifs
  · exact consequence_walk hc
  · cases n <;> simp [settle, consequence, hc, RunPoint.pending]
  · exact consequence_walk hc
  · cases n <;> simp [settle, consequence, hc]
  · cases n <;> rfl

/-- The run is at a point at which the attempt is given up. -/
theorem consequence_gaveUp {p : RunPoint} (hc : c.state = .Connecting) (hp : p.pending = false) :
    consequence (settle cfg w cancelled n (c, some p)) = .goesOn := by
  cases n with
  | zero => simp [settle, consequence, hc]
  | succ n => simp [settle, hp, consequence, hc]

/-- **The attempt on the fast path.** -/
theorem fastPath_consequence :
    consequence (attemptFrom cfg w cancelled .fastConnect c) =
      if TunnelUp w c then .published else .goesOn := by
  unfold attemptFrom
  cases hconnect : w.connect with
  | returned =>
    simp only [runFrom, hconnect, settle, RunPoint.pending, if_true]
    by_cases hup : c.skipRequested = false ∧ w.outcome = .TUNNEL_UP
    · rw [if_pos (by simp [setState, hup.1, hup.2]), if_pos ⟨hconnect, hup⟩]
      exact consequence_published
    · rw [if_neg (by simpa [setState] using hup), if_neg (fun h : TunnelUp w c => hup h.2)]
      exact consequence_gaveUp rfl rfl
  | VpnPermissionMissingException =>
    rw [if_neg (by simp [TunnelUp, hconnect])]
    simp only [runFrom, hconnect]
    exact consequence_gaveUp rfl rfl
  | threw =>
    rw [if_neg (by simp [TunnelUp, hconnect])]
    simp only [runFrom, hconnect]
    exact consequence_gaveUp rfl rfl

/-- The walk's reading of an attempt that was not skipped and has no tunnel yet. -/
theorem consequence_judged {outcome : AttemptOutcome} (hc : c.state = .Connecting) :
    consequence (settle cfg w cancelled n (judged cfg w skipped outcome c)) =
      if w.isOwnTunnelEstablished = true then .published else .goesOn := by
  unfold judged
  by_cases hown : w.isOwnTunnelEstablished = true
  · rw [if_pos hown, if_pos hown]
    exact consequence_published
  · rw [if_neg hown, if_neg hown]
    unfold record
    cases outcome with
    | TIMED_OUT =>
      dsimp only
      split
      · exact consequence_gaveUp hc rfl
      · exact consequence_gaveUp hc rfl
    | NATIVE_ERROR =>
      dsimp only
      split
      · exact consequence_gaveUp hc rfl
      · exact consequence_gaveUp hc rfl
    | _ =>
      dsimp only
      exact consequence_gaveUp hc rfl

theorem consequence_busy (hc : c.state = .Connecting) :
    consequence (settle cfg w cancelled n (busy cfg w skipped c)) =
      if w.isOwnTunnelEstablished = true then .published else .goesOn := by
  unfold busy
  by_cases hown : w.isOwnTunnelEstablished = true
  · rw [if_pos hown, if_pos hown]
    exact consequence_published
  · rw [if_neg hown, if_neg hown]
    exact consequence_gaveUp hc rfl

/-- The walk's reading of an attempt whose outcome is known. -/
theorem consequence_attempted (hc : c.state = .Connecting) (hconnect : w.connect = .returned) :
    consequence (settle cfg w cancelled 1 (attempted cfg w skipped c)) =
      if TunnelUp w c ∨ LateTunnel w c then .published else .goesOn := by
  unfold attempted
  cases hskip : c.skipRequested with
  | true =>
    rw [if_pos rfl, if_neg (by simp [TunnelUp, LateTunnel, hskip])]
    exact consequence_gaveUp hc rfl
  | false =>
    rw [if_neg nofun]
    cases houtcome : w.outcome with
    | TUNNEL_UP =>
      rw [if_pos (.inl ⟨hconnect, hskip, houtcome⟩)]
      exact consequence_published
    | MISSING_CONFIG =>
      rw [if_neg (by simp [TunnelUp, LateTunnel, houtcome])]
      dsimp only [record]
      split
      · exact consequence_gaveUp hc rfl
      · exact consequence_nextProtocol hc
    | NATIVE_BUSY =>
      have hlate : TunnelUp w c ∨ LateTunnel w c ↔ w.isOwnTunnelEstablished = true := by
        simp [TunnelUp, LateTunnel, hconnect, hskip, houtcome]
      rw [if_congr hlate rfl rfl]
      dsimp only [record]
      split
      · -- The refusal is recorded first.
        show consequence (settle cfg w cancelled 0 (busy cfg w skipped c)) = _
        exact consequence_busy hc
      · exact consequence_busy hc
    | TIMED_OUT =>
      have hlate : TunnelUp w c ∨ LateTunnel w c ↔ w.isOwnTunnelEstablished = true := by
        simp [TunnelUp, LateTunnel, hconnect, hskip, houtcome]
      rw [if_congr hlate rfl rfl]
      exact consequence_judged hc
    | NATIVE_ERROR =>
      have hlate : TunnelUp w c ∨ LateTunnel w c ↔ w.isOwnTunnelEstablished = true := by
        simp [TunnelUp, LateTunnel, hconnect, hskip, houtcome]
      rw [if_congr hlate rfl rfl]
      exact consequence_judged hc

/-- **The attempt in the walk.** -/
theorem walk_consequence :
    consequence (attemptFrom cfg w cancelled (.connect skipped) c) =
      if w.connect = .VpnPermissionMissingException then .stopped
      else if TunnelUp w c ∨ LateTunnel w c then .published
      else .goesOn := by
  unfold attemptFrom
  cases hconnect : w.connect with
  | returned =>
    rw [if_neg nofun]
    simp only [runFrom, hconnect]
    exact consequence_attempted (c := c.setState .Connecting) rfl hconnect
  | VpnPermissionMissingException =>
    rw [if_pos rfl]
    simp only [runFrom, hconnect]
    unfold record
    split
    · rfl
    · rfl
  | threw =>
    rw [if_neg nofun, if_neg (by simp [TunnelUp, LateTunnel, hconnect])]
    simp only [runFrom, hconnect]
    exact consequence_gaveUp rfl rfl

/-- The fast path tears a late tunnel down. -/
theorem fastPath_late (h : LateTunnel w c) :
    (attemptFrom cfg w cancelled .fastConnect c).2 = some .fastDisconnect := by
  obtain ⟨hconnect, hskip, houtcome, -⟩ := h
  have hne : w.outcome ≠ .TUNNEL_UP := by
    rintro heq
    simp [heq] at houtcome
  simp [attemptFrom, runFrom, hconnect, settle, RunPoint.pending, setState, hskip, hne]

/-- **The two loops agree on an attempt** exactly when the permission is there and the tunnel of
the attempt does not come up late. -/
theorem fastPath_agrees_iff (cfg : Config) (w : Reading) (cancelled skipped : Bool)
    (c : Controller) :
    consequence (attemptFrom cfg w cancelled .fastConnect c) =
        consequence (attemptFrom cfg w cancelled (.connect skipped) c) ↔
      w.connect ≠ .VpnPermissionMissingException ∧ ¬ LateTunnel w c := by
  rw [fastPath_consequence, walk_consequence]
  by_cases hpermission : w.connect = .VpnPermissionMissingException
  · rw [if_neg (by simp [TunnelUp, hpermission]), if_pos hpermission]
    simp [hpermission]
  · rw [if_neg hpermission]
    by_cases hup : TunnelUp w c
    · have hlate : ¬ LateTunnel w c := by
        rintro ⟨-, -, houtcome, -⟩
        simp [hup.2.2] at houtcome
      simp [hup, hlate, hpermission]
    · by_cases hlate : LateTunnel w c
      · simp [hup, hlate]
      · simp [hup, hlate, hpermission]

end Loops

/-! ### Where they part -/

/-- The permission is missing. The walk stops the run there; on the fast path the run goes on. -/
theorem fastPath_disagrees :
    ¬ ∀ (cfg : Config) (w : Reading) (cancelled skipped : Bool) (c : Controller),
      consequence (attemptFrom cfg w cancelled .fastConnect c) =
        consequence (attemptFrom cfg w cancelled (.connect skipped) c) := by
  intro h
  have hsame := h {} { connect := .VpnPermissionMissingException } false false {}
  revert hsame
  decide

end SoftEther.AutoMode
