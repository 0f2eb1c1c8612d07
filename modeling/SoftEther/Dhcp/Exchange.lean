import SoftEther.Dhcp.Wait

namespace SoftEther.Dhcp

open Lib SoftEther.Packet

/-!
# A DHCP exchange

`softether_do_dhcp` sends a DISCOVER, waits for the OFFER, sends a REQUEST and waits for the ACK, at
most three times.  All waits write to one result, which is cleared once, at the start.

* `Phase`, `Exchange`, `exchangeStep` — the exchange, step by step; a step of a wait is a turn of
  its loop;
* `examined` — the frame a step hands to the parser;
* `FromAck` — when the exchange has succeeded, every field is the one the ACK carries, or empty;
* `RejectsCleanly` — a frame that is rejected leaves the lease as it was;
* `Clean` — the condition on a frame and the lease before it;
* `provenance_iff` — a run keeps both promises exactly when every frame it examines is clean.
-/

abbrev DHCP_TIMEOUT_MS : ℤ := 5000
abbrev DHCP_MAX_RETRIES : ℕ := 3

/-- The timeout of both waits. -/
def dhcpTimeout : Timeout := ⟨DHCP_TIMEOUT_MS, by decide⟩

/-! ### Steps -/

/-- Where an exchange is: at the head of the loop, in a wait, before the REQUEST, or at its end. -/
inductive Phase
  | attempt
  | awaitOffer
  | request
  | awaitAck
  | returned (rc : ℤ)
  deriving DecidableEq

/-- The state of an exchange.  `sent` are the frames that went out, `accepted` is the last frame
    that a wait returned for. -/
structure Exchange where
  phase : Phase
  retry : ℕ
  wait : Wait
  sent : List (List UInt8)
  accepted : List UInt8

/-- What a step meets: the cancel flag, the identification of an IP packet, whether a frame is sent,
    and a turn of a wait. -/
structure Env where
  abort : Bool
  ipId : UInt8 × UInt8
  sendOk : Bool
  pass : Pass

/-- `softether_do_dhcp` up to the loop, on the result the caller passes. -/
def exchangeStart (connected : Bool) (queue : List QueuedFrame) (result : DhcpResult) :
    Exchange where
  phase := if connected then .attempt else .returned (-1)
  retry := 0
  wait := ⟨0, queue, ⟨if connected then .zero else result, 0⟩⟩
  sent := []
  accepted := []

/-- Build a frame, send it and go on to a wait. -/
def sendAndWait (client : Client) (x : Exchange) (env : Env) (msgType requestedIp serverId : ℕ)
    (next : Phase) : Exchange :=
  match buildDhcpFrame DHCP_MAX_FRAME client env.ipId msgType requestedIp serverId with
  | none => { x with phase := .returned (-1) }
  | some frame =>
    if !env.sendOk then { x with phase := .returned (-1) }
    else
      { x with
        phase := next
        sent := x.sent ++ [frame]
        wait := { x.wait with elapsed := 0 } }

/-- The frame a step hands to the parser. -/
def examined (x : Exchange) (env : Env) : Option (List UInt8) :=
  if x.phase = .awaitOffer ∨ x.phase = .awaitAck then
    if x.wait.elapsed < dhcpTimeout.ms then
      match (nextFrame x.wait.queue env.pass).1 with
      | .frame bytes => some bytes
      | _ => none
    else none
  else none

/-- After the first wait: only an OFFER goes on. -/
def afterOffer (x : Exchange) (msgType : ℤ) : Exchange :=
  if msgType < 0 then { x with phase := .returned (-1) }
  else if msgType ≠ DHCP_OFFER then { x with phase := .attempt, retry := x.retry + 1 }
  else { x with phase := .request }

/-- After the second wait. -/
def afterAck (x : Exchange) (msgType : ℤ) : Exchange :=
  if msgType < 0 then { x with phase := .returned (-1) }
  else if msgType = DHCP_ACK then
    { x with
      phase := .returned 0
      wait := { x.wait with lease := { x.wait.lease with result.success := true } } }
  else if msgType = DHCP_NAK then { x with phase := .returned (-1) }
  else { x with phase := .attempt, retry := x.retry + 1 }

/-- A turn of a wait, and what follows when it returns. -/
def waitStep (client : Client) (x : Exchange) (env : Env) (after : Exchange → ℤ → Exchange) :
    Exchange :=
  match waitTurn client dhcpTimeout x.wait env.pass with
  | .again w => { x with wait := w }
  | .returned rc w => after { x with wait := w, accepted := (examined x env).getD x.accepted } rc

/-- A step of `softether_do_dhcp`. -/
def exchangeStep (client : Client) (x : Exchange) (env : Env) : Exchange :=
  match x.phase with
  | .attempt =>
    if ¬ x.retry < DHCP_MAX_RETRIES then { x with phase := .returned (-1) }
    else if env.abort then { x with phase := .returned (-1) }
    else sendAndWait client x env DHCP_DISCOVER 0 0 .awaitOffer
  | .awaitOffer => waitStep client x env afterOffer
  | .request =>
    sendAndWait client x env DHCP_REQUEST x.wait.lease.result.assignedIp x.wait.lease.serverId
      .awaitAck
  | .awaitAck => waitStep client x env afterAck
  | .returned _ => x

/-! ### What an exchange promises -/

/-- An exchange that has succeeded has every field from the ACK, and the others are empty. -/
def FromAck (client : Client) (x : Exchange) : Prop :=
  x.phase = .returned 0 →
    ∀ f : Field, f.get x.wait.lease = (carried client x.accepted f).getD 0

/-- A frame that the parser rejects leaves the lease unchanged. -/
def RejectsCleanly (client : Client) (x : Exchange) (env : Env) : Prop :=
  ∀ frame, examined x env = some frame → msgType client frame = 0 →
    (exchangeStep client x env).wait.lease = x.wait.lease

/-- **Provenance** in a run. -/
structure Provenance (client : Client) (x : Exchange) (envs : List Env) : Prop where
  fromAck : Always (exchangeStep client) (FromAck client) x envs
  rejects : Along (exchangeStep client) (RejectsCleanly client) x envs

/-- A frame that is rejected carries nothing that the lease does not have. -/
def CleanReject (client : Client) (x : Exchange) (env : Env) : Prop :=
  ∀ frame, examined x env = some frame → msgType client frame = 0 →
    ∀ f v, carried client frame f = some v → f.get x.wait.lease = v

/-- When the ACK comes, the fields it does not carry are empty. -/
def CleanAck (client : Client) (x : Exchange) (env : Env) : Prop :=
  x.phase = .awaitAck → ∀ frame, examined x env = some frame →
    msgType client frame = DHCP_ACK →
    ∀ f : Field, carried client frame f = none → f.get x.wait.lease = 0

/-- The frame of a step, if it examines one, is clean for the lease before it. -/
def Clean (client : Client) (x : Exchange) (env : Env) : Prop :=
  CleanReject client x env ∧ CleanAck client x env

/-! ### One step -/

variable {x : Exchange} {env : Env} {client : Client} {frame : List UInt8}

theorem step_awaitOffer (h : x.phase = .awaitOffer) :
    exchangeStep client x env = waitStep client x env afterOffer := by
  rw [exchangeStep, h]

theorem step_awaitAck (h : x.phase = .awaitAck) :
    exchangeStep client x env = waitStep client x env afterAck := by
  rw [exchangeStep, h]

theorem waitTurn_of_none (client : Client) (hphase : x.phase = .awaitOffer ∨ x.phase = .awaitAck)
    (h : examined x env = none) :
    ∃ w, w.lease = x.wait.lease ∧ (waitTurn client dhcpTimeout x.wait env.pass = .again w ∨
      ∃ rc ≤ 0, waitTurn client dhcpTimeout x.wait env.pass = .returned rc w) := by
  unfold examined at h
  rw [if_pos hphase] at h
  unfold waitTurn
  by_cases htime : x.wait.elapsed < dhcpTimeout.ms
  · rw [if_pos htime] at h ⊢
    unfold waitPass
    cases hnext : nextFrame x.wait.queue env.pass with
    | mk received queue =>
      rw [hnext] at h
      cases received with
      | idle =>
        exact ⟨⟨x.wait.elapsed + POLL_INTERVAL, queue, x.wait.lease⟩, rfl, .inl rfl⟩
      | failed =>
        exact ⟨⟨x.wait.elapsed, queue, x.wait.lease⟩, rfl, .inr ⟨-1, by decide, rfl⟩⟩
      | frame bytes => exact absurd h (by simp)
  · rw [if_neg htime]
    exact ⟨_, rfl, .inr ⟨0, le_refl 0, rfl⟩⟩

theorem waitTurn_of_frame (client : Client) (h : examined x env = some frame) :
    ∃ w, w.lease = (parseDhcpResponse client frame x.wait.lease).2 ∧
      waitTurn client dhcpTimeout x.wait env.pass =
        if msgType client frame > 0 then .returned (msgType client frame) w else .again w := by
  unfold examined at h
  split at h
  · split at h
    · rename_i htime
      unfold waitTurn waitPass
      rw [if_pos htime]
      cases hnext : nextFrame x.wait.queue env.pass with
      | mk received queue =>
        rw [hnext] at h
        cases received with
        | idle => exact absurd h (by simp)
        | failed => exact absurd h (by simp)
        | frame bytes =>
          obtain rfl := Option.some.inj h
          simp only [parseDhcpResponse_fst]
          exact ⟨⟨x.wait.elapsed, queue, (parseDhcpResponse client bytes x.wait.lease).2⟩, rfl, rfl⟩
    · exact absurd h (by simp)
  · exact absurd h (by simp)

theorem examined_phase (h : examined x env = some frame) :
    x.phase = .awaitOffer ∨ x.phase = .awaitAck := by
  unfold examined at h
  split at h
  · assumption
  · exact absurd h (by simp)

/-- A frame without a DHCP message for the client: the wait goes on, with the lease the parser
    left. -/
theorem step_rejected (h : examined x env = some frame) (htype : msgType client frame = 0) :
    (exchangeStep client x env).phase = x.phase ∧
      (exchangeStep client x env).wait.lease = (parseDhcpResponse client frame x.wait.lease).2 := by
  obtain ⟨w, hlease, hturn⟩ := waitTurn_of_frame client h
  rw [if_neg (by omega)] at hturn
  rcases examined_phase h with hphase | hphase
  · rw [step_awaitOffer hphase, waitStep, hturn]
    exact ⟨rfl, hlease⟩
  · rw [step_awaitAck hphase, waitStep, hturn]
    exact ⟨rfl, hlease⟩

theorem Field.get_success (f : Field) (l : Lease) :
    f.get { l with result.success := true } = f.get l := by
  cases f <;> rfl

/-- The ACK ends the exchange; it overwrites what it carries. -/
theorem step_ack (hphase : x.phase = .awaitAck) (h : examined x env = some frame)
    (htype : msgType client frame = DHCP_ACK) : (exchangeStep client x env).phase = .returned 0 ∧
      (exchangeStep client x env).accepted = frame ∧
      ∀ f : Field, f.get (exchangeStep client x env).wait.lease =
        (carried client frame f).getD (f.get x.wait.lease) := by
  obtain ⟨w, hlease, hturn⟩ := waitTurn_of_frame client h
  rw [htype, if_pos (by decide)] at hturn
  rw [step_awaitAck hphase, waitStep, hturn, h]
  refine ⟨rfl, rfl, fun f => ?_⟩
  rw [← parseDhcpResponse_get, ← hlease]
  exact f.get_success w.lease

theorem sendAndWait_phase (client : Client) (x : Exchange) (env : Env)
    (msgType requestedIp serverId : ℕ) (next : Phase) :
    (sendAndWait client x env msgType requestedIp serverId next).phase = .returned (-1) ∨
      (sendAndWait client x env msgType requestedIp serverId next).phase = next := by
  unfold sendAndWait
  split
  · exact .inl rfl
  · split
    · exact .inl rfl
    · exact .inr rfl

theorem afterOffer_phase (x : Exchange) (msgType : ℤ) :
    (afterOffer x msgType).phase ≠ .returned 0 := by
  unfold afterOffer
  split_ifs <;> simp

theorem afterAck_phase {msgType : ℤ} (h : (afterAck x msgType).phase = .returned 0) :
    msgType = DHCP_ACK := by
  unfold afterAck at h
  split_ifs at h with hneg hack hnak
  · exact absurd h (by simp)
  · exact hack
  · exact absurd h (by simp)

/-- Only an ACK in the second wait makes an exchange succeed. -/
theorem step_succeeded (h : (exchangeStep client x env).phase = .returned 0) :
    x.phase = .returned 0 ∨
      (x.phase = .awaitAck ∧ ∃ frame, examined x env = some frame ∧
        msgType client frame = DHCP_ACK) := by
  -- no other phase returns 0
  cases hphase : x.phase with
  | attempt =>
    rw [exchangeStep, hphase] at h
    simp only [] at h
    split_ifs at h with hretry habort
    · exact absurd h (by simp)
    · rcases sendAndWait_phase client x env DHCP_DISCOVER 0 0 .awaitOffer with hsent | hsent
      · exact absurd (hsent.symm.trans h) (by simp)
      · exact absurd (hsent.symm.trans h) (by simp)
    · exact absurd h (by simp)
  | awaitOffer =>
    rw [step_awaitOffer hphase, waitStep] at h
    split at h
    · rw [hphase] at h
      exact absurd h (by simp)
    · exact absurd h (afterOffer_phase _ _)
  | request =>
    rw [exchangeStep, hphase] at h
    rcases sendAndWait_phase client x env DHCP_REQUEST x.wait.lease.result.assignedIp
      x.wait.lease.serverId .awaitAck with hsent | hsent
    · exact absurd (hsent.symm.trans h) (by simp)
    · exact absurd (hsent.symm.trans h) (by simp)
  | awaitAck =>
    rw [step_awaitAck hphase, waitStep] at h
    refine .inr ⟨rfl, ?_⟩
    cases hframe : examined x env with
    | none =>
      obtain ⟨w, -, hagain | ⟨rc, hrc, hreturned⟩⟩ := waitTurn_of_none client (.inr hphase) hframe
      · rw [hagain] at h
        exact absurd (hphase.symm.trans h) (by simp)
      · rw [hreturned] at h
        have hack := afterAck_phase h
        rw [hack] at hrc
        exact absurd hrc (by decide)
    | some frame =>
      obtain ⟨w, -, hturn⟩ := waitTurn_of_frame client hframe
      refine ⟨frame, rfl, ?_⟩
      by_cases htype : msgType client frame > 0
      · rw [hturn, if_pos htype] at h
        exact_mod_cast afterAck_phase h
      · rw [hturn, if_neg htype] at h
        exact absurd (hphase.symm.trans h) (by simp)
  | returned rc =>
    rw [exchangeStep, hphase] at h
    exact .inl (hphase.symm.trans h)

/-! ### When a run keeps its promises -/

theorem rejectsCleanly_iff (client : Client) (x : Exchange) (env : Env) :
    RejectsCleanly client x env ↔ CleanReject client x env := by
  refine forall_congr' fun frame => forall_congr' fun h => forall_congr' fun htype => ?_
  rw [(step_rejected h htype).2]
  exact parseDhcpResponse_unchanged_iff client frame x.wait.lease

/-- A step makes good what it accepts exactly when the fields the ACK does not carry are empty. -/
theorem fromAck_step_iff (h : FromAck client x) :
    FromAck client (exchangeStep client x env) ↔ CleanAck client x env := by
  constructor
  · intro hstep hphase frame hframe htype f hnone
    obtain ⟨hreturned, haccepted, hget⟩ := step_ack hphase hframe htype
    have hf := hstep hreturned f
    rw [hget f, haccepted, hnone] at hf
    exact hf
  · intro hclean hreturned f
    rcases step_succeeded hreturned with hphase | ⟨hphase, frame, hframe, htype⟩
    · have hsame : exchangeStep client x env = x := by rw [exchangeStep, hphase]
      rw [hsame]
      exact h hphase f
    · obtain ⟨-, haccepted, hget⟩ := step_ack hphase hframe htype
      rw [hget f, haccepted]
      cases hv : carried client frame f with
      | none => exact hclean hphase frame hframe htype f hv
      | some v => rfl

theorem fromAck_start (client : Client) (connected : Bool) (queue : List QueuedFrame)
    (result : DhcpResult) : FromAck client (exchangeStart connected queue result) := by
  intro hphase
  cases connected <;> exact absurd hphase (by simp [exchangeStart])

/-- **Provenance of the DHCP result.** In every run of `softether_do_dhcp`, whatever is received and
    however its sends go: the result of a success is what the ACK carries, and rejected frames
    change nothing, if and only if every frame that is examined is clean for the lease before
    it. -/
theorem provenance_iff (client : Client) (connected : Bool) (queue : List QueuedFrame)
    (result : DhcpResult) (envs : List Env) :
    Provenance client (exchangeStart connected queue result) envs ↔
      Along (exchangeStep client) (Clean client) (exchangeStart connected queue result) envs := by
  have hrejects : Along (exchangeStep client) (RejectsCleanly client) _ envs ↔
      Along (exchangeStep client) (CleanReject client) _ envs :=
    along_congr (rejectsCleanly_iff client) (exchangeStart connected queue result) envs
  have hfromAck : Always (exchangeStep client) (FromAck client) _ envs ↔
      Along (exchangeStep client) (CleanAck client) _ envs :=
    always_iff_along (I := fun _ => True) (fun _ _ _ => trivial)
      (fun _ _ _ h => fromAck_step_iff h) trivial (fromAck_start client connected queue result) envs
  constructor
  · intro h
    exact along_and.mpr ⟨hrejects.mp h.rejects, hfromAck.mp h.fromAck⟩
  · intro h
    obtain ⟨hcleanReject, hcleanAck⟩ := along_and.mp h
    exact ⟨hfromAck.mpr hcleanAck, hrejects.mpr hcleanReject⟩

/-! ### A gateway from the OFFER -/

/-- A frame of a DHCP server for the client of `busyClient`, with these options. -/
def serverFrame (opts : List UInt8) : List UInt8 :=
  List.replicate 12 0 ++ [0x08, 0x00] ++
    [0x45, 0, 0, 0, 0, 0, 0, 0, 64, 17] ++ List.replicate 10 0 ++
    [0, 67, 0, 68, 0, 0, 0, 0] ++
    [DHCP_BOOTREPLY, 1, 6, 0, 0, 0, 0, 7] ++ List.replicate 8 0 ++ [10, 0, 0, 9] ++
    List.replicate 8 0 ++ busyClient.mac ++ List.replicate 202 0 ++ [0x63, 0x82, 0x53, 0x63] ++ opts

/-- A step that sends, or that receives a frame. -/
def receiving (frame : List UInt8) : Env where
  abort := false
  ipId := (0, 0)
  sendOk := true
  pass := ⟨true, 3, 0, [], -1, 1, ⟨1, [⟨frame, 0⟩], true, fun _ => rfl⟩⟩

/-- The OFFER names the gateway 10.0.0.1, the ACK has the address only. -/
def offerThenAck : List Env :=
  [receiving [], receiving (serverFrame [53, 1, 2, 3, 4, 10, 0, 0, 1, 255]), receiving [],
    receiving (serverFrame [53, 1, 5, 255])]

theorem gateway_from_offer :
    ¬ ∀ (client : Client) (connected : Bool) (queue : List QueuedFrame) (result : DhcpResult)
      (envs : List Env), Provenance client (exchangeStart connected queue result) envs := by
  intro h
  have hend := always_iff.mp (h busyClient true [] .zero offerThenAck).fromAck offerThenAck
    (List.prefix_refl _)
  have hgateway := hend (by decide +kernel) .gateway
  exact absurd hgateway (by decide +kernel)

end SoftEther.Dhcp
