import SoftEther.Connection.Session

namespace SoftEther.Connection

open Lib SoftEther.Links SoftEther.Packet

/-!
# One session after another

* `DeliversOwn` — a receive call returns only frames of the session it runs in;
* `SessionConn.Fresh` — the session's fields are as `softether_create` sets them;
* `Isolated` — a session that starts returns no older frame, whatever calls follow, and a
  disconnect leaves a fresh connection;
* `KeepsIsolated` — the condition of a call;
* `connect_isolated_iff`, `disconnect_fresh_iff` — what decides it for one connect, one disconnect;
* `session_isolation_iff` — a run is isolated exactly when all its calls meet the condition.

`softether_disconnect` closes the transports and the links, and resets what belongs to them; the
queue, the direction of the primary link, the addresses and what the login negotiated stay.
-/

/-! ### The property and its condition -/

/-- Only frames of the running session are returned. -/
def DeliversOwn : SessionEvent → List SessionEvent → Prop
  | .received session frames, _ => ∀ e ∈ frames, e.session = session
  | _, _ => True

/-- The fields that the receive functions and the choice of a link read are those of a
    connection just created. -/
structure SessionConn.Fresh (s : SessionConn) : Prop where
  fields : s.fields = sessionCreate.fields
  additional : s.conn.additional = sessionCreate.conn.additional
  usingNatT : s.conn.usingNatT = sessionCreate.conn.usingNatT
  rudp : s.conn.rudp = sessionCreate.conn.rudp

/-- The call is not a connect, so the session goes on or has ended. -/
def NoConnect (_ : Logged SessionConn SessionEvent) (a : SessionAction) : Prop :=
  a.isConnect = false

/-- Until the next connect, no call returns a frame of another session. -/
def SessionConn.Isolated (s : SessionConn) : Prop :=
  ∀ as, Along (logStep sessionStep) NoConnect ⟨s, []⟩ as →
    Checked DeliversOwn (run (logStep sessionStep) ⟨s, []⟩ as).log

/-- **Session isolation**, event by event. -/
def Isolated : SessionEvent → List SessionEvent → Prop
  | .started s, _ => s.Isolated
  | .received session frames, _ => ∀ e ∈ frames, e.session = session
  | .disconnected left, _ => left.Fresh

/-- `softether_disconnect` returns at once. -/
def Conn.skipsDisconnect (c : Conn) : Bool := c.state = .disconnected || c.state = .disconnecting

/-- A connect that succeeds finds the queue empty.  A disconnect finds the fields it does not
    write as they were created, and all of them when it returns at once. -/
def KeepsIsolated (x : Logged SessionConn SessionEvent) : SessionAction → Prop
  | .connect env welcome =>
    (sessionConnect x.state env welcome).2 = none → x.state.fields.recvQueue = []
  | .disconnect =>
    x.state.fields = sessionCreate.fields ∧ (x.state.conn.skipsDisconnect = true → x.state.Fresh)
  | _ => True

/-! ### Disconnecting -/

variable {c : Conn} {s : SessionConn}

/-- What a disconnect does to the links and the transports, when it does not return at once. -/
theorem softetherDisconnect_links (h : c.skipsDisconnect = false) :
    (softetherDisconnect c).additional = [] ∧ (softetherDisconnect c).usingNatT = false ∧
      (softetherDisconnect c).rudp = none := by
  have hstate : ¬ (c.state = .disconnected ∨ c.state = .disconnecting) := by
    simpa [Conn.skipsDisconnect] using h
  rw [softetherDisconnect, if_neg hstate]
  simp only
  have hadditional : ∀ c : Conn, (shutdownSsl (closeAdditional c)).additional = [] := by
    intro c
    unfold shutdownSsl
    split_ifs <;> rfl
  have hnatT : ∀ c : Conn, (destroyNatT c).additional = c.additional := by
    intro c
    unfold destroyNatT
    split <;> rfl
  have hrudp : ∀ c : Conn, (destroyRudp c).additional = c.additional ∧
      (destroyRudp c).usingNatT = c.usingNatT ∧ (destroyRudp c).rudp = none := by
    intro c
    unfold destroyRudp
    split
    · next hnone => exact ⟨rfl, rfl, hnone⟩
    · exact ⟨rfl, rfl, rfl⟩
  refine ⟨?_, (hrudp _).2.1, (hrudp _).2.2⟩
  rw [(hrudp _).1, hnatT, hadditional]

theorem softetherDisconnect_skips (h : c.skipsDisconnect = true) : softetherDisconnect c = c := by
  have hstate : c.state = .disconnected ∨ c.state = .disconnecting := by
    simpa [Conn.skipsDisconnect] using h
  rw [softetherDisconnect, if_pos hstate]

/-- **When a disconnect leaves a fresh connection**, from any state. -/
theorem disconnect_fresh_iff (s : SessionConn) :
    s.disconnect.Fresh ↔
      s.fields = sessionCreate.fields ∧ (s.conn.skipsDisconnect = true → s.Fresh) := by
  cases hskip : s.conn.skipsDisconnect with
  | true =>
    have hsame : s.disconnect = s := by
      rw [SessionConn.disconnect, softetherDisconnect_skips hskip]
    rw [hsame]
    exact ⟨fun h => ⟨h.fields, fun _ => h⟩, fun h => h.2 rfl⟩
  | false =>
    obtain ⟨hadditional, hnatT, hrudp⟩ := softetherDisconnect_links hskip
    constructor
    · exact fun h => ⟨h.fields, nofun⟩
    · exact fun h => ⟨h.1, hadditional, hnatT, hrudp⟩

/-! ### The queue -/

/-- The queue holds frames of the running session only. -/
def SessionConn.OwnFrames (s : SessionConn) : Prop :=
  ∀ e ∈ s.fields.recvQueue, e.session = s.session

theorem tagged_session {session : ℕ} {fill : FillOutcome} {e : QueuedFrame}
    (h : e ∈ (tagged session fill).frames) : e.session = session := by
  obtain ⟨e', _, rfl⟩ := List.mem_map.mp h
  rfl

/-- A receive call on a queue of the running session. -/
theorem SessionConn.OwnFrames.receive (h : s.OwnFrames) {d : Delivery} {fill : FillOutcome}
    (hd : d.From s.fields.recvQueue (tagged s.session fill)) :
    (s.setQueue d.queue).OwnFrames ∧ ∀ e ∈ d.delivered, e.session = s.session :=
  ⟨fun e he => (hd.kept e he).elim (h e) tagged_session,
    fun e he => (hd.delivered e he).elim (h e) tagged_session⟩

theorem resolveLoop_own (ip : UInt32) (fills : List FillOutcome) (h : s.OwnFrames) :
    (resolveLoop ip fills s).1.OwnFrames ∧
      ∀ e ∈ (resolveLoop ip fills s).2, e.session = s.session := by
  induction fills generalizing s with
  | nil => exact ⟨h, nofun⟩
  | cons fill fills ih =>
    obtain ⟨hqueue, hdelivered⟩ := h.receive
      (softetherReceiveRaw_from s.connected 2048 s.fields.recvQueue (tagged s.session fill))
    obtain ⟨hloop, hmore⟩ := ih hqueue
    unfold resolveLoop
    simp only
    split
    · exact ⟨hqueue, hdelivered⟩
    · refine ⟨hloop, ?_⟩
      intro e he
      exact (List.mem_append.mp he).elim (hdelivered e) (hmore e)

theorem resolveGateway_own (ip : UInt32) (fills : List FillOutcome) (h : s.OwnFrames) :
    (resolveGateway ip fills s).1.OwnFrames ∧
      ∀ e ∈ (resolveGateway ip fills s).2, e.session = s.session := by
  unfold resolveGateway
  split_ifs
  · exact resolveLoop_own ip _ h
  · exact ⟨h, nofun⟩

/-- What a connect does to the queue and to the number of the session. -/
structure ConnectEffect (s : SessionConn) (r : SessionConn × Option ConnError) : Prop where
  queue : r.1.fields.recvQueue = s.fields.recvQueue
  failed : r.2 ≠ none → r.1.session = s.session
  started : r.2 = none → r.1.session = s.session + 1 ∧ r.1.connected = true

theorem ConnectEffect.error {r : SessionConn} (e : ConnError)
    (hfields : r.fields.recvQueue = s.fields.recvQueue) (hsession : r.session = s.session) :
    ConnectEffect s (r, some e) :=
  ⟨hfields, fun _ => hsession, nofun⟩

/-- A session that comes up leaves the connection connected. -/
theorem connectSession_state {env : ConnectEnv} {c' : Conn}
    (h : connectSession c env = (c', none)) : c'.state = .connected := by
  unfold connectSession at h
  simp only at h
  split_ifs at h with hfd
  · cases h
  · cases h
    unfold establishFirstAdditional
    split
    · rfl
    · split
      · rfl
      · split_ifs <;> rfl

theorem establishSession_effect (s : SessionConn) (env : ConnectEnv) (welcome : Welcome) :
    ConnectEffect s (establishSession s env welcome) := by
  unfold establishSession
  simp only
  rcases h : connectSession s.conn (firstAdditional s.halfConnection env) with ⟨c, _ | e⟩
  · refine ⟨?_, fun hne => absurd rfl hne, fun _ => ⟨rfl, ?_⟩⟩
    · simp only
      split_ifs <;> rfl
    · exact decide_eq_true (connectSession_state h)
  · exact .error e rfl rfl

/-- The transport stages and the login leave the queue and the number of the session alone, so
    only the establishment counts. -/
theorem sessionConnect_effect (s : SessionConn) (env : ConnectEnv) (welcome : Welcome) :
    ConnectEffect s (sessionConnect s env welcome) := by
  unfold sessionConnect
  cases env.resolved with
  | false => exact .error _ rfl rfl
  | true =>
    simp only [Bool.not_true, Bool.false_eq_true, if_false]
    rcases connectTransport (connectStart s.conn) env with ⟨c, _ | e⟩
    · cases env.abortAfterRace with
      | true => exact .error _ rfl rfl
      | false =>
        simp only [Bool.false_eq_true, if_false]
        rcases connectLogin c env with ⟨c, _ | e⟩
        · cases env.abortAfterLogin with
          | true => exact .error _ rfl rfl
          | false =>
            -- The Welcome PACK changes neither the queue nor the session's number.
            have h :=
              establishSession_effect (parseWelcome welcome { s with conn := c }) env welcome
            exact ⟨h.queue, h.failed, h.started⟩
        · exact .error e rfl rfl
    · exact .error e rfl rfl

/-! ### Calls -/

theorem SessionConn.OwnFrames.of_empty (h : s.fields.recvQueue = []) : s.OwnFrames := by
  intro e he
  rw [h] at he
  exact absurd he List.not_mem_nil

/-- **What a call keeps.** A call other than a connect keeps the queue to its session, and
    returns frames of that session only. -/
theorem SessionConn.OwnFrames.call (h : s.OwnFrames) {a : SessionAction}
    (ha : a.isConnect = false) : (sessionStep s a).1.OwnFrames ∧
      ∀ session frames, (sessionStep s a).2 = some (.received session frames) →
        ∀ e ∈ frames, e.session = session := by
  have hdeliver : ∀ (fill : FillOutcome) (d : Delivery),
      d.From s.fields.recvQueue (tagged s.session fill) →
      (s.deliver d).1.OwnFrames ∧
        ∀ session frames, (s.deliver d).2 = some (.received session frames) →
          ∀ e ∈ frames, e.session = session := by
    intro fill d hd
    obtain ⟨hqueue, hdelivered⟩ := h.receive hd
    refine ⟨hqueue, ?_⟩
    rintro _ _ ⟨rfl, rfl⟩
    exact hdelivered
  cases a with
  | setMaxConnection n => exact ⟨h, nofun⟩
  | setHalfConnection half => exact ⟨h, nofun⟩
  | connect env welcome => cases ha
  | disconnect => exact ⟨h, nofun⟩
  | dhcpSucceeded ip => exact ⟨h, nofun⟩
  | resolveGateway ip fills =>
    obtain ⟨hqueue, hdelivered⟩ := resolveGateway_own ip fills h
    refine ⟨hqueue, ?_⟩
    rintro _ _ ⟨rfl, rfl⟩
    exact hdelivered
  | receive maxLen fill => exact hdeliver fill _ (softetherReceive_from _ _ _ _)
  | receiveRaw maxLen fill => exact hdeliver fill _ (softetherReceiveRaw_from _ _ _ _)
  | receiveBatch maxLen maxPackets fill =>
    exact hdeliver fill _ (softetherReceiveBatch_from _ _ _ _ _)

/-- A session that starts with its own frames only returns its own frames only. -/
theorem SessionConn.OwnFrames.isolated (h : s.OwnFrames) : s.Isolated := by
  intro as has
  refine checked_of_along (I := fun x => x.state.OwnFrames) ?_ ?_ has h trivial
  · intro x a hI hC
    exact (hI.call hC).1
  · intro x a e hI hC he
    cases e with
    | started conn => trivial
    | received session frames => exact (hI.call hC).2 session frames he
    | disconnected left => trivial

/-- **When a connect is isolated**: a frame that waits in the queue of the session before is
    returned by the first read that has room for it. -/
theorem connect_isolated_iff {s' : SessionConn} {env : ConnectEnv} {welcome : Welcome}
    (h : s.OwnFrames) (hc : sessionConnect s env welcome = (s', none)) :
    s'.Isolated ↔ s.fields.recvQueue = [] := by
  have heffect := sessionConnect_effect s env welcome
  rw [hc] at heffect
  have hqueue : s'.fields.recvQueue = s.fields.recvQueue := heffect.queue
  obtain ⟨hsession, hconnected⟩ : s'.session = s.session + 1 ∧ s'.connected = true :=
    heffect.started rfl
  constructor
  · intro hiso
    cases hold : s.fields.recvQueue with
    | nil => rfl
    | cons e rest =>
      let fill : FillOutcome := ⟨0, [], false, fun hne => absurd rfl hne⟩
      have hread : softetherReceiveRaw s'.connected e.len s'.fields.recvQueue
          (tagged s'.session fill) = ⟨e.len, [e], rest⟩ := by
        rw [hqueue, hold, hconnected]
        simp [softetherReceiveRaw, refill]
      have hchecked := (hiso [.receiveRaw e.len fill] ⟨rfl, trivial⟩).1
      simp only [hread] at hchecked
      have hnew : e.session = s'.session := hchecked e List.mem_cons_self
      have hwas : e.session = s.session := h e (by rw [hold]; exact List.mem_cons_self)
      omega
  · intro hempty
    exact (SessionConn.OwnFrames.of_empty (hqueue.trans hempty)).isolated

/-! ### Runs -/

/-- A call that meets the condition keeps the queue to the running session. -/
theorem ownFrames_step {x : Logged SessionConn SessionEvent} {a : SessionAction}
    (h : x.state.OwnFrames) (hC : KeepsIsolated x a) :
    (logStep sessionStep x a).state.OwnFrames := by
  cases hconn : a.isConnect with
  | false => exact (h.call hconn).1
  | true =>
    cases a with
    | connect env welcome =>
      have heffect := sessionConnect_effect x.state env welcome
      show (sessionStep x.state (.connect env welcome)).1.OwnFrames
      rw [sessionStep]
      rcases hc : sessionConnect x.state env welcome with ⟨s', _ | err⟩
      · rw [hc] at heffect
        refine SessionConn.OwnFrames.of_empty (heffect.queue.trans (hC ?_))
        rw [hc]
      · rw [hc] at heffect
        have hqueue : s'.fields.recvQueue = x.state.fields.recvQueue := heffect.queue
        have hsession : s'.session = x.state.session := heffect.failed nofun
        intro e he
        show e.session = s'.session
        rw [hsession]
        exact h e (hqueue ▸ he)
    | _ => cases hconn

/-- What a call shows is isolated exactly when the call meets the condition. -/
theorem isolated_step_iff {x : Logged SessionConn SessionEvent} (a : SessionAction)
    (h : x.state.OwnFrames) :
    (∀ e, (sessionStep x.state a).2 = some e → Isolated e x.log) ↔ KeepsIsolated x a := by
  -- Reads return own frames whatever they find, so only connects and disconnects decide.
  have hread : ∀ a session frames, a.isConnect = false →
      (sessionStep x.state a).2 = some (.received session frames) →
      ∀ e, (sessionStep x.state a).2 = some e → Isolated e x.log := by
    intro a session frames hconn hshown e he
    have hframes := (h.call hconn).2 session frames hshown
    rw [hshown] at he
    cases he
    exact hframes
  have hsilent : ∀ a, (sessionStep x.state a).2 = none →
      ∀ e, (sessionStep x.state a).2 = some e → Isolated e x.log := by
    intro a hnone e he
    rw [hnone] at he
    cases he
  cases a with
  | connect env welcome =>
    rw [sessionStep, KeepsIsolated]
    rcases hc : sessionConnect x.state env welcome with ⟨s', _ | err⟩
    · rw [← connect_isolated_iff h hc]
      constructor
      · intro hall _
        exact hall _ rfl
      · rintro hiso _ ⟨rfl⟩
        exact hiso rfl
    · simp only
      constructor
      · intro _ hnone
        cases hnone
      · intro _ e he
        cases he
  | disconnect =>
    rw [sessionStep, KeepsIsolated, ← disconnect_fresh_iff]
    constructor
    · intro hall
      exact hall _ rfl
    · rintro hfresh _ ⟨rfl⟩
      exact hfresh
  | setMaxConnection n => exact ⟨fun _ => trivial, fun _ => hsilent (.setMaxConnection n) rfl⟩
  | setHalfConnection half =>
    exact ⟨fun _ => trivial, fun _ => hsilent (.setHalfConnection half) rfl⟩
  | dhcpSucceeded ip => exact ⟨fun _ => trivial, fun _ => hsilent (.dhcpSucceeded ip) rfl⟩
  | resolveGateway ip fills =>
    exact ⟨fun _ => trivial, fun _ => hread (.resolveGateway ip fills) x.state.session
      (resolveGateway ip fills x.state).2 rfl rfl⟩
  | receive maxLen fill =>
    exact ⟨fun _ => trivial, fun _ => hread (.receive maxLen fill) _ _ rfl rfl⟩
  | receiveRaw maxLen fill =>
    exact ⟨fun _ => trivial, fun _ => hread (.receiveRaw maxLen fill) _ _ rfl rfl⟩
  | receiveBatch maxLen maxPackets fill =>
    exact ⟨fun _ => trivial, fun _ => hread (.receiveBatch maxLen maxPackets fill) _ _ rfl rfl⟩

/-- **Session isolation** of a run, and when it holds. -/
theorem session_isolation_iff (as : List SessionAction) :
    Checked Isolated (sessionRun as).log ↔
      Along (logStep sessionStep) KeepsIsolated ⟨sessionCreate, []⟩ as :=
  checked_iff_along (I := fun x => x.state.OwnFrames) (fun _ _ h hC => ownFrames_step h hC)
    (fun _ a h => isolated_step_iff a h) (SessionConn.OwnFrames.of_empty rfl)
    (by trivial) as

/-- A fill that brings two frames. -/
def twoFrames : FillOutcome where
  rc := 2
  frames := [⟨List.replicate 60 0, 0⟩, ⟨List.replicate 60 1, 0⟩]
  readBytes := true
  read_of_frames := fun _ => rfl

/-- One of two frames is read, and the session ends; the first read of the next session returns
    the other one. -/
theorem session_isolation_fails : ¬ ∀ as, Checked Isolated (sessionRun as).log := by
  intro h
  have hlast : ∀ e ∈ [(⟨List.replicate 60 1, 1⟩ : QueuedFrame)], e.session = 2 :=
    (h [.connect tcpEnv {}, .receiveRaw 1514 twoFrames, .disconnect, .connect tcpEnv {},
      .receiveRaw 1514 twoFrames]).1
  exact absurd (hlast _ List.mem_cons_self) (by decide)

end SoftEther.Connection
