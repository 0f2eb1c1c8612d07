import SoftEther.Lib.EventLog
import SoftEther.Security.Sessions

namespace SoftEther.Security

open Lib SoftEther.Controller

/-!
# What pinning covers

The pins of a history are read off its events, next to the store.  What the flows do in which
order is checked on their programs, and the check is sound for every history.

* `pinned`, `Verified`, `Vetted` — the pin after some events, and a link that was verified;
* `Covered`, `Pinned` — what the property asks of an event, and what the code keeps;
* `Check`, `sound` — how far a flow is with the handle it created, and the check of a program;
* `sound_program` — the flows pass the check;
* `Effect` — what a step can do; `Effect.keeps` and `Effect.pinned` are its two lemmas;
* `sessions_pinned` — the primary links, over every history.
-/

/-! ### Histories -/

/-- The pin under the canonical key `k` after the events. -/
def pinned (k : String) : List Event → Option Digest
  | [] => none
  | .cleared key :: before => if key.canonical = k then none else pinned k before
  | .verified key _ presented _ :: before =>
    -- The first fingerprint of an endpoint without a pin becomes its pin.
    if key.canonical = k ∧ pinned k before = none then presented else pinned k before
  | _ :: before => pinned k before

theorem pinned_verified (k : String) (key : ServerKey) (link : Link) (presented : Option Digest)
    (result : VerifyResult) (before : List Event) :
    pinned k (.verified key link presented result :: before) =
      if key.canonical = k ∧ pinned k before = none then presented else pinned k before := rfl

/-- A fingerprint was presented, and it matches the pin or becomes it. -/
def MatchedOrFirst (pin presented : Option Digest) : Prop :=
  presented ≠ none ∧ (pin = none ∨ pin = presented)

/-- What the store lets pass: an endpoint without a pin, and a match. -/
def Admitted (pin presented : Option Digest) : Prop := pin = none ∨ pin = presented

/-- The fingerprint of the link's own handshake was compared with the pin, and accepted. -/
def Verified (Accepted : Option Digest → Option Digest → Prop) (link : Link) (log : List Event) :
    Prop :=
  ∃ key presented result earlier, .verified key link presented result :: earlier <:+ log ∧
    (presented = none ∨ .handshake key link presented ∈ earlier) ∧
    Accepted (pinned key.canonical earlier) presented

/-- No fingerprint of the link was ever refused. -/
def NeverRefused (link : Link) (log : List Event) : Prop :=
  ∀ key presented result earlier, .verified key link presented result :: earlier <:+ log →
    Admitted (pinned key.canonical earlier) presented

/-- The primary link of the connection passed its verification. -/
structure Vetted (h : ConnectionId) (log : List Event) : Prop where
  verified : Verified Admitted ⟨h, 0⟩ log
  neverRefused : NeverRefused ⟨h, 0⟩ log

/-- Pinning covers every link of a session. -/
def Covered : Event → List Event → Prop
  | .data link, before => Verified MatchedOrFirst link before
  | .connected h, before => NeverRefused ⟨h, 0⟩ before
  | _, _ => True

/-- Pinning covers the primary link of a session, which has one handshake. -/
def Pinned : Event → List Event → Prop
  | .handshake _ link _, before =>
    link.index = 0 → ∀ key presented, .handshake key link presented ∉ before
  | .data link, before => link.index = 0 → Verified Admitted link before
  | .connected h, before => Vetted h before
  | _, _ => True

/-! ### Checking a program -/

/-- How far a flow is with the handle it created. -/
inductive Check
  | unknown
  /-- `nativeCreate` returned -/
  | creating
  /-- the handle is not zero -/
  | created
  /-- `nativeConnectWithHub` returned -/
  | tried
  /-- the store answered -/
  | compared
  /-- the answer was `PROCEED` -/
  | passed
  deriving DecidableEq

/-- Behind an exit that was not taken. -/
def Check.behind (check : Check) : Cond → Check
  | .noneCreated => if check = .creating then .created else check
  | .blocked => if check = .compared then .passed else check
  | _ => check

/-- Behind a call, if the flow may make it. -/
def Check.call (check : Check) (source : HandleSource) : NativeCall → Option Check
  | .connectWithHub =>
    if check = .created ∧ source = .nativeHandle then some .tried else none
  | .getPeerFingerprint =>
    if check = .tried ∧ source = .nativeHandle then some .compared else none
  | fn =>
    if Sessions.sends fn = true ∧ source ≠ .externalHandle ∧
        (check ≠ .passed ∨ source ≠ .nativeHandle)
    then none else some check

mutual

/-- Behind an operation that stays in its program, if the flow may perform it. -/
def next : Check → Op → Option Check
  | check, .exitIf c block => if sound check block then some (check.behind c) else none
  | check, .getAndSetReconnecting block => if sound check block then some check else none
  | check, .incrementAttempts block => if sound check block then some check else none
  | check, .tryLock block => if sound check block then some check else none
  | check, .beginFlow block => if sound check block then some check else none
  | _, .create => some .creating
  | check, .call fn source => check.call source fn
  | check, .setExternalHandle => if check = .passed then some check else none
  | check, .write (.state .connected) => if check = .passed then some check else none
  | check, _ => some check

/-- A program that compares the fingerprint of its handshake before it goes on with the handle. -/
def sound : Check → List Op → Bool
  | _, [] => true
  | check, op :: rest =>
    match next check op with
    | some check => sound check rest
    | none => false

end

/-- **The flows pass the check**, whatever the options are. -/
theorem sound_connectTurn (config : ConnectionConfig) : sound .unknown (connectTurn config) := by
  unfold connectTurn performConnect performConnectInner setAuthType
  by_cases hudp : config.udpPort > 0 <;> by_cases honly : config.udpOnly <;>
    by_cases hauto : config.authAuto <;> simp only [hudp, honly, hauto] <;> decide

theorem sound_program (config : ConnectionConfig) (entry : Entry) :
    sound .unknown (entry.program config) := by
  cases entry with
  | attemptReconnect =>
    show sound .unknown (attemptReconnect config) = true
    unfold attemptReconnect setAuthType
    by_cases hauto : config.authAuto <;> simp only [hauto] <;> decide
  | _ => rfl

/-! ### Logs that grow -/

/-- The event is about the primary link of the connection. -/
def Event.About (h : ConnectionId) : Event → Prop
  | .handshake _ link _ => link = ⟨h, 0⟩
  | .verified _ link _ _ => link = ⟨h, 0⟩
  | _ => False

variable {s s' : Sessions} {log : List Event} {e : Event} {h : ConnectionId} {check : Check}

theorem Verified.mono {Accepted : Option Digest → Option Digest → Prop} {link : Link}
    (hv : Verified Accepted link log) : Verified Accepted link (e :: log) := by
  obtain ⟨key, presented, result, earlier, hsuffix, hrest⟩ := hv
  exact ⟨key, presented, result, earlier, hsuffix.trans (List.suffix_cons _ _), hrest⟩

theorem NeverRefused.mono (hn : NeverRefused ⟨h, 0⟩ log) (he : ¬e.About h) :
    NeverRefused ⟨h, 0⟩ (e :: log) := by
  intro key presented result earlier hsuffix
  rcases List.suffix_cons_iff.mp hsuffix with hnow | hbefore
  · cases hnow
    exact absurd rfl he
  · exact hn key presented result earlier hbefore

theorem Vetted.mono (hv : Vetted h log) (he : ¬e.About h) : Vetted h (e :: log) :=
  ⟨hv.verified.mono, hv.neverRefused.mono he⟩

/-- A vetted connection shows a verification. -/
theorem Vetted.about (hv : Vetted h log) : ∃ key presented result,
    Event.verified key ⟨h, 0⟩ presented result ∈ log := by
  obtain ⟨key, presented, result, earlier, hsuffix, _⟩ := hv.verified
  exact ⟨key, presented, result, hsuffix.subset List.mem_cons_self⟩

/-! ### Verifications -/

section Verifications

variable {pins : Pins} {key : ServerKey} {pin : Option Digest}

/-- What a verification leaves in the store. -/
theorem store_verify (hpin : pins key.canonical = pin.map fun digest => toHex digest.val)
    (presented : Option Digest) (k : String) :
    (pins.verify key (presentedText presented)).1 k =
      if key.canonical = k ∧ pin = none then presented.map fun digest => toHex digest.val
      else pins k := by
  cases pin with
  | some pinned =>
    have hneither : ¬(key.canonical = k ∧ some pinned = none) := fun hboth => nomatch hboth.2
    rw [Pins.verify_pinned hpin, if_neg hneither]
  | none =>
    cases presented with
    | none =>
      rw [Pins.verify_missing hpin]
      split_ifs with hk
      · rw [← hk.1]
        exact hpin
      · rfl
    | some digest =>
      rw [Pins.verify_firstUse hpin, Option.map_some]
      dsimp only
      split_ifs with hk
      · rw [← hk.1, Pins.store_self]
      · exact Pins.store_of_ne _ fun heq => hk ⟨heq.symm, rfl⟩

/-- A verification lets pass what its rule admits. -/
theorem admitted_verify (hpin : pins key.canonical = pin.map fun digest => toHex digest.val)
    {presented : Option Digest}
    (hpass : (pins.verify key (presentedText presented)).2.toDecision ≠ .block) :
    Admitted pin presented := by
  cases pin with
  | none => exact Or.inl rfl
  | some pinned =>
    rw [Pins.verify_pinned hpin] at hpass
    by_cases heq : presented = some pinned
    · exact Or.inr heq.symm
    · rw [if_neg heq] at hpass
      exact absurd rfl hpass

end Verifications

/-! ### The invariant -/

/-- What the pinning rests on. -/
structure Inv (s : Sessions) (log : List Event) : Prop where
  known : ∀ e ∈ log, ∀ h, e.About h → h ≤ s.last
  created : s.created ≤ s.last
  nativeHandle : s.nativeHandle = 0 ∨ s.nativeHandle = s.created
  noHandle : s.links 0 = []
  links : ∀ h presented rest, s.links h = presented :: rest →
    ∃ key, .handshake key ⟨h, 0⟩ presented ∈ log
  store : ∀ k, s.store k = (pinned k log).map fun digest => toHex digest.val
  externalHandle : s.externalHandle ≠ 0 → Vetted s.externalHandle log

/-- What a flow knows about the handle it created. -/
def Check.Holds (s : Sessions) (log : List Event) : Check → Prop
  | .unknown => True
  | .creating => s.created ≠ 0 → ∀ e ∈ log, ¬e.About s.created
  | .created => s.created ≠ 0 ∧ ∀ e ∈ log, ¬e.About s.created
  | .tried =>
    (∀ key presented, .handshake key ⟨s.created, 0⟩ presented ∈ log → key = s.key) ∧
    ∀ key presented result, .verified key ⟨s.created, 0⟩ presented result ∉ log
  | .compared => s.blocked = false → Vetted s.created log
  | .passed => Vetted s.created log

/-- Nothing the invariant speaks of changes, but handles may be cleared and links closed. -/
structure Quiet (s s' : Sessions) : Prop where
  store : s'.store = s.store
  key : s'.key = s.key
  last : s'.last = s.last
  created : s'.created = s.created
  blocked : s'.blocked = s.blocked
  nativeHandle : s'.nativeHandle = s.nativeHandle ∨ s'.nativeHandle = 0
  externalHandle : s'.externalHandle = s.externalHandle ∨ s'.externalHandle = 0
  links : ∀ h, s'.links h = s.links h ∨ s'.links h = []

theorem Inv.quiet (hI : Inv s log) (hq : Quiet s s') : Inv s' log := by
  constructor
  · rw [hq.last]
    exact hI.known
  · rw [hq.created, hq.last]
    exact hI.created
  · rw [hq.created]
    rcases hq.nativeHandle with hsame | hzero
    · rw [hsame]
      exact hI.nativeHandle
    · exact Or.inl hzero
  · rcases hq.links 0 with hsame | hnil
    · rw [hsame]
      exact hI.noHandle
    · exact hnil
  · intro h presented rest hlinks
    rcases hq.links h with hsame | hnil
    · exact hI.links h presented rest (hsame.symm.trans hlinks)
    · rw [hnil] at hlinks
      cases hlinks
  · rw [hq.store]
    exact hI.store
  · rcases hq.externalHandle with hsame | hzero
    · rw [hsame]
      exact hI.externalHandle
    · exact fun hne => absurd hzero hne

theorem Check.Holds.quiet (hH : check.Holds s log) (hq : Quiet s s') : check.Holds s' log := by
  cases check with
  | unknown => trivial
  | _ => simpa only [Check.Holds, hq.created, hq.key, hq.blocked] using hH

/-- An event about no primary link changes nothing, unless it clears a pin. -/
theorem Inv.plain (hI : Inv s log) (he : ∀ h, ¬e.About h)
    (hpin : ∀ k, pinned k (e :: log) = pinned k log) : Inv s (e :: log) := by
  constructor
  · intro e' hmem h habout
    rcases List.mem_cons.mp hmem with rfl | hbefore
    · exact absurd habout (he h)
    · exact hI.known e' hbefore h habout
  · exact hI.created
  · exact hI.nativeHandle
  · exact hI.noHandle
  · intro h presented rest hlinks
    obtain ⟨key, hmem⟩ := hI.links h presented rest hlinks
    exact ⟨key, List.mem_cons_of_mem _ hmem⟩
  · intro k
    rw [hpin]
    exact hI.store k
  · exact fun hne => (hI.externalHandle hne).mono (he _)

theorem Check.Holds.plain (hH : check.Holds s log) (he : ¬e.About s.created) :
    check.Holds s (e :: log) := by
  have hfresh : (∀ e ∈ log, ¬e.About s.created) → ∀ e' ∈ e :: log, ¬e'.About s.created := by
    intro hbefore e' hmem
    rcases List.mem_cons.mp hmem with rfl | hmem
    · exact he
    · exact hbefore e' hmem
  cases check with
  | unknown => trivial
  | creating => exact fun hne => hfresh (hH hne)
  | created => exact ⟨hH.1, hfresh hH.2⟩
  | tried =>
    refine ⟨?_, ?_⟩
    · intro key presented hmem
      rcases List.mem_cons.mp hmem with rfl | hmem
      · exact absurd rfl he
      · exact hH.1 key presented hmem
    · intro key presented result hmem
      rcases List.mem_cons.mp hmem with rfl | hmem
      · exact absurd rfl he
      · exact hH.2 key presented result hmem
  | compared => exact fun hb => (hH hb).mono he
  | passed => exact Vetted.mono hH he

/-! ### What an operation does -/

/-- After a step that may have emitted an event: the event meets the property, the invariant holds,
    and the flow is at `check`. -/
structure Kept (log : List Event) (r : Sessions × Option Event) (check : Check) : Prop where
  seen : ∀ e, r.2 = some e → Pinned e log
  inv : Inv r.1 (r.2.toList ++ log)
  holds : check.Holds r.1 (r.2.toList ++ log)

theorem Kept.event (hP : Pinned e log) (hI : Inv s' (e :: log)) (hH : check.Holds s' (e :: log)) :
    Kept log (s', some e) check := by
  refine ⟨?_, hI, hH⟩
  rintro _ ⟨rfl⟩
  exact hP

/-- A step that changes nothing of interest. -/
theorem Kept.quiet (hI : Inv s log) (hH : check.Holds s log) (hq : Quiet s s') :
    Kept log (s', none) check :=
  ⟨nofun, hI.quiet hq, hH.quiet hq⟩

/-- A step that changes nothing of interest and is seen. -/
theorem Kept.plain (hI : Inv s log) (hH : check.Holds s log) (hq : Quiet s s')
    (he : ∀ h, ¬e.About h) (hpin : ∀ k, pinned k (e :: log) = pinned k log) (hP : Pinned e log) :
    Kept log (s', some e) check :=
  .event hP ((hI.quiet hq).plain he hpin) ((hH.quiet hq).plain (he _))

/-- A new handle: nothing is known about it, as nothing has happened to it. -/
theorem Inv.create (hI : Inv s log)
    (hs : s' = { s with last := s.last + 1, created := s.last + 1, nativeHandle := s.last + 1 }) :
    Inv s' log ∧ Check.creating.Holds s' log := by
  subst hs
  refine ⟨{ hI with known := ?_, created := Nat.le_refl _, nativeHandle := Or.inr rfl }, ?_⟩
  · intro e hmem h habout
    exact Nat.le_succ_of_le (hI.known e hmem h habout)
  · intro _ e hmem habout
    exact absurd (hI.known e hmem _ habout) (Nat.not_succ_le_self _)

theorem Inv.noCreate (hI : Inv s log) (hs : s' = { s with created := 0, nativeHandle := 0 }) :
    Inv s' log ∧ Check.creating.Holds s' log := by
  subst hs
  exact ⟨{ hI with created := Nat.zero_le _, nativeHandle := Or.inl rfl },
    fun hne => absurd rfl hne⟩

/-- **The handshake of a connect** is the only one on its link. -/
theorem Inv.connectWithHub (hI : Inv s log) (hH : Check.created.Holds s log) (answer : Answer) :
    Kept log (s.connectWithHub s.nativeHandle answer) .tried := by
  obtain ⟨_, hfresh⟩ := hH
  unfold Sessions.connectWithHub
  split_ifs with hfail
  · have hq : Quiet s { s with failed := true } :=
      ⟨rfl, rfl, rfl, rfl, rfl, Or.inl rfl, Or.inl rfl, fun _ => Or.inl rfl⟩
    refine Kept.quiet hI ⟨?_, ?_⟩ hq
    · intro key presented hmem
      exact absurd rfl (hfresh _ hmem)
    · intro key presented result hmem
      exact hfresh _ hmem rfl
  · rw [not_or] at hfail
    have hhandle : s.nativeHandle = s.created := hI.nativeHandle.resolve_left hfail.1
    rw [hhandle]
    rw [hhandle] at hfail
    apply Kept.event
    · intro _ key presented hmem
      exact hfresh _ hmem rfl
    · constructor
      · intro e hmem h habout
        rcases List.mem_cons.mp hmem with rfl | hbefore
        · cases habout
          exact hI.created
        · exact hI.known e hbefore h habout
      · exact hI.created
      · exact Or.inr rfl
      · show Function.update s.links s.created [answer.presented] 0 = []
        rw [Function.update_of_ne (Ne.symm hfail.1)]
        exact hI.noHandle
      · intro h presented rest hlinks
        by_cases heq : h = s.created
        · subst heq
          dsimp only at hlinks
          rw [Function.update_self] at hlinks
          cases hlinks
          exact ⟨s.key, List.mem_cons_self⟩
        · dsimp only at hlinks
          rw [Function.update_of_ne heq] at hlinks
          obtain ⟨key, hmem⟩ := hI.links h presented rest hlinks
          exact ⟨key, List.mem_cons_of_mem _ hmem⟩
      · exact hI.store
      · intro hne
        refine (hI.externalHandle hne).mono ?_
        intro habout
        -- A handle that nothing is known about was not published.
        have hexternal : s.externalHandle = s.created := (congrArg Link.connection habout).symm
        obtain ⟨key, presented, result, hmem⟩ := (hI.externalHandle hne).about
        exact hfresh _ hmem (by rw [hexternal]; rfl)
    · refine ⟨?_, ?_⟩
      · intro key presented hmem
        rcases List.mem_cons.mp hmem with heq | hbefore
        · cases heq
          rfl
        · exact absurd rfl (hfresh _ hbefore)
      · intro key presented result hmem
        rcases List.mem_cons.mp hmem with heq | hbefore
        · cases heq
        · exact hfresh _ hbefore rfl

/-- What is presented comes from the handshake on the link. -/
theorem Inv.peerFingerprint (hI : Inv s log) (hH : Check.tried.Holds s log) (answer : Answer) :
    s.peerFingerprint s.nativeHandle answer = none ∨
      .handshake s.key ⟨s.created, 0⟩ (s.peerFingerprint s.nativeHandle answer) ∈ log := by
  unfold Sessions.peerFingerprint
  by_cases hfail : answer.failed = true
  · exact Or.inl (if_pos hfail)
  · rw [if_neg hfail]
    rcases hI.nativeHandle with hzero | hcreated
    · rw [hzero, hI.noHandle]
      exact Or.inl rfl
    · rw [hcreated]
      cases hlinks : s.links s.created with
      | nil => exact Or.inl rfl
      | cons presented rest =>
        obtain ⟨key, hmem⟩ := hI.links _ presented rest hlinks
        have hkey := hH.1 key presented hmem
        subst hkey
        exact Or.inr hmem

/-- **The comparison with the pin.** -/
theorem Inv.verifyTofuAfterHandshake (hI : Inv s log) (hH : Check.tried.Holds s log)
    (answer : Answer) :
    Kept log (s.verifyTofuAfterHandshake s.nativeHandle answer) .compared := by
  have hpresented := hI.peerFingerprint hH answer
  unfold Sessions.verifyTofuAfterHandshake
  generalize s.peerFingerprint s.nativeHandle answer = presented at hpresented ⊢
  have hpin := hI.store s.key.canonical
  -- the event is the comparison itself; the pin changes on the first use only
  apply Kept.event
  · trivial
  · constructor
    · intro e hmem h habout
      rcases List.mem_cons.mp hmem with rfl | hbefore
      · cases habout
        exact hI.created
      · exact hI.known e hbefore h habout
    · exact hI.created
    · exact hI.nativeHandle
    · exact hI.noHandle
    · intro h presented rest hlinks
      obtain ⟨key, hmem⟩ := hI.links h presented rest hlinks
      exact ⟨key, List.mem_cons_of_mem _ hmem⟩
    · intro k
      dsimp only
      rw [store_verify hpin, pinned_verified]
      by_cases hk : s.key.canonical = k
      · subst hk
        by_cases hnone : pinned s.key.canonical log = none
        · rw [if_pos ⟨rfl, hnone⟩, if_pos ⟨rfl, hnone⟩]
        · rw [if_neg (fun hboth => hnone hboth.2), if_neg (fun hboth => hnone hboth.2)]
          exact hpin
      · rw [if_neg (fun hboth => hk hboth.1), if_neg (fun hboth => hk hboth.1)]
        exact hI.store k
    · intro hne
      refine (hI.externalHandle hne).mono ?_
      intro habout
      have hexternal : s.externalHandle = s.created := (congrArg Link.connection habout).symm
      obtain ⟨key, presented, result, hmem⟩ := (hI.externalHandle hne).about
      rw [hexternal] at hmem
      exact hH.2 _ _ _ hmem
  · intro hb
    have hadmitted : Admitted (pinned s.key.canonical log) presented := by
      apply admitted_verify hpin
      exact of_decide_eq_false hb
    constructor
    · exact ⟨s.key, presented, _, log, List.suffix_refl _, hpresented, hadmitted⟩
    · intro key presented result earlier hsuffix
      rcases List.suffix_cons_iff.mp hsuffix with hnow | hbefore
      · cases hnow
        exact hadmitted
      · exact absurd (hbefore.subset List.mem_cons_self) (hH.2 _ _ _)

/-- A packet goes over a connection whose primary link was vetted. -/
theorem Inv.send (hI : Inv s log) {link : ℕ}
    (hv : h = s.externalHandle ∨ h = s.nativeHandle ∧ Vetted s.created log)
    (he : s.send h link = some e) : e = .data ⟨h, link⟩ ∧ Vetted h log := by
  unfold Sessions.send at he
  split_ifs at he with hlink
  cases he
  refine ⟨rfl, ?_⟩
  have hne : h ≠ 0 := by
    rintro rfl
    rw [hI.noHandle] at hlink
    exact absurd hlink (Nat.not_lt_zero _)
  rcases hv with rfl | ⟨rfl, hvetted⟩
  · exact hI.externalHandle hne
  · rw [hI.nativeHandle.resolve_left hne]
    exact hvetted

theorem Inv.kept_send (hI : Inv s log) (hH : check.Holds s log) (hq : Quiet s s') {link : ℕ}
    (hv : h = s.externalHandle ∨ h = s.nativeHandle ∧ Vetted s.created log) :
    Kept log (s', s.send h link) check := by
  cases he : s.send h link with
  | none => exact Kept.quiet hI hH hq
  | some e =>
    obtain ⟨rfl, hvetted⟩ := hI.send hv he
    apply Kept.plain hI hH hq
    · exact fun _ habout => habout
    · exact fun _ => rfl
    · rintro rfl
      exact hvetted.verified

/-- `client.externalHandle = nativeHandle`. -/
theorem Inv.setExternalHandle (hI : Inv s log) (hv : Vetted s.created log)
    (hs : s' = { s with externalHandle := s.nativeHandle }) : Inv s' log := by
  subst hs
  refine { hI with externalHandle := ?_ }
  intro hne
  show Vetted s.nativeHandle log
  rw [hI.nativeHandle.resolve_left hne]
  exact hv

/-! ### The flow -/

/-- After a step, the flow is where the check of its program has it. -/
def OnCourse (log : List Event) (r : Sessions × Option Event) : Prop :=
  ∃ check, Kept log r check ∧ sound check r.1.todo = true

theorem Quiet.todo (s : Sessions) (todo : List Op) : Quiet s { s with todo := todo } :=
  ⟨rfl, rfl, rfl, rfl, rfl, Or.inl rfl, Or.inl rfl, fun _ => Or.inl rfl⟩

theorem Quiet.destroy (s : Sessions) (todo : List Op) :
    Quiet s { s.destroy with todo := todo } := by
  refine ⟨rfl, rfl, rfl, rfl, rfl, Or.inr rfl, Or.inl rfl, ?_⟩
  intro h
  show Function.update s.links s.nativeHandle [] h = s.links h ∨ _
  rcases eq_or_ne h s.nativeHandle with rfl | hne
  · exact Or.inr (Function.update_self ..)
  · exact Or.inl (Function.update_of_ne hne ..)

/-- A test that fails is known behind it. -/
theorem Check.Holds.behind (hH : check.Holds s log) {answer : Answer} {c : Cond}
    (htest : s.test answer c = false) : (check.behind c).Holds s log := by
  cases c with
  | noneCreated =>
    dsimp only [Check.behind]
    split_ifs with hcheck
    · subst hcheck
      have hne : s.created ≠ 0 := of_decide_eq_false htest
      exact ⟨hne, hH hne⟩
    · exact hH
  | blocked =>
    dsimp only [Check.behind]
    split_ifs with hcheck
    · subst hcheck
      exact hH htest
    · exact hH
  | _ => exact hH

variable {rest : List Op} {fn : NativeCall}

theorem sound_cons {op : Op} (hs : sound check (op :: rest) = true) :
    ∃ check', next check op = some check' ∧ sound check' rest = true := by
  unfold sound at hs
  cases hnext : next check op with
  | none =>
    rw [hnext] at hs
    cases hs
  | some check' =>
    rw [hnext] at hs
    exact ⟨check', rfl, hs⟩

/-- The calls other than the handshake and its comparison. -/
theorem call_other (hconnect : fn ≠ .connectWithHub) (hpeer : fn ≠ .getPeerFingerprint)
    (handle : ConnectionId) (answer : Answer) (rest : List Op) : s.call handle answer rest fn =
      ({ s with
          failed := answer.failed
          todo := if Sessions.sends fn && answer.again then s.todo else rest },
        if Sessions.sends fn then s.send handle answer.link else none) := by
  cases fn <;> first | rfl | contradiction

theorem Check.call_other {source : HandleSource} {check' : Check} (hconnect : fn ≠ .connectWithHub)
    (hpeer : fn ≠ .getPeerFingerprint) (hcall : check.call source fn = some check') :
    check' = check ∧ (Sessions.sends fn = true →
      source = .externalHandle ∨ check = .passed ∧ source = .nativeHandle) := by
  have hrule : (if Sessions.sends fn = true ∧ source ≠ .externalHandle ∧
      (check ≠ .passed ∨ source ≠ .nativeHandle) then none else some check) = some check' := by
    cases fn <;> first | exact hcall | contradiction
  split_ifs at hrule with hbad
  cases hrule
  refine ⟨rfl, ?_⟩
  intro hsends
  by_contra hnot
  rw [not_or, not_and_or] at hnot
  exact hbad ⟨hsends, hnot⟩

/-- **A native call of the flow.** -/
theorem call_onCourse (hI : Inv s log) (hH : check.Holds s log) {source : HandleSource}
    {check' : Check} (hcall : check.call source fn = some check') (hrest : sound check' rest = true)
    (htodo : sound check s.todo = true) (answer : Answer) :
    OnCourse log (s.call (s.read source) answer rest fn) := by
  have hI' := hI.quiet (Quiet.todo s rest)
  have hH' := hH.quiet (Quiet.todo s rest)
  by_cases hconnect : fn = .connectWithHub
  · subst hconnect
    dsimp only [Check.call] at hcall
    split_ifs at hcall with hboth
    obtain ⟨rfl, rfl⟩ := hboth
    cases hcall
    refine ⟨.tried, hI'.connectWithHub hH' answer, ?_⟩
    have hsame : (s.call s.nativeHandle answer rest .connectWithHub).1.todo = rest := by
      dsimp only [Sessions.call, Sessions.connectWithHub]
      split_ifs <;> rfl
    exact (congrArg (sound .tried) hsame).trans hrest
  by_cases hpeer : fn = .getPeerFingerprint
  · subst hpeer
    dsimp only [Check.call] at hcall
    split_ifs at hcall with hboth
    obtain ⟨rfl, rfl⟩ := hboth
    cases hcall
    exact ⟨.compared, hI'.verifyTofuAfterHandshake hH' answer, hrest⟩
  -- The other calls leave the flow where it is, and may send.
  obtain ⟨rfl, hsource⟩ := Check.call_other hconnect hpeer hcall
  rw [call_other hconnect hpeer]
  have hq : Quiet s { s with
      failed := answer.failed
      todo := if Sessions.sends fn && answer.again then s.todo else rest } :=
    ⟨rfl, rfl, rfl, rfl, rfl, Or.inl rfl, Or.inl rfl, fun _ => Or.inl rfl⟩
  refine ⟨check', ?_, ?_⟩
  · by_cases hsends : Sessions.sends fn = true
    · rw [if_pos hsends]
      apply hI.kept_send hH hq
      rcases hsource hsends with rfl | ⟨rfl, rfl⟩
      · exact Or.inl rfl
      · exact Or.inr ⟨rfl, hH⟩
    · rw [if_neg hsends]
      exact Kept.quiet hI hH hq
  · dsimp only
    split_ifs
    · exact htodo
    · exact hrest

/-- **One operation of the flow.** -/
theorem perform_onCourse (hI : Inv s log) (hH : check.Holds s log) {op : Op}
    (htodo : s.todo = op :: rest) (hs : sound check s.todo = true) (answer : Answer) :
    OnCourse log (s.perform answer rest op) := by
  have hwhole := hs
  rw [htodo] at hs
  obtain ⟨check', hnext, hrest⟩ := sound_cons hs
  -- The operations that leave the flow where it is.
  have hstay : ∀ s', Quiet s s' → s'.todo = rest → check' = check → OnCourse log (s', none) := by
    rintro s' hq hsame rfl
    exact ⟨check', Kept.quiet hI hH hq, (congrArg (sound check') hsame).trans hrest⟩
  -- The operations with a block, apart from the tests.
  have hbranch : ∀ block, (if sound check block then some check else none) = some check' →
      OnCourse log ({ s with todo := if answer.holds then block else rest }, none) := by
    intro block hblock
    split_ifs at hblock with hsound
    cases hblock
    refine ⟨check, Kept.quiet hI hH (Quiet.todo s _), ?_⟩
    dsimp only
    split_ifs
    · exact hsound
    · exact hrest
  cases op with
  | exitIf c block =>
    unfold next at hnext
    split_ifs at hnext with hsound
    cases hnext
    dsimp only [Sessions.perform]
    cases htest : s.test answer c with
    | true => exact ⟨check, Kept.quiet hI hH (Quiet.todo s _), hsound⟩
    | false => exact ⟨_, Kept.quiet hI (hH.behind htest) (Quiet.todo s _), hrest⟩
  | getAndSetReconnecting block => exact hbranch block hnext
  | incrementAttempts block => exact hbranch block hnext
  | tryLock block => exact hbranch block hnext
  | beginFlow block => exact hbranch block hnext
  | create =>
    cases hnext
    dsimp only [Sessions.perform]
    split_ifs with hfail
    · obtain ⟨hI', hH'⟩ := hI.noCreate rfl
      exact ⟨.creating, Kept.quiet hI' hH' (Quiet.todo _ rest), hrest⟩
    · obtain ⟨hI', hH'⟩ := hI.create rfl
      exact ⟨.creating, Kept.quiet hI' hH' (Quiet.todo _ rest), hrest⟩
  | call fn source => exact call_onCourse hI hH hnext hrest hwhole answer
  | setExternalHandle =>
    unfold next at hnext
    split_ifs at hnext with hpassed
    cases hnext
    subst hpassed
    have hI' := hI.setExternalHandle hH rfl
    exact ⟨.passed, Kept.quiet hI' hH (Quiet.todo _ rest), hrest⟩
  | claimAndDestroyNativeHandle =>
    exact hstay _ (Quiet.destroy s rest) rfl (Option.some.inj hnext).symm
  | requestTeardown => exact hstay _ (Quiet.destroy s rest) rfl (Option.some.inj hnext).symm
  | retry =>
    have hunknown : Check.unknown.Holds s log := trivial
    exact ⟨.unknown, Kept.quiet hI hunknown (Quiet.todo s _), sound_connectTurn s.config⟩
  | lock => exact hstay _ (Quiet.todo s rest) rfl (Option.some.inj hnext).symm
  | unlock => exact hstay _ (Quiet.todo s rest) rfl (Option.some.inj hnext).symm
  | exitFlow => exact hstay _ (Quiet.todo s rest) rfl (Option.some.inj hnext).symm
  | write w =>
    have hclear : Quiet s { s with externalHandle := 0, todo := rest } :=
      ⟨rfl, rfl, rfl, rfl, rfl, Or.inl rfl, Or.inr rfl, fun _ => Or.inl rfl⟩
    rcases w with _ | _ | _ | state | _ | _ | _ | _ | _ | _ | _ | _ | _ | _ | _
    case state =>
      cases state with
      | connected =>
        unfold next at hnext
        split_ifs at hnext with hpassed
        cases hnext
        subst hpassed
        refine ⟨.passed, ?_, hrest⟩
        exact Kept.plain hI hH (Quiet.todo s rest) (fun _ habout => habout) (fun _ => rfl) hH
      | _ => exact hstay _ (Quiet.todo s rest) rfl (Option.some.inj hnext).symm
    case clearExternalHandle => exact hstay _ hclear rfl (Option.some.inj hnext).symm
    all_goals exact hstay _ (Quiet.todo s rest) rfl (Option.some.inj hnext).symm

/-! ### Every step -/

/-- An additional link changes nothing for the primary ones. -/
theorem Inv.additionalConnect (hI : Inv s log) (hH : check.Holds s log)
    (handle : ConnectionId) (presented : Option Digest) :
    Kept log (s.additionalConnect handle presented) check := by
  unfold Sessions.additionalConnect
  split_ifs with hnone
  · exact Kept.quiet hI hH (Quiet.todo s s.todo)
  · have hlength : (s.links handle).length ≠ 0 :=
      fun hzero => hnone (List.length_eq_zero_iff.mp hzero)
    have habout : ∀ h,
        ¬(Event.handshake s.key ⟨handle, (s.links handle).length⟩ presented).About h :=
      fun h habout => hlength (congrArg Link.index habout)
    have hI' := hI.plain habout (fun _ => rfl)
    have hH' : check.Holds s _ := hH.plain (habout s.created)
    apply Kept.event
    · exact fun hindex => absurd hindex hlength
    · refine { hI' with noHandle := ?_, links := ?_ }
      · dsimp only
        rw [Function.update_of_ne]
        · exact hI.noHandle
        · rintro rfl
          exact hnone hI.noHandle
      · intro h first rest hlinks
        dsimp only at hlinks
        rcases eq_or_ne h handle with rfl | hne
        · rw [Function.update_self] at hlinks
          -- The new link comes after the ones that are there.
          obtain ⟨first', rest', hold⟩ := List.exists_cons_of_ne_nil hnone
          rw [hold] at hlinks
          cases hlinks
          exact hI'.links h first rest' hold
        · rw [Function.update_of_ne hne] at hlinks
          exact hI'.links h first rest hlinks
    · cases check <;> exact hH'

/-- The pin of an endpoint is cleared, in the store and in the history. -/
theorem Inv.clear (hI : Inv s log) (hH : check.Holds s log) (key : ServerKey) :
    Kept log ({ s with store := s.store.clear key }, some (.cleared key)) check := by
  have hH' : check.Holds s (.cleared key :: log) := hH.plain fun habout => habout
  apply Kept.event
  · trivial
  · refine { hI with known := ?_, links := ?_, store := ?_, externalHandle := ?_ }
    · intro e hmem h habout
      rcases List.mem_cons.mp hmem with rfl | hbefore
      · exact absurd habout id
      · exact hI.known e hbefore h habout
    · intro h presented rest hlinks
      obtain ⟨key', hmem⟩ := hI.links h presented rest hlinks
      exact ⟨key', List.mem_cons_of_mem _ hmem⟩
    · intro k
      show (if k = key.canonical then none else s.store k) =
        (if key.canonical = k then none else pinned k log).map _
      by_cases hk : key.canonical = k
      · rw [if_pos hk.symm, if_pos hk, Option.map_none]
      · rw [if_neg (Ne.symm hk), if_neg hk]
        exact hI.store k
    · exact fun hne => (hI.externalHandle hne).mono fun habout => habout
  · cases check <;> exact hH'

/-- A new controller has no handles. -/
theorem Inv.controller (hI : Inv s log) (key : ServerKey) (config : ConnectionConfig) :
    Inv { s with
      key := key
      config := config
      nativeHandle := 0
      externalHandle := 0
      created := 0 } log :=
  { hI with
    created := Nat.zero_le _
    nativeHandle := Or.inl rfl
    externalHandle := fun hne => absurd rfl hne }

/-- The same between two steps. -/
def Between (x : Logged Sessions Event) : Prop :=
  ∃ check : Check, Inv x.state x.log ∧ check.Holds x.state x.log ∧
    sound check x.state.todo = true

/-- **One step of a history.** -/
theorem step_onCourse {x : Logged Sessions Event} (h : Between x) (a : Action) :
    OnCourse x.log (x.state.step a) := by
  obtain ⟨check, hI, hH, hs⟩ := h
  obtain ⟨s, log⟩ := x
  cases a with
  | controller key config =>
    dsimp only [Sessions.step]
    split_ifs with hidle
    · have hnil : s.todo = [] := List.isEmpty_iff.mp hidle
      refine ⟨.unknown, ⟨nofun, hI.controller key config, trivial⟩, ?_⟩
      exact congrArg (sound .unknown) hnil
    · exact ⟨check, ⟨nofun, hI, hH⟩, hs⟩
  | start entry =>
    dsimp only [Sessions.step]
    split_ifs
    · have hunknown : Check.unknown.Holds s log := trivial
      exact ⟨.unknown, Kept.quiet hI hunknown (Quiet.todo s _), sound_program s.config entry⟩
    · exact ⟨check, Kept.quiet hI hH (Quiet.todo s _), hs⟩
  | advance answer =>
    dsimp only [Sessions.step, Sessions.advance]
    split
    · exact ⟨check, ⟨nofun, hI, hH⟩, hs⟩
    · next op rest htodo => exact perform_onCourse hI hH htodo hs answer
  | forward link =>
    exact ⟨check, hI.kept_send hH (Quiet.todo s s.todo) (Or.inl rfl), hs⟩
  | additionalConnect handle presented =>
    refine ⟨check, hI.additionalConnect hH handle presented, ?_⟩
    dsimp only [Sessions.step, Sessions.additionalConnect]
    split_ifs <;> exact hs
  | clearExternalHandle =>
    have hq : Quiet s { s with externalHandle := 0 } :=
      ⟨rfl, rfl, rfl, rfl, rfl, Or.inl rfl, Or.inr rfl, fun _ => Or.inl rfl⟩
    exact ⟨check, Kept.quiet hI hH hq, hs⟩
  | teardown => exact ⟨check, Kept.quiet hI hH (Quiet.destroy s s.todo), hs⟩
  | clear key => exact ⟨check, hI.clear hH key, hs⟩

/-! ### Every history -/

/-- Before the first controller does anything: the store is empty. -/
def start (key : ServerKey) (config : ConnectionConfig) : Logged Sessions Event :=
  ⟨{ key := key, config := config }, []⟩

theorem between_start (key : ServerKey) (config : ConnectionConfig) :
    Between (start key config) := by
  have hI : Inv (start key config).state (start key config).log :=
    { known := nofun
      created := Nat.le_refl _
      nativeHandle := Or.inl rfl
      noHandle := rfl
      links := fun _ _ _ hlinks => by cases hlinks
      store := fun _ => rfl
      externalHandle := fun hne => absurd rfl hne }
  exact ⟨.unknown, hI, trivial, rfl⟩

theorem Between.step {x : Logged Sessions Event} (h : Between x) (a : Action) :
    Between (logStep Sessions.step x a) := by
  obtain ⟨check, hkept, hs⟩ := step_onCourse h a
  exact ⟨check, hkept.inv, hkept.holds, hs⟩

/-- The flow changes the store in a verification only. -/
theorem perform_store (s : Sessions) (answer : Answer) (rest : List Op) (op : Op) :
    (s.perform answer rest op).1.store = s.store ∨
      ∃ fingerprintHex, (s.perform answer rest op).1.store =
        (s.store.verify s.key fingerprintHex).1 := by
  cases op with
  | call fn source =>
    by_cases hconnect : fn = .connectWithHub
    · subst hconnect
      left
      dsimp only [Sessions.perform, Sessions.call, Sessions.connectWithHub]
      split_ifs <;> rfl
    by_cases hpeer : fn = .getPeerFingerprint
    · subst hpeer
      exact Or.inr ⟨_, rfl⟩
    · left
      show (s.call _ answer rest fn).1.store = s.store
      rw [call_other hconnect hpeer]
  | create =>
    left
    dsimp only [Sessions.perform]
    split_ifs <;> rfl
  | write w =>
    left
    rcases w with _ | _ | _ | state | _ | _ | _ | _ | _ | _ | _ | _ | _ | _ | _
    case state => cases state <;> rfl
    all_goals rfl
  | _ => exact Or.inl rfl

/-- A stored pin is changed by nothing but `clear`. -/
theorem store_kept {k p : String} (hp : s.store k = some p) (a : Action) :
    (s.step a).1.store k = some p ∨ ∃ key, a = .clear key ∧ key.canonical = k := by
  cases a with
  | controller key config =>
    left
    dsimp only [Sessions.step]
    split_ifs <;> exact hp
  | advance answer =>
    left
    dsimp only [Sessions.step, Sessions.advance]
    split
    · exact hp
    · next op rest _ =>
      rcases perform_store s answer rest op with hsame | ⟨fingerprintHex, hverify⟩
      · rw [hsame]
        exact hp
      · rw [hverify]
        exact Pins.verify_kept hp fingerprintHex
  | additionalConnect handle presented =>
    left
    dsimp only [Sessions.step, Sessions.additionalConnect]
    split_ifs <;> exact hp
  | clear key =>
    by_cases hk : key.canonical = k
    · exact Or.inr ⟨key, rfl, hk⟩
    · left
      show (if k = key.canonical then none else s.store k) = some p
      rw [if_neg (Ne.symm hk), hp]
  | _ => exact Or.inl hp

/-- **Pinning covers the primary links.** In every history, session data is sent over a primary
    link, and a connection becomes `CONNECTED`, only after the fingerprint of that link's one
    handshake was compared with the pin: it matched, or there was no pin and it became the pin if
    there was a fingerprint.  The store holds the pins of the history, and a stored pin is changed
    by nothing but `clear`. -/
theorem sessions_pinned (key : ServerKey) (config : ConnectionConfig) (as : List Action) :
    Checked Pinned (run (logStep Sessions.step) (start key config) as).log ∧
      (∀ k, (run (logStep Sessions.step) (start key config) as).state.store k =
        (pinned k (run (logStep Sessions.step) (start key config) as).log).map
          fun digest => toHex digest.val) ∧
      ∀ a k p, (run (logStep Sessions.step) (start key config) as).state.store k = some p →
        ((run (logStep Sessions.step) (start key config) as).state.step a).1.store k = some p ∨
          ∃ key, a = .clear key ∧ key.canonical = k := by
  have hbetween : Between (run (logStep Sessions.step) (start key config) as) :=
    run_invariant (fun _ a h => h.step a) (between_start key config) as
  refine ⟨?_, ?_, ?_⟩
  · have hempty : Checked Pinned (start key config).log := trivial
    refine checked_of_invariant (I := Between) ?_ ?_ (between_start key config) hempty as
    · exact fun x a h => h.step a
    · intro x a e h he
      obtain ⟨check, hkept, _⟩ := step_onCourse h a
      exact hkept.seen e he
  · obtain ⟨check, hI, _⟩ := hbetween
    exact hI.store
  · intro a k p hp
    exact store_kept hp a

/-- A flow of at most `n` operations, towards a server that presents one certificate. -/
def flow (entry : Entry) (n : ℕ) (presented : Option Digest) : List Action :=
  .start entry :: List.replicate n (.advance { presented := presented })

set_option maxRecDepth 4000 in
-- A connect, a reconnect to the same server, and one to another server.
example :
    (run (logStep Sessions.step) (start ⟨"vpn", "vpn", 443⟩ {})
      (flow .connect 60 (some ⟨List.replicate 32 7, rfl⟩) ++
        flow .attemptReconnect 90 (some ⟨List.replicate 32 7, rfl⟩) ++
        flow .attemptReconnect 90 (some ⟨List.replicate 32 8, rfl⟩))).log.head? =
      some (.verified ⟨"vpn", "vpn", 443⟩ ⟨3, 0⟩ (some ⟨List.replicate 32 8, rfl⟩) .mismatch) := by
  decide +kernel

/-! ### What is not covered -/

/-- An additional link carries session data whatever certificate it presented. -/
theorem additionalConnect_forward (hlinks : s.links s.externalHandle ≠ [])
    (presented : Option Digest) :
    ((s.additionalConnect s.externalHandle presented).1.step
      (.forward (s.links s.externalHandle).length)).2 =
      some (.data ⟨s.externalHandle, (s.links s.externalHandle).length⟩) := by
  unfold Sessions.additionalConnect
  rw [if_neg hlinks]
  apply if_pos
  show _ < (Function.update s.links s.externalHandle _ s.externalHandle).length
  rw [Function.update_self, List.length_append]
  exact Nat.lt_succ_self _

/-- The first connect to an endpoint, whose fingerprint cannot be read: the store answers
    `MISSING`, the flow goes on, and the lease is asked for over the link. -/
def missingFingerprint : List Action :=
  flow .connect 27 (some ⟨List.replicate 32 7, rfl⟩) ++
    .advance { failed := true } :: List.replicate 9 (.advance {})

/-- The events of that history, the latest first. -/
def missingFingerprintLog : List Event :=
  [.data ⟨1, 0⟩,
    .verified ⟨"vpn", "vpn", 443⟩ ⟨1, 0⟩ none .missing,
    .handshake ⟨"vpn", "vpn", 443⟩ ⟨1, 0⟩ (some ⟨List.replicate 32 7, rfl⟩)]

theorem covered_fails_without_fingerprint :
    ¬Checked Covered
      (run (logStep Sessions.step) (start ⟨"vpn", "vpn", 443⟩ {}) missingFingerprint).log := by
  intro h
  have hlog : (run (logStep Sessions.step) (start ⟨"vpn", "vpn", 443⟩ {}) missingFingerprint).log =
      missingFingerprintLog := by decide
  obtain ⟨key, presented, result, earlier, hsuffix, _, hsome, _⟩ := h.head hlog
  -- The one verification saw no fingerprint.
  have hmem := hsuffix.subset List.mem_cons_self
  rcases List.mem_cons.mp hmem with heq | hmem
  · cases heq
    exact hsome rfl
  · cases List.mem_singleton.mp hmem

end SoftEther.Security
