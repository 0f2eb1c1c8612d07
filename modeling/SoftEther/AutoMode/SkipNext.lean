import SoftEther.AutoMode.RunOrder

namespace SoftEther.AutoMode

open Lib

/-!
# Next server (`skipToNextServer`, `skipFromExternal`)

A press of Next on a tunnel that is up tears it down and launches a run over the servers that the
session has not tried. When all have been tried a new cycle begins.

* `untriedServers`, `remainingServers` — the usable servers that are left, and the list of the run;
* `continueSkip` — the continuation of a press, after the teardown;
* `nextFromConnected`, `nextFromExternal` — the press on an own tunnel and on another one;
* `MovesOn` — Next really moves on;
* `movesOn_iff` — on an own tunnel, this needs an untried server, or a server being left that the
  new cycle does not reach.
-/

/-! ### The continuation -/

section Continuation

variable (priorities : List AutoModeProtocol)

/-- The server has a usable protocol. -/
def usable (c : Server) : Bool := !(usableProtocols c.1 priorities).isEmpty

/-- `untried`. -/
def untriedServers (tried : List JavaString) (all : List Server) : List Server :=
  all.filter fun it => decide (serverKey it.1 ∉ tried) && usable priorities it

/-- `remaining`: from the first untried object on, without the servers that were tried. -/
def remainingServers (tried : List JavaString) (untried all : List Server) : List Server :=
  (all.dropWhile fun it => untried.head?.all fun first => it.2 != first.2).filter fun it =>
    decide (serverKey it.1 ∉ tried)

/-- What the continuation of a press comes to. -/
structure Continuation where
  sessionTriedKeys : List JavaString
  remaining : List Server
  newCycle : Bool
  /-- A run is launched over `remaining`; otherwise the state is `ERROR_NO_MORE_UNTRIED`. -/
  launched : Bool
  deriving DecidableEq, Repr

/-- The continuation, once the tried keys are settled. -/
def launchOver (tried : List JavaString) (newCycle : Bool) (all : List Server) : Continuation :=
  let untried := untriedServers priorities tried all
  let remaining := remainingServers tried untried all
  ⟨tried, remaining, newCycle, !(untried.isEmpty || remaining.isEmpty)⟩

/-- The continuation after `adapter.disconnect()`; a new cycle keeps the key `leaving`. -/
def continueSkip (leaving : Option JavaString) (tried : List JavaString) (all : List Server) :
    Continuation :=
  if (untriedServers priorities tried all).isEmpty then
    launchOver priorities leaving.toList true all
  else launchOver priorities tried false all

/-- What the controller keeps of a session while its tunnel is up. -/
structure Session where
  connectedCandidate : Option AutoModeCandidate
  sessionTriedKeys : List JavaString
  deriving DecidableEq, Repr

/-- The critical section of a press on an own tunnel. -/
def Session.press (s : Session) : Session := { s with connectedCandidate := none }

/-- A press on an own tunnel: the continuation runs after the critical section. -/
def nextFromConnected (s : Session) (all : List Server) : Continuation :=
  continueSkip priorities (s.press.connectedCandidate.map serverKey) s.press.sessionTriedKeys all

/-- `serverKey` of an address and a name. -/
def serverKeyOf (ip hostname : Option JavaString) : JavaString :=
  serverKey { hostname := hostname, ip := ip, speed := 0, ping := 0, sessions := 0, score := 0 }

/-- The key of a tunnel that the controller does not own, where its stack reports one. -/
def externalKey (ip hostname : Option JavaString) : Option JavaString :=
  if serverKeyOf ip hostname ≠ serverKeyOf none none then some (serverKeyOf ip hostname) else none

/-- The keys that the session has tried: a known tunnel starts it anew. -/
def externalTried (ip hostname : Option JavaString) (tried : List JavaString) : List JavaString :=
  match externalKey ip hostname with
  | none => tried
  | some key => [key]

/-- A press on another tunnel. -/
def nextFromExternal (ip hostname : Option JavaString) (tried : List JavaString)
    (all : List Server) : Continuation :=
  continueSkip priorities (externalKey ip hostname) (externalTried ip hostname tried) all

/-! ### Moving on -/

/-- **Next really moves on.** A run is launched; it walks the servers that the session has not
    tried, all of those with a usable protocol among them, and dials the first of them in its
    order that can be dialled. A new cycle begins only when all usable servers were tried, and
    leaves out the server being left, which the run then does not dial. -/
structure MovesOn (all : List Server) (tried : List JavaString) (left : Option JavaString)
    (k : Continuation) : Prop where
  launched : k.launched = true
  session : k.newCycle = false → k.sessionTriedKeys = tried
  cycle : k.newCycle = true → ∀ c ∈ all, usable priorities c = true → serverKey c.1 ∈ tried
  untried : ∀ c ∈ k.remaining, serverKey c.1 ∉ k.sessionTriedKeys
  complete : ∀ c ∈ all, usable priorities c = true → serverKey c.1 ∉ k.sessionTriedKeys →
    c ∈ k.remaining
  walked : ∀ (w : RunReading), ∀ c ∈ runOrder w (k.remaining.map Prod.fst),
    serverKey c.1 ∉ k.sessionTriedKeys
  firstDial : ∀ w : RunReading, (dials w (k.remaining.map Prod.fst)).head? =
    (distinctBy (fun c : Server => serverKey c.1)
      (runOrder w (k.remaining.map Prod.fst))).find? (dialable w)
  leavesOut : k.newCycle = true → ∀ key ∈ left, ∀ c ∈ k.remaining, serverKey c.1 ≠ key
  notDialled : k.newCycle = true → ∀ key ∈ left, ∀ w : RunReading,
    ∀ c ∈ dials w (k.remaining.map Prod.fst), serverKey c.1 ≠ key

/-- Two servers, told apart by their keys, have a usable protocol. -/
def TwoUsable (all : List Server) : Prop :=
  ∃ a ∈ all, ∃ b ∈ all, usable priorities a = true ∧ usable priorities b = true ∧
    serverKey a.1 ≠ serverKey b.1

/-- A usable server is left that the session has not tried. -/
def AnyUntried (tried : List JavaString) (all : List Server) : Prop :=
  ∃ c ∈ all, usable priorities c = true ∧ serverKey c.1 ∉ tried

/-- The server being left is not in the list from its first usable server on. -/
def LeftBehind (left : Option JavaString) (all : List Server) : Prop :=
  ∀ key ∈ left, ∀ c ∈ all.dropWhile fun c => !usable priorities c, serverKey c.1 ≠ key

end Continuation

/-! ### The remaining servers -/

section Remaining

variable {priorities : List AutoModeProtocol} {tried : List JavaString} {all : List Server}

variable {c : Server} {leaving : Option JavaString}

theorem mem_untriedServers : c ∈ untriedServers priorities tried all ↔
      c ∈ all ∧ serverKey c.1 ∉ tried ∧ usable priorities c = true := by
  simp [untriedServers]

theorem untriedServers_isEmpty :
    (untriedServers priorities tried all).isEmpty = true ↔ ¬ AnyUntried priorities tried all := by
  rw [List.isEmpty_iff, List.eq_nil_iff_forall_not_mem]
  constructor
  · rintro hnone ⟨c, hc, husable, hkey⟩
    exact hnone c (mem_untriedServers.mpr ⟨hc, hkey, husable⟩)
  · intro hnone c hc
    obtain ⟨hall, hkey, husable⟩ := mem_untriedServers.mp hc
    exact hnone ⟨c, hall, husable, hkey⟩

/-- Dropping up to the first object that satisfies `p` is dropping while `p` fails. -/
theorem dropWhile_first {p : Server → Bool} (h : all.Pairwise fun a b => a.2 < b.2) :
    (all.dropWhile fun it => (all.filter p).head?.all fun first => it.2 != first.2) =
      all.dropWhile fun it => !p it := by
  cases hfirst : all.filter p with
  | nil =>
    have hnone : ∀ c ∈ all, (!p c) = true := by simpa using List.filter_eq_nil_iff.mp hfirst
    rw [List.dropWhile_eq_nil_iff.mpr hnone]
    exact List.dropWhile_eq_nil_iff.mpr fun _ _ => rfl
  | cons u us =>
    obtain ⟨before, after, rfl, hbefore, hu, -⟩ := List.filter_eq_cons_iff.mp hfirst
    have hplaces : ∀ c ∈ before, c.2 < u.2 := fun c hc =>
      (List.pairwise_append.mp h).2.2 c hc u List.mem_cons_self
    have hother : ∀ c ∈ before, (c.2 != u.2) = true := by
      intro c hc
      rw [bne_iff_ne]
      exact Nat.ne_of_lt (hplaces c hc)
    simp only [List.head?_cons, Option.all_some]
    rw [List.dropWhile_append_of_pos hother, List.dropWhile_cons_of_neg (by simp),
      List.dropWhile_append_of_pos (by simpa using hbefore),
      List.dropWhile_cons_of_neg (by simp [hu])]

/-- Up to the first untried object, no server is untried. -/
theorem remainingServers_eq (h : all.Pairwise fun a b => a.2 < b.2) :
    remainingServers tried (untriedServers priorities tried all) all =
      (all.dropWhile fun it =>
        !(decide (serverKey it.1 ∉ tried) && usable priorities it)).filter fun it =>
          decide (serverKey it.1 ∉ tried) := by
  unfold remainingServers untriedServers
  rw [dropWhile_first h]

/-- **Nothing that is left is dropped.** -/
theorem mem_remainingServers (h : all.Pairwise fun a b => a.2 < b.2) (hc : c ∈ all)
    (husable : usable priorities c = true) (hkey : serverKey c.1 ∉ tried) :
    c ∈ remainingServers tried (untriedServers priorities tried all) all := by
  rw [remainingServers_eq h, List.mem_filter]
  refine ⟨?_, by simpa using hkey⟩
  have hsplit := List.takeWhile_append_dropWhile
    (p := fun it => !(decide (serverKey it.1 ∉ tried) && usable priorities it)) (l := all)
  rw [← hsplit, List.mem_append] at hc
  refine hc.resolve_left fun hdropped => ?_
  have hstop := List.mem_takeWhile_imp hdropped
  simp [hkey, husable] at hstop

theorem not_mem_tried (hc : c ∈ remainingServers tried
    (untriedServers priorities tried all) all) : serverKey c.1 ∉ tried := by
  unfold remainingServers at hc
  simpa using (List.mem_filter.mp hc).2

/-! ### The launched run -/

/-- What a run that was launched over untried servers does. -/
theorem launchOver_launched (h : all.Pairwise fun a b => a.2 < b.2) {newCycle : Bool}
    (hany : AnyUntried priorities tried all) :
    (launchOver priorities tried newCycle all).launched = true := by
  obtain ⟨c, hc, husable, hkey⟩ := hany
  have huntried : c ∈ untriedServers priorities tried all :=
    mem_untriedServers.mpr ⟨hc, hkey, husable⟩
  have hremaining := mem_remainingServers h hc husable hkey
  simp only [launchOver, Bool.not_eq_true', Bool.or_eq_false_iff, List.isEmpty_eq_false_iff]
  exact ⟨List.ne_nil_of_mem huntried, List.ne_nil_of_mem hremaining⟩

/-- The servers that a run walks have the keys of those it was given. -/
theorem exists_mem_of_mem_runOrder {w : RunReading} {remaining : List Server}
    (hc : c ∈ runOrder w (remaining.map Prod.fst)) :
    ∃ d ∈ remaining, serverKey c.1 = serverKey d.1 := by
  obtain ⟨a, ha, heq⟩ := mem_runOrder w hc
  obtain ⟨d, hd, rfl⟩ := List.mem_map.mp ha
  exact ⟨d, hd, by rw [heq, serverKey_withActiveRtt]⟩

theorem exists_mem_of_mem_dials {w : RunReading} {remaining : List Server}
    (hc : c ∈ dials w (remaining.map Prod.fst)) :
    ∃ d ∈ remaining, serverKey c.1 = serverKey d.1 := by
  rw [dials_eq] at hc
  exact exists_mem_of_mem_runOrder ((distinctBy_sublist _ _).mem (List.mem_of_mem_filter hc))

/-- **The continuation over settled keys moves on**, if it leaves out the server being left. -/
theorem movesOn_launchOver (h : all.Pairwise fun a b => a.2 < b.2) {newCycle : Bool}
    {before : List JavaString} {left : Option JavaString}
    (hany : AnyUntried priorities tried all)
    (hsession : newCycle = false → tried = before)
    (hcycle : newCycle = true → ¬ AnyUntried priorities before all)
    (hleft : newCycle = true → ∀ key ∈ left,
      ∀ c ∈ (launchOver priorities tried newCycle all).remaining, serverKey c.1 ≠ key) :
    MovesOn priorities all before left (launchOver priorities tried newCycle all) where
  launched := launchOver_launched h hany
  session := hsession
  cycle hnew c hc husable := by
    by_contra hkey
    exact hcycle hnew ⟨c, hc, husable, hkey⟩
  untried c hc := not_mem_tried hc
  complete c hc husable hkey := mem_remainingServers h hc husable hkey
  walked w c hc := by
    obtain ⟨d, hd, heq⟩ := exists_mem_of_mem_runOrder hc
    rw [heq]
    exact not_mem_tried hd
  firstDial w := by rw [dials_eq, List.head?_filter]
  leavesOut := hleft
  notDialled hnew key hkey w c hc := by
    obtain ⟨d, hd, heq⟩ := exists_mem_of_mem_dials hc
    rw [heq]
    exact hleft hnew key hkey d hd

theorem continueSkip_of_untried (hany : AnyUntried priorities tried all) :
    continueSkip priorities leaving tried all = launchOver priorities tried false all := by
  have hsome : ¬ (untriedServers priorities tried all).isEmpty = true := by
    rw [untriedServers_isEmpty]
    exact not_not_intro hany
  rw [continueSkip, if_neg hsome]

theorem continueSkip_of_tried (hall : ¬ AnyUntried priorities tried all) :
    continueSkip priorities leaving tried all =
      launchOver priorities leaving.toList true all := by
  rw [continueSkip, if_pos (untriedServers_isEmpty.mpr hall)]

/-- With two usable servers, one is untried when at most one key was. -/
theorem TwoUsable.anyUntried (h : TwoUsable priorities all) :
    AnyUntried priorities leaving.toList all := by
  obtain ⟨a, ha, b, hb, husableA, husableB, hne⟩ := h
  cases leaving with
  | none => exact ⟨a, ha, husableA, List.not_mem_nil⟩
  | some key =>
    by_cases hkey : serverKey a.1 = key
    · exact ⟨b, hb, husableB, by simpa [hkey] using fun h => hne (hkey.trans h.symm)⟩
    · exact ⟨a, ha, husableA, by simpa using hkey⟩

/-- A new cycle that keeps no key reaches all servers from the first usable one on. -/
theorem remaining_of_no_key (h : all.Pairwise fun a b => a.2 < b.2) :
    (launchOver priorities [] true all).remaining =
      all.dropWhile fun c => !usable priorities c := by
  have heq : (launchOver priorities [] true all).remaining = _ := remainingServers_eq h
  rw [heq]
  simp

/-! ### The two presses -/

/-- **Next on an own tunnel** moves on exactly when it need not start a new cycle, or the server
    being left is not reached by it: the critical section has forgotten that server. -/
theorem movesOn_connected_iff (h : all.Pairwise fun a b => a.2 < b.2) (s : Session)
    (htwo : TwoUsable priorities all) :
    MovesOn priorities all s.sessionTriedKeys (s.connectedCandidate.map serverKey)
        (nextFromConnected priorities s all) ↔
      AnyUntried priorities s.sessionTriedKeys all ∨
        LeftBehind priorities (s.connectedCandidate.map serverKey) all := by
  have hnext : nextFromConnected priorities s all =
      continueSkip priorities none s.sessionTriedKeys all := rfl
  rw [hnext]
  by_cases hany : AnyUntried priorities s.sessionTriedKeys all
  · rw [continueSkip_of_untried hany]
    refine iff_of_true (movesOn_launchOver h hany (fun _ => rfl) ?_ ?_) (Or.inl hany)
    · intro hnew
      cases hnew
    · intro hnew
      cases hnew
  · rw [continueSkip_of_tried hany]
    constructor
    · intro hmoves
      right
      intro key hkey c hc
      rw [← remaining_of_no_key h] at hc
      exact hmoves.leavesOut rfl key hkey c hc
    · rintro (hsome | hbehind)
      · exact absurd hsome hany
      · refine movesOn_launchOver h htwo.anyUntried ?_ (fun _ => hany) ?_
        · intro hold
          cases hold
        · intro _ key hkey c hc
          have hreached : c ∈ all.dropWhile fun c => !usable priorities c := by
            rw [← remaining_of_no_key h]
            exact hc
          exact hbehind key hkey c hreached

/-- **Next on another tunnel** moves on. -/
theorem movesOn_external (h : all.Pairwise fun a b => a.2 < b.2) (ip hostname : Option JavaString)
    (htwo : TwoUsable priorities all) :
    MovesOn priorities all (externalTried ip hostname tried) (externalKey ip hostname)
      (nextFromExternal priorities ip hostname tried all) := by
  unfold nextFromExternal
  by_cases hany : AnyUntried priorities (externalTried ip hostname tried) all
  · rw [continueSkip_of_untried hany]
    refine movesOn_launchOver h hany (fun _ => rfl) ?_ ?_
    · intro hnew
      cases hnew
    · intro hnew
      cases hnew
  · rw [continueSkip_of_tried hany]
    refine movesOn_launchOver h htwo.anyUntried ?_ (fun _ => hany) ?_
    · intro hold
      cases hold
    · intro _ key hkey c hc hleft
      -- the key of the tunnel is kept by the new cycle
      apply not_mem_tried hc
      rw [hleft, Option.mem_def.mp hkey]
      exact List.mem_singleton_self key

end Remaining

/-- **Next moves on**, on an own tunnel exactly when a usable server is untried or the new cycle
    does not reach the server being left, and always on another tunnel. -/
theorem movesOn_iff (priorities : List AutoModeProtocol) (all : List AutoModeCandidate)
    (s : Session) (ip hostname : Option JavaString) (h : TwoUsable priorities all.zipIdx) :
    (MovesOn priorities all.zipIdx s.sessionTriedKeys (s.connectedCandidate.map serverKey)
        (nextFromConnected priorities s all.zipIdx) ↔
      AnyUntried priorities s.sessionTriedKeys all.zipIdx ∨
        LeftBehind priorities (s.connectedCandidate.map serverKey) all.zipIdx) ∧
    MovesOn priorities all.zipIdx (externalTried ip hostname s.sessionTriedKeys)
      (externalKey ip hostname)
      (nextFromExternal priorities ip hostname s.sessionTriedKeys all.zipIdx) :=
  ⟨movesOn_connected_iff (zipIdx_places all) s h,
    movesOn_external (zipIdx_places all) ip hostname h⟩

/-! ### A new cycle with the server being left in it -/

/-- Another server that SoftEther reaches over TCP. -/
def otherServer : AutoModeCandidate := { tcpServer with ip := some (JavaString.ofChars ['c']) }

/-- A session that has tried both servers, and is connected to the first. -/
def triedSession : Session :=
  ⟨some tcpServer, [serverKey otherServer, serverKey tcpServer]⟩

/-- The new cycle begins with the server being left. -/
theorem left_server_not_excluded :
    ¬ MovesOn [.SOFTETHER_TCP] [tcpServer, otherServer].zipIdx triedSession.sessionTriedKeys
        (triedSession.connectedCandidate.map serverKey)
        (nextFromConnected [.SOFTETHER_TCP] triedSession [tcpServer, otherServer].zipIdx) ∧
      (nextFromConnected [.SOFTETHER_TCP] triedSession [tcpServer, otherServer].zipIdx).remaining =
        [(tcpServer, 0), (otherServer, 1)] := by
  have hremaining : (nextFromConnected [.SOFTETHER_TCP] triedSession
      [tcpServer, otherServer].zipIdx).remaining = [(tcpServer, 0), (otherServer, 1)] := by
    decide
  refine ⟨?_, hremaining⟩
  intro h
  refine h.leavesOut (by decide) (serverKey tcpServer) rfl (tcpServer, 0) ?_ rfl
  rw [hremaining]
  exact List.mem_cons_self

/-- A press while one of the servers is untried. -/
theorem movesOn_iff_untried :
    MovesOn [.SOFTETHER_TCP] [tcpServer, otherServer].zipIdx [serverKey tcpServer]
      (some (serverKey tcpServer))
      (nextFromConnected [.SOFTETHER_TCP] ⟨some tcpServer, [serverKey tcpServer]⟩
        [tcpServer, otherServer].zipIdx) :=
  (movesOn_iff [.SOFTETHER_TCP] [tcpServer, otherServer] ⟨some tcpServer, [serverKey tcpServer]⟩
    none none ⟨(tcpServer, 0), by decide, (otherServer, 1), by decide, by decide, by decide,
      by decide⟩).1.mpr (Or.inl ⟨(otherServer, 1), by decide, by decide, by decide⟩)

end SoftEther.AutoMode
