import SoftEther.Links.Additional

namespace SoftEther.Links

open Lib

/-!
# The accounting of the additional connections

* `Accounted` — the counter is the number of active slots, and a read failure retired only
  the link it was observed on;
* `RetiresOwn` — the slot a step retires is still the one its path looked at;
* `LinksInv` — the invariant of the table, with one lemma for each way it changes;
* `additional_accounting_iff` — the accounting holds through a run exactly when every step
  meets the condition.
-/

variable {ι : Type}

/-! ### The accounting and its condition -/

/-- **The accounting.** The counter is the number of active slots, and what a read failure
    retired was the link it was observed on. -/
structure Accounted (s : Additional ι) : Prop where
  num : s.numAdditional = occupied TcpSock.active s.additional
  owner : ∀ e ∈ s.retired, ∀ l, e.2 = some l → l = e.1

/-- The slot a step retires is still the one the path looked at: a failed read finds its link
    in the captured slot, and a failover that finds its `ssl` and `fd` there finds the slot
    active. -/
def RetiresOwn (useSslData : Bool) (s : Additional ι) : LinkAction ι → Prop
  | .rxRead th answer =>
    ∀ cap, s.receivers th = .reading cap →
      dataReadAllSock useSslData s.additional cap answer = false →
      s.additional.link cap.slot = some cap.link
  | .txFail =>
    ∀ cap, s.transmit = some cap → s.additional.holds cap = true →
      (s.additional cap.slot).active = true
  | _ => True

/-! ### The invariant of the table -/

/-- A captured link is an old one, and its slot is active for as long as it holds the link. -/
structure Capture.Known (t : SlotTable) (nextLink : ℕ) (cap : Capture) : Prop where
  old : cap.link < nextLink
  active : t.link cap.slot = some cap.link → (t cap.slot).active = true

/-- What holds of the table, the connect, the receive passes and the numbering of the links
    before every step. -/
structure LinksInv (t : SlotTable) (c : Connecting) (r : ι → Receiver) (nextLink : ℕ) : Prop where
  held : ∀ i, (t i).active = true → (t i).sock.isSome = true
  unused : ∀ i, c.slot? = some i → (t i).active = false
  ready : ∀ i, c = .filled i → (t i).sock.isSome = true
  fresh : ∀ i l, t.link i = some l → l < nextLink
  known : ∀ th cap, (r th).capture? = some cap → cap.Known t nextLink

/-- The invariant of a state. -/
def Additional.Inv (s : Additional ι) : Prop :=
  LinksInv s.additional s.connecting s.receivers s.nextLink

variable {t : SlotTable} {c : Connecting} {r : ι → Receiver} {n : ℕ}

variable {i : SlotIndex} {cap : Capture}

theorem SlotTable.link_eq_some {k : Sock} (h : (t i).sock = some k) : t.link i = some k.link := by
  rw [SlotTable.link, h]
  rfl

/-- A capture of an active slot is known. -/
theorem captureSlot_known (h : LinksInv t c r n) {allowed : Sock → Bool}
    (hcap : captureSlot t allowed i = some cap) : cap.Known t n := by
  unfold captureSlot at hcap
  split at hcap
  · cases hcap
  · next k hk =>
    split at hcap
    · next hactive =>
      simp only [Bool.and_eq_true] at hactive
      simp only [Option.some.injEq] at hcap
      subst hcap
      exact ⟨h.fresh i k.link (SlotTable.link_eq_some hk), fun _ => hactive.1⟩
    · cases hcap

/-- A receiving thread moves, with at most a capture that is known. -/
theorem LinksInv.move [DecidableEq ι] (h : LinksInv t c r n) (th : ι) {next : Receiver}
    (hnext : ∀ cap, next.capture? = some cap → cap.Known t n) :
    LinksInv t c (Function.update r th next) n where
  held := h.held
  unused := h.unused
  ready := h.ready
  fresh := h.fresh
  known := by
    intro th' cap hcap
    by_cases hth : th' = th
    · subst hth
      rw [Function.update_self] at hcap
      exact hnext cap hcap
    · rw [Function.update_of_ne hth] at hcap
      exact h.known th' cap hcap

/-- The connect moves on without touching the table. -/
theorem LinksInv.connect (h : LinksInv t c r n) {c' : Connecting}
    (hunused : ∀ i, c'.slot? = some i → (t i).active = false) (hready : ∀ i, c' ≠ .filled i) :
    LinksInv t c' r n where
  held := h.held
  unused := hunused
  ready := fun i hi => absurd hi (hready i)
  fresh := h.fresh
  known := h.known

/-- A slot that the connect has not chosen is retired. -/
theorem LinksInv.retire (h : LinksInv t c r n) (hi : c.slot? ≠ some i) :
    LinksInv (retireSlot t i) c r n := by
  have hlink : ∀ {j l}, (retireSlot t i).link j = some l → j ≠ i ∧ t.link j = some l := by
    intro j l hl
    by_cases hj : j = i
    · subst hj
      rw [SlotTable.link, retireSlot_self] at hl
      cases hl
    · rw [SlotTable.link, retireSlot_of_ne t hj] at hl
      exact ⟨hj, hl⟩
  refine ⟨?_, ?_, ?_, ?_, ?_⟩
  · intro j hj
    by_cases hji : j = i
    · subst hji
      rw [retireSlot_self] at hj
      cases hj
    · rw [retireSlot_of_ne t hji] at hj ⊢
      exact h.held j hj
  · intro j hj
    have hji : j ≠ i := by
      rintro rfl
      exact hi hj
    rw [retireSlot_of_ne t hji]
    exact h.unused j hj
  · intro j hj
    have hji : j ≠ i := by
      rintro rfl
      exact hi (by rw [hj]; rfl)
    rw [retireSlot_of_ne t hji]
    exact h.ready j hj
  · intro j l hl
    exact h.fresh j l (hlink hl).2
  · intro th cap hcap
    refine ⟨(h.known th cap hcap).old, ?_⟩
    intro hl
    obtain ⟨hne, hold⟩ := hlink hl
    rw [retireSlot_of_ne t hne]
    exact (h.known th cap hcap).active hold

/-- The chosen slot gets its connection, which no pass has captured. -/
theorem LinksInv.fill (h : LinksInv t (.picked i) r n) (ssl fd direction : ℕ) :
    LinksInv (Function.update t i { t i with sock := some ⟨ssl, fd, direction, n⟩ }) (.filled i) r
      (n + 1) := by
  have hfree : (t i).active = false := h.unused i rfl
  refine ⟨?_, ?_, ?_, ?_, ?_⟩
  · intro j hj
    by_cases hji : j = i
    · subst hji
      rw [Function.update_self]
      rfl
    · rw [Function.update_of_ne hji] at hj ⊢
      exact h.held j hj
  · intro j hj
    cases hj
    rw [Function.update_self]
    exact hfree
  · intro j hj
    cases hj
    rw [Function.update_self]
    rfl
  · intro j l hl
    by_cases hji : j = i
    · subst hji
      rw [SlotTable.link, Function.update_self] at hl
      cases hl
      exact Nat.lt_succ_self n
    · rw [SlotTable.link, Function.update_of_ne hji] at hl
      exact Nat.lt_succ_of_lt (h.fresh j l hl)
  · intro th cap hcap
    obtain ⟨hold, hactive⟩ := h.known th cap hcap
    refine ⟨Nat.lt_succ_of_lt hold, ?_⟩
    intro hl
    by_cases hslot : cap.slot = i
    · -- the new link is younger than the captured one
      rw [SlotTable.link, hslot, Function.update_self] at hl
      simp only [Option.map_some, Option.some.injEq] at hl
      omega
    · rw [SlotTable.link, Function.update_of_ne hslot] at hl
      rw [Function.update_of_ne hslot]
      exact hactive hl

/-- The filled slot is switched on. -/
theorem LinksInv.activate (h : LinksInv t (.filled i) r n) :
    LinksInv (Function.update t i { t i with active := true }) .idle r n := by
  have hlink : ∀ j, SlotTable.link (Function.update t i { t i with active := true }) j =
      t.link j := by
    intro j
    by_cases hji : j = i
    · subst hji
      rw [SlotTable.link, Function.update_self, SlotTable.link]
    · rw [SlotTable.link, Function.update_of_ne hji, SlotTable.link]
  refine ⟨?_, nofun, nofun, ?_, ?_⟩
  · intro j hj
    by_cases hji : j = i
    · subst hji
      rw [Function.update_self]
      exact h.ready j rfl
    · rw [Function.update_of_ne hji] at hj ⊢
      exact h.held j hj
  · intro j l hl
    rw [hlink] at hl
    exact h.fresh j l hl
  · intro th cap hcap
    refine ⟨(h.known th cap hcap).old, ?_⟩
    intro hl
    by_cases hslot : cap.slot = i
    · rw [hslot, Function.update_self]
    · rw [hlink] at hl
      rw [Function.update_of_ne hslot]
      exact (h.known th cap hcap).active hl

/-- Every active slot is emptied while no pass is running. -/
theorem LinksInv.close (h : LinksInv t .idle r n) (hidle : ∀ th, (r th).capture? = none) :
    LinksInv (fun i => if (t i).active then TcpSock.empty else t i) .idle r n where
  held := by
    intro j hj
    split at hj
    · cases hj
    · next hfree => exact absurd hj hfree
  unused := nofun
  ready := nofun
  fresh := by
    intro j l hl
    rw [SlotTable.link] at hl
    split at hl
    · cases hl
    · exact h.fresh j l hl
  known := by
    intro th cap hcap
    rw [hidle th] at hcap
    cases hcap

/-! ### What each path does -/

/-- A state between two steps: the table is sound and the books are right. -/
structure Additional.Good (s : Additional ι) : Prop where
  inv : s.Inv
  accounted : Accounted s

variable {s : Additional ι}

/-- The connect moves on without touching the table. -/
theorem Additional.Good.connect (h : s.Good) {c' : Connecting} {slot : Option SlotIndex}
    {failed : ℕ} (hunused : ∀ i, c'.slot? = some i → (s.additional i).active = false)
    (hready : ∀ i, c' ≠ .filled i) :
    Additional.Good { s with
      connecting := c', additionalConnectSlot := slot, additionalFailedCount := failed } :=
  ⟨LinksInv.connect h.inv hunused hready, ⟨h.accounted.num, h.accounted.owner⟩⟩

/-- The send path moves on without touching the table. -/
theorem Additional.Good.transmit (h : s.Good) (cap : Option Capture) :
    Additional.Good { s with transmit := cap } :=
  ⟨h.inv, ⟨h.accounted.num, h.accounted.owner⟩⟩

theorem Additional.initial_good : (Additional.initial : Additional ι).Good where
  inv := ⟨nofun, nofun, nofun, nofun, nofun⟩
  accounted := by
    refine ⟨?_, nofun⟩
    rw [occupied_eq_zero (fun _ => rfl)]
    rfl

theorem maintainConnect_good (maxConnection : ℤ) (h : s.Good) :
    (maintainConnect maxConnection s).Good := by
  unfold maintainConnect
  split
  · split
    · exact h
    · exact h.connect nofun nofun
  · exact h

theorem establishFirst_good (h : s.Good) : (establishFirst s).Good := by
  unfold establishFirst
  split
  · exact h.connect nofun nofun
  · exact h

theorem connectPick_good (h : s.Good) : (connectPick s).Good := by
  unfold connectPick
  split
  · split
    · exact h.connect nofun nofun
    · next i hfree =>
      apply h.connect
      · intro j hj
        cases hj
        exact firstFree_free hfree
      · exact nofun
  · exact h

theorem connectFail_good (h : s.Good) : (connectFail s).Good := by
  unfold connectFail
  split
  · exact h.connect nofun nofun
  · exact h

theorem connectFill_good (h : s.Good) (ssl fd direction : ℕ) :
    (connectFill s ssl fd direction).Good := by
  unfold connectFill
  split
  · next i hpicked =>
    have hinv : LinksInv s.additional (.picked i) s.receivers s.nextLink := hpicked ▸ h.inv
    refine ⟨hinv.fill ssl fd direction, ?_, h.accounted.owner⟩
    -- the slot stays inactive until its fields are written
    dsimp only
    rw [occupied_same (by rfl)]
    exact h.accounted.num
  · exact h

theorem connectActivate_good (h : s.Good) : (connectActivate s).Good := by
  unfold connectActivate
  split
  · next i hfilled =>
    have hinv : LinksInv s.additional (.filled i) s.receivers s.nextLink := hfilled ▸ h.inv
    refine ⟨hinv.activate, ?_, h.accounted.owner⟩
    have hfree : (s.additional i).active = false := hinv.unused i rfl
    dsimp only
    rw [occupied_fill hfree (by rfl), h.accounted.num]
    push_cast
    rfl
  · exact h

/-- An active slot is retired and counted off. -/
theorem Additional.Good.retire (h : s.Good) (hi : (s.additional i).active = true) :
    Additional.Good { s with
      additional := retireSlot s.additional i, numAdditional := s.numAdditional - 1 } := by
  refine ⟨LinksInv.retire h.inv ?_, ?_, h.accounted.owner⟩
  · intro hslot
    rw [h.inv.unused i hslot] at hi
    cases hi
  · have hclear := occupied_clear (b := TcpSock.empty) hi rfl
    have hnum := h.accounted.num
    unfold retireSlot
    dsimp only
    omega

section Receivers

variable [DecidableEq ι]

/-- A receiving thread moves, with at most a capture that is known. -/
theorem Additional.Good.moveTo (h : s.Good) (th : ι) {next : Receiver}
    (hnext : ∀ cap, next.capture? = some cap → cap.Known s.additional s.nextLink) :
    (s.moveTo th next).Good :=
  ⟨LinksInv.move h.inv th hnext, ⟨h.accounted.num, h.accounted.owner⟩⟩

theorem maintainPoll_good (h : s.Good) (th : ι) (i : SlotIndex) : (maintainPoll s th i).Good := by
  unfold maintainPoll
  split
  · split
    · exact h.moveTo th nofun
    · exact h
  · exact h

/-- The check under the lock makes the cleanup harmless, whatever happened since `poll`. -/
theorem maintainRetire_good (h : s.Good) (th : ι) : (maintainRetire s th).Good := by
  unfold maintainRetire
  split
  · next i fd _ =>
    have hmoved : (s.moveTo th .idle).Good := h.moveTo th nofun
    split
    · next hcheck =>
      simp only [Bool.and_eq_true] at hcheck
      exact hmoved.retire hcheck.1
    · exact hmoved
  · exact h

theorem rxSelect_good (h : s.Good) (th : ι) (i : SlotIndex) : (rxSelect s th i).Good := by
  unfold rxSelect
  split
  · next cap _ hcap =>
    apply h.moveTo th
    intro cap' hcap'
    cases hcap'
    exact captureSlot_known h.inv hcap
  · exact h

theorem rxRevalidate_good (h : s.Good) (th : ι) : (rxRevalidate s th).Good := by
  unfold rxRevalidate
  split
  · next cap hsel =>
    split
    · apply h.moveTo th
      intro cap' hcap'
      cases hcap'
      exact h.inv.known th cap (by rw [hsel]; rfl)
    · exact h.moveTo th nofun
  · exact h

theorem rxDone_good (h : s.Good) (th : ι) : (rxDone s th).Good := by
  unfold rxDone
  split
  · exact h
  · exact h.moveTo th nofun

end Receivers

theorem txSelect_good (h : s.Good) (i : SlotIndex) : (txSelect s i).Good := by
  unfold txSelect
  split
  · exact h.transmit _
  · exact h

theorem closeAdditional_good [Fintype ι] (h : s.Good) : (closeAdditional s).Good := by
  unfold closeAdditional
  split
  · next hguard =>
    obtain ⟨hconnect, -, hidle⟩ := hguard
    have hinv : LinksInv s.additional .idle s.receivers s.nextLink := hconnect ▸ h.inv
    have hclose := hinv.close hidle
    refine ⟨?_, ?_, h.accounted.owner⟩
    · unfold Additional.Inv
      dsimp only
      rw [hconnect]
      exact hclose
    · dsimp only
      rw [occupied_eq_zero]
      · rfl
      · intro j
        split
        · rfl
        · next hfree => exact Bool.eq_false_iff.mpr hfree
  · exact h

/-! ### The two paths that can go wrong -/

/-- **A read failure** keeps the accounting exactly when the slot still holds the link that was
    read: an emptied slot is counted off a second time, and another link would be retired in
    its place. -/
theorem closeFailedAdditionalSocket_accounted_iff [DecidableEq ι] (h : s.Good) {th : ι}
    (hth : s.receivers th = .reading cap) : Accounted (closeFailedAdditionalSocket s th cap) ↔
      s.additional.link cap.slot = some cap.link := by
  have hnum := h.accounted.num
  constructor
  · intro hafter
    cases hlink : s.additional.link cap.slot with
    | none =>
      -- an empty slot is not active, so the counter drops and the number of slots does not
      exfalso
      have hsock : (s.additional cap.slot).sock = none := Option.map_eq_none_iff.mp hlink
      have hfree : (s.additional cap.slot).active = false := by
        rw [Bool.eq_false_iff]
        intro hactive
        have hsome := h.inv.held cap.slot hactive
        rw [hsock] at hsome
        cases hsome
      have hsame := occupied_same (b := TcpSock.empty) (p := TcpSock.active) (t := s.additional)
        (i := cap.slot) hfree
      have hcount : s.numAdditional - 1 =
          occupied TcpSock.active (retireSlot s.additional cap.slot) := hafter.num
      rw [retireSlot, hsame] at hcount
      omega
    | some l =>
      have hmem : (cap.link, s.additional.link cap.slot) ∈
          (closeFailedAdditionalSocket s th cap).retired :=
        List.mem_append_right _ (List.mem_singleton_self _)
      rw [hafter.owner _ hmem l hlink]
  · intro hlink
    have hactive : (s.additional cap.slot).active = true :=
      (h.inv.known th cap (by rw [hth]; rfl)).active hlink
    refine ⟨(h.retire hactive).accounted.num, ?_⟩
    intro e he l hl
    rcases List.mem_append.mp he with hold | hnew
    · exact h.accounted.owner e hold l hl
    · rw [List.mem_singleton] at hnew
      subst hnew
      dsimp only at hl ⊢
      rw [hlink] at hl
      exact (Option.some.inj hl).symm

theorem closeFailedAdditionalSocket_good [DecidableEq ι] (h : s.Good) {th : ι}
    (hth : s.receivers th = .reading cap) (hlink : s.additional.link cap.slot = some cap.link) :
    (closeFailedAdditionalSocket s th cap).Good := by
  have hactive : (s.additional cap.slot).active = true :=
    (h.inv.known th cap (by rw [hth]; rfl)).active hlink
  have hmoved : (s.moveTo th .idle).Good := h.moveTo th nofun
  exact ⟨(hmoved.retire hactive).inv,
    (closeFailedAdditionalSocket_accounted_iff h hth).mpr hlink⟩

/-- **A failover** that finds its `ssl` and `fd` in the slot keeps the accounting exactly when
    the slot is active: a new connection may have got the old values and not be counted yet. -/
theorem txFail_accounted_iff (h : s.Good) :
    Accounted (txFail s) ↔
      ∀ cap, s.transmit = some cap → s.additional.holds cap = true →
        (s.additional cap.slot).active = true := by
  unfold txFail
  split
  · next htx =>
    constructor
    · intro _ cap hcap
      rw [htx] at hcap
      cases hcap
    · exact fun _ => h.accounted
  · next cap htx =>
    split
    · next hholds =>
      have hupd := occupied_update TcpSock.active s.additional cap.slot TcpSock.empty
      have hempty : TcpSock.empty.active.toNat = 0 := rfl
      have hnum := h.accounted.num
      constructor
      · intro hafter cap' hcap' _
        rw [htx] at hcap'
        cases hcap'
        have hcount : s.numAdditional - 1 =
            occupied TcpSock.active (Function.update s.additional cap.slot TcpSock.empty) :=
          hafter.num
        cases hactive : (s.additional cap.slot).active with
        | true => rfl
        | false =>
          rw [hactive, Bool.toNat_false] at hupd
          omega
      · intro hactive
        have hretired := (h.retire (hactive cap htx hholds)).accounted
        exact ⟨hretired.num, hretired.owner⟩
    · next hlost =>
      constructor
      · intro _ cap' hcap' hholds
        rw [htx] at hcap'
        cases hcap'
        exact absurd hholds hlost
      · exact fun _ => (h.transmit none).accounted

theorem txFail_good (h : s.Good)
    (hactive : ∀ cap, s.transmit = some cap → s.additional.holds cap = true →
      (s.additional cap.slot).active = true) : (txFail s).Good := by
  refine ⟨?_, (txFail_accounted_iff h).mpr hactive⟩
  unfold txFail
  split
  · exact h.inv
  · next cap htx =>
    split
    · next hholds => exact (h.retire (hactive cap htx hholds)).inv
    · exact h.inv

/-! ### Every interleaving -/

section Runs

variable [Fintype ι] [DecidableEq ι]

/-- **One step.** A step that meets the condition leads from good states to good states. -/
theorem linkStep_good (maxConnection : ℤ) {useSslData : Bool} (h : s.Good) {a : LinkAction ι}
    (hown : RetiresOwn useSslData s a) : (linkStep maxConnection useSslData s a).Good := by
  cases a with
  | maintainPoll th i => exact maintainPoll_good h th i
  | maintainRetire th => exact maintainRetire_good h th
  | maintainConnect => exact maintainConnect_good maxConnection h
  | establishFirst => exact establishFirst_good h
  | connectPick => exact connectPick_good h
  | connectFail => exact connectFail_good h
  | connectFill ssl fd direction => exact connectFill_good h ssl fd direction
  | connectActivate => exact connectActivate_good h
  | rxSelect th i => exact rxSelect_good h th i
  | rxRevalidate th => exact rxRevalidate_good h th
  | rxRead th answer =>
    change (rxRead useSslData s th answer).Good
    unfold rxRead
    split
    · next cap hth =>
      split
      · exact h
      · next hfailed =>
        exact closeFailedAdditionalSocket_good h hth
          (hown cap hth (Bool.eq_false_iff.mpr hfailed))
    · exact h
  | rxDone th => exact rxDone_good h th
  | txSelect i => exact txSelect_good h i
  | txDone => exact h.transmit none
  | txFail => exact txFail_good h hown
  | closeAdditional => exact closeAdditional_good h

/-- A step that keeps the accounting meets the condition. -/
theorem retiresOwn_of_accounted {maxConnection : ℤ} {useSslData : Bool} (h : s.Good)
    {a : LinkAction ι} (hafter : Accounted (linkStep maxConnection useSslData s a)) :
    RetiresOwn useSslData s a := by
  cases a with
  | rxRead th answer =>
    intro cap hth hfailed
    have hclosed : Accounted (rxRead useSslData s th answer) := hafter
    unfold rxRead at hclosed
    rw [hth] at hclosed
    dsimp only at hclosed
    rw [if_neg (by rw [hfailed]; decide)] at hclosed
    exact (closeFailedAdditionalSocket_accounted_iff h hth).mp hclosed
  | txFail => exact (txFail_accounted_iff h).mp hafter
  | _ => trivial

/-- **The accounting of the additional connections.** In every interleaving of the paths, the
    counter equals the number of active slots and a read failure retires only the link it was
    observed on, throughout, exactly when every step retires the slot it looked at. -/
theorem additional_accounting_iff (maxConnection : ℤ) (useSslData : Bool)
    (as : List (LinkAction ι)) :
    Always (linkStep maxConnection useSslData) Accounted Additional.initial as ↔
      Along (linkStep maxConnection useSslData) (RetiresOwn useSslData) Additional.initial as := by
  apply always_iff_along_of (A := fun _ _ => True) (I := Additional.Good)
  · intro s a h _ _ hafter
    exact linkStep_good maxConnection h (retiresOwn_of_accounted h hafter)
  · intro s a h _ _
    constructor
    · exact retiresOwn_of_accounted h
    · exact fun hown => (linkStep_good maxConnection h hown).accounted
  · exact Additional.initial_good
  · exact Additional.initial_good.accounted
  · exact along_true _ _ _

/-- One additional connection is up and a receive pass has captured it; the failover of a
    concurrent send retires it, so the next read of the pass fails. -/
def staleRun : List (LinkAction Unit) :=
  [.maintainConnect, .connectPick, .connectFill 7000 41 tcpDirectionBoth, .connectActivate,
    .rxSelect () 0, .rxRevalidate (), .txSelect 0, .txFail, .rxRead () true]

/-- The counter is -1 with no active slot. -/
theorem additional_accounting_fails :
    ¬ Always (linkStep 2 true) Accounted Additional.initial staleRun := by
  intro h
  have hlast := (always_iff.mp h staleRun (List.prefix_refl _)).num
  have hnum : (run (linkStep 2 true) Additional.initial staleRun).numAdditional = -1 := by
    rfl
  rw [hnum] at hlast
  omega

end Runs

end SoftEther.Links
