import SoftEther.Native.Coordinator

namespace SoftEther.Native

open Lib

/-!
# The single cleanup owner

* `LeaseRule` — when the lease may be released, an outcome confirmed and a flow begun;
* `DestroyRule` — `destroyNative` is called only when every flow that was begun has exited;
* `LeaseInv`, `lease_rule` — the first holds in every run;
* `BeginsAlone` — the condition of a step: a flow is begun only when no other one is running;
* `FlowInv`, `single_owner` — both hold in every run whose steps meet the condition.

The coordinator remembers one flow.  A second one takes the place of the first, and then neither
a teardown nor the exit of the other one waits for it.
-/

/-! ### The properties -/

/-- A cleanup has a reason to give the lease back. -/
def Justified (log : List Event) : Prop :=
  (∃ handle, .destroyReturned handle ∈ log) ∨ .nothingOutstanding ∈ log

/-- The lease is released once, with a reason; an outcome is confirmed after that; no flow is
    begun once a teardown was requested. -/
def LeaseRule : Event → List Event → Prop
  | .releaseLease, before => .releaseLease ∉ before ∧ Justified before
  | .returned outcome, before => outcome.isCleanupConfirmed = true → .releaseLease ∈ before
  | .flowBegan _, before => .teardownRequested ∉ before
  | _, _ => True

/-- `destroyNative` is called when every flow that was begun has exited. -/
def DestroyRule : Event → List Event → Prop
  | .destroyNative _, before => ∀ flow, .flowBegan flow ∈ before → .flowExited flow ∈ before
  | _, _ => True

/-- One flow has the lease, and the handle is destroyed once. -/
def SingleOwner (e : Event) (before : List Event) : Prop :=
  LeaseRule e before ∧ DestroyRule e before

/-! ### The lease -/

/-- The thread is in the cleanup. -/
def Pc.inCleanup : Pc → Bool
  | .cleanup _ _ => true
  | _ => false

/-- In `runCleanup`, with the lease still to be released. -/
def Pc.beforeRelease : Pc → Bool
  | .cleanup _ .claimHandle => true
  | .cleanup _ (.destroy _) => true
  | .cleanup _ (.destroying _) => true
  | .cleanup _ .release => true
  | _ => false

/-- What a thread's place says about the log. -/
def LeasePlace (log : List Event) : Pc → Prop
  | .cleanup _ .release => Justified log
  | .cleanup _ (.record true) => .releaseLease ∈ log
  | _ => True

/-- At most one thread is in the cleanup, it releases the lease once, and the recorded outcome is
    true. -/
structure LeaseInv (s : Coordinator) (log : List Event) : Prop where
  claimed : ∀ t, (s.pcs t).inCleanup = true → s.cleanupClaimed = true
  unique : ∀ t u, (s.pcs t).inCleanup = true → (s.pcs u).inCleanup = true → t = u
  released : .releaseLease ∈ log →
    s.cleanupClaimed = true ∧ ∀ t, (s.pcs t).beforeRelease = false
  place : ∀ t, LeasePlace log (s.pcs t)
  confirmed : s.cleanupConfirmed = true → .releaseLease ∈ log
  requested : .teardownRequested ∈ log → s.destroyed = true

theorem leaseInv_start : LeaseInv {} [] := ⟨nofun, nofun, nofun, fun _ => trivial, nofun, nofun⟩

theorem Justified.cons {log : List Event} (h : Justified log) (e : Event) : Justified (e :: log) :=
  h.imp (fun ⟨handle, hmem⟩ => ⟨handle, List.mem_cons_of_mem e hmem⟩) (List.mem_cons_of_mem e)

theorem LeasePlace.cons {log : List Event} {pc : Pc} (h : LeasePlace log pc) (e : Event) :
    LeasePlace (e :: log) pc := by
  unfold LeasePlace at h ⊢
  split at h
  · exact h.cons e
  · exact List.mem_cons_of_mem e h
  · trivial

theorem inCleanup_of_beforeRelease {pc : Pc} (h : pc.beforeRelease = true) :
    pc.inCleanup = true := by
  unfold Pc.beforeRelease at h
  split at h <;> first | rfl | cases h

namespace LeaseInv

variable {s s' : Coordinator} {log : List Event} {t : ℕ} {pc : Pc}

/-- An event that is not the release. -/
theorem emit (h : LeaseInv s log) (e : Event) (hrelease : e ≠ .releaseLease)
    (hrequested : e = .teardownRequested → s.destroyed = true) : LeaseInv s (e :: log) := by
  have hmem : .releaseLease ∈ e :: log → .releaseLease ∈ log := by
    intro hmem
    rcases List.mem_cons.mp hmem with heq | hbefore
    · exact absurd heq.symm hrelease
    · exact hbefore
  refine ⟨h.claimed, h.unique, fun hr => h.released (hmem hr), fun t => (h.place t).cons e, ?_, ?_⟩
  · intro hc
    exact List.mem_cons_of_mem e (h.confirmed hc)
  · intro hr
    rcases List.mem_cons.mp hr with heq | hbefore
    · exact hrequested heq.symm
    · exact h.requested hbefore

/-- A step that no thread of the cleanup takes. -/
theorem of_eq (h : LeaseInv s log) (hpcs : s'.pcs = s.pcs)
    (hclaimed : s'.cleanupClaimed = s.cleanupClaimed)
    (hconfirmed : s'.cleanupConfirmed = s.cleanupConfirmed)
    (hdestroyed : s'.destroyed = s.destroyed) :
    LeaseInv s' log := by
  constructor
  · rw [hpcs, hclaimed]
    exact h.claimed
  · rw [hpcs]
    exact h.unique
  · rw [hpcs, hclaimed]
    exact h.released
  · rw [hpcs]
    exact h.place
  · rw [hconfirmed]
    exact h.confirmed
  · rw [hdestroyed]
    exact h.requested

/-- A thread moves, and does not enter the cleanup. -/
theorem goto (h : LeaseInv s log) (hpcs : s'.pcs = s.pcs)
    (hclaimed : s'.cleanupClaimed = s.cleanupClaimed)
    (hconfirmed : s'.cleanupConfirmed = true → .releaseLease ∈ log)
    (hdestroyed : s.destroyed = true → s'.destroyed = true)
    (hin : pc.inCleanup = true → (s.pcs t).inCleanup = true)
    (hbefore : pc.beforeRelease = true → (s.pcs t).beforeRelease = true)
    (hplace : LeasePlace log pc) : LeaseInv (s'.goto t pc) log := by
  have hwas : ∀ u, ((s'.goto t pc).pcs u).inCleanup = true → (s.pcs u).inCleanup = true := by
    intro u hu
    rcases eq_or_ne u t with rfl | hne
    · rw [Coordinator.goto_pcs_self] at hu
      exact hin hu
    · rw [s'.goto_pcs_of_ne hne, hpcs] at hu
      exact hu
  constructor
  · intro u hu
    exact hclaimed.trans (h.claimed u (hwas u hu))
  · intro u v hu hv
    exact h.unique u v (hwas u hu) (hwas v hv)
  · intro hr
    obtain ⟨hc, hnone⟩ := h.released hr
    refine ⟨hclaimed.trans hc, ?_⟩
    intro u
    rcases eq_or_ne u t with rfl | hne
    · rw [Coordinator.goto_pcs_self, Bool.eq_false_iff]
      intro hpc
      exact absurd (hbefore hpc) (Bool.eq_false_iff.mp (hnone u))
    · rw [s'.goto_pcs_of_ne hne, hpcs]
      exact hnone u
  · intro u
    rcases eq_or_ne u t with rfl | hne
    · rw [Coordinator.goto_pcs_self]
      exact hplace
    · rw [s'.goto_pcs_of_ne hne, hpcs]
      exact h.place u
  · exact hconfirmed
  · exact fun hr => hdestroyed (h.requested hr)

/-- A thread claims the cleanup, which nobody had claimed. -/
theorem claim (h : LeaseInv s log) (hfree : s.cleanupClaimed = false) (t : ℕ)
    (byTeardown : Bool) :
    LeaseInv ({ s with cleanupClaimed := true }.goto t (.cleanup byTeardown .claimHandle)) log := by
  have hnobody : ∀ u, (s.pcs u).inCleanup = false := by
    intro u
    rw [Bool.eq_false_iff]
    intro hu
    rw [h.claimed u hu] at hfree
    cases hfree
  have hheld : .releaseLease ∉ log := by
    intro hr
    rw [(h.released hr).1] at hfree
    cases hfree
  have honly : ∀ u, (({ s with cleanupClaimed := true }.goto t
      (.cleanup byTeardown .claimHandle)).pcs u).inCleanup = true → u = t := by
    intro u hu
    by_contra hne
    rw [Coordinator.goto_pcs_of_ne _ hne, hnobody u] at hu
    cases hu
  constructor
  · exact fun _ _ => rfl
  · intro u v hu hv
    rw [honly u hu, honly v hv]
  · exact fun hr => absurd hr hheld
  · intro u
    rcases eq_or_ne u t with rfl | hne
    · rw [Coordinator.goto_pcs_self]
      trivial
    · rw [Coordinator.goto_pcs_of_ne _ hne]
      exact h.place u
  · exact h.confirmed
  · exact h.requested

/-- The owner releases the lease. -/
theorem release (h : LeaseInv s log) {byTeardown : Bool}
    (hpc : s.pcs t = .cleanup byTeardown .release) :
    LeaseInv (s.goto t (.cleanup byTeardown (.record true))) (.releaseLease :: log) := by
  have hin : (s.pcs t).inCleanup = true := by rw [hpc]; rfl
  have hwas : ∀ u, ((s.goto t (.cleanup byTeardown (.record true))).pcs u).inCleanup = true →
      (s.pcs u).inCleanup = true := by
    intro u hu
    rcases eq_or_ne u t with rfl | hne
    · exact hin
    · rw [s.goto_pcs_of_ne hne] at hu
      exact hu
  constructor
  · exact fun u hu => h.claimed u (hwas u hu)
  · exact fun u v hu hv => h.unique u v (hwas u hu) (hwas v hv)
  · intro _
    refine ⟨h.claimed t hin, ?_⟩
    intro u
    rcases eq_or_ne u t with rfl | hne
    · rw [Coordinator.goto_pcs_self]
      rfl
    · rw [s.goto_pcs_of_ne hne, Bool.eq_false_iff]
      intro hu
      exact hne (h.unique u t (inCleanup_of_beforeRelease hu) hin)
  · intro u
    rcases eq_or_ne u t with rfl | hne
    · rw [Coordinator.goto_pcs_self]
      exact List.mem_cons_self
    · rw [s.goto_pcs_of_ne hne]
      exact (h.place u).cons _
  · exact fun _ => List.mem_cons_self
  · intro hr
    rcases List.mem_cons.mp hr with heq | hbefore
    · cases heq
    · exact h.requested hbefore

theorem advance {e : Option Event} (h : LeaseInv s log)
    (hmove : Coordinator.Advance s t pc s' e) (hpc : s.pcs t = pc) :
    LeaseInv s' (e.toList ++ log) := by
  -- A step of a thread that is in the cleanup neither before nor after.
  have hout : ∀ pc' log', LeaseInv s log' → pc'.inCleanup = false →
      LeaseInv (s.goto t pc') log' := by
    intro pc' log' h' hpc'
    refine h'.goto rfl rfl h'.confirmed id ?_ ?_ ?_
    · intro hin
      rw [hpc'] at hin
      cases hin
    · intro hbefore
      rw [inCleanup_of_beforeRelease hbefore] at hpc'
      cases hpc'
    · unfold LeasePlace
      split
      · cases hpc'
      · cases hpc'
      · trivial
  cases hmove with
  | stay => exact h
  | noFlow => exact hout _ _ h rfl
  | readHandle flow => exact hout _ _ h rfl
  | noHandle flow => exact hout _ _ h rfl
  | interrupt flow handle pc' hpc' =>
    apply hout _ _ (h.emit (.interruptNative handle) nofun nofun)
    rcases hpc' with rfl | rfl <;> rfl
  | flowExited flow => exact hout _ _ h rfl
  | gaveUp pc e _ he =>
    rcases he with rfl | rfl
    · exact hout _ _ h rfl
    · exact hout _ _ (h.emit _ nofun nofun) rfl
  | claims hfree => exact h.claim hfree t true
  | refused => exact hout _ _ h rfl
  | cleanedUp => exact hout _ _ h rfl
  | nothing byTeardown =>
    have h' := h.emit .nothingOutstanding nofun nofun
    refine h'.goto rfl rfl h'.confirmed id (fun _ => ?_) (fun _ => ?_) (.inr List.mem_cons_self)
    · rw [hpc]; rfl
    · rw [hpc]; rfl
  | takes byTeardown =>
    refine h.goto rfl rfl h.confirmed id (fun _ => ?_) (fun _ => ?_) trivial
    · rw [hpc]; rfl
    · rw [hpc]; rfl
  | lost byTeardown =>
    refine h.goto rfl rfl h.confirmed id (fun _ => ?_) nofun trivial
    rw [hpc]; rfl
  | destroy byTeardown handle =>
    have h' := h.emit (.destroyNative handle) nofun nofun
    refine h'.goto rfl rfl h'.confirmed id (fun _ => ?_) (fun _ => ?_) trivial
    · rw [hpc]; rfl
    · rw [hpc]; rfl
  | destroyThrew byTeardown =>
    refine h.goto rfl rfl h.confirmed id (fun _ => ?_) nofun trivial
    rw [hpc]; rfl
  | destroyReturned byTeardown handles handle =>
    have h' := h.emit (.destroyReturned handle) nofun nofun
    refine h'.goto rfl rfl h'.confirmed id (fun _ => ?_) (fun _ => ?_)
      (.inl ⟨handle, List.mem_cons_self⟩)
    · rw [hpc]; rfl
    · rw [hpc]; rfl
  | release byTeardown => exact h.release hpc
  | record byTeardown confirmed =>
    have hplace := h.place t
    rw [hpc] at hplace
    refine h.goto rfl rfl ?_ id (fun _ => ?_) nofun trivial
    · -- What is recorded is true only behind the release.
      rintro (rfl : confirmed = true)
      exact hplace
    · rw [hpc]; rfl
  | countDown byTeardown pc' hpc' =>
    have hplace : LeasePlace log pc' ∧ pc'.inCleanup = false := by
      rcases hpc' with rfl | rfl <;> exact ⟨trivial, rfl⟩
    refine h.goto rfl rfl h.confirmed id (fun hin => ?_) (fun hbefore => ?_) hplace.1
    · rw [hplace.2] at hin
      cases hin
    · have hin := inCleanup_of_beforeRelease hbefore
      rw [hplace.2] at hin
      cases hin
  | report owner => exact hout _ _ (h.emit _ nofun nofun) rfl
  | inlineDestroyed handle handles =>
    exact (hout _ _ h rfl).of_eq rfl rfl rfl rfl

theorem step {a : Action} {e : Option Event} (h : LeaseInv s log)
    (heffect : Coordinator.Effect s a s' e) : LeaseInv s' (e.toList ++ log) := by
  cases heffect with
  | refused => exact h
  | began => exact (h.emit (.flowBegan s.begun) nofun nofun).of_eq rfl rfl rfl rfl
  | published flow handle => exact h.of_eq rfl rfl rfl rfl
  | slot a handles => exact h.of_eq rfl rfl rfl rfl
  | left t flow => exact (h.emit (.flowExited flow) nofun nofun).of_eq rfl rfl rfl rfl
  | leftOwning t flow _ _ _ _ hfree =>
    have hleft : LeaseInv (s.leave flow) (.flowExited flow :: log) :=
      (h.emit (.flowExited flow) nofun nofun).of_eq rfl rfl rfl rfl
    exact hleft.claim hfree t false
  | requested t houtside =>
    have h' : LeaseInv { s with destroyed := true, teardownRequested := true } log :=
      ⟨h.claimed, h.unique, h.released, h.place, h.confirmed, fun _ => rfl⟩
    have hemit := h'.emit .teardownRequested nofun fun _ => rfl
    exact hemit.goto rfl rfl hemit.confirmed id nofun nofun trivial
  | inlineClaim t answer handles handle houtside =>
    exact h.goto rfl rfl h.confirmed id nofun nofun trivial
  | advance t answer hmove => exact h.advance hmove rfl

/-- What a step emits meets the rule. -/
theorem emitted {a : Action} {e : Event} (h : LeaseInv s log)
    (heffect : Coordinator.Effect s a s' (some e)) : LeaseRule e log := by
  cases heffect with
  | began hlive =>
    intro hmem
    rw [h.requested hmem] at hlive
    cases hlive
  | left => trivial
  | leftOwning => trivial
  | requested => trivial
  | advance t answer hmove =>
    generalize hpc : s.pcs t = pc at hmove
    have hplace := h.place t
    rw [hpc] at hplace
    cases hmove with
    | interrupt => trivial
    | gaveUp pc _ _ he =>
      rcases he with he | he
      · cases he
      · cases he
        exact nofun
    | nothing => trivial
    | destroy => trivial
    | destroyReturned => trivial
    | release byTeardown =>
      refine ⟨?_, hplace⟩
      intro hmem
      have hnot := (h.released hmem).2 t
      rw [hpc] at hnot
      cases hnot
    | report owner =>
      intro hconfirmed
      apply h.confirmed
      by_contra hnot
      rw [Coordinator.outcome, if_neg hnot] at hconfirmed
      cases hconfirmed

end LeaseInv

/-- **The lease.** In every run the lease is released at most once, after a destroy that returned
    or with nothing outstanding; a confirmed outcome comes after that; and no flow begins once a
    teardown was requested. -/
theorem lease_rule (as : List Action) : Checked LeaseRule (coordinatorRun as).log := by
  apply checked_of_invariant (I := fun x => LeaseInv x.state x.log)
  · intro x a h
    exact h.step (x.state.step_effect a)
  · intro x a e h he
    have heffect := x.state.step_effect a
    rw [he] at heffect
    exact h.emitted heffect
  · exact leaseInv_start
  · trivial

/-! ### The flows -/

/-- A flow is begun only when no other one is registered. -/
def BeginsAlone (x : Logged Coordinator Event) : Action → Prop
  | .beginFlow => x.state.destroyed = false → x.state.activeFlow = none
  | _ => True

/-- Every flow that was begun, apart from those in `except`, has exited. -/
def ExitedExcept (s : Coordinator) (except : Option ℕ) : Prop :=
  ∀ flow < s.begun, (s.flows flow).exited = true ∨ some flow = except

/-- What a thread's place says about the flows. -/
def FlowPlace (s : Coordinator) : Pc → Prop
  | .snapshot flow => s.destroyed = true ∧ ExitedExcept s flow
  | .interrupt flow _ => s.destroyed = true ∧ ExitedExcept s (some flow)
  | .awaitExit flow => s.destroyed = true ∧ ExitedExcept s (some flow)
  | .claimCleanup => s.destroyed = true ∧ ExitedExcept s none
  | .cleanup _ _ => s.destroyed = true ∧ ExitedExcept s none
  | _ => True

/-- Only the registered flow is running, and a cleanup finds none. -/
structure FlowInv (s : Coordinator) (log : List Event) : Prop where
  active : ExitedExcept s s.activeFlow
  requested : s.teardownRequested = true → s.destroyed = true
  place : ∀ t, FlowPlace s (s.pcs t)
  began : ∀ flow, .flowBegan flow ∈ log → flow < s.begun
  exited : ∀ flow, (s.flows flow).exited = true → .flowExited flow ∈ log

theorem flowInv_start : FlowInv {} [] :=
  ⟨nofun, nofun, fun _ => trivial, nofun, nofun⟩

/-- After a teardown no flow is begun, and a flow that left stays away. -/
def FlowsSettle (s s' : Coordinator) : Prop :=
  s.destroyed = true → s'.destroyed = true ∧ s'.begun = s.begun ∧
    ∀ flow, (s.flows flow).exited = true → (s'.flows flow).exited = true

theorem ExitedExcept.mono {s s' : Coordinator} {except : Option ℕ} (h : ExitedExcept s except)
    (hbegun : s'.begun = s.begun)
    (hexited : ∀ flow, (s.flows flow).exited = true → (s'.flows flow).exited = true) :
    ExitedExcept s' except := by
  intro flow hflow
  rw [hbegun] at hflow
  exact (h flow hflow).imp_left (hexited flow)

theorem FlowPlace.mono {s s' : Coordinator} {pc : Pc} (h : FlowPlace s pc)
    (hsettle : FlowsSettle s s') : FlowPlace s' pc := by
  have hkeep : ∀ except, s.destroyed = true ∧ ExitedExcept s except →
      s'.destroyed = true ∧ ExitedExcept s' except := by
    rintro except ⟨hdestroyed, hexcept⟩
    obtain ⟨hstill, hbegun, hexited⟩ := hsettle hdestroyed
    exact ⟨hstill, hexcept.mono hbegun hexited⟩
  cases pc with
  | snapshot flow => exact hkeep _ h
  | interrupt flow handle => exact hkeep _ h
  | awaitExit flow => exact hkeep _ h
  | claimCleanup => exact hkeep _ h
  | cleanup byTeardown pc => exact hkeep _ h
  | _ => trivial

namespace FlowInv

variable {s s' : Coordinator} {log : List Event} {t : ℕ} {pc : Pc}

/-- An event that is not the begin of a flow. -/
theorem emit (h : FlowInv s log) (e : Event) (hbegan : ∀ flow, e ≠ .flowBegan flow) :
    FlowInv s (e :: log) := by
  refine ⟨h.active, h.requested, h.place, ?_, ?_⟩
  · intro flow hmem
    rcases List.mem_cons.mp hmem with heq | hbefore
    · exact absurd heq.symm (hbegan flow)
    · exact h.began flow hbefore
  · intro flow hexited
    exact List.mem_cons_of_mem e (h.exited flow hexited)

/-- A thread moves; the flows stay as they are. -/
theorem goto (h : FlowInv s log) (hpcs : s'.pcs = s.pcs) (hflows : s'.flows = s.flows)
    (hbegun : s'.begun = s.begun) (hactive : s'.activeFlow = s.activeFlow)
    (hdestroyed : s.destroyed = true → s'.destroyed = true)
    (hrequested : s'.teardownRequested = true → s'.destroyed = true)
    (hplace : FlowPlace s' pc) : FlowInv (s'.goto t pc) log := by
  have hexited : ∀ flow, (s.flows flow).exited = true → (s'.flows flow).exited = true := by
    rw [hflows]
    exact fun _ => id
  have hactive' : ExitedExcept s' s'.activeFlow := by
    rw [hactive]
    exact h.active.mono hbegun hexited
  refine ⟨hactive', hrequested, ?_, ?_, ?_⟩
  · intro u
    rcases eq_or_ne u t with rfl | hne
    · rw [Coordinator.goto_pcs_self]
      exact hplace
    · rw [s'.goto_pcs_of_ne hne, hpcs]
      exact (h.place u).mono fun hd => ⟨hdestroyed hd, hbegun, hexited⟩
  · show ∀ flow, .flowBegan flow ∈ log → flow < s'.begun
    rw [hbegun]
    exact h.began
  · show ∀ flow, (s'.flows flow).exited = true → .flowExited flow ∈ log
    rw [hflows]
    exact h.exited

theorem advance {e : Option Event} (h : FlowInv s log)
    (hmove : Coordinator.Advance s t pc s' e) (hpc : s.pcs t = pc) :
    FlowInv s' (e.toList ++ log) := by
  have hplace := h.place t
  rw [hpc] at hplace
  have hlog : ∀ e : Event, (∀ flow, e ≠ .flowBegan flow) → FlowInv s (e :: log) :=
    fun e he => h.emit e he
  cases hmove with
  | stay => exact h
  | noFlow => exact h.goto rfl rfl rfl rfl id h.requested hplace
  | readHandle flow => exact h.goto rfl rfl rfl rfl id h.requested hplace
  | noHandle flow => exact h.goto rfl rfl rfl rfl id h.requested hplace
  | interrupt flow handle pc' hpc' =>
    refine (hlog (.interruptNative handle) fun _ => nofun).goto rfl rfl rfl rfl id h.requested ?_
    rcases hpc' with rfl | rfl
    · trivial
    · exact hplace
  | flowExited flow hexited =>
    refine h.goto rfl rfl rfl rfl id h.requested ⟨hplace.1, ?_⟩
    -- The one flow that was still running has exited.
    intro other hother
    left
    rcases hplace.2 other hother with hgone | heq
    · exact hgone
    · cases heq
      exact hexited
  | gaveUp pc e _ he =>
    rcases he with rfl | rfl
    · exact h.goto rfl rfl rfl rfl id h.requested trivial
    · exact (hlog (.returned .unresolved) fun _ => nofun).goto rfl rfl rfl rfl id h.requested
        trivial
  | claims => exact h.goto rfl rfl rfl rfl id h.requested hplace
  | refused => exact h.goto rfl rfl rfl rfl id h.requested trivial
  | cleanedUp => exact h.goto rfl rfl rfl rfl id h.requested trivial
  | nothing =>
    exact (hlog .nothingOutstanding fun _ => nofun).goto rfl rfl rfl rfl id h.requested hplace
  | takes => exact h.goto rfl rfl rfl rfl id h.requested hplace
  | lost => exact h.goto rfl rfl rfl rfl id h.requested hplace
  | destroy byTeardown handle =>
    exact (hlog (.destroyNative handle) fun _ => nofun).goto rfl rfl rfl rfl id h.requested hplace
  | destroyThrew => exact h.goto rfl rfl rfl rfl id h.requested hplace
  | destroyReturned byTeardown handles handle =>
    exact (hlog (.destroyReturned handle) fun _ => nofun).goto rfl rfl rfl rfl id h.requested hplace
  | release => exact (hlog .releaseLease fun _ => nofun).goto rfl rfl rfl rfl id h.requested hplace
  | record => exact h.goto rfl rfl rfl rfl id h.requested hplace
  | countDown byTeardown pc' hpc' =>
    refine h.goto rfl rfl rfl rfl id h.requested ?_
    rcases hpc' with rfl | rfl <;> trivial
  | report owner =>
    exact (hlog (.returned (s.outcome owner)) fun _ => nofun).goto rfl rfl rfl rfl id h.requested
      trivial
  | inlineDestroyed => exact h.goto rfl rfl rfl rfl id h.requested trivial

/-- A flow is begun while no other one is registered. -/
theorem register (h : FlowInv s log) (hlive : s.destroyed = false) (hfree : s.activeFlow = none) :
    FlowInv
      { s with
        activeFlow := some s.begun
        begun := s.begun + 1
        flows := Function.update s.flows s.begun {} } (.flowBegan s.begun :: log) := by
  constructor
  · intro flow hflow
    rcases Nat.lt_succ_iff_lt_or_eq.mp hflow with hold | rfl
    · left
      simp only [Function.update_of_ne (Nat.ne_of_lt hold)]
      rcases h.active flow hold with hgone | heq
      · exact hgone
      · rw [hfree] at heq
        cases heq
    · exact .inr rfl
  · exact h.requested
  · intro t
    apply (h.place t).mono
    intro hdestroyed
    rw [hlive] at hdestroyed
    cases hdestroyed
  · intro flow hmem
    rcases List.mem_cons.mp hmem with heq | hbefore
    · cases heq
      exact Nat.lt_succ_self _
    · exact Nat.lt_succ_of_lt (h.began flow hbefore)
  · intro flow hexited
    rcases eq_or_ne flow s.begun with rfl | hne
    · simp only [Function.update_self] at hexited
      cases hexited
    · simp only [Function.update_of_ne hne] at hexited
      exact List.mem_cons_of_mem _ (h.exited flow hexited)

/-- The flows after one of them left. -/
theorem exited_leave (s : Coordinator) (flow other : ℕ) :
    ((s.leave flow).flows other).exited = true ↔
      other = flow ∨ (s.flows other).exited = true := by
  rcases eq_or_ne other flow with rfl | hne
  · simp [Coordinator.leave]
  · simp [Coordinator.leave, hne]

theorem leave (h : FlowInv s log) (flow : ℕ) :
    FlowInv (s.leave flow) (.flowExited flow :: log) := by
  constructor
  · intro other hother
    rw [exited_leave]
    rcases h.active other hother with hgone | heq
    · exact .inl (.inr hgone)
    · rcases eq_or_ne other flow with rfl | hne
      · exact .inl (.inl rfl)
      · right
        rw [Coordinator.leave, ← heq, if_neg (fun hsame => hne (Option.some.inj hsame))]
  · exact h.requested
  · intro t
    apply (h.place t).mono
    intro hdestroyed
    refine ⟨hdestroyed, rfl, ?_⟩
    intro other hgone
    exact (exited_leave s flow other).mpr (.inr hgone)
  · intro other hmem
    rcases List.mem_cons.mp hmem with heq | hbefore
    · cases heq
    · exact h.began other hbefore
  · intro other hgone
    rcases (exited_leave s flow other).mp hgone with rfl | hbefore
    · exact List.mem_cons_self
    · exact List.mem_cons_of_mem _ (h.exited other hbefore)

/-- A running flow is the registered one, so after it left none is running. -/
theorem exited_of_leave (h : FlowInv s log) {flow : ℕ} (hflow : flow < s.begun)
    (hin : (s.flows flow).exited = false) : ExitedExcept (s.leave flow) none := by
  have hregistered : some flow = s.activeFlow := by
    rcases h.active flow hflow with hgone | heq
    · rw [hin] at hgone
      cases hgone
    · exact heq
  intro other hother
  left
  rw [exited_leave]
  rcases h.active other hother with hgone | heq
  · exact .inr hgone
  · rw [← hregistered] at heq
    exact .inl (Option.some.inj heq)

theorem step {a : Action} {e : Option Event} (h : FlowInv s log)
    (hC : BeginsAlone ⟨s, log⟩ a) (heffect : Coordinator.Effect s a s' e) :
    FlowInv s' (e.toList ++ log) := by
  cases heffect with
  | refused => exact h
  | began hlive => exact h.register hlive (hC hlive)
  | published flow handle =>
    have hsame : ∀ other, (Function.update s.flows flow
        { s.flows flow with handle := handle } other).exited = (s.flows other).exited := by
      intro other
      rcases eq_or_ne other flow with rfl | hne
      · rw [Function.update_self]
      · rw [Function.update_of_ne hne]
    refine ⟨h.active.mono rfl ?_, h.requested, ?_, h.began, ?_⟩
    · intro other hgone
      exact (hsame other).trans hgone
    · intro t
      exact (h.place t).mono fun hd => ⟨hd, rfl, fun other hgone => (hsame other).trans hgone⟩
    · intro other hgone
      exact h.exited other ((hsame other).symm.trans hgone)
  | slot => exact ⟨h.active, h.requested, h.place, h.began, h.exited⟩
  | left t flow => exact h.leave flow
  | leftOwning t flow _ hin hflow hrequested =>
    have hleft := h.leave flow
    exact hleft.goto rfl rfl rfl rfl id hleft.requested
      ⟨h.requested hrequested, h.exited_of_leave hflow hin⟩
  | requested t =>
    have hemit := h.emit .teardownRequested fun _ => nofun
    exact hemit.goto rfl rfl rfl rfl (fun _ => rfl) (fun _ => rfl) ⟨rfl, h.active⟩
  | inlineClaim => exact h.goto rfl rfl rfl rfl id h.requested trivial
  | advance t answer hmove => exact h.advance hmove rfl

/-- What a step emits meets the rule. -/
theorem emitted {a : Action} {e : Event} (h : FlowInv s log)
    (heffect : Coordinator.Effect s a s' (some e)) : DestroyRule e log := by
  cases heffect with
  | advance t answer hmove =>
    generalize hpc : s.pcs t = pc at hmove
    have hplace := h.place t
    rw [hpc] at hplace
    cases hmove with
    | destroy =>
      intro flow hbegan
      apply h.exited
      rcases hplace.2 flow (h.began flow hbegan) with hgone | heq
      · exact hgone
      · cases heq
    | gaveUp pc _ _ he =>
      rcases he with he | he
      · cases he
      · cases he
        trivial
    | _ => trivial
  | _ => trivial

end FlowInv

/-- **Single-owner cleanup.** In a run whose flows are begun one at a time, the lease is released
    once and with a reason, outcomes are confirmed and flows begun as they should be, and
    `destroyNative` is called only when every flow that was begun has exited. -/
theorem single_owner (as : List Action)
    (halone : Along (logStep Coordinator.step) BeginsAlone ⟨{}, []⟩ as) :
    Checked SingleOwner (coordinatorRun as).log := by
  apply (lease_rule as).and
  apply checked_of_along (I := fun x => FlowInv x.state x.log) ?_ ?_ halone
  · exact flowInv_start
  · trivial
  · intro x a h hC
    exact h.step hC (x.state.step_effect a)
  · intro x a e h _ he
    have heffect := x.state.step_effect a
    rw [he] at heffect
    exact h.emitted heffect

/-- A reconnect begins while the first flow still runs; its handle is destroyed when the first
    flow leaves, the second one being in native code. -/
def overlappingFlows : List Action :=
  [.beginFlow, .beginFlow, .publishHandle 1 7, .publish 7, .requestTeardown 1, .exit 2 0,
    .advance 2 {}, .advance 2 {}]

theorem single_owner_fails : ¬ ∀ as : List Action, Checked SingleOwner (coordinatorRun as).log := by
  intro hall
  have h := hall overlappingFlows
  have hlog : (coordinatorRun overlappingFlows).log =
      [.destroyNative 7, .flowExited 0, .teardownRequested, .flowBegan 1, .flowBegan 0] := by
    decide
  rw [hlog] at h
  exact absurd (h.1.2 1 (by decide)) (by decide)

/-- One flow, torn down while it runs, and cleaned up by its own thread. -/
theorem single_owner_flow :
    Checked SingleOwner (coordinatorRun [.beginFlow, .publishHandle 0 7, .publish 7,
      .requestTeardown 1, .exit 2 0, .advance 2 {}, .advance 2 {}, .advance 2 {},
      .advance 2 {}]).log := by
  apply single_owner
  exact ⟨fun _ => rfl, trivial, trivial, trivial, trivial, trivial, trivial, trivial, trivial,
    trivial⟩

end SoftEther.Native
