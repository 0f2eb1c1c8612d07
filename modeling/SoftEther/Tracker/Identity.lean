import SoftEther.Tracker.Producers

namespace SoftEther.Tracker

open Lib VpnStackLedger

/-!
# The identity of a stack

An entry of the ledger, and the tunnel that is shown, should carry what the reports of their own
stack have said. A report that leaves a field out fills it from the published state, whichever
stack that is about.

* `OwnIdentity` — every field was supplied by a report of the stack that carries it;
* `OwnSlot` — what a report of a stack that is up would take over is that stack's own;
* `ownIdentity_step_iff` — one report keeps the identities exactly then;
* `ownIdentity_always_iff` — the runs that keep them.
-/

/-- **Each stack carries its own identity.** -/
structure OwnIdentity (s : Reported) : Prop where
  entries : ∀ e ∈ s.tracker.ledger.live, ∀ f v, e.get f = some v → Supplied s.past e.protocol f v
  published : s.tracker.vpnState.status = .CONNECTED → ∀ p, s.tracker.vpnState.protocol = some p →
    ∀ f v, s.tracker.vpnState.get f = some v → Supplied s.past p f v

/-- **Nothing of another stack is taken over.** What a stack that says it is up leaves out is
    empty in the published state, or has been supplied by that stack itself. -/
def OwnSlot (s : Reported) (r : Report) : Prop :=
  ∀ p, r.connects = some p → ∀ f, r.supplied p f = none →
    ∀ v, s.tracker.vpnState.get f = some v → Supplied s.past p f v

theorem Supplied.cons {past : List Report} {p : String} {f : IdentityField} {v : String}
    (h : Supplied past p f v) (r : Report) : Supplied (r :: past) p f v := by
  obtain ⟨x, hx, hv⟩ := h
  exact ⟨x, List.mem_cons_of_mem _ hx, hv⟩

@[simp] theorem connected_get (e : VpnStackReport) (f : IdentityField) :
    e.connected.get f = e.get f := by
  cases f <;> rfl

theorem refreshed_get (live : List VpnStackReport) (event : VpnStackEvent) (key : String)
    (f : IdentityField) :
    (refreshed live event key).get f =
      (event.get f <|> (previous live key).bind fun e => e.get f) := by
  cases f <;> rfl

theorem mem_of_previous {live : List VpnStackReport} {key : String} {e : VpnStackReport}
    (h : previous live key = some e) : e ∈ live ∧ e.protocol = key := by
  constructor
  · exact List.mem_reverse.mp (List.mem_of_find?_eq_some h)
  · simpa using List.find?_some h

/-- What an event that no stack is up leaves in the ledger and in the slot. -/
theorem fold_other {s : Stacks} {event : VpnStackEvent} (h : event.status ≠ .CONNECTED) :
    (∀ e ∈ (s.fold event).live, e ∈ s.live) ∧
      ((s.fold event).current.status = .CONNECTED →
        (s.fold event).current = s.current ∨
          ∃ e ∈ s.live, (s.fold event).current = e.connected) := by
  rcases hkey : event.protocol with _ | key
  · rw [fold_none hkey]
    exact ⟨fun _ he => he, fun _ => .inl rfl⟩
  rcases status_cases event.status with hstatus | hstatus | hstatus
  · exact absurd hstatus h
  · rw [fold_passing hkey hstatus]
    refine ⟨fun _ he => he, ?_⟩
    intro hconnected
    exact absurd hconnected h
  · have hlive := fold_terminal_live (s := s) hkey hstatus
    have hcurrent := fold_terminal_current (s := s) hkey hstatus
    refine ⟨fun e he => (mem_without.mp (hlive ▸ he)).1, ?_⟩
    intro hconnected
    rcases hlast : (without s.live key).getLast? with _ | e
    · rw [hlast] at hcurrent
      by_cases howner : s.current.protocol = some key
      · simp only [howner, if_true] at hcurrent
        rw [hcurrent, ended_status] at hconnected
        exact absurd hconnected h
      · simp only [howner, if_false] at hcurrent
        exact .inl hcurrent
    · rw [hlast] at hcurrent
      exact .inr ⟨e, (mem_without.mp (List.mem_of_getLast? hlast)).1, hcurrent⟩

/-! ### One report -/

section Step

variable {s : Reported} {r : Report}

/-- A report that no stack is up keeps the identities. -/
theorem OwnIdentity.other (h : OwnIdentity s) (hr : r.connects = none) :
    OwnIdentity (s.step r) := by
  rcases report_folds s.tracker r hr with hsame | ⟨event, hfold, hne⟩
  · refine ⟨?_, ?_⟩
    · intro e he f v hv
      rw [Reported.step, hsame] at he
      exact (h.entries e he f v hv).cons r
    · intro hstatus p hp f v hv
      simp only [Reported.step, GlobalVpnTracker.vpnState, hsame] at hstatus hp hv
      exact (h.published hstatus p hp f v hv).cons r
  · obtain ⟨hlive, hcurrent⟩ := fold_other (s := s.tracker.ledger) hne
    refine ⟨?_, ?_⟩
    · intro e he f v hv
      rw [Reported.step, hfold] at he
      exact (h.entries e (hlive e he) f v hv).cons r
    · intro hstatus p hp f v hv
      simp only [Reported.step, GlobalVpnTracker.vpnState, hfold] at hstatus hp hv
      rcases hcurrent hstatus with hsame | ⟨e, he, hshown⟩
      · rw [hsame] at hstatus hp hv
        exact (h.published hstatus p hp f v hv).cons r
      · rw [hshown] at hp hv
        rw [connected_get] at hv
        rw [← Option.some.inj hp]
        exact (h.entries e he f v hv).cons r

/-- **A stack that is up.** Its new entry has what it supplies, then what is published, then what
    its entry had. -/
theorem entry_get {p : String} (hr : r.connects = some p) :
    ∃ e : VpnStackReport, (s.step r).tracker.ledger =
        ⟨without s.tracker.ledger.live p ++ [e], e.connected⟩ ∧ e.protocol = p ∧
      ∀ f, e.get f = (r.supplied p f <|> s.tracker.vpnState.get f <|>
        (previous s.tracker.ledger.live p).bind fun e => e.get f) := by
  obtain ⟨event, hfold, hkey, hstatus, hget⟩ := report_connects s.tracker r hr
  refine ⟨refreshed s.tracker.ledger.live event p, ?_, rfl, ?_⟩
  · rw [Reported.step, hfold, fold_connected hkey hstatus]
  · intro f
    rw [refreshed_get, hget f]
    cases r.supplied p f <;> rfl

/-- **What one report does to the identities.** -/
theorem ownIdentity_step_iff (h : OwnIdentity s) : OwnIdentity (s.step r) ↔ OwnSlot s r := by
  rcases hr : r.connects with _ | p
  · constructor
    · intro _ p hp
      rw [hr] at hp
      cases hp
    · exact fun _ => h.other hr
  obtain ⟨e, hledger, hprotocol, hget⟩ := entry_get (s := s) hr
  have hmem : e ∈ (s.step r).tracker.ledger.live := by
    rw [hledger]
    exact List.mem_append_right _ (List.mem_singleton_self e)
  constructor
  · intro hown q hq f hnone v hv
    rw [hr] at hq
    rw [← Option.some.inj hq] at hnone ⊢
    have hentry : e.get f = some v := by
      rw [hget f, hnone, hv]
      rfl
    obtain ⟨x, hx, hsupplied⟩ := hown.entries e hmem f v hentry
    rw [hprotocol] at hsupplied
    rcases List.mem_cons.mp hx with rfl | hx
    · rw [hnone] at hsupplied
      cases hsupplied
    · exact ⟨x, hx, hsupplied⟩
  · intro hslot
    -- What the new entry carries is its stack's own.
    have hentry : ∀ f v, e.get f = some v → Supplied (r :: s.past) p f v := by
      intro f v hv
      rw [hget f] at hv
      rcases hsupplied : r.supplied p f with _ | w
      · rw [hsupplied] at hv
        rcases hpublished : s.tracker.vpnState.get f with _ | w
        · rw [hpublished] at hv
          obtain ⟨x, hx, hxv⟩ := Option.bind_eq_some_iff.mp hv
          obtain ⟨hlive, hkey⟩ := mem_of_previous hx
          rw [← hkey]
          exact (h.entries x hlive f v hxv).cons r
        · rw [hpublished] at hv
          rw [← Option.some.inj hv]
          exact (hslot p hr f hsupplied w hpublished).cons r
      · rw [hsupplied] at hv
        rw [← Option.some.inj hv]
        exact ⟨r, List.mem_cons_self, hsupplied⟩
    refine ⟨?_, ?_⟩
    · intro x hx f v hv
      rw [hledger] at hx
      rcases List.mem_append.mp hx with hx | hx
      · exact (h.entries x (mem_without.mp hx).1 f v hv).cons r
      · rw [List.mem_singleton.mp hx] at hv ⊢
        rw [hprotocol]
        exact hentry f v hv
    · intro _ q hq f v hv
      simp only [GlobalVpnTracker.vpnState, hledger] at hq hv
      rw [connected_get] at hv
      rw [← Option.some.inj hq, hprotocol]
      exact hentry f v hv

end Step

/-! ### Runs -/

/-- **The runs that keep the identities apart** are those in which no stack that says it is up
    takes anything over from another. -/
theorem ownIdentity_always_iff (rs : List Report) :
    Always Reported.step OwnIdentity {} rs ↔ Along Reported.step OwnSlot {} rs := by
  apply always_iff_along (I := fun _ => True) (fun _ _ _ => trivial)
  · intro s r _ h
    exact ownIdentity_step_iff h
  · trivial
  · refine ⟨?_, ?_⟩
    · intro e he
      cases he
    · intro hstatus
      cases hstatus

/-- SoftEther has a tunnel, and then OpenVPN has one. -/
def takenOver : List Report := [.softEther .STATE_CONNECTED "10.0.0.2", .openVpn .LEVEL_CONNECTED]

theorem identity_taken_over : ¬ Always Reported.step OwnIdentity {} takenOver := by
  intro h
  have hown := always_iff.mp h takenOver (List.prefix_refl _)
  obtain ⟨x, hx, hsupplied⟩ := hown.entries ⟨"OpenVPN", none, none, some "10.0.0.2"⟩ (by decide)
    .assignedIp "10.0.0.2" rfl
  have hpast : (run Reported.step {} takenOver).past = takenOver.reverse := rfl
  rw [hpast] at hx
  simp [takenOver] at hx
  rcases hx with rfl | rfl
  · cases hsupplied
  · simp [Report.supplied] at hsupplied

end SoftEther.Tracker
