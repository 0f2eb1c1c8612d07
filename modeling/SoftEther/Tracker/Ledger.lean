import Mathlib.Data.List.Induction
import Mathlib.Data.List.Nodup
import SoftEther.Lib.Transition

namespace SoftEther.Tracker

open Lib

/-!
# The ledger of live stacks (`VpnStackLedger`)

Several VPN stacks publish into one slot. Their events are folded into a ledger of the stacks that
are up, which decides what the slot shows.

* `reconcile` — one event: the new ledger and what is published, if anything is;
* `fold` — the ledger and the slot after an event;
* `latest` — the last event of a stack that says whether it is up;
* `Agrees` — the ledger and the slot agree with what the stacks have said;
* `agrees_run` — they agree after any sequence of events.
-/

/-! ### The data -/

inductive VpnConnectionStatus
  | DISCONNECTED
  | CONNECTING
  | CONNECTED
  | DISCONNECTING
  | ERROR
  deriving DecidableEq, Repr

namespace VpnConnectionStatus

def isActiveOrBusy (s : VpnConnectionStatus) : Bool :=
  s = .CONNECTED || s = .CONNECTING || s = .DISCONNECTING

/-- The stack is gone. -/
def isTerminal (s : VpnConnectionStatus) : Bool := s = .DISCONNECTED || s = .ERROR

/-- A status is active or terminal. -/
theorem isActiveOrBusy_eq (s : VpnConnectionStatus) : s.isActiveOrBusy = !s.isTerminal := by
  cases s <;> rfl

end VpnConnectionStatus

structure GlobalVpnState where
  status : VpnConnectionStatus := .DISCONNECTED
  protocol : Option String := none
  serverHost : Option String := none
  serverIp : Option String := none
  assignedIp : Option String := none
  errorMessage : Option String := none
  deriving DecidableEq, Repr

/-- One live stack. -/
structure VpnStackReport where
  protocol : String
  serverHost : Option String := none
  serverIp : Option String := none
  assignedIp : Option String := none
  deriving DecidableEq, Repr

structure VpnStackEvent where
  status : VpnConnectionStatus
  protocol : Option String
  serverHost : Option String := none
  serverIp : Option String := none
  assignedIp : Option String := none
  errorMessage : Option String := none
  deriving DecidableEq, Repr

structure VpnStackReconciliation where
  live : List VpnStackReport
  /-- `none` leaves the published state as it is. -/
  publish : Option GlobalVpnState
  deriving DecidableEq, Repr

/-- What is published of a stack that is up. -/
def VpnStackReport.connected (r : VpnStackReport) : GlobalVpnState where
  status := .CONNECTED
  protocol := some r.protocol
  serverHost := r.serverHost
  serverIp := r.serverIp
  assignedIp := r.assignedIp
  errorMessage := none

/-! ### The ledger -/

namespace VpnStackLedger

/-- `live.filterNot { it.protocol == key }` -/
def without (live : List VpnStackReport) (key : String) : List VpnStackReport :=
  live.filter fun r => r.protocol ≠ key

/-- `live.lastOrNull { it.protocol == key }` -/
def previous (live : List VpnStackReport) (key : String) : Option VpnStackReport :=
  live.reverse.find? fun r => r.protocol = key

/-- The entry of a stack that says it is up. -/
def refreshed (live : List VpnStackReport) (event : VpnStackEvent) (key : String) :
    VpnStackReport where
  protocol := key
  serverHost := event.serverHost <|> (previous live key).bind VpnStackReport.serverHost
  serverIp := event.serverIp <|> (previous live key).bind VpnStackReport.serverIp
  assignedIp := event.assignedIp <|> (previous live key).bind VpnStackReport.assignedIp

/-- What is published of an attempt or a teardown under way. -/
def passing (current : GlobalVpnState) (event : VpnStackEvent) (key : String) :
    GlobalVpnState where
  status := event.status
  protocol := some key
  serverHost := event.serverHost <|> current.serverHost
  serverIp := event.serverIp <|> current.serverIp
  assignedIp := event.assignedIp <|> current.assignedIp
  errorMessage := event.errorMessage

/-- What is published when the last stack is gone. -/
def ended (current : GlobalVpnState) (event : VpnStackEvent) : GlobalVpnState :=
  if event.status = .DISCONNECTED then
    { status := event.status, errorMessage := event.errorMessage }
  else { current with status := event.status, errorMessage := event.errorMessage }

def reconcile (live : List VpnStackReport) (current : GlobalVpnState) (event : VpnStackEvent) :
    VpnStackReconciliation :=
  match event.protocol with
  | none => ⟨live, none⟩
  | some key =>
    match event.status with
    | .CONNECTED =>
      let refreshed := refreshed live event key
      ⟨without live key ++ [refreshed], some refreshed.connected⟩
    | .CONNECTING | .DISCONNECTING => ⟨live, some (passing current event key)⟩
    | .DISCONNECTED | .ERROR =>
      let nextLive := without live key
      match nextLive.getLast? with
      | some survivor => ⟨nextLive, some survivor.connected⟩
      | none =>
        if current.protocol = some key then ⟨nextLive, some (ended current event)⟩
        else ⟨nextLive, none⟩

end VpnStackLedger

open VpnStackLedger

/-- The ledger and the published state. -/
structure Stacks where
  live : List VpnStackReport := []
  current : GlobalVpnState := {}
  deriving DecidableEq, Repr

/-- The verdict is applied. -/
def Stacks.fold (s : Stacks) (event : VpnStackEvent) : Stacks :=
  let verdict := reconcile s.live s.current event
  { live := verdict.live, current := verdict.publish.getD s.current }

/-- The stacks in the ledger. -/
def Stacks.keys (s : Stacks) : List String := s.live.map VpnStackReport.protocol

/-! ### What the fold does -/

section Fold

variable {s : Stacks} {event : VpnStackEvent} {key p : String}

theorem mem_without {live : List VpnStackReport} {r : VpnStackReport} :
    r ∈ without live key ↔ r ∈ live ∧ r.protocol ≠ key := by
  simp [without]

theorem map_protocol_without (live : List VpnStackReport) :
    (without live key).map VpnStackReport.protocol =
      (live.map VpnStackReport.protocol).filter fun p => p ≠ key := by
  rw [without, List.filter_map]
  rfl

theorem fold_none (h : event.protocol = none) : s.fold event = s := by
  simp [Stacks.fold, reconcile, h]

theorem fold_connected (h : event.protocol = some key) (hstatus : event.status = .CONNECTED) :
    s.fold event = ⟨without s.live key ++ [refreshed s.live event key],
      (refreshed s.live event key).connected⟩ := by
  simp [Stacks.fold, reconcile, h, hstatus]

theorem fold_passing (h : event.protocol = some key)
    (hstatus : event.status = .CONNECTING ∨ event.status = .DISCONNECTING) :
    s.fold event = ⟨s.live, passing s.current event key⟩ := by
  rcases hstatus with hstatus | hstatus <;> simp [Stacks.fold, reconcile, h, hstatus]

/-- A terminal event takes its stack out of the ledger. -/
theorem fold_terminal_live (h : event.protocol = some key) (hstatus : event.status.isTerminal) :
    (s.fold event).live = without s.live key := by
  have hcases : event.status = .DISCONNECTED ∨ event.status = .ERROR := by
    simpa [VpnConnectionStatus.isTerminal] using hstatus
  unfold Stacks.fold reconcile
  simp only [h]
  rcases (without s.live key).getLast? with _ | r
  · rcases hcases with hcase | hcase <;> simp only [hcase] <;> split <;> rfl
  · rcases hcases with hcase | hcase <;> simp [hcase]

/-- **What a terminal event shows.** The stack that is left; if none is, the slot is cleared when
    it shows the stack that is gone, and kept when it does not. -/
theorem fold_terminal_current (h : event.protocol = some key) (hstatus : event.status.isTerminal) :
    (s.fold event).current =
      match (without s.live key).getLast? with
      | some survivor => survivor.connected
      | none => if s.current.protocol = some key then ended s.current event else s.current := by
  have hcases : event.status = .DISCONNECTED ∨ event.status = .ERROR := by
    simpa [VpnConnectionStatus.isTerminal] using hstatus
  unfold Stacks.fold reconcile
  simp only [h]
  rcases (without s.live key).getLast? with _ | r
  · rcases hcases with hcase | hcase <;> simp only [hcase] <;> split_ifs <;> rfl
  · rcases hcases with hcase | hcase <;> simp only [hcase] <;> rfl

@[simp] theorem ended_status (current : GlobalVpnState) (event : VpnStackEvent) :
    (ended current event).status = event.status := by
  unfold ended
  split_ifs <;> rfl

/-- The statuses in three groups, as the ledger treats them. -/
theorem status_cases (status : VpnConnectionStatus) :
    status = .CONNECTED ∨ (status = .CONNECTING ∨ status = .DISCONNECTING) ∨
      status.isTerminal = true := by
  cases status <;> simp [VpnConnectionStatus.isTerminal]

end Fold

/-! ### The agreement -/

/-- The event says whether its stack is up. -/
def VpnStackEvent.decides (event : VpnStackEvent) (p : String) : Bool :=
  event.protocol = some p && (event.status = .CONNECTED || event.status.isTerminal)

/-- What the last event of stack `p` that says whether it is up says. -/
def latest (events : List VpnStackEvent) (p : String) : Option VpnConnectionStatus :=
  ((events.filter fun e => e.decides p).getLast?).map VpnStackEvent.status

theorem latest_append (events : List VpnStackEvent) (event : VpnStackEvent) (p : String) :
    latest (events ++ [event]) p =
      if event.decides p then some event.status else latest events p := by
  unfold latest
  by_cases h : event.decides p = true
  · simp [List.filter_append, h]
  · simp [List.filter_append, h]

/-- The ledger and the slot, taken by themselves. -/
structure Coherent (s : Stacks) : Prop where
  nodup : s.keys.Nodup
  /-- The slot says that there is no tunnel only when no stack is up. -/
  terminal : s.current.status.isTerminal = true → s.live = []
  /-- A tunnel that the slot shows is that of a stack that is up. -/
  connected : s.current.status = .CONNECTED → ∃ p, s.current.protocol = some p ∧ p ∈ s.keys

/-- **The ledger and the slot agree with what the stacks have said.** -/
structure Agrees (events : List VpnStackEvent) (s : Stacks) : Prop extends Coherent s where
  live : ∀ p, p ∈ s.keys ↔ latest events p = some .CONNECTED

section Step

variable {s : Stacks} {event : VpnStackEvent} {key : String}

theorem Coherent.connect (h : Coherent s) (hkey : event.protocol = some key)
    (hstatus : event.status = .CONNECTED) : Coherent (s.fold event) := by
  rw [fold_connected hkey hstatus]
  refine ⟨?_, ?_, ?_⟩
  · show ((without s.live key ++ [refreshed s.live event key]).map VpnStackReport.protocol).Nodup
    rw [List.map_append, map_protocol_without, List.map_singleton]
    apply List.Nodup.append (h.nodup.filter _) (List.nodup_singleton _)
    rw [List.disjoint_singleton]
    simp [refreshed]
  · intro hterminal
    cases hterminal
  · intro _
    refine ⟨key, rfl, ?_⟩
    simp [Stacks.keys, refreshed]

theorem Coherent.pass (h : Coherent s) (hkey : event.protocol = some key)
    (hstatus : event.status = .CONNECTING ∨ event.status = .DISCONNECTING) :
    Coherent (s.fold event) := by
  rw [fold_passing hkey hstatus]
  refine ⟨h.nodup, ?_, ?_⟩
  · intro hterminal
    rcases hstatus with hstatus | hstatus <;>
      simp [passing, hstatus, VpnConnectionStatus.isTerminal] at hterminal
  · intro hconnected
    rcases hstatus with hstatus | hstatus <;> simp [passing, hstatus] at hconnected

theorem Coherent.terminate (h : Coherent s) (hkey : event.protocol = some key)
    (hstatus : event.status.isTerminal = true) : Coherent (s.fold event) := by
  have hlive := fold_terminal_live (s := s) hkey hstatus
  have hcurrent := fold_terminal_current (s := s) hkey hstatus
  rcases hlast : (without s.live key).getLast? with _ | r
  · have hempty : (s.fold event).live = [] := by
      rw [hlive]
      exact List.getLast?_eq_none_iff.mp hlast
    rw [hlast] at hcurrent
    refine ⟨?_, fun _ => hempty, ?_⟩
    · simp [Stacks.keys, hempty]
    · intro hconnected
      by_cases howner : s.current.protocol = some key
      · simp only [howner, if_true] at hcurrent
        rw [hcurrent, ended_status] at hconnected
        rw [hconnected] at hstatus
        cases hstatus
      · -- The stack that the slot shows would be left.
        simp only [howner, if_false] at hcurrent
        rw [hcurrent] at hconnected
        obtain ⟨p, hp, hmem⟩ := h.connected hconnected
        obtain ⟨r, hr, rfl⟩ := List.mem_map.mp hmem
        have hleft : r ∈ without s.live key :=
          mem_without.mpr ⟨hr, fun heq => howner (heq ▸ hp)⟩
        rw [← hlive, hempty] at hleft
        cases hleft
  · rw [hlast] at hcurrent
    have hr : r ∈ (s.fold event).live := by
      rw [hlive]
      exact List.mem_of_getLast? hlast
    refine ⟨?_, ?_, ?_⟩
    · rw [Stacks.keys, hlive, map_protocol_without]
      exact h.nodup.filter _
    · intro hterminal
      rw [hcurrent] at hterminal
      cases hterminal
    · intro _
      exact ⟨r.protocol, by rw [hcurrent]; rfl, List.mem_map_of_mem hr⟩

/-- **One event keeps the ledger and the slot coherent.** -/
theorem Coherent.fold (h : Coherent s) (event : VpnStackEvent) : Coherent (s.fold event) := by
  rcases hkey : event.protocol with _ | key
  · rw [fold_none hkey]
    exact h
  · rcases status_cases event.status with hstatus | hstatus | hstatus
    · exact h.connect hkey hstatus
    · exact h.pass hkey hstatus
    · exact h.terminate hkey hstatus

/-- Which stacks are in the ledger after an event. -/
theorem mem_keys_fold (s : Stacks) (event : VpnStackEvent) (p : String) :
    p ∈ (s.fold event).keys ↔
      if event.decides p then event.status = .CONNECTED else p ∈ s.keys := by
  rcases hkey : event.protocol with _ | key
  · simp [fold_none hkey, VpnStackEvent.decides, hkey]
  · rcases status_cases event.status with hstatus | hstatus | hstatus
    · rw [fold_connected hkey hstatus, Stacks.keys]
      by_cases hp : p = key
      · simp [VpnStackEvent.decides, hkey, hstatus, hp, refreshed]
      · simp [VpnStackEvent.decides, hkey, hstatus, refreshed, map_protocol_without, Stacks.keys,
          hp, Ne.symm hp]
    · rw [fold_passing hkey hstatus, Stacks.keys]
      rcases hstatus with hstatus | hstatus <;>
        simp [VpnStackEvent.decides, hstatus, VpnConnectionStatus.isTerminal, Stacks.keys]
    · have hne : event.status ≠ .CONNECTED := by
        intro heq
        rw [heq] at hstatus
        cases hstatus
      rw [Stacks.keys, fold_terminal_live hkey hstatus, map_protocol_without]
      by_cases hp : p = key
      · simp [VpnStackEvent.decides, hkey, hstatus, hp, hne]
      · simp [VpnStackEvent.decides, hkey, hp, Ne.symm hp, Stacks.keys]

theorem Agrees.fold {events : List VpnStackEvent} (h : Agrees events s) (event : VpnStackEvent) :
    Agrees (events ++ [event]) (s.fold event) where
  toCoherent := h.toCoherent.fold event
  live p := by
    rw [mem_keys_fold, latest_append]
    by_cases hdecides : event.decides p = true
    · simp [hdecides]
    · simp [hdecides, h.live p]

end Step

/-- **The ledger and the slot agree with the stacks after every sequence of events.** -/
theorem agrees_run (events : List VpnStackEvent) : Agrees events (run Stacks.fold {} events) := by
  induction events using List.reverseRecOn with
  | nil =>
    refine ⟨⟨List.nodup_nil, fun _ => rfl, ?_⟩, ?_⟩
    · intro h
      cases h
    · intro p
      simp [run, Stacks.keys, latest]
  | append_singleton events event ih =>
    rw [run, List.foldl_append]
    exact ih.fold event

end SoftEther.Tracker
