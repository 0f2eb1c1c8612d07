import Mathlib.Data.List.Count
import SoftEther.Lib.EventLog
import SoftEther.Native.HandleSlot

namespace SoftEther.Native

/-!
# The accounts of a handle slot

Any number of parties call one `NativeHandleSlot`, in any order, and a log keeps what each call
answered.  The ledger reads the log back: one entry for each handle that was published, with what
became of it.

* `SlotCall`, `SlotEvent`, `slotStep` — the calls, their answers, and one call on the slot;
* `Fate`, `LedgerEntry`, `ledger` — the handles that were published;
* `handOuts_le_publications` — no handle leaves the slot more often than it entered;
* `KeepsAccounts`, `Standing` — the callers' discipline, and what it keeps true of the ledger;
* `slot_accounts` — the accounts of a whole run.
-/

/-! ### Calls and answers -/

/-- A call on the slot.  A claim that finds a destroy in flight goes ahead only when its wait has
    `expired`. -/
inductive SlotCall (Party : Type*)
  | publish (handle : Handle)
  | claimHandle (party : Party) (expired : Bool)
  | settleDestroyed (party : Party)
  | settleLost (party : Party)
  deriving DecidableEq, Repr

/-- What a call did: a publication with its answer, a claim with its outcome, a settlement. -/
inductive SlotEvent (Party : Type*)
  | published (handle : Handle) (accepted : Bool)
  | claim (party : Party) (outcome : NativeHandleClaim)
  | destroyed (party : Party)
  | lost (party : Party)
  deriving DecidableEq, Repr

section Accounts

variable {Party : Type*} [DecidableEq Party]

open NativeHandleSlot Lib

/-- One call under the slot's lock.  A claim that still has to wait leaves no event. -/
def slotStep (slot : NativeHandleSlot) :
    SlotCall Party → NativeHandleSlot × Option (SlotEvent Party)
  | .publish handle =>
    ((slot.publish handle).1, some (.published handle (slot.publish handle).2))
  | .claimHandle party expired =>
    if slot.claimReady expired then
      (slot.claimHandle.1, some (.claim party slot.claimHandle.2))
    else (slot, none)
  | .settleDestroyed party => (slot.settleDestroyed, some (.destroyed party))
  | .settleLost party => (slot.settleLost, some (.lost party))

/-- A fresh slot, on which nothing was called. -/
def freshSlot : Logged NativeHandleSlot (SlotEvent Party) := ⟨{}, []⟩

/-- The slot and its log after `calls`. -/
abbrev slotRun (calls : List (SlotCall Party)) : Logged NativeHandleSlot (SlotEvent Party) :=
  run (logStep slotStep) freshSlot calls

/-! ### The ledger -/

/-- What became of a published handle: nobody claimed it yet, a party has it for destruction, or
    that party settled it. -/
inductive Fate (Party : Type*)
  | unclaimed
  | claimedBy (party : Party)
  | destroyed
  | lost
  deriving DecidableEq, Repr

/-- A handle that was published, and what became of it. -/
structure LedgerEntry (Party : Type*) where
  handle : Handle
  fate : Fate Party
  deriving DecidableEq, Repr

/-- The latest unclaimed entry of `handle` is now `party`'s. -/
def handTo (party : Party) (handle : Handle) : List (LedgerEntry Party) → List (LedgerEntry Party)
  | [] => []
  | e :: es =>
    if e.handle = handle ∧ e.fate = .unclaimed then ⟨handle, .claimedBy party⟩ :: es
    else e :: handTo party handle es

/-- What `party` has for destruction meets `fate`; a settlement says nothing of the others. -/
def LedgerEntry.settle (party : Party) (fate : Fate Party) (e : LedgerEntry Party) :
    LedgerEntry Party :=
  if e.fate = .claimedBy party then { e with fate := fate } else e

/-- The entries of a log, the latest publication first. -/
def ledger : List (SlotEvent Party) → List (LedgerEntry Party)
  | [] => []
  | .published handle true :: before =>
    if handle = 0 then ledger before else ⟨handle, .unclaimed⟩ :: ledger before
  | .published _ false :: before => ledger before
  | .claim party (.claimed handle) :: before => handTo party handle (ledger before)
  | .claim _ .nothingOutstanding :: before => ledger before
  | .claim _ .lost :: before => ledger before
  | .destroyed party :: before => (ledger before).map (LedgerEntry.settle party .destroyed)
  | .lost party :: before => (ledger before).map (LedgerEntry.settle party .lost)

/-- The party that was handed a handle last. -/
def claimant : List (SlotEvent Party) → Option Party
  | [] => none
  | .claim party (.claimed _) :: _ => some party
  | _ :: before => claimant before

/-- The event hands `handle` out. -/
def SlotEvent.handsOut (handle : Handle) : SlotEvent Party → Bool
  | .claim _ (.claimed h) => h == handle
  | .claim _ .nothingOutstanding => false
  | .claim _ .lost => false
  | .published _ _ => false
  | .destroyed _ => false
  | .lost _ => false

/-- The event is an accepted publication of `handle`. -/
def SlotEvent.publishes (handle : Handle) : SlotEvent Party → Bool
  | .published h accepted => h == handle && accepted
  | .claim _ _ => false
  | .destroyed _ => false
  | .lost _ => false

/-- How often a claim handed out `handle`. -/
def handOuts (handle : Handle) (log : List (SlotEvent Party)) : ℕ :=
  log.countP (SlotEvent.handsOut handle)

/-- How often `handle` was published. -/
def publications (handle : Handle) (log : List (SlotEvent Party)) : ℕ :=
  log.countP (SlotEvent.publishes handle)

omit [DecidableEq Party] in
theorem handOuts_cons (handle : Handle) (e : SlotEvent Party) (log : List (SlotEvent Party)) :
    handOuts handle (e :: log) = handOuts handle log + if e.handsOut handle then 1 else 0 :=
  List.countP_cons

omit [DecidableEq Party] in
theorem publications_cons (handle : Handle) (e : SlotEvent Party) (log : List (SlotEvent Party)) :
    publications handle (e :: log) =
      publications handle log + if e.publishes handle then 1 else 0 :=
  List.countP_cons

/-- A settlement leaves the entries of the other parties alone. -/
theorem map_settle_of_none {party : Party} {fate : Fate Party} {es : List (LedgerEntry Party)}
    (h : ∀ e ∈ es, e.fate ≠ .claimedBy party) : es.map (LedgerEntry.settle party fate) = es := by
  rw [List.map_congr_left (g := id), List.map_id]
  intro e he
  exact if_neg (h e he)

/-! ### One call -/

/-- What one call does to the slot, and the event it leaves. -/
inductive SlotMove (slot : NativeHandleSlot) :
    SlotCall Party → NativeHandleSlot × Option (SlotEvent Party) → Prop
  | refused (handle : Handle) (closed : (slot.lost || slot.destroyInFlight) = true) :
    SlotMove slot (.publish handle) (slot, some (.published handle false))
  | published (handle : Handle) (notLost : slot.lost = false)
    (settled : slot.destroyInFlight = false) :
    SlotMove slot (.publish handle)
      (⟨handle, slot.destroyInFlight, slot.lost⟩, some (.published handle true))
  | waits (party : Party) : SlotMove slot (.claimHandle party false) (slot, none)
  | claimed (party : Party) (expired : Bool) (outstanding : slot.handle ≠ 0) :
    SlotMove slot (.claimHandle party expired)
      (⟨0, true, slot.lost⟩, some (.claim party (.claimed slot.handle)))
  | unproven (party : Party) (expired : Bool) (empty : slot.handle = 0)
    (doubtful : (slot.destroyInFlight || slot.lost) = true) :
    SlotMove slot (.claimHandle party expired) (slot, some (.claim party .lost))
  | nothing (party : Party) (expired : Bool) (empty : slot.handle = 0)
    (settled : slot.destroyInFlight = false) (notLost : slot.lost = false) :
    SlotMove slot (.claimHandle party expired) (slot, some (.claim party .nothingOutstanding))
  | destroyed (party : Party) :
    SlotMove slot (.settleDestroyed party)
      (⟨slot.handle, false, slot.lost⟩, some (.destroyed party))
  | lost (party : Party) :
    SlotMove slot (.settleLost party)
      (⟨slot.handle, false, true⟩, some (.lost party))

omit [DecidableEq Party] in
theorem slot_move (slot : NativeHandleSlot) (call : SlotCall Party) :
    SlotMove slot call (slotStep slot call) := by
  cases call with
  | publish handle =>
    simp only [slotStep, NativeHandleSlot.publish]
    by_cases hclosed : (slot.lost || slot.destroyInFlight) = true
    · rw [if_pos hclosed]
      exact .refused handle hclosed
    · rw [if_neg hclosed]
      rw [Bool.not_eq_true, Bool.or_eq_false_iff] at hclosed
      exact .published handle hclosed.1 hclosed.2
  | claimHandle party expired =>
    simp only [slotStep]
    by_cases hready : slot.claimReady expired = true
    · rw [if_pos hready]
      unfold NativeHandleSlot.claimHandle
      by_cases hhandle : slot.handle = 0
      · rw [if_neg (not_not_intro hhandle)]
        by_cases hdoubt : (slot.destroyInFlight || slot.lost) = true
        · rw [if_pos hdoubt]
          exact .unproven party expired hhandle hdoubt
        · rw [if_neg hdoubt]
          rw [Bool.not_eq_true, Bool.or_eq_false_iff] at hdoubt
          exact .nothing party expired hhandle hdoubt.1 hdoubt.2
      · rw [if_pos hhandle]
        exact .claimed party expired hhandle
    · rw [if_neg hready]
      -- only a claim whose wait is not over finds the slot not ready
      have hexpired : expired = false := by
        cases expired with
        | false => rfl
        | true => exact absurd (by simp [claimReady]) hready
      subst hexpired
      exact .waits party
  | settleDestroyed party => exact .destroyed party
  | settleLost party => exact .lost party

/-! ### Handed out at most as often as published -/

/-- The published handle is one publication that no claim has handed out yet. -/
def credit (handle : Handle) (slot : NativeHandleSlot) : ℕ :=
  if slot.handle = handle ∧ handle ≠ 0 then 1 else 0

/-- What was handed out and what is still in the slot was published. -/
def Balanced (handle : Handle) (x : Logged NativeHandleSlot (SlotEvent Party)) : Prop :=
  handOuts handle x.log + credit handle x.state ≤ publications handle x.log

omit [DecidableEq Party] in
/-- **One call keeps the balance.** -/
theorem balanced_step (handle : Handle) (x : Logged NativeHandleSlot (SlotEvent Party))
    (call : SlotCall Party) (h : Balanced handle x) :
    Balanced handle (logStep slotStep x call) := by
  unfold Balanced at h ⊢
  have hmove : SlotMove x.state call (slotStep x.state call) := slot_move x.state call
  unfold logStep
  generalize slotStep x.state call = r at hmove ⊢
  cases hmove with
  | refused h' hclosed =>
    simpa [handOuts_cons, publications_cons, SlotEvent.handsOut, SlotEvent.publishes] using h
  | published h' hlost hsettled =>
    -- the new handle's credit is its own publication; an old one's is given up
    have hcredit : credit handle ⟨h', x.state.destroyInFlight, x.state.lost⟩ ≤
        if h' = handle then 1 else 0 := by
      unfold credit
      by_cases heq : h' = handle
      · rw [if_pos heq]
        split_ifs <;> omega
      · rw [if_neg (fun hand => heq hand.1)]
        exact Nat.zero_le _
    simp only [Option.toList, List.singleton_append, handOuts_cons, publications_cons,
      SlotEvent.handsOut, SlotEvent.publishes, Bool.and_true, beq_iff_eq, Bool.false_eq_true,
      if_false]
    omega
  | waits party => exact h
  | claimed party expired houtstanding =>
    -- the credit of the handle that leaves pays for its handing out
    have hpaid : (if x.state.handle = handle then 1 else 0) = credit handle x.state := by
      unfold credit
      by_cases heq : x.state.handle = handle
      · rw [if_pos heq, if_pos ⟨heq, heq ▸ houtstanding⟩]
      · rw [if_neg heq, if_neg (fun hand => heq hand.1)]
    have hnone : credit handle ⟨0, true, x.state.lost⟩ = 0 := by
      unfold credit
      rw [if_neg]
      rintro ⟨h0, hne⟩
      exact hne h0.symm
    simp only [Option.toList, List.singleton_append, handOuts_cons, publications_cons,
      SlotEvent.handsOut, SlotEvent.publishes, beq_iff_eq, Bool.false_eq_true, if_false]
    omega
  | unproven party expired hempty hdoubt =>
    simpa [handOuts_cons, publications_cons, SlotEvent.handsOut, SlotEvent.publishes] using h
  | nothing party expired hempty hsettled hlost =>
    simpa [handOuts_cons, publications_cons, SlotEvent.handsOut, SlotEvent.publishes] using h
  | destroyed party =>
    have hsame : credit handle ⟨x.state.handle, false, x.state.lost⟩ = credit handle x.state := rfl
    simpa [handOuts_cons, publications_cons, SlotEvent.handsOut, SlotEvent.publishes, hsame]
      using h
  | lost party =>
    have hsame : credit handle ⟨x.state.handle, false, true⟩ = credit handle x.state := rfl
    simpa [handOuts_cons, publications_cons, SlotEvent.handsOut, SlotEvent.publishes, hsame]
      using h

omit [DecidableEq Party] in
/-- **No handle is handed out more often than it was published.** -/
theorem handOuts_le_publications (calls : List (SlotCall Party)) (handle : Handle) :
    handOuts handle (slotRun calls).log ≤ publications handle (slotRun calls).log := by
  have hfresh : Balanced handle (freshSlot : Logged NativeHandleSlot (SlotEvent Party)) := by
    simp [Balanced, freshSlot, handOuts, publications, credit, eq_comm]
  have hbalanced : Balanced handle (slotRun calls) :=
    run_invariant (balanced_step handle) hfresh calls
  unfold Balanced at hbalanced
  omega

/-! ### The callers' discipline -/

/-- A party publishes only into an empty slot, and reports only a destroy of its own. -/
def KeepsAccounts (x : Logged NativeHandleSlot (SlotEvent Party)) : SlotCall Party → Prop
  | .publish handle => (x.state.publish handle).2 = true → x.state.handle = 0
  | .claimHandle _ _ => True
  | .settleDestroyed party => x.state.destroyInFlight = true → claimant x.log = some party
  | .settleLost _ => True

instance decidableKeepsAccounts (x : Logged NativeHandleSlot (SlotEvent Party)) :
    (call : SlotCall Party) → Decidable (KeepsAccounts x call)
  | .publish handle =>
    inferInstanceAs (Decidable ((x.state.publish handle).2 = true → x.state.handle = 0))
  | .claimHandle _ _ => inferInstanceAs (Decidable True)
  | .settleDestroyed party =>
    inferInstanceAs (Decidable (x.state.destroyInFlight = true → claimant x.log = some party))
  | .settleLost _ => inferInstanceAs (Decidable True)

/-- Where the slot and its ledger stand after disciplined calls. -/
inductive Standing (x : Logged NativeHandleSlot (SlotEvent Party)) : Prop
  | lost (lost : x.state.lost = true)
  | published (es : List (LedgerEntry Party)) (settled : x.state.destroyInFlight = false)
    (outstanding : x.state.handle ≠ 0)
    (entries : ledger x.log = ⟨x.state.handle, .unclaimed⟩ :: es)
    (others : ∀ e ∈ es, e.fate = .destroyed)
  | inDestroy (party : Party) (inFlight : x.state.destroyInFlight = true)
    (empty : x.state.handle = 0) (claimant : claimant x.log = some party)
    (entries : ∀ e ∈ ledger x.log, e.fate = .destroyed ∨ e.fate = .claimedBy party)
  | settled (settled : x.state.destroyInFlight = false) (empty : x.state.handle = 0)
    (entries : ∀ e ∈ ledger x.log, e.fate = .destroyed)

/-- An open slot that holds no handle has every handle destroyed. -/
theorem Standing.allDestroyed {x : Logged NativeHandleSlot (SlotEvent Party)} (h : Standing x)
    (hlost : x.state.lost = false) (hsettled : x.state.destroyInFlight = false)
    (hempty : x.state.handle = 0) : ∀ e ∈ ledger x.log, e.fate = .destroyed := by
  cases h with
  | lost h' => exact absurd (h'.symm.trans hlost) (by decide)
  | published _ _ houtstanding _ _ => exact absurd hempty houtstanding
  | inDestroy _ hflight _ _ _ => exact absurd (hflight.symm.trans hsettled) (by decide)
  | settled _ _ hentries => exact hentries

/-- A call that changes neither the slot nor the ledger. -/
theorem Standing.same {x y : Logged NativeHandleSlot (SlotEvent Party)} (h : Standing x)
    (hstate : y.state = x.state) (hledger : ledger y.log = ledger x.log)
    (hclaimant : claimant y.log = claimant x.log) : Standing y := by
  cases h with
  | lost hlost => exact .lost (hstate ▸ hlost)
  | published es hsettled houtstanding hentries hothers =>
    rw [← hstate] at hsettled houtstanding hentries
    exact .published es hsettled houtstanding (hledger.trans hentries) hothers
  | inDestroy party hflight hempty hparty hentries =>
    rw [← hstate] at hflight hempty
    exact .inDestroy party hflight hempty (hclaimant.trans hparty) (hledger ▸ hentries)
  | settled hsettled hempty hentries =>
    rw [← hstate] at hsettled hempty
    exact .settled hsettled hempty (hledger ▸ hentries)

theorem standing_step (x : Logged NativeHandleSlot (SlotEvent Party)) (call : SlotCall Party)
    (h : Standing x) (hkeeps : KeepsAccounts x call) : Standing (logStep slotStep x call) := by
  have hmove : SlotMove x.state call (slotStep x.state call) := slot_move x.state call
  unfold logStep
  generalize slotStep x.state call = r at hmove ⊢
  cases hmove with
  | refused handle hclosed => exact h.same rfl rfl rfl
  | waits party => exact h
  | unproven party expired hempty hdoubt => exact h.same rfl rfl rfl
  | nothing party expired hempty hsettled hlost => exact h.same rfl rfl rfl
  | published handle hlost hsettled =>
    have hempty : x.state.handle = 0 := hkeeps (by simp [publish, hlost, hsettled])
    have hall : ∀ e ∈ ledger x.log, e.fate = .destroyed := h.allDestroyed hlost hsettled hempty
    by_cases hzero : handle = 0
    · refine .settled hsettled hzero ?_
      simpa [ledger, hzero] using hall
    · refine .published (ledger x.log) hsettled hzero ?_ hall
      simp [ledger, hzero]
  | claimed party expired houtstanding =>
    cases h with
    | lost hlost => exact .lost hlost
    | published es hsettled _ hentries hothers =>
      refine .inDestroy party rfl rfl rfl ?_
      intro e he
      simp only [Option.toList, List.singleton_append, ledger, hentries, handTo, and_self,
        if_true, List.mem_cons] at he
      rcases he with rfl | he
      · exact Or.inr rfl
      · exact Or.inl (hothers e he)
    | inDestroy _ _ hempty _ _ => exact absurd hempty houtstanding
    | settled _ hempty _ => exact absurd hempty houtstanding
  | destroyed party =>
    cases h with
    | lost hlost => exact .lost hlost
    | published es hsettled houtstanding hentries hothers =>
      -- nothing is in flight, so the settlement finds nothing to settle
      have hnone : ∀ e ∈ ledger x.log, e.fate ≠ .claimedBy party := by
        rw [hentries, List.forall_mem_cons]
        exact ⟨by simp, fun e he => by simp [hothers e he]⟩
      refine .published es rfl houtstanding ?_ hothers
      exact (map_settle_of_none hnone).trans hentries
    | inDestroy claimer hflight hempty hclaimer hentries =>
      refine .settled rfl hempty ?_
      have hown : claimer = party := Option.some.inj (hclaimer.symm.trans (hkeeps hflight))
      subst hown
      intro e he
      obtain ⟨e', he', rfl⟩ := List.mem_map.mp he
      unfold LedgerEntry.settle
      rcases hentries e' he' with hfate | hfate
      · rw [if_neg (by simp [hfate])]
        exact hfate
      · rw [if_pos hfate]
    | settled hsettled hempty hentries =>
      refine .settled rfl hempty ?_
      have hnone : ∀ e ∈ ledger x.log, e.fate ≠ .claimedBy party :=
        fun e he => by simp [hentries e he]
      intro e he
      exact hentries e ((map_settle_of_none hnone) ▸ he)
  | lost party => exact .lost rfl

theorem standing_run {calls : List (SlotCall Party)}
    (h : Along (logStep slotStep) KeepsAccounts freshSlot calls) : Standing (slotRun calls) :=
  run_invariant_along standing_step h (.settled rfl rfl (by simp [freshSlot, ledger]))

/-! ### After a lost destroy -/

omit [DecidableEq Party] in
/-- A lost slot stays lost. -/
theorem lost_step (x : Logged NativeHandleSlot (SlotEvent Party)) (call : SlotCall Party)
    (h : x.state.lost = true) : (logStep slotStep x call).state.lost = true := by
  have hmove : SlotMove x.state call (slotStep x.state call) := slot_move x.state call
  unfold logStep
  generalize slotStep x.state call = r at hmove ⊢
  cases hmove <;> first | exact h | rfl

omit [DecidableEq Party] in
/-- A lost slot takes no handle, so an empty one stays empty. -/
theorem lost_empty_step (x : Logged NativeHandleSlot (SlotEvent Party)) (call : SlotCall Party)
    (h : x.state.lost = true ∧ x.state.handle = 0) :
    (logStep slotStep x call).state.lost = true ∧ (logStep slotStep x call).state.handle = 0 := by
  refine ⟨lost_step x call h.1, ?_⟩
  have hmove : SlotMove x.state call (slotStep x.state call) := slot_move x.state call
  unfold logStep
  generalize slotStep x.state call = r at hmove ⊢
  cases hmove with
  | published handle hlost _ => exact absurd (h.1.symm.trans hlost) (by decide)
  | claimed party expired houtstanding => exact absurd h.2 houtstanding
  | refused handle hclosed => exact h.2
  | waits party => exact h.2
  | unproven party expired hempty hdoubt => exact h.2
  | nothing party expired hempty hsettled hlost => exact h.2
  | destroyed party => exact h.2
  | lost party => exact h.2

/-- The slot right after `calls` and a settlement by `party` that its destroy is unproven. -/
abbrev lostAt (calls : List (SlotCall Party)) (party : Party) :
    Logged NativeHandleSlot (SlotEvent Party) :=
  logStep slotStep (slotRun calls) (.settleLost party)

omit [DecidableEq Party] in
theorem slotRun_append (calls after : List (SlotCall Party)) (party : Party) :
    slotRun (calls ++ .settleLost party :: after) =
      run (logStep slotStep) (lostAt calls party) after := by
  unfold slotRun
  rw [run_append, run_cons]

theorem claimHandle_eq_lost {slot : NativeHandleSlot} (hlost : slot.lost = true) :
    slot.claimHandle.2 = .lost ↔ slot.handle = 0 := by
  unfold NativeHandleSlot.claimHandle
  by_cases hhandle : slot.handle = 0
  · simp [hhandle, hlost]
  · simp [hhandle]

theorem claimHandle_eq_nothing {slot : NativeHandleSlot}
    (h : slot.claimHandle.2 = .nothingOutstanding) :
    slot.lost = false ∧ slot.destroyInFlight = false ∧ slot.handle = 0 := by
  unfold NativeHandleSlot.claimHandle at h
  by_cases hhandle : slot.handle = 0
  · by_cases hdoubt : slot.destroyInFlight = true ∨ slot.lost = true
    · simp [hhandle, hdoubt] at h
    · simp only [not_or, Bool.not_eq_true] at hdoubt
      exact ⟨hdoubt.2, hdoubt.1, hhandle⟩
  · simp [hhandle] at h

/-! ### The accounts of a run -/

/-- **The accounts of a handle slot.**  In every run of calls: no handle is handed out more often
    than it was published; if each publication found the slot empty and each confirmed destroy
    was reported by its claimant, `NothingOutstanding` means that every published handle was
    claimed and destroyed; after a lost destroy no publication is accepted, and all claims answer
    `Lost` exactly when the slot held no handle at that point. -/
theorem slot_accounts (calls : List (SlotCall Party)) :
    (∀ handle, handOuts handle (slotRun calls).log ≤ publications handle (slotRun calls).log) ∧
    (Along (logStep slotStep) KeepsAccounts freshSlot calls →
      (slotRun calls).state.claimHandle.2 = .nothingOutstanding →
        ∀ e ∈ ledger (slotRun calls).log, e.fate = .destroyed) ∧
    (∀ party after handle,
      ((slotRun (calls ++ .settleLost party :: after)).state.publish handle).2 = false) ∧
    (∀ party, (∀ after,
      (slotRun (calls ++ .settleLost party :: after)).state.claimHandle.2 = .lost) ↔
        (slotRun calls).state.handle = 0) := by
  refine ⟨handOuts_le_publications calls, ?_, ?_, ?_⟩
  · intro hkeeps hnothing
    obtain ⟨hlost, hsettled, hempty⟩ := claimHandle_eq_nothing hnothing
    exact (standing_run hkeeps).allDestroyed hlost hsettled hempty
  · intro party after handle
    rw [slotRun_append]
    have hlost := run_invariant lost_step (rfl : (lostAt calls party).state.lost = true) after
    simp [publish, hlost]
  · intro party
    constructor
    · intro hall
      -- the claim right after the settlement finds the handle the slot had before it
      have hnext := hall []
      rw [slotRun_append] at hnext
      change (lostAt calls party).state.claimHandle.2 = .lost at hnext
      have hempty : (lostAt calls party).state.handle = 0 := (claimHandle_eq_lost rfl).mp hnext
      exact hempty
    · intro hempty after
      rw [slotRun_append]
      have hstill := run_invariant lost_empty_step
        (show (lostAt calls party).state.lost = true ∧ (lostAt calls party).state.handle = 0 from
          ⟨rfl, hempty⟩) after
      exact (claimHandle_eq_lost hstill.1).mpr hstill.2

/-- Two connections, one after the other, each destroyed by its claimant. -/
theorem slot_accounts_two_connections :
    handOuts 1 (slotRun [.publish 1, .claimHandle 0 false, .settleDestroyed 0, .publish 2,
      .claimHandle 1 false, .settleDestroyed (1 : ℕ)]).log ≤ 1 ∧
    ∀ e ∈ ledger (slotRun [.publish 1, .claimHandle 0 false, .settleDestroyed 0, .publish 2,
      .claimHandle 1 false, .settleDestroyed (1 : ℕ)]).log, e.fate = .destroyed :=
  ⟨(slot_accounts [.publish 1, .claimHandle 0 false, .settleDestroyed 0, .publish 2,
      .claimHandle 1 false, .settleDestroyed (1 : ℕ)]).1 1,
    (slot_accounts _).2.1 (by decide) (by decide)⟩

/-- Three runs outside the discipline.  A handle published over an unclaimed one: the claims go on
    to report that nothing is outstanding, and the first handle was never claimed.  A destroy
    reported by a party that did not claim: nothing is outstanding while the claimant still has
    the handle.  A loss reported while a handle is published: the next claim is handed it. -/
theorem overwritten_not_accounted :
    ((slotRun [.publish 1, .publish 2, .claimHandle 0 false,
        .settleDestroyed (0 : ℕ)]).state.claimHandle.2 = .nothingOutstanding ∧
      ⟨1, .unclaimed⟩ ∈ ledger (slotRun [.publish 1, .publish 2, .claimHandle 0 false,
        .settleDestroyed (0 : ℕ)]).log) ∧
    ((slotRun [.publish 1, .claimHandle 0 false,
        .settleDestroyed (1 : ℕ)]).state.claimHandle.2 = .nothingOutstanding ∧
      ⟨1, .claimedBy 0⟩ ∈ ledger (slotRun [.publish 1, .claimHandle 0 false,
        .settleDestroyed (1 : ℕ)]).log) ∧
    (slotRun [.publish 1, .settleLost (0 : ℕ)]).state.claimHandle.2 = .claimed 1 := by
  decide

end Accounts

end SoftEther.Native
