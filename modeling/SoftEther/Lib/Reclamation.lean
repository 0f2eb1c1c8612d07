import SoftEther.Lib.EventLog

namespace SoftEther.Lib.Reclamation

open Lib

/-!
# Handles that one thread destroys and others call with

A handle is created, published, claimed for its destruction and destroyed.  Threads pick up a
handle and make a call with it, and a handle may be created again once it was freed.

* `Event`, `DestroyedOnce`, `NoUseAfterDestroy` — what is logged, and the two orders of calls;
* `Role`, `Ledger`, `Ledger.Step` — what a thread does with a handle, and how it goes on;
* `Ledger.Inv` — a handle has one owner, kept by every step;
* `Disciplined` — a handle is picked up while it is published, or live and not claimed, and it is
  claimed while nobody uses it;
* `Keeps` — a machine each of whose steps is one of the ledger;
* `destroyedOnce_of_keeps`, `noUseAfterDestroy_of_keeps` — the two orders of calls in its runs.
-/

/-! ### Events -/

section Events

variable {τ η φ : Type*}

/-- `τ` are the threads, `η` the handles and `φ` the calls. -/
inductive Event (τ η φ : Type*)
  | created (handle : η)
  | callBegan (thread : τ) (call : φ) (handle : η)
  | callReturned (thread : τ) (call : φ) (handle : η)
  | destroyBegan (thread : τ) (handle : η)
  deriving DecidableEq

/-- The handle was created, and its destruction has not begun since. -/
def Live (handle : η) : List (Event τ η φ) → Prop
  | [] => False
  | .created h :: before => h = handle ∨ Live handle before
  | .destroyBegan _ h :: before => h ≠ handle ∧ Live handle before
  | _ :: before => Live handle before

/-- The thread is inside a call with the handle; it makes one call at a time. -/
def InCall (thread : τ) (handle : η) : List (Event τ η φ) → Prop
  | [] => False
  | .callBegan t _ h :: before =>
    (t = thread ∧ h = handle) ∨ (t ≠ thread ∧ InCall thread handle before)
  | .callReturned t _ _ :: before => t ≠ thread ∧ InCall thread handle before
  | _ :: before => InCall thread handle before

instance decidableInCall [DecidableEq τ] [DecidableEq η] (thread : τ) (handle : η) :
    (log : List (Event τ η φ)) → Decidable (InCall thread handle log)
  | [] => inferInstanceAs (Decidable False)
  | .created _ :: before => decidableInCall thread handle before
  | .callBegan t _ h :: before =>
    have := decidableInCall thread handle before
    inferInstanceAs (Decidable
      ((t = thread ∧ h = handle) ∨ (t ≠ thread ∧ InCall thread handle before)))
  | .callReturned t _ _ :: before =>
    have := decidableInCall thread handle before
    inferInstanceAs (Decidable (t ≠ thread ∧ InCall thread handle before))
  | .destroyBegan _ _ :: before => decidableInCall thread handle before

/-- A handle is destroyed once after each creation. -/
def DestroyedOnce : Event τ η φ → List (Event τ η φ) → Prop
  | .destroyBegan _ handle, before => Live handle before
  | _, _ => True

/-- When a handle's destruction begins nobody is inside a call with it, and no call with it
    begins after that; and the handle is destroyed once. -/
def NoUseAfterDestroy : Event τ η φ → List (Event τ η φ) → Prop
  | .callBegan _ _ handle, before => Live handle before
  | .destroyBegan _ handle, before => Live handle before ∧ ∀ t, ¬ InCall t handle before
  | _, _ => True

end Events

/-! ### The ledger -/

/-- What the allocator and the destroyer know of a handle. -/
inductive Status
  | free
  | live
  | dying
  deriving DecidableEq, Repr

/-- What a thread is doing with a handle. -/
inductive Role (η : Type*)
  | idle
  /-- it created the handle and has not published it -/
  | fresh (handle : η)
  /-- it picked the handle up for a call -/
  | picked (handle : η)
  /-- it is inside the call -/
  | calls (handle : η)
  /-- it took the handle for its destruction -/
  | claims (handle : η)
  /-- it took the handle, and makes a call with it before the destroy -/
  | ownCall (handle : η)
  | destroys (handle : η)

namespace Role

variable {η : Type*}

/-- The thread has the handle and nobody else may publish or destroy it. -/
def Owns (handle : η) : Role η → Prop
  | .fresh h => h = handle
  | .claims h => h = handle
  | .ownCall h => h = handle
  | .destroys h => h = handle
  | _ => False

/-- The thread has the handle and has not begun to destroy it. -/
def Keeps (handle : η) : Role η → Prop
  | .fresh h => h = handle
  | .claims h => h = handle
  | .ownCall h => h = handle
  | _ => False

/-- The thread took the handle for its destruction. -/
def Claimed (handle : η) : Role η → Prop
  | .claims h => h = handle
  | .ownCall h => h = handle
  | _ => False

/-- The thread makes, or is about to make, a call with a handle that is not its own. -/
def Uses (handle : η) : Role η → Prop
  | .picked h => h = handle
  | .calls h => h = handle
  | _ => False

theorem Claimed.keeps {handle : η} {role : Role η} (h : role.Claimed handle) :
    role.Keeps handle := by
  cases role <;> first | exact h | exact h.elim

theorem Keeps.owns {handle : η} {role : Role η} (h : role.Keeps handle) : role.Owns handle := by
  cases role <;> first | exact h | exact h.elim

end Role

/-- The handles, the one that is published, and the threads. -/
structure Ledger (τ η : Type*) where
  status : η → Status
  published : Option η
  role : τ → Role η

/-- What a step does that the discipline speaks about. -/
inductive Label (η : Type*)
  | none
  | picks (handle : η)
  | claims (handle : η)

namespace Ledger

variable {τ η φ : Type*} [DecidableEq τ] [DecidableEq η]

/-- Thread `t` goes on in that role. -/
def goto (s : Ledger τ η) (t : τ) (role : Role η) : Ledger τ η :=
  { s with role := Function.update s.role t role }

omit [DecidableEq η] in
@[simp] theorem goto_role_self (s : Ledger τ η) (t : τ) (role : Role η) :
    (s.goto t role).role t = role := by
  simp only [goto, Function.update_self]

omit [DecidableEq η] in
theorem goto_role_of_ne (s : Ledger τ η) {t u : τ} (h : u ≠ t) (role : Role η) :
    (s.goto t role).role u = s.role u := by
  simp only [goto, Function.update_of_ne h]

omit [DecidableEq η] in
theorem goto_eq_self {s : Ledger τ η} {t : τ} {role : Role η} (h : s.role t = role) :
    s.goto t role = s := by
  unfold goto
  rw [← h, Function.update_eq_self]

/-- One step of thread `t`: from the ledger `s`, with its label, to a ledger, with its event. -/
inductive Step (s : Ledger τ η) (t : τ) :
    Label η → Ledger τ η → Option (Event τ η φ) → Prop
  | stay : Step s t .none s none
  | create (h : η) (hfree : s.status h = .free) (hrole : s.role t = .idle) :
      Step s t .none ({ s with status := Function.update s.status h .live }.goto t (.fresh h))
        (some (.created h))
  | publish (h : η) (hrole : s.role t = .fresh h) :
      Step s t .none ({ s with published := some h }.goto t .idle) none
  /-- the handle is given up without being published -/
  | leak (h : η) (hrole : s.role t = .fresh h) : Step s t .none (s.goto t .idle) none
  /-- the published handle is forgotten -/
  | forget : Step s t .none { s with published := none } none
  | pick (h : η) (hrole : s.role t = .idle) : Step s t (.picks h) (s.goto t (.picked h)) none
  | begins (call : φ) (h : η) (hrole : s.role t = .picked h) :
      Step s t .none (s.goto t (.calls h)) (some (.callBegan t call h))
  | returns (call : φ) (h : η) (hrole : s.role t = .calls h) :
      Step s t .none (s.goto t .idle) (some (.callReturned t call h))
  | claim (h : η) (hpublished : s.published = some h) (hrole : s.role t = .idle) :
      Step s t (.claims h) ({ s with published := none }.goto t (.claims h)) none
  | ownBegins (call : φ) (h : η) (hrole : s.role t = .claims h) :
      Step s t .none (s.goto t (.ownCall h)) (some (.callBegan t call h))
  | ownReturns (call : φ) (h : η) (hrole : s.role t = .ownCall h) :
      Step s t .none (s.goto t (.claims h)) (some (.callReturned t call h))
  /-- the call before the destroy failed, and the handle is never destroyed -/
  | ownFails (call : φ) (h : η) (hrole : s.role t = .ownCall h) :
      Step s t .none (s.goto t .idle) (some (.callReturned t call h))
  | destroy (h : η) (hrole : s.role t = .claims h) :
      Step s t .none ({ s with status := Function.update s.status h .dying }.goto t (.destroys h))
        (some (.destroyBegan t h))
  | freed (h : η) (hrole : s.role t = .destroys h) :
      Step s t .none ({ s with status := Function.update s.status h .free }.goto t .idle) none
  /-- the destroy failed half-way -/
  | unproven (h : η) (hrole : s.role t = .destroys h) : Step s t .none (s.goto t .idle) none

/-! ### One owner -/

/-- A handle that is published or kept is live, and it has one owner. -/
structure Inv (s : Ledger τ η) : Prop where
  published : ∀ h, s.published = some h → s.status h = .live ∧ ∀ t, ¬ (s.role t).Owns h
  keeps : ∀ t h, (s.role t).Keeps h → s.status h = .live
  destroys : ∀ t h, s.role t = .destroys h → s.status h = .dying
  unique : ∀ t u h, (s.role t).Owns h → (s.role u).Owns h → t = u

/-- A used handle is live and nobody has claimed it. -/
def UsesLive (s : Ledger τ η) : Prop :=
  ∀ t h, (s.role t).Uses h → s.status h = .live ∧ ∀ u, ¬ (s.role u).Claimed h

/-- **The discipline.** A handle that is not the published one is picked up only while it is live
    and not claimed, and a handle is claimed only while nobody uses it. -/
def Disciplined (s : Ledger τ η) : Label η → Prop
  | .none => True
  | .picks h => s.published ≠ some h → s.status h = .live ∧ ∀ u, ¬ (s.role u).Claimed h
  | .claims h => ∀ u, ¬ (s.role u).Uses h

section Steps

variable {s s' : Ledger τ η} {t : τ} {label : Label η} {e : Option (Event τ η φ)}

/-- What has to be shown when thread `t` of `s` goes on in another role, in the ledger `s'` with
    the roles of `s`. -/
structure Moved (s s' : Ledger τ η) (t : τ) (role : Role η) : Prop where
  published : ∀ h, s'.published = some h → s'.status h = .live ∧ ¬ role.Owns h ∧
    ∀ u, u ≠ t → ¬ (s.role u).Owns h
  keeps : ∀ h, role.Keeps h → s'.status h = .live
  destroys : ∀ h, role = .destroys h → s'.status h = .dying
  alone : ∀ u h, u ≠ t → role.Owns h → ¬ (s.role u).Owns h
  othersKeep : ∀ u h, u ≠ t → (s.role u).Keeps h → s'.status h = .live
  othersDestroy : ∀ u h, u ≠ t → s.role u = .destroys h → s'.status h = .dying

variable {role : Role η} {h : η} {log : List (Event τ η φ)} {u : τ}

omit [DecidableEq η] in
theorem Inv.moved (hI : s.Inv) (hroles : s'.role = s.role) (h : s.Moved s' t role) :
    (s'.goto t role).Inv := by
  have hother : ∀ u, u ≠ t → (s'.goto t role).role u = s.role u := by
    intro u hne
    rw [goto_role_of_ne s' hne, hroles]
  constructor
  · intro handle hpublished
    obtain ⟨hlive, hself, hothers⟩ := h.published handle hpublished
    refine ⟨hlive, ?_⟩
    intro u
    rcases eq_or_ne u t with rfl | hne
    · rw [goto_role_self]
      exact hself
    · rw [hother u hne]
      exact hothers u hne
  · intro u handle
    rcases eq_or_ne u t with rfl | hne
    · rw [goto_role_self]
      exact h.keeps handle
    · rw [hother u hne]
      exact h.othersKeep u handle hne
  · intro u handle
    rcases eq_or_ne u t with rfl | hne
    · rw [goto_role_self]
      exact h.destroys handle
    · rw [hother u hne]
      exact h.othersDestroy u handle hne
  · intro u v handle hu hv
    rcases eq_or_ne u t with rfl | hu_ne
    · by_contra hne
      rw [goto_role_self] at hu
      rw [hother v (Ne.symm hne)] at hv
      exact h.alone v handle (Ne.symm hne) hu hv
    · rw [hother u hu_ne] at hu
      rcases eq_or_ne v t with rfl | hv_ne
      · rw [goto_role_self] at hv
        exact absurd hu (h.alone u handle hu_ne hv)
      · rw [hother v hv_ne] at hv
        exact hI.unique u v handle hu hv

omit [DecidableEq η] in
/-- A thread's new role brings no handle that it did not have. -/
theorem Inv.goto (hI : s.Inv) (howns : ∀ h, role.Owns h → (s.role t).Owns h)
    (hkeeps : ∀ h, role.Keeps h → (s.role t).Keeps h) (hdestroys : ∀ h, role ≠ .destroys h) :
    (s.goto t role).Inv := by
  apply hI.moved rfl
  constructor
  · intro h hpublished
    obtain ⟨hlive, hfree⟩ := hI.published h hpublished
    exact ⟨hlive, fun hrole => hfree t (howns h hrole), fun u _ => hfree u⟩
  · intro h hrole
    exact hI.keeps t h (hkeeps h hrole)
  · intro h hrole
    exact absurd hrole (hdestroys h)
  · intro u h hne hrole hu
    exact hne (hI.unique u t h hu (howns h hrole))
  · intro u h _ hu
    exact hI.keeps u h hu
  · intro u h _ hu
    exact hI.destroys u h hu

omit [DecidableEq τ] [DecidableEq η] in
theorem Inv.forget (hI : s.Inv) : { s with published := none }.Inv := by
  constructor
  · intro h hpublished
    cases hpublished
  · exact hI.keeps
  · exact hI.destroys
  · exact hI.unique

/-- The status of a handle that thread `t` has matters to nobody else. -/
theorem Inv.update (hI : s.Inv) {status : Status} (hmine : ∀ u, u ≠ t → ¬ (s.role u).Owns h)
    (hpublished : s.published ≠ some h) (howns : ∀ h', role.Owns h' → h' = h)
    (hkeeps : ∀ h', role.Keeps h' → status = .live)
    (hdestroys : ∀ h', role = .destroys h' → status = .dying) :
    ({ s with status := Function.update s.status h status }.goto t role).Inv := by
  have hstatus : ∀ u h', u ≠ t → (s.role u).Owns h' →
      Function.update s.status h status h' = s.status h' := by
    intro u h' hne hu
    refine Function.update_of_ne ?_ _ _
    rintro rfl
    exact hmine u hne hu
  refine hI.moved rfl ?_
  constructor
  · intro h' hpublished'
    have hne : h' ≠ h := by
      rintro rfl
      exact hpublished hpublished'
    obtain ⟨hlive, hfree⟩ := hI.published h' hpublished'
    refine ⟨?_, fun hrole => hne (howns h' hrole), fun u _ => hfree u⟩
    show Function.update s.status h status h' = .live
    rw [Function.update_of_ne hne]
    exact hlive
  · intro h' hrole
    show Function.update s.status h status h' = .live
    rw [howns h' hrole.owns, Function.update_self]
    exact hkeeps h' hrole
  · intro h' hrole
    show Function.update s.status h status h' = .dying
    have hh : h' = h := howns h' (by rw [hrole]; rfl)
    rw [hh, Function.update_self]
    exact hdestroys h' hrole
  · intro u h' hne hrole
    rw [howns h' hrole]
    exact hmine u hne
  · intro u h' hne hu
    exact (hstatus u h' hne hu.owns).trans (hI.keeps u h' hu)
  · intro u h' hne hu
    exact (hstatus u h' hne (by rw [hu]; rfl)).trans (hI.destroys u h' hu)

omit [DecidableEq τ] [DecidableEq η] in
/-- A handle that a thread owns is not published, and nobody else owns it. -/
theorem Inv.mine (hI : s.Inv) (hrole : (s.role t).Owns h) :
    (∀ u, u ≠ t → ¬ (s.role u).Owns h) ∧ s.published ≠ some h :=
  ⟨fun u hne hu => hne (hI.unique u t h hu hrole),
    fun hpublished => (hI.published h hpublished).2 t hrole⟩

omit [DecidableEq τ] [DecidableEq η] in
/-- A handle that is not live is neither published nor kept, and a free one has no owner. -/
theorem Inv.free (hI : s.Inv) (hfree : s.status h = .free) :
    (∀ u, ¬ (s.role u).Owns h) ∧ s.published ≠ some h := by
  constructor
  · intro u hu
    cases hrole : s.role u with
    | destroys h' =>
      obtain rfl : h' = h := by rw [hrole] at hu; exact hu
      have hdying := hI.destroys u h' hrole
      rw [hfree] at hdying
      cases hdying
    | _ =>
      have hlive := hI.keeps u h (by rw [hrole] at hu ⊢; exact hu)
      rw [hfree] at hlive
      cases hlive
  · intro hpublished
    have hlive := (hI.published h hpublished).1
    rw [hfree] at hlive
    cases hlive

/-- **Every step keeps the ledger's invariant.** -/
theorem Step.inv (hstep : s.Step t label s' e) (hI : s.Inv) : s'.Inv := by
  cases hstep with
  | stay => exact hI
  | create h hfree =>
    obtain ⟨hnobody, hpublished⟩ := hI.free hfree
    exact hI.update (fun u _ => hnobody u) hpublished (fun _ => Eq.symm) (fun _ _ => rfl) nofun
  | publish h hrole =>
    have howns : (s.role t).Owns h := by rw [hrole]; rfl
    refine hI.moved rfl ⟨?_, nofun, nofun, nofun, ?_, ?_⟩
    · rintro h' ⟨rfl⟩
      exact ⟨hI.keeps t h (by rw [hrole]; rfl), nofun, (hI.mine howns).1⟩
    · intro u h' _ hu
      exact hI.keeps u h' hu
    · intro u h' _ hu
      exact hI.destroys u h' hu
  | forget => exact hI.forget
  | claim h hpublished =>
    obtain ⟨hlive, hnobody⟩ := hI.published h hpublished
    refine hI.moved rfl ⟨nofun, ?_, nofun, ?_, ?_, ?_⟩
    · rintro h' ⟨rfl⟩
      exact hlive
    · rintro u h' _ ⟨rfl⟩
      exact hnobody u
    · intro u h' _ hu
      exact hI.keeps u h' hu
    · intro u h' _ hu
      exact hI.destroys u h' hu
  | ownBegins call h hrole =>
    exact hI.goto (by rw [hrole]; exact fun _ => id) (by rw [hrole]; exact fun _ => id) nofun
  | ownReturns call h hrole =>
    exact hI.goto (by rw [hrole]; exact fun _ => id) (by rw [hrole]; exact fun _ => id) nofun
  | destroy h hrole =>
    obtain ⟨halone, hpublished⟩ := hI.mine (t := t) (h := h) (by rw [hrole]; rfl)
    exact hI.update halone hpublished (fun _ => Eq.symm) nofun (fun _ _ => rfl)
  | freed h hrole =>
    obtain ⟨halone, hpublished⟩ := hI.mine (t := t) (h := h) (by rw [hrole]; rfl)
    exact hI.update halone hpublished nofun nofun nofun
  | _ => exact hI.goto nofun nofun nofun

/-! ### The ledger and the log -/

/-- What the ledger says of the log. -/
structure Matches (s : Ledger τ η) (log : List (Event τ η φ)) : Prop where
  live : ∀ h, s.status h = .live → Live h log
  inCall : ∀ t h, InCall t h log → s.role t = .calls h ∨ s.role t = .ownCall h

/-- The event of a step is about the thread that made it. -/
theorem Step.inCall_of_ne (hstep : s.Step t label s' e) (hne : u ≠ t)
    (hin : InCall u h (e.toList ++ log)) : InCall u h log := by
  cases hstep with
  | begins call h' =>
    rcases hin with ⟨rfl, _⟩ | ⟨_, hin⟩
    · exact absurd rfl hne
    · exact hin
  | ownBegins call h' =>
    rcases hin with ⟨rfl, _⟩ | ⟨_, hin⟩
    · exact absurd rfl hne
    · exact hin
  | returns => exact hin.2
  | ownReturns => exact hin.2
  | ownFails => exact hin.2
  | _ => exact hin

theorem Step.role_of_ne (hstep : s.Step t label s' e) (hne : u ≠ t) : s'.role u = s.role u := by
  cases hstep with
  | stay => rfl
  | forget => rfl
  | _ => exact goto_role_of_ne _ hne _

/-- The thread that makes a step is inside a call after it only when the ledger says so. -/
theorem Step.inCall_self (hstep : s.Step t label s' e) (hmatch : s.Matches log)
    (hin : InCall t h (e.toList ++ log)) : s'.role t = .calls h ∨ s'.role t = .ownCall h := by
  have hout : ∀ {role}, s.role t = role → InCall t h log → role = .calls h ∨ role = .ownCall h := by
    intro role hrole hin
    rw [← hrole]
    exact hmatch.inCall t h hin
  cases hstep with
  | stay => exact hmatch.inCall t h hin
  | forget => exact hmatch.inCall t h hin
  | begins call h' =>
    rcases hin with ⟨_, rfl⟩ | ⟨hne, _⟩
    · exact .inl (goto_role_self _ _ _)
    · exact absurd rfl hne
  | ownBegins call h' =>
    rcases hin with ⟨_, rfl⟩ | ⟨hne, _⟩
    · exact .inr (goto_role_self _ _ _)
    · exact absurd rfl hne
  | returns => exact absurd rfl hin.1
  | ownReturns => exact absurd rfl hin.1
  | ownFails => exact absurd rfl hin.1
  | _ =>
    -- The thread was not inside a call.
    rcases hout (by assumption) hin with hrole | hrole <;> cases hrole

theorem Step.live (hstep : s.Step t label s' e) (hmatch : s.Matches log)
    (hlive : s'.status h = .live) : Live h (e.toList ++ log) := by
  cases hstep with
  | create h' =>
    have hlive' : Function.update s.status h' .live h = .live := hlive
    rcases eq_or_ne h h' with rfl | hne
    · exact .inl rfl
    · rw [Function.update_of_ne hne] at hlive'
      exact .inr (hmatch.live h hlive')
  | destroy h' =>
    have hlive' : Function.update s.status h' .dying h = .live := hlive
    rcases eq_or_ne h h' with rfl | hne
    · rw [Function.update_self] at hlive'
      cases hlive'
    · rw [Function.update_of_ne hne] at hlive'
      exact ⟨hne.symm, hmatch.live h hlive'⟩
  | freed h' =>
    have hlive' : Function.update s.status h' .free h = .live := hlive
    rcases eq_or_ne h h' with rfl | hne
    · rw [Function.update_self] at hlive'
      cases hlive'
    · rw [Function.update_of_ne hne] at hlive'
      exact hmatch.live h hlive'
  | _ => exact hmatch.live h hlive

/-- **Every step keeps ledger and log together.** -/
theorem Step.matches (hstep : s.Step t label s' e) (hmatch : s.Matches log) :
    s'.Matches (e.toList ++ log) := by
  constructor
  · intro h hlive
    exact hstep.live hmatch hlive
  · intro u h hin
    rcases eq_or_ne u t with rfl | hne
    · exact hstep.inCall_self hmatch hin
    · rw [hstep.role_of_ne hne]
      exact hmatch.inCall u h (hstep.inCall_of_ne hne hin)

/-- **Whatever the callers do, a handle is destroyed once.** -/
theorem Step.destroyedOnce (hstep : s.Step t label s' e) (hI : s.Inv) (hmatch : s.Matches log)
    {event : Event τ η φ} (he : e = some event) : DestroyedOnce event log := by
  subst he
  cases hstep with
  | destroy h hrole => exact hmatch.live h (hI.keeps t h (by rw [hrole]; rfl))
  | _ => trivial

/-! ### Under the discipline -/

/-- What a thread uses after a step it used before, or picked up in the step. -/
theorem Step.uses (hstep : s.Step t label s' e) (hu : (s'.role u).Uses h) :
    (s.role u).Uses h ∨ label = .picks h := by
  rcases eq_or_ne u t with rfl | hne
  · cases hstep with
    | stay => exact .inl hu
    | forget => exact .inl hu
    | pick h' =>
      rw [goto_role_self] at hu
      cases hu
      exact .inr rfl
    | begins call h' hrole =>
      rw [goto_role_self] at hu
      cases hu
      rw [hrole]
      exact .inl rfl
    | _ =>
      rw [goto_role_self] at hu
      exact hu.elim
  · rw [hstep.role_of_ne hne] at hu
    exact .inl hu

/-- What is claimed after a step was claimed before, or is claimed by the step. -/
theorem Step.claimed (hstep : s.Step t label s' e) (hu : (s'.role u).Claimed h) :
    (s.role u).Claimed h ∨ label = .claims h := by
  rcases eq_or_ne u t with rfl | hne
  · cases hstep with
    | stay => exact .inl hu
    | forget => exact .inl hu
    | claim h' =>
      rw [goto_role_self] at hu
      cases hu
      exact .inr rfl
    | ownBegins call h' hrole =>
      rw [goto_role_self] at hu
      cases hu
      rw [hrole]
      exact .inl rfl
    | ownReturns call h' hrole =>
      rw [goto_role_self] at hu
      cases hu
      rw [hrole]
      exact .inl rfl
    | _ =>
      rw [goto_role_self] at hu
      exact hu.elim
  · rw [hstep.role_of_ne hne] at hu
    exact .inl hu

/-- A live handle that nobody has claimed stays live. -/
theorem Step.stays_live (hstep : s.Step t label s' e) (hI : s.Inv) (hlive : s.status h = .live)
    (hfree : ∀ u, ¬ (s.role u).Claimed h) : s'.status h = .live := by
  cases hstep with
  | create h' =>
    show Function.update s.status h' .live h = .live
    rcases eq_or_ne h h' with rfl | hne
    · exact Function.update_self _ _ _
    · rw [Function.update_of_ne hne]
      exact hlive
  | destroy h' hrole =>
    have hne : h ≠ h' := by
      rintro rfl
      exact hfree t (by rw [hrole]; rfl)
    show Function.update s.status h' .dying h = .live
    rw [Function.update_of_ne hne]
    exact hlive
  | freed h' hrole =>
    have hne : h ≠ h' := by
      rintro rfl
      have hdying := hI.destroys t h hrole
      rw [hlive] at hdying
      cases hdying
    show Function.update s.status h' .free h = .live
    rw [Function.update_of_ne hne]
    exact hlive
  | _ => exact hlive

/-- A thread that has the handles for itself, and picks up the published one, is disciplined. -/
theorem Step.disciplined_alone (hstep : s.Step t label s' e)
    (halone : ∀ u, u ≠ t → s.role u = .idle)
    (hpick : ∀ h, label = .picks h → s.published = some h) : s.Disciplined label := by
  cases hstep with
  | pick h => exact fun hne => absurd (hpick h rfl) hne
  | claim h hpublished hrole =>
    intro u huses
    rcases eq_or_ne u t with rfl | hne
    · rw [hrole] at huses
      exact huses
    · rw [halone u hne] at huses
      exact huses
  | _ => trivial

/-- **A disciplined step.** What is used stays live and unclaimed. -/
theorem Step.usesLive (hstep : s.Step t label s' e) (hI : s.Inv) (huses : s.UsesLive)
    (hdisciplined : s.Disciplined label) : s'.UsesLive := by
  intro u h hu
  rcases hstep.uses hu with hbefore | rfl
  · obtain ⟨hlive, hfree⟩ := huses u h hbefore
    refine ⟨hstep.stays_live hI hlive hfree, ?_⟩
    intro v hv
    rcases hstep.claimed hv with hclaimed | rfl
    · exact hfree v hclaimed
    · exact hdisciplined u hbefore
  · have hpicked : s.status h = .live ∧ ∀ v, ¬ (s.role v).Claimed h := by
      by_cases hpublished : s.published = some h
      · obtain ⟨hlive, hfree⟩ := hI.published h hpublished
        exact ⟨hlive, fun v hv => hfree v hv.keeps.owns⟩
      · exact hdisciplined hpublished
    obtain ⟨hlive, hfree⟩ := hpicked
    refine ⟨hstep.stays_live hI hlive hfree, ?_⟩
    intro v hv
    rcases hstep.claimed hv with hclaimed | hlabel
    · exact hfree v hclaimed
    · cases hlabel

/-- **No use after the destroy.** While what is used is live and unclaimed, a step's event comes
    before the destruction of its handle, and a destruction meets no call. -/
theorem Step.noUseAfterDestroy (hstep : s.Step t label s' e) (hI : s.Inv) (huses : s.UsesLive)
    (hmatch : s.Matches log) {event : Event τ η φ} (he : e = some event) :
    NoUseAfterDestroy event log := by
  subst he
  cases hstep with
  | begins call h hrole => exact hmatch.live h (huses t h (by rw [hrole]; rfl)).1
  | ownBegins call h hrole => exact hmatch.live h (hI.keeps t h (by rw [hrole]; rfl))
  | destroy h hrole =>
    have hclaimed : (s.role t).Claimed h := by rw [hrole]; rfl
    refine ⟨hmatch.live h (hI.keeps t h hclaimed.keeps), ?_⟩
    intro u hin
    rcases hmatch.inCall u h hin with hcalls | hown
    · exact (huses u h (by rw [hcalls]; rfl)).2 t hclaimed
    · -- The owner's own call is over: it is at its destroy.
      obtain rfl := hI.unique t u h hclaimed.keeps.owns (by rw [hown]; rfl)
      rw [hrole] at hown
      cases hown
  | _ => trivial

end Steps


end Ledger

/-! ### The empty ledger -/

namespace Ledger

variable {τ η φ : Type*}

/-- No handle was created, and no thread has one. -/
structure Empty (s : Ledger τ η) : Prop where
  free : ∀ h, s.status h = .free
  published : s.published = none
  idle : ∀ t, s.role t = .idle

variable {s : Ledger τ η}

theorem Empty.inv (h : s.Empty) : s.Inv := by
  constructor
  · intro handle hpublished
    rw [h.published] at hpublished
    cases hpublished
  · intro t handle hkeeps
    rw [h.idle t] at hkeeps
    exact hkeeps.elim
  · intro t handle hdestroys
    rw [h.idle t] at hdestroys
    cases hdestroys
  · intro t u handle howns
    rw [h.idle t] at howns
    exact howns.elim

theorem Empty.usesLive (h : s.Empty) : s.UsesLive := by
  intro t handle huses
  rw [h.idle t] at huses
  exact huses.elim

theorem Empty.matches (h : s.Empty) : s.Matches ([] : List (Event τ η φ)) := by
  constructor
  · intro handle hlive
    rw [h.free handle] at hlive
    cases hlive
  · intro t handle hin
    exact hin.elim

end Ledger

/-! ### Machines with a ledger -/

section Runs

variable {σ α τ η φ : Type*} [DecidableEq τ] [DecidableEq η]

/-- The machine keeps its invariant, and each of its steps is one of the ledger. -/
structure Keeps (step : σ → α → σ × Option (Event τ η φ)) (ledger : σ → Ledger τ η)
    (label : σ → α → Label η) (I : σ → Prop) : Prop where
  inv : ∀ s a, I s → I (step s a).1
  step : ∀ s a, I s → ∃ t, (ledger s).Step t (label s a) (ledger (step s a).1) (step s a).2

variable {step : σ → α → σ × Option (Event τ η φ)} {ledger : σ → Ledger τ η}
  {label : σ → α → Label η} {I : σ → Prop}

/-- What holds of a machine next to its log, whatever its callers do. -/
def LedgerInv (ledger : σ → Ledger τ η) (I : σ → Prop) (x : Logged σ (Event τ η φ)) : Prop :=
  I x.state ∧ (ledger x.state).Inv ∧ (ledger x.state).Matches x.log

theorem LedgerInv.logStep (hkeeps : Keeps step ledger label I) (x : Logged σ (Event τ η φ)) (a : α)
    (h : LedgerInv ledger I x) : LedgerInv ledger I (logStep step x a) := by
  obtain ⟨hI, hinv, hmatch⟩ := h
  obtain ⟨t, hstep⟩ := hkeeps.step x.state a hI
  exact ⟨hkeeps.inv x.state a hI, hstep.inv hinv, hstep.matches hmatch⟩

/-- **Destroyed once, in every run.** -/
theorem destroyedOnce_of_keeps (hkeeps : Keeps step ledger label I) {s : σ} (hI : I s)
    (hempty : (ledger s).Empty) (as : List α) :
    Checked DestroyedOnce (run (logStep step) ⟨s, []⟩ as).log := by
  refine checked_of_invariant (LedgerInv.logStep hkeeps) ?_ ⟨hI, hempty.inv, hempty.matches⟩
    (by trivial) as
  rintro x a e ⟨hI, hinv, hmatch⟩ he
  obtain ⟨t, hstep⟩ := hkeeps.step x.state a hI
  exact hstep.destroyedOnce hinv hmatch he

/-- **No use after the destroy, in every disciplined run.** -/
theorem noUseAfterDestroy_of_keeps (hkeeps : Keeps step ledger label I) {s : σ} (hI : I s)
    (hempty : (ledger s).Empty) {as : List α}
    (hdisciplined : Along (logStep step)
      (fun x a => (ledger x.state).Disciplined (label x.state a)) ⟨s, []⟩ as) :
    Checked NoUseAfterDestroy (run (logStep step) ⟨s, []⟩ as).log := by
  refine checked_of_along (I := fun x => LedgerInv ledger I x ∧ (ledger x.state).UsesLive) ?_ ?_
    hdisciplined ⟨⟨hI, hempty.inv, hempty.matches⟩, hempty.usesLive⟩ (by trivial)
  · rintro x a ⟨hledger, huses⟩ hd
    obtain ⟨t, hstep⟩ := hkeeps.step x.state a hledger.1
    exact ⟨LedgerInv.logStep hkeeps x a hledger, hstep.usesLive hledger.2.1 huses hd⟩
  · rintro x a e ⟨⟨hI, hinv, hmatch⟩, huses⟩ - he
    obtain ⟨t, hstep⟩ := hkeeps.step x.state a hI
    exact hstep.noUseAfterDestroy hinv huses hmatch he

end Runs

end SoftEther.Lib.Reclamation
