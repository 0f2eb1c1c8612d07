import SoftEther.Lib.EventLog
import Mathlib.Data.List.Perm.Basic

namespace SoftEther.Service

open Lib

/-!
# TUN ownership (`TunOwnershipCoordinator.kt`)

One coordinator holds the TUN descriptor of the service. Every operation runs under its
lock, and `install` keeps the lock while the platform establishes the descriptor, so the
other operations wait for an establishment under way. A descriptor is closed through
`runCatching`: whether `close` fails changes nothing.

* `Tun` — the three fields, and what was done to the platform so far;
* `TunSystem.step` — one operation, `install` in two steps around the callback;
* `TunSystem.Inv` — who may install, what is held, and what the log says of it;
* `tun_ownership` — the four facts about every sequence of operations.
-/

/-- `NO_SESSION`: no session owns TUN establishment. -/
def NO_SESSION : Int := 0

variable {T : Type*}

/-- What the coordinator did, as its callers and the platform see it. -/
inductive TunEvent (T : Type*) where
  | claimed (session : Int)
  | invalidated (session : Int)
  | establishing (session : Int)
  | established (session : Int) (descriptor : T)
  | closed (descriptor : T)
  deriving DecidableEq

/-- `TunOwnershipCoordinator<T>`; the log is newest first. -/
structure Tun (T : Type*) where
  installer : Int
  descriptorOwner : Int
  handle : Option T
  log : List (TunEvent T)
  deriving DecidableEq

/-- What `establish()` does: it creates a descriptor, answers `null`, or throws. -/
inductive Establish (T : Type*) where
  | created (descriptor : T)
  | declined
  | threw

/-- `TunInstallResult`. -/
inductive TunInstallResult (T : Type*) where
  | installed (handle : T)
  | refusedOwnership
  | establishFailed
  deriving DecidableEq

namespace Tun

/-- A new coordinator. -/
def new : Tun T where
  installer := NO_SESSION
  descriptorOwner := NO_SESSION
  handle := none
  log := []

/-- `closeHeldLocked`: close and unregister; ownership and permission stay. -/
def closeHeldLocked (c : Tun T) : Tun T :=
  { c with
    handle := none
    log := (c.handle.map TunEvent.closed).toList ++ c.log }

def discardLocked (c : Tun T) : Tun T :=
  { c.closeHeldLocked with
    descriptorOwner := NO_SESSION
    installer := NO_SESSION }

/-- `claim`; `none` is the `require` that throws. -/
def claim (c : Tun T) (session : Int) : Option (Tun T) :=
  if session = NO_SESSION then none
  else
    some
      { c.discardLocked with
        descriptorOwner := session
        installer := session
        log := .claimed session :: c.discardLocked.log }

def invalidate (c : Tun T) (session : Int) : Tun T :=
  { c with
    installer := if c.installer = session then NO_SESSION else c.installer
    log := .invalidated session :: c.log }

/-- `install` up to the call of `establish`; `none` is `RefusedOwnership`. -/
def installEnter (c : Tun T) (session : Int) : Option (Tun T) :=
  if session = NO_SESSION ∨ session ≠ c.installer then none
  else some { c.closeHeldLocked with log := .establishing session :: c.closeHeldLocked.log }

/-- `install` from the answer of `establish` on. -/
def installLeave (c : Tun T) (session : Int) : Establish T → Tun T × Option (TunInstallResult T)
  | .created t =>
    ({ c with
        handle := some t
        descriptorOwner := session
        log := .established session t :: c.log },
      some (.installed t))
  | .declined => (c, some .establishFailed)
  | .threw => (c, none)

/-- `release` and what it answers. -/
def release (c : Tun T) (session : Int) : Tun T × Bool :=
  if session ≠ c.descriptorOwner then (c, false) else (c.discardLocked, true)

def releaseAll (c : Tun T) : Tun T := c.discardLocked

/-- `isHeld`. -/
def isHeld (c : Tun T) : Bool := c.handle.isSome

/-! ### What the log tells -/

/-- The descriptors the platform created, newest first. -/
def established (c : Tun T) : List T :=
  c.log.filterMap fun
    | .established _ t => some t
    | _ => none

/-- The descriptors that were closed, newest first. -/
def closed (c : Tun T) : List T :=
  c.log.filterMap fun
    | .closed t => some t
    | _ => none

/-- Every established descriptor was closed once or is the one held. -/
def Accounted (c : Tun T) : Prop := c.established.Perm (c.closed ++ c.handle.toList)

/-- **Permission is a claim not yet taken back**: since the last `invalidate` of the session it
    claimed again. -/
def ClaimedSince (session : Int) (before : List (TunEvent T)) : Prop :=
  ∀ later earlier, before = later ++ .invalidated session :: earlier → .claimed session ∈ later

/-- Who establishes must have permission: neither is the callback called nor a descriptor created
    for a session without it. -/
def MayHappen : TunEvent T → List (TunEvent T) → Prop
  | .establishing session, before => ClaimedSince session before
  | .established session _, before => ClaimedSince session before
  | _, _ => True

theorem claimedSince_claimed (session : Int) (before : List (TunEvent T)) :
    ClaimedSince session (.claimed session :: before) := by
  intro later earlier heq
  cases later with
  | nil => simp at heq
  | cons e later =>
    obtain ⟨rfl, -⟩ := List.cons.inj heq
    exact List.mem_cons_self

theorem ClaimedSince.cons {session : Int} {before : List (TunEvent T)}
    (h : ClaimedSince session before) {e : TunEvent T} (he : e ≠ .invalidated session) :
    ClaimedSince session (e :: before) := by
  intro later earlier heq
  cases later with
  | nil => exact absurd (List.cons.inj heq).1 he
  | cons e' later =>
    obtain ⟨-, hrest⟩ := List.cons.inj heq
    exact List.mem_cons_of_mem e' (h later earlier hrest)

/-! ### Closing what is held -/

@[simp] theorem closeHeldLocked_handle (c : Tun T) : c.closeHeldLocked.handle = none := rfl

@[simp] theorem closeHeldLocked_installer (c : Tun T) :
    c.closeHeldLocked.installer = c.installer := rfl

@[simp] theorem discardLocked_handle (c : Tun T) : c.discardLocked.handle = none := rfl

@[simp] theorem discardLocked_installer (c : Tun T) : c.discardLocked.installer = NO_SESSION := rfl

@[simp] theorem discardLocked_log (c : Tun T) : c.discardLocked.log = c.closeHeldLocked.log := rfl

/-- Closing moves the held descriptor to the closed ones. -/
theorem Accounted.closeHeldLocked {c : Tun T} (h : c.Accounted) :
    c.closeHeldLocked.Accounted := by
  cases hheld : c.handle with
  | none => simpa [Accounted, established, closed, Tun.closeHeldLocked, hheld] using h
  | some t =>
    have hc : c.established.Perm (c.closed ++ [t]) := by
      simpa [Accounted, hheld] using h
    have hmoved : c.closeHeldLocked.established = c.established ∧
        c.closeHeldLocked.closed = t :: c.closed := by
      simp [established, closed, Tun.closeHeldLocked, hheld]
    rw [Accounted, hmoved.1, hmoved.2, closeHeldLocked_handle, Option.toList, List.append_nil]
    exact hc.trans (List.perm_append_singleton t _)

/-- What the log says of permission survives a close. -/
theorem ClaimedSince.closeHeldLocked {c : Tun T} {session : Int}
    (h : ClaimedSince session c.log) : ClaimedSince session c.closeHeldLocked.log := by
  rw [Tun.closeHeldLocked]
  cases c.handle with
  | none => exact h
  | some t => exact h.cons (by simp)

theorem checked_closeHeldLocked {c : Tun T} (h : Checked MayHappen c.log) :
    Checked MayHappen c.closeHeldLocked.log := by
  rw [Tun.closeHeldLocked]
  cases c.handle with
  | none => exact h
  | some t => exact ⟨trivial, h⟩

end Tun

/-! ### The coordinator and its callers -/

/-- The coordinator, and the session whose `install` holds the lock, if one does. -/
structure TunSystem (T : Type*) where
  tun : Tun T
  installing : Option Int

/-- An operation by any session; `installLeave` is the answer of `establish`. -/
inductive TunAction (T : Type*) where
  | claim (session : Int)
  | invalidate (session : Int)
  | installEnter (session : Int)
  | installLeave (answer : Establish T)
  | release (session : Int)
  | releaseAll

namespace TunSystem

/-- Before any session. -/
def new : TunSystem T where
  tun := Tun.new
  installing := none

/-- One operation. While an `install` holds the lock only the answer of its callback moves the
    system: the other operations wait, and take effect when they are tried again. -/
def step (x : TunSystem T) (a : TunAction T) : TunSystem T :=
  match x.installing, a with
  | none, .claim session => { x with tun := (x.tun.claim session).getD x.tun }
  | none, .invalidate session => { x with tun := x.tun.invalidate session }
  | none, .installEnter session =>
    match x.tun.installEnter session with
    | none => x
    | some tun => { tun := tun, installing := some session }
  | none, .release session => { x with tun := (x.tun.release session).1 }
  | none, .releaseAll => { x with tun := x.tun.releaseAll }
  | some session, .installLeave answer =>
    { tun := (x.tun.installLeave session answer).1, installing := none }
  | none, .installLeave _ => x
  | some _, _ => x

/-- What holds after every operation. -/
structure Inv (x : TunSystem T) : Prop where
  owner : x.tun.installer = NO_SESSION ∨ x.tun.installer = x.tun.descriptorOwner
  permitted : x.tun.installer ≠ NO_SESSION → Tun.ClaimedSince x.tun.installer x.tun.log
  installing : ∀ session, x.installing = some session →
    session ≠ NO_SESSION ∧ x.tun.installer = session ∧ x.tun.handle = none
  accounted : x.tun.Accounted
  checked : Checked Tun.MayHappen x.tun.log

theorem inv_new : (new : TunSystem T).Inv where
  owner := Or.inl rfl
  permitted := fun h => absurd rfl h
  installing := nofun
  accounted := List.Perm.refl _
  checked := trivial

/-! ### Each operation keeps the invariant -/

variable {x : TunSystem T}

theorem Inv.discarded (h : x.Inv) : Inv { tun := x.tun.discardLocked, installing := none } where
  owner := Or.inl rfl
  permitted := fun hne => absurd rfl hne
  installing := nofun
  accounted := h.accounted.closeHeldLocked
  checked := Tun.checked_closeHeldLocked h.checked

theorem Inv.claimed (h : x.Inv) (session : Int) :
    Inv { tun := (x.tun.claim session).getD x.tun, installing := none } := by
  rw [Tun.claim]
  split_ifs with hzero
  · exact ⟨h.owner, h.permitted, nofun, h.accounted, h.checked⟩
  · refine ⟨Or.inr rfl, ?_, nofun, ?_, trivial, Tun.checked_closeHeldLocked h.checked⟩
    · intro _
      exact Tun.claimedSince_claimed _ _
    · simpa [Tun.Accounted, Tun.established, Tun.closed] using h.accounted.closeHeldLocked

theorem Inv.invalidated (h : x.Inv) (session : Int) :
    Inv { tun := x.tun.invalidate session, installing := none } := by
  rw [Tun.invalidate]
  refine ⟨?_, ?_, nofun, ?_, trivial, h.checked⟩
  · show (if x.tun.installer = session then NO_SESSION else x.tun.installer) = NO_SESSION ∨ _
    split_ifs with hsame
    · exact Or.inl rfl
    · exact h.owner
  · dsimp only
    split_ifs with hsame
    · intro hne
      exact absurd rfl hne
    · intro hne
      refine (h.permitted hne).cons ?_
      simpa using Ne.symm hsame
  · simpa [Tun.Accounted, Tun.established, Tun.closed] using h.accounted

/-- An `install` that got past the permission test has a claim not taken back, and nothing held
    while the platform works. -/
theorem Inv.installEntered (h : x.Inv) {session : Int} {tun : Tun T}
    (hinst : x.tun.installEnter session = some tun) :
    Inv { tun := tun, installing := some session } := by
  rw [Tun.installEnter] at hinst
  split_ifs at hinst with hrefused
  obtain ⟨hreal, hsame⟩ := not_or.mp hrefused
  obtain rfl := not_not.mp hsame
  cases hinst
  have hclaimed := (h.permitted hreal).closeHeldLocked
  refine ⟨h.owner, ?_, ?_, ?_, hclaimed, Tun.checked_closeHeldLocked h.checked⟩
  · intro _
    exact hclaimed.cons (by simp)
  · rintro _ ⟨rfl⟩
    exact ⟨hreal, rfl, rfl⟩
  · simpa [Tun.Accounted, Tun.established, Tun.closed] using h.accounted.closeHeldLocked

theorem Inv.installLeft (h : x.Inv) {session : Int} (hbusy : x.installing = some session)
    (answer : Establish T) :
    Inv { tun := (x.tun.installLeave session answer).1, installing := none } := by
  obtain ⟨hreal, rfl, hnone⟩ := h.installing session hbusy
  have hsame : Inv { tun := x.tun, installing := none } :=
    ⟨h.owner, h.permitted, nofun, h.accounted, h.checked⟩
  cases answer with
  | declined => exact hsame
  | threw => exact hsame
  | created t =>
    have hclaimed := h.permitted hreal
    refine ⟨Or.inr rfl, ?_, nofun, ?_, hclaimed, h.checked⟩
    · intro _
      exact hclaimed.cons (by simp)
    · -- nothing was held, so the new descriptor is the only one not closed
      have hclosed : x.tun.established.Perm x.tun.closed := by
        simpa [Tun.Accounted, hnone] using h.accounted
      show (t :: x.tun.established).Perm (x.tun.closed ++ [t])
      exact (hclosed.cons t).trans (List.perm_append_singleton t _).symm

theorem Inv.step (h : x.Inv) (a : TunAction T) : (x.step a).Inv := by
  obtain ⟨tun, installing⟩ := x
  cases installing with
  | some session =>
    cases a with
    | installLeave answer => exact h.installLeft rfl answer
    | claim _ | invalidate _ | installEnter _ | release _ | releaseAll => exact h
  | none =>
    cases a with
    | claim session => exact h.claimed session
    | invalidate session => exact h.invalidated session
    | installLeave answer => exact h
    | releaseAll => exact h.discarded
    | installEnter session =>
      dsimp only [TunSystem.step]
      cases hinst : tun.installEnter session with
      | none => exact h
      | some tun' => exact h.installEntered hinst
    | release session =>
      dsimp only [TunSystem.step, Tun.release]
      split_ifs
      · exact h
      · exact h.discarded

/-- **TUN ownership, in every sequence of operations.** The installer is no session or the owner
    of the descriptor; every established descriptor was closed once or is the one held; nothing is
    established for a session whose permission was taken back and not claimed again; and a release
    by a session that is not the owner does nothing. -/
theorem tun_ownership (as : List (TunAction T)) :
    let x := run step (new : TunSystem T) as
    (x.tun.installer = NO_SESSION ∨ x.tun.installer = x.tun.descriptorOwner) ∧
      x.tun.Accounted ∧
      Checked Tun.MayHappen x.tun.log ∧
      ∀ session, session ≠ x.tun.descriptorOwner → x.tun.release session = (x.tun, false) := by
  have hinv : Inv (run step (new : TunSystem T) as) :=
    run_invariant (fun _ a h => h.step a) inv_new as
  refine ⟨hinv.owner, hinv.accounted, hinv.checked, ?_⟩
  intro session hne
  rw [Tun.release, if_pos hne]

end TunSystem

end SoftEther.Service
