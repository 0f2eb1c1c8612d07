import Mathlib.Order.Nat
import Mathlib.Tactic.Common

namespace SoftEther.Lib

/-!
# Coroutines with cancellation

The coroutines of a scope, each with the point it is suspended at. Cancelling one only marks it:
what it does about that is decided when it is resumed.

* `Scope.launch`, `Scope.cancel`, `Scope.move` — starting, cancelling and resuming a coroutine;
* `Scope.Live` — a coroutine of a kind that has neither ended nor been cancelled;
* `Scope.Owned` — every such coroutine is the one that a slot holds, with its rules;
* `Scope.Grows` — what launching, cancelling and resuming keep of a scope.
-/

variable {κ : Type*}

/-- A coroutine: `point` is missing once it has ended. -/
structure Job (κ : Type*) where
  point : Option κ := none
  cancelled : Bool := false
  deriving DecidableEq, Repr

/-- The coroutines of a scope by their number, and the next free number. -/
structure Scope (κ : Type*) where
  jobs : ℕ → Job κ := fun _ => {}
  next : ℕ := 0

namespace Scope

/-- `launch`: the new coroutine has the number `s.next`. -/
def launch (s : Scope κ) (p : κ) : Scope κ where
  jobs := Function.update s.jobs s.next ⟨some p, false⟩
  next := s.next + 1

/-- `slot?.cancel()`. -/
def cancel (s : Scope κ) (slot : Option ℕ) : Scope κ where
  jobs :=
    match slot with
    | none => s.jobs
    | some i => Function.update s.jobs i { s.jobs i with cancelled := true }
  next := s.next

/-- A coroutine goes on to its next point, or ends. -/
def move (s : Scope κ) (i : ℕ) (p : Option κ) : Scope κ :=
  { s with jobs := Function.update s.jobs i { s.jobs i with point := p } }

/-- `slot?.isActive == true`. -/
def isActive (s : Scope κ) : Option ℕ → Bool
  | none => false
  | some i => (s.jobs i).point.isSome && !(s.jobs i).cancelled

/-- A coroutine of a kind that has neither ended nor been cancelled. -/
def Live (kind : ℕ → κ → Prop) (s : Scope κ) (i : ℕ) : Prop :=
  (∃ p ∈ (s.jobs i).point, kind i p) ∧ (s.jobs i).cancelled = false

variable {kind : ℕ → κ → Prop} {s : Scope κ} {i j : ℕ} {p : κ} {q : Option κ} {slot : Option ℕ}

theorem live_launch :
    Live kind (s.launch p) i ↔ (i = s.next ∧ kind i p) ∨ (i ≠ s.next ∧ Live kind s i) := by
  by_cases hi : i = s.next
  · subst hi
    simp [Live, launch]
  · simp [Live, launch, hi]

theorem live_cancel : Live kind (s.cancel slot) i ↔ slot ≠ some i ∧ Live kind s i := by
  cases slot with
  | none => simp [Live, cancel]
  | some j =>
    by_cases hi : i = j
    · subst hi
      simp [Live, cancel]
    · simp [Live, cancel, hi, Ne.symm hi]

theorem live_move_self :
    Live kind (s.move i q) i ↔ (∃ p ∈ q, kind i p) ∧ (s.jobs i).cancelled = false := by
  simp [Live, move]

theorem live_move_of_ne (h : j ≠ i) : Live kind (s.move i q) j ↔ Live kind s j := by
  simp [Live, move, h]

theorem Live.isActive (h : Live kind s i) : s.isActive (some i) = true := by
  obtain ⟨⟨p, hp, -⟩, hcancelled⟩ := h
  have hpoint : (s.jobs i).point = some p := hp
  simp [Scope.isActive, hpoint, hcancelled]

/-! ### Slots -/

/-- Every live coroutine of the kind is the one in the slot. -/
def Owned (kind : ℕ → κ → Prop) (s : Scope κ) (slot : Option ℕ) : Prop :=
  ∀ i, Live kind s i → slot = some i

/-- **One at most.** -/
theorem Owned.unique (h : Owned kind s slot) (hi : Live kind s i) (hj : Live kind s j) : i = j :=
  Option.some.inj ((h i hi).symm.trans (h j hj))

theorem Owned.isActive (h : Owned kind s slot) (hi : Live kind s i) : s.isActive slot = true := by
  rw [h i hi]
  exact hi.isActive

/-- Cancelling the slot leaves none. -/
theorem Owned.not_live_cancel (h : Owned kind s slot) : ¬ Live kind (s.cancel slot) i := by
  rw [live_cancel]
  rintro ⟨hne, hlive⟩
  exact hne (h i hlive)

/-- An inactive slot means that there is none. -/
theorem Owned.not_live_of_inactive (h : Owned kind s slot) (hslot : s.isActive slot = false) :
    ¬ Live kind s i := by
  intro hlive
  rw [h.isActive hlive] at hslot
  exact Bool.noConfusion hslot

theorem Owned.of_none (h : ∀ i, ¬ Live kind s i) : Owned kind s slot :=
  fun i hi => absurd hi (h i)

theorem Owned.launch (h : ∀ i, ¬ Live kind s i) (p : κ) :
    Owned kind (s.launch p) (some s.next) := by
  intro i hi
  obtain ⟨rfl, -⟩ | ⟨-, hlive⟩ := live_launch.mp hi
  · rfl
  · exact absurd hlive (h i)

/-- A coroutine of another kind. -/
theorem Owned.launch_of_not (h : Owned kind s slot) (hp : ¬ kind s.next p) :
    Owned kind (s.launch p) slot := by
  intro i hi
  obtain ⟨rfl, hkind⟩ | ⟨-, hlive⟩ := live_launch.mp hi
  · exact absurd hkind hp
  · exact h i hlive

theorem Owned.cancel (h : Owned kind s slot) (other : Option ℕ) :
    Owned kind (s.cancel other) slot :=
  fun i hi => h i (live_cancel.mp hi).2

/-- The coroutines of a kind but `i`. -/
def But (i : ℕ) (kind : ℕ → κ → Prop) : ℕ → κ → Prop := fun j p => j ≠ i ∧ kind j p

theorem live_but : Live (But i kind) s j ↔ j ≠ i ∧ Live kind s j := by
  constructor
  · rintro ⟨⟨p, hp, hne, hkind⟩, hcancelled⟩
    exact ⟨hne, ⟨p, hp, hkind⟩, hcancelled⟩
  · rintro ⟨hne, ⟨p, hp, hkind⟩, hcancelled⟩
    exact ⟨⟨p, hp, hne, hkind⟩, hcancelled⟩

theorem Owned.but (h : Owned kind s slot) (i : ℕ) : Owned (But i kind) s slot :=
  fun j hj => h j (live_but.mp hj).2

/-- There are no others than the one in the slot. -/
theorem Owned.not_live_but (h : Owned kind s (some i)) : ¬ Live (But i kind) s j := by
  rw [live_but]
  rintro ⟨hne, hlive⟩
  exact hne (Option.some.inj (h j hlive)).symm

/-- A coroutine goes on: the others are in the slot, and so is it if it is still of the kind. -/
theorem Owned.move (h : Owned (But i kind) s slot)
    (hown : ∀ p ∈ q, kind i p → (s.jobs i).cancelled = false → slot = some i) :
    Owned kind (s.move i q) slot := by
  intro j hj
  by_cases hji : j = i
  · subst hji
    obtain ⟨⟨p, hp, hkind⟩, hcancelled⟩ := live_move_self.mp hj
    exact hown p hp hkind hcancelled
  · exact h j (live_but.mpr ⟨hji, (live_move_of_ne hji).mp hj⟩)

/-- A coroutine of another kind, or a cancelled one, goes on. -/
theorem not_live_move (h : ∀ j, ¬ Live kind s j)
    (hq : ∀ p ∈ q, kind i p → (s.jobs i).cancelled = true) : ¬ Live kind (s.move i q) j := by
  by_cases hji : j = i
  · subst hji
    rw [live_move_self]
    rintro ⟨⟨p, hp, hkind⟩, hcancelled⟩
    rw [hq p hp hkind] at hcancelled
    exact Bool.noConfusion hcancelled
  · rw [live_move_of_ne hji]
    exact h j

/-- A coroutine ends. -/
theorem Owned.finish (h : Owned kind s slot) (i : ℕ) : Owned kind (s.move i none) slot :=
  (h.but i).move (by simp)

/-! ### What a scope keeps -/

/-- A coroutine that has ended stays ended, and the points that are new meet `K`. -/
structure Grows (K : κ → Prop) (s s' : Scope κ) : Prop where
  next_le : s.next ≤ s'.next
  ended : ∀ i < s.next, (s.jobs i).point = none → (s'.jobs i).point = none
  fresh : ∀ i p, (s'.jobs i).point = some p → K p ∨ (s.jobs i).point = some p
  used : ∀ i, (s'.jobs i).point ≠ none → i < s'.next ∨ (s.jobs i).point ≠ none

variable {K : κ → Prop} {s' s'' : Scope κ}

theorem Grows.refl (K : κ → Prop) (s : Scope κ) : Grows K s s :=
  ⟨le_refl _, fun _ _ h => h, fun _ _ h => .inr h, fun _ h => .inr h⟩

theorem Grows.trans (h : Grows K s s') (h' : Grows K s' s'') : Grows K s s'' where
  next_le := h.next_le.trans h'.next_le
  ended i hi hpoint := h'.ended i (hi.trans_le h.next_le) (h.ended i hi hpoint)
  fresh i p hpoint := (h'.fresh i p hpoint).elim .inl (h.fresh i p)
  used i hpoint := by
    obtain hi | hold := h'.used i hpoint
    · exact .inl hi
    · obtain hi | hold := h.used i hold
      · exact .inl (hi.trans_le h'.next_le)
      · exact .inr hold

theorem Grows.launch (h : Grows K s s') (hp : K p) : Grows K s (s'.launch p) := by
  refine h.trans ⟨Nat.le_succ _, ?_, ?_, ?_⟩
  · intro i hi hpoint
    simp [Scope.launch, hi.ne, hpoint]
  · intro i q hpoint
    by_cases hi : i = s'.next
    · subst hi
      obtain rfl : p = q := by simpa [Scope.launch] using hpoint
      exact .inl hp
    · exact .inr (by simpa [Scope.launch, hi] using hpoint)
  · intro i hpoint
    by_cases hi : i = s'.next
    · exact .inl (by simp [Scope.launch, hi])
    · exact .inr (by simpa [Scope.launch, hi] using hpoint)

theorem point_cancel (s : Scope κ) (slot : Option ℕ) (i : ℕ) :
    ((s.cancel slot).jobs i).point = (s.jobs i).point := by
  cases slot with
  | none => rfl
  | some j =>
    by_cases hi : i = j
    · subst hi
      simp [Scope.cancel]
    · simp [Scope.cancel, hi]

theorem Grows.cancel (h : Grows K s s') (slot : Option ℕ) : Grows K s (s'.cancel slot) := by
  refine h.trans ⟨le_refl _, ?_, ?_, ?_⟩
  · intro i _ hpoint
    rw [point_cancel, hpoint]
  · intro i p hpoint
    rw [point_cancel] at hpoint
    exact .inr hpoint
  · intro i hpoint
    rw [point_cancel] at hpoint
    exact .inr hpoint

/-- A coroutine goes on, with its own point or one that meets `K`. -/
theorem Grows.move (h : Grows K s s') (hi : (s.jobs i).point ≠ none)
    (hq : ∀ p ∈ q, K p ∨ (s.jobs i).point = some p) : Grows K s (s'.move i q) where
  next_le := h.next_le
  ended j hj hpoint := by
    have hji : j ≠ i := by
      rintro rfl
      exact hi hpoint
    simpa [Scope.move, hji] using h.ended j hj hpoint
  fresh j p hpoint := by
    by_cases hji : j = i
    · subst hji
      exact hq p (by simpa [Scope.move] using hpoint)
    · exact h.fresh j p (by simpa [Scope.move, hji] using hpoint)
  used j hpoint := by
    by_cases hji : j = i
    · subst hji
      exact .inr hi
    · exact h.used j (by simpa [Scope.move, hji] using hpoint)

end Scope

end SoftEther.Lib
