import Mathlib.Data.List.Basic

namespace SoftEther.Lib

/-!
# Tables kept up to date by events

A table has a row for each key. Each event goes to the row of its key and is then appended to a
log, the latest first; other writers may change what the events do not decide.

* `RowFold` — the key of an event, the row before any event, and what an event makes of a row;
* `RowFold.rowOf` — the row that a list of events decides;
* `RowFold.Sourced` — every row of a table is the fold of the events of its key;
* `Sourced.record`, `Sourced.skip`, `Sourced.touch`, `Sourced.touchAll` — the ways to write to such
  a table.
-/

/-- How the rows of a table follow from events. -/
structure RowFold (K V E : Type*) where
  /-- The key of the row that an event changes, if it changes one. -/
  key : E → Option K
  /-- The row before any event. -/
  empty : K → V
  next : V → E → V
  /-- The part of a row that its events decide. -/
  strip : V → V
  strip_empty : ∀ k, strip (empty k) = empty k
  strip_next : ∀ v e, strip (next v e) = next (strip v) e

namespace RowFold

variable {K V E : Type*} [DecidableEq K] (P : RowFold K V E)

/-- The events of a key. -/
def eventsOf (k : K) (log : List E) : List E := log.filter fun e => P.key e = some k

/-- The row that a list of events decides. -/
def rowOf (k : K) (events : List E) : V := events.foldr (fun e v => P.next v e) (P.empty k)

/-- **Every row is the fold of the events of its key**, and a key without a row has no events. -/
def Sourced (t : K → Option V) (log : List E) : Prop :=
  ∀ k, P.strip ((t k).getD (P.empty k)) = P.rowOf k (P.eventsOf k log) ∧
    (t k = none → P.eventsOf k log = [])

variable {P} {t : K → Option V} {log : List E} {k k' : K} {e : E} {v : V}

omit [DecidableEq K] in
@[simp] theorem rowOf_cons {events : List E} :
    P.rowOf k (e :: events) = P.next (P.rowOf k events) e := rfl

theorem eventsOf_cons_of_key (h : P.key e = some k) :
    P.eventsOf k (e :: log) = e :: P.eventsOf k log := by
  simp [eventsOf, h]

theorem eventsOf_cons_of_ne (h : P.key e ≠ some k) :
    P.eventsOf k (e :: log) = P.eventsOf k log := by
  simp [eventsOf, h]

theorem sourced_nil : P.Sourced (fun _ => none) [] := by
  intro k
  exact ⟨P.strip_empty k, fun _ => rfl⟩

/-- An event that changes a row. -/
theorem Sourced.record (h : P.Sourced t log) (hkey : P.key e = some k) :
    P.Sourced (Function.update t k (some (P.next ((t k).getD (P.empty k)) e))) (e :: log) := by
  intro k'
  by_cases hk : k' = k
  · subst hk
    rw [Function.update_self, eventsOf_cons_of_key hkey]
    refine ⟨?_, nofun⟩
    show P.strip (P.next _ e) = P.next (P.rowOf k' _) e
    rw [P.strip_next, (h k').1]
  · have hne : P.key e ≠ some k' := by
      rw [hkey]
      simpa using Ne.symm hk
    rw [Function.update_of_ne hk, eventsOf_cons_of_ne hne]
    exact h k'

/-- An event that changes no row. -/
theorem Sourced.skip (h : P.Sourced t log) (hkey : P.key e = none) :
    P.Sourced t (e :: log) := by
  intro k
  rw [eventsOf_cons_of_ne (by simp [hkey])]
  exact h k

/-- A write that leaves alone what the events decide. -/
theorem Sourced.touch (h : P.Sourced t log)
    (hv : P.strip v = P.strip ((t k).getD (P.empty k))) :
    P.Sourced (Function.update t k (some v)) log := by
  intro k'
  by_cases hk : k' = k
  · subst hk
    rw [Function.update_self]
    refine ⟨?_, nofun⟩
    show P.strip v = _
    rw [hv, (h k').1]
  · rw [Function.update_of_ne hk]
    exact h k'

/-- A write of this kind to all rows. -/
theorem Sourced.touchAll (h : P.Sourced t log) {f : V → V} (hf : ∀ v, P.strip (f v) = P.strip v) :
    P.Sourced (fun k => (t k).map f) log := by
  intro k
  obtain ⟨hrow, hnone⟩ := h k
  show P.strip (((t k).map f).getD (P.empty k)) = _ ∧ ((t k).map f = none → _)
  cases htk : t k with
  | none =>
    rw [htk] at hrow
    exact ⟨hrow, fun _ => hnone htk⟩
  | some v =>
    rw [htk] at hrow
    exact ⟨(hf v).trans hrow, nofun⟩

end RowFold

end SoftEther.Lib
