import Mathlib.Data.List.Perm.Subperm
import Mathlib.Data.List.Range

namespace SoftEther.Lib

/-!
# Handles: opened once, closed once

A table of handles records which were opened and which were closed. Every open gives a
new number, so a handle that is closed twice is in the record twice.

* `Handles.Balanced t held` — the handles that were opened are those that were closed and
  those in `held`, each once;
* `Balanced.opened`, `Balanced.close` — opening and closing keep the balance;
* `Balanced.closed_once` — with nothing held, every handle was closed exactly once.
-/

/-- The next handle, and the closed ones, last first. -/
structure Handles where
  next : ℕ
  closed : List ℕ
  deriving DecidableEq, Repr

namespace Handles

/-- No handle was opened yet. -/
def empty : Handles where
  next := 0
  closed := []

/-- Open a handle; it is `t.next`. -/
def opened (t : Handles) : Handles := { t with next := t.next + 1 }

/-- Close a handle. -/
def close (t : Handles) (fd : ℕ) : Handles := { t with closed := fd :: t.closed }

/-- Close the handle in a field that may hold none. -/
def close? (t : Handles) : Option ℕ → Handles
  | none => t
  | some fd => t.close fd

/-- Close several handles, first one first. -/
def closeAll (t : Handles) (fds : List ℕ) : Handles := fds.foldl close t

/-- Open a handle and close it again. -/
def openedClosed (t : Handles) : Handles := t.opened.close t.next

/-- **What was opened is closed or held**, and only once. -/
def Balanced (t : Handles) (held : List ℕ) : Prop :=
  (t.closed ++ held).Perm (List.range t.next)

theorem balanced_empty : empty.Balanced [] := List.Perm.refl _

variable {t : Handles} {held : List ℕ}

theorem Balanced.perm {held' : List ℕ} (h : t.Balanced held) (hp : held.Perm held') :
    t.Balanced held' :=
  (hp.append_left t.closed).symm.trans h

theorem Balanced.opened (h : t.Balanced held) : t.opened.Balanced (t.next :: held) := by
  show (t.closed ++ t.next :: held).Perm (List.range (t.next + 1))
  rw [List.range_succ]
  have hfront : (t.closed ++ t.next :: held).Perm (t.next :: (t.closed ++ held)) :=
    List.perm_middle
  exact (hfront.trans (h.cons t.next)).trans (List.perm_append_singleton _ _).symm

theorem Balanced.close {fd : ℕ} (h : t.Balanced (fd :: held)) : (t.close fd).Balanced held :=
  List.perm_middle.symm.trans h

theorem Balanced.close? {fd : Option ℕ} (h : t.Balanced (fd.toList ++ held)) :
    (t.close? fd).Balanced held := by
  cases fd with
  | none => exact h
  | some fd => exact Balanced.close h

theorem Balanced.closeAll {fds : List ℕ} (h : t.Balanced (fds ++ held)) :
    (t.closeAll fds).Balanced held := by
  induction fds generalizing t with
  | nil => exact h
  | cons fd fds ih => exact ih (Balanced.close h)

theorem Balanced.openedClosed (h : t.Balanced held) : t.openedClosed.Balanced held :=
  h.opened.close

/-- A handle that is held is not closed yet, and is held once. -/
theorem Balanced.nodup (h : t.Balanced held) : (t.closed ++ held).Nodup :=
  h.nodup_iff.mpr List.nodup_range

/-- **Nothing is closed twice**, whatever is still held. -/
theorem Balanced.closed_nodup (h : t.Balanced held) : t.closed.Nodup :=
  (List.nodup_append.mp h.nodup).1

/-- **With nothing held, every handle was closed exactly once.** -/
theorem Balanced.closed_once (h : t.Balanced []) (fd : ℕ) :
    t.closed.count fd = if fd < t.next then 1 else 0 := by
  have hp : t.closed.Perm (List.range t.next) := by
    have h' := h
    rwa [Balanced, List.append_nil] at h'
  rw [hp.count_eq, List.nodup_range.count]
  simp only [List.mem_range]

end Handles

end SoftEther.Lib
