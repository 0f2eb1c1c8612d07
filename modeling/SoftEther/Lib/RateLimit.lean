import Mathlib.Data.List.Perm.Subperm
import Mathlib.Tactic.Linarith

namespace SoftEther.Lib

/-!
# A rate limit over a rolling window

A limiter keeps the times of what it has admitted lately. Before it decides it forgets the times
that lie more than a window back, and it admits only if fewer than `max` are left.

* `countIn` — the events of a log inside a window;
* `Limited` — what the limiter keeps accounts for the log of all it has admitted;
* `Limited.admits`, `Limited.forget`, `Limited.later` — its steps;
* `length_le_of_window` — the bound carries over to events that each use up an admission.
-/

variable {now t width : ℤ} {max : ℕ} {log kept : List ℤ}

/-- The events of a log in the closed window from `t` on. -/
def countIn (width t : ℤ) (log : List ℤ) : ℕ :=
  log.countP fun d => decide (t ≤ d ∧ d ≤ t + width)

/-- The events of a log from `t` on. -/
def countSince (t : ℤ) (log : List ℤ) : ℕ := log.countP fun d => decide (t ≤ d)

/-- Forgetting the times more than a window back. -/
def forgetBefore (width now : ℤ) (kept : List ℤ) : List ℤ :=
  kept.filter fun d => !decide (d < now - width)

/-- **The state of the limiter.** `past`: the log has no future events. `counted`: none of the
last window is forgotten. `admitted`: no window has more than `max` of them. -/
structure Limited (width : ℤ) (max : ℕ) (now : ℤ) (log kept : List ℤ) : Prop where
  past : ∀ d ∈ log, d ≤ now
  counted : ∀ t, now - width ≤ t → countSince t log ≤ countSince t kept
  admitted : ∀ t, countIn width t log ≤ max

theorem countIn_le_countSince : countIn width t log ≤ countSince t log := by
  apply List.countP_mono_left
  intro d _ hd
  rw [decide_eq_true_eq] at hd ⊢
  exact hd.1

theorem countSince_forgetBefore (h : now - width ≤ t) :
    countSince t (forgetBefore width now kept) = countSince t kept := by
  unfold countSince forgetBefore
  rw [List.countP_filter]
  apply List.countP_congr
  intro d _
  simp only [Bool.and_eq_true, decide_eq_true_eq, Bool.not_eq_true', decide_eq_false_iff_not]
  omega

theorem Limited.empty : Limited width max now [] kept := by
  constructor <;> simp [countSince, countIn]

theorem Limited.later (h : Limited width max now log kept) {now' : ℤ} (hle : now ≤ now') :
    Limited width max now' log kept where
  past d hd := (h.past d hd).trans hle
  counted t ht := h.counted t (by omega)
  admitted := h.admitted

theorem Limited.forget (h : Limited width max now log kept) :
    Limited width max now log (forgetBefore width now kept) where
  past := h.past
  counted t ht := by
    rw [countSince_forgetBefore ht]
    exact h.counted t ht
  admitted := h.admitted

/-- **Admission.** A window that reaches up to now has only events that are still kept. -/
theorem Limited.admits (h : Limited width max now log kept)
    (hfree : kept.length < max) : Limited width max now (now :: log) (kept ++ [now]) where
  past := by
    intro d hd
    obtain rfl | hd := List.mem_cons.mp hd
    · exact le_refl d
    · exact h.past d hd
  counted t ht := by
    have hrest := h.counted t ht
    simp only [countSince, List.countP_cons, List.countP_append, List.countP_nil] at hrest ⊢
    omega
  admitted t := by
    by_cases hin : t ≤ now ∧ now ≤ t + width
    · have hlog : countIn width t log ≤ countSince t log := countIn_le_countSince
      have hkept : countSince t log ≤ countSince t kept := h.counted t (by omega)
      have hlength : countSince t kept ≤ kept.length := List.countP_le_length
      have hcons : countIn width t (now :: log) = countIn width t log + 1 := by
        simp [countIn, hin]
      omega
    · have hcons : countIn width t (now :: log) = countIn width t log := by
        simp only [countIn, List.countP_cons, hin]
        simp
      rw [hcons]
      exact h.admitted t

/-- **Events that each use up an admission** are no more than the admissions in the window. -/
theorem length_le_of_window {ι : Type*} {uses admissions : List (ι × ℤ)} (hnodup : uses.Nodup)
    (huses : ∀ x ∈ uses, x ∈ admissions ∧ t ≤ x.2 ∧ x.2 ≤ t + width) :
    uses.length ≤ countIn width t (admissions.map Prod.snd) := by
  have hsub : uses ⊆ admissions.filter fun x => decide (t ≤ x.2 ∧ x.2 ≤ t + width) := by
    intro x hx
    obtain ⟨hmem, hwindow⟩ := huses x hx
    exact List.mem_filter.mpr ⟨hmem, decide_eq_true hwindow⟩
  calc uses.length
      ≤ (admissions.filter fun x => decide (t ≤ x.2 ∧ x.2 ≤ t + width)).length :=
        (List.subperm_of_subset hnodup hsub).length_le
    _ = countIn width t (admissions.map Prod.snd) := by
        rw [countIn, List.countP_map, List.countP_eq_length_filter]
        rfl

end SoftEther.Lib
