import Mathlib.Data.List.Basic
import Mathlib.Data.List.Flatten

namespace SoftEther.Lib

/-!
# Frames written to a byte stream

A stream accepts the bytes of one frame after another; a write may fail after a part of its
frame. The log of a stream has one entry for each write, with the number of bytes that were
accepted and whatever tells one kind of write from another.

* `Write.truncated` — the write left a part of its frame on the stream;
* `StopsAtCut` — nothing is written behind a truncated frame;
* `Framed` — bytes that are whole frames followed by at most one truncated frame;
* `StopsAtCut.framed` — the first makes the accepted bytes the second.
-/

variable {α κ : Type*}

/-- A write to a stream: its frame, how much of it was accepted, and where it came from. -/
structure Write (α κ : Type*) where
  frame : List α
  sent : ℕ
  origin : κ

namespace Write

/-- The write left a part of its frame on the stream. -/
def truncated (w : Write α κ) : Bool := decide (0 < w.sent) && decide (w.sent < w.frame.length)

/-- The bytes the stream accepted. -/
def bytes (w : Write α κ) : List α := w.frame.take w.sent

/-- A write that left no part of a frame was accepted whole or not at all. -/
theorem bytes_of_not_truncated {w : Write α κ} (h : w.truncated = false) :
    w.bytes = [] ∨ w.bytes = w.frame := by
  rcases Nat.eq_zero_or_pos w.sent with hzero | hpos
  · left
    rw [bytes, hzero, List.take_zero]
  · right
    apply List.take_of_length_le
    by_contra hlt
    have htrue : w.truncated = true := by simp [truncated, hpos, Nat.lt_of_not_le hlt]
    rw [htrue] at h
    cases h

/-- A write that left a part of its frame left a proper one. -/
theorem bytes_of_truncated {w : Write α κ} (h : w.truncated = true) :
    w.bytes <+: w.frame ∧ w.bytes ≠ w.frame := by
  simp only [truncated, Bool.and_eq_true, decide_eq_true_eq] at h
  refine ⟨List.take_prefix _ _, ?_⟩
  intro heq
  have hlen : w.bytes.length = w.sent := by
    rw [bytes, List.length_take]
    omega
  rw [heq] at hlen
  omega

end Write

/-- All the bytes a stream accepted. -/
def accepted (log : List (Write α κ)) : List α := log.flatMap Write.bytes

/-- Nothing is written behind a truncated frame. -/
def StopsAtCut (log : List (Write α κ)) : Prop := log.Pairwise fun w _ => w.truncated = false

/-- Whole frames, followed by at most one truncated frame. -/
def Framed (IsFrame : List α → Prop) (bytes : List α) : Prop :=
  ∃ whole rest, bytes = List.flatten whole ++ rest ∧ (∀ f ∈ whole, IsFrame f) ∧
    (rest = [] ∨ ∃ f, IsFrame f ∧ rest <+: f ∧ rest ≠ f)

theorem stopsAtCut_nil : StopsAtCut ([] : List (Write α κ)) := List.Pairwise.nil

/-- **One more write** is allowed exactly when no write before it left a part of a frame. -/
theorem stopsAtCut_append {log : List (Write α κ)} (h : StopsAtCut log) (w : Write α κ) :
    StopsAtCut (log ++ [w]) ↔ ∀ e ∈ log, e.truncated = false := by
  unfold StopsAtCut
  rw [List.pairwise_append]
  constructor
  · rintro ⟨-, -, hcross⟩ e he
    exact hcross e he w (List.mem_singleton_self w)
  · intro hwhole
    refine ⟨h, List.pairwise_singleton _ w, ?_⟩
    intro e he _ _
    exact hwhole e he

variable {IsFrame : List α → Prop}

theorem Framed.nil : Framed IsFrame [] := ⟨[], [], rfl, nofun, Or.inl rfl⟩

/-- A whole frame in front. -/
theorem Framed.cons {f bytes : List α} (hf : IsFrame f) (h : Framed IsFrame bytes) :
    Framed IsFrame (f ++ bytes) := by
  obtain ⟨whole, rest, rfl, hwhole, hrest⟩ := h
  refine ⟨f :: whole, rest, by rw [List.flatten_cons, List.append_assoc], ?_, hrest⟩
  intro g hg
  rcases List.mem_cons.mp hg with rfl | hg
  · exact hf
  · exact hwhole g hg

/-- **Framing.** When nothing is written behind a truncated frame, the accepted bytes are
    whole frames followed by at most one truncated frame. -/
theorem StopsAtCut.framed {log : List (Write α κ)} (h : StopsAtCut log)
    (hframe : ∀ w ∈ log, IsFrame w.frame) : Framed IsFrame (accepted log) := by
  induction log with
  | nil => exact Framed.nil
  | cons w log ih =>
    have hw : IsFrame w.frame := hframe w (List.mem_cons_self ..)
    have htail : Framed IsFrame (accepted log) :=
      ih (List.Pairwise.of_cons h) fun e he => hframe e (List.mem_cons_of_mem w he)
    have hsplit : accepted (w :: log) = w.bytes ++ accepted log := List.flatMap_cons ..
    rw [hsplit]
    cases hcut : w.truncated with
    | false =>
      rcases Write.bytes_of_not_truncated hcut with hnone | hall
      · rw [hnone]
        exact htail
      · rw [hall]
        exact htail.cons hw
    | true =>
      -- the truncated frame is the last one
      have hlast : log = [] := by
        apply List.eq_nil_iff_forall_not_mem.mpr
        intro e he
        have hfalse := (List.pairwise_cons.mp h).1 e he
        rw [hcut] at hfalse
        cases hfalse
      subst hlast
      obtain ⟨hpre, hne⟩ := Write.bytes_of_truncated hcut
      exact ⟨[], w.bytes, by simp [accepted], nofun, Or.inr ⟨w.frame, hw, hpre, hne⟩⟩

end SoftEther.Lib
