import Mathlib.Tactic.Common

namespace SoftEther.Lib

/-!
# Computations that throw

What a computation does is said by when it throws, and by the value it returns else.

* `Returns` — the two together;
* `Returns.bind`, `Returns.mono` — how such facts compose;
* `Returns.allM`, `Returns.foldlM`, `Returns.mapM` — a search that stops early, a loop and a map.
-/

variable {ε α β σ : Type}

/-- **The computation throws where `bad` holds, and else returns `value`.** -/
structure Returns (x : Except ε α) (bad : Prop) (value : α) : Prop where
  throws : bad → ∃ e, x = .error e
  returns : ¬ bad → x = .ok value

namespace Returns

variable {x : Except ε α} {bad bad' : Prop} {value : α}

theorem ok (value : α) : Returns (.ok value : Except ε α) False value where
  throws := False.elim
  returns _ := rfl

theorem error (e : ε) (value : α) : Returns (.error e) True value where
  throws _ := ⟨e, rfl⟩
  returns h := absurd trivial h

theorem mono (h : Returns x bad value) (hbad : bad' ↔ bad) : Returns x bad' value where
  throws hb := h.throws (hbad.mp hb)
  returns hb := h.returns fun h' => hb (hbad.mpr h')

/-- A computation returns exactly where it does not throw. -/
theorem returns_iff (h : Returns x bad value) : (∃ v, x = .ok v) ↔ ¬ bad := by
  constructor
  · rintro ⟨v, hv⟩ hb
    obtain ⟨e, he⟩ := h.throws hb
    rw [hv] at he
    cases he
  · exact fun hb => ⟨value, h.returns hb⟩

theorem eq_of_ok (h : Returns x bad value) {v : α} (hv : x = .ok v) : v = value := by
  have hb := h.returns_iff.mp ⟨v, hv⟩
  exact Except.ok.inj (hv.symm.trans (h.returns hb))

/-- What does not throw can be left out. -/
theorem bind_eq {f : α → Except ε β} (h : Returns x bad value) (hbad : ¬ bad) :
    x >>= f = f value := by
  rw [h.returns hbad]
  rfl

/-- **One computation after another**: the second runs on what the first returned. -/
theorem bind {f : α → Except ε β} {w : β} (h : Returns x bad value)
    (hf : Returns (f value) bad' w) : Returns (x >>= f) (bad ∨ bad') w := by
  by_cases hb : bad
  · obtain ⟨e, he⟩ := h.throws hb
    exact ⟨fun _ => ⟨e, by rw [he]; rfl⟩, fun hn => absurd (Or.inl hb) hn⟩
  · rw [h.bind_eq hb]
    exact hf.mono (or_iff_right hb)

/-- What a computation returns, changed. -/
theorem map {w : β} (h : Returns x bad value) (f : α → β) (hw : f value = w) :
    Returns (x >>= fun v => .ok (f v)) bad w := by
  subst hw
  exact (h.bind (ok (f value))).mono (or_iff_left id).symm

/-- **A search stops at the first that is not good**; it throws when that one is bad. -/
theorem allM {f : α → Except ε Bool} {bad : α → Prop} {good : α → Bool}
    (h : ∀ a, Returns (f a) (bad a) (good a)) (hbad : ∀ a, bad a → good a = false) (xs : List α) :
    Returns (xs.allM f) (∃ a ∈ (xs.dropWhile good).head?, bad a) (xs.all good) := by
  induction xs with
  | nil => exact (ok true).mono (by simp)
  | cons a xs ih =>
    rw [List.allM_cons]
    cases hgood : good a with
    | false =>
      have hstop : Returns (f a >>= fun b => if b = true then xs.allM f else pure false)
          (bad a) false :=
        ((h a).bind (by rw [hgood]; exact ok false)).mono (or_iff_left id).symm
      simpa [hgood] using hstop
    | true =>
      have hnot : ¬ bad a := fun hb => by simp [hbad a hb] at hgood
      have hgo : Returns (f a >>= fun b => if b = true then xs.allM f else pure false)
          (∃ a ∈ (xs.dropWhile good).head?, bad a) (xs.all good) :=
        ((h a).bind (by rw [hgood]; exact ih)).mono (or_iff_right hnot).symm
      simpa [hgood] using hgo

/-- **A loop** throws when a step does, and else goes through the values that they return. -/
theorem foldlM {f : σ → α → Except ε σ} {bad : α → Prop} {g : σ → α → σ} (xs : List α) (s : σ)
    (h : ∀ s, ∀ a ∈ xs, Returns (f s a) (bad a) (g s a)) :
    Returns (xs.foldlM f s) (∃ a ∈ xs, bad a) (xs.foldl g s) := by
  induction xs generalizing s with
  | nil => exact (ok s).mono (by simp)
  | cons a xs ih =>
    rw [List.foldlM_cons, List.foldl_cons]
    have hrest := ih (g s a) fun s b hb => h s b (List.mem_cons_of_mem a hb)
    exact ((h s a List.mem_cons_self).bind hrest).mono (by simp)

/-- **A map** throws when it does at an element. -/
theorem mapM {f : α → Except ε β} {bad : α → Prop} {g : α → β} (xs : List α)
    (h : ∀ a ∈ xs, Returns (f a) (bad a) (g a)) :
    Returns (xs.mapM f) (∃ a ∈ xs, bad a) (xs.map g) := by
  induction xs with
  | nil => exact (ok []).mono (by simp)
  | cons a xs ih =>
    rw [List.mapM_cons, List.map_cons]
    have hrest := (ih fun b hb => h b (List.mem_cons_of_mem a hb)).map (g a :: ·) rfl
    exact ((h a List.mem_cons_self).bind hrest).mono (by simp)

end Returns

end SoftEther.Lib
