import Mathlib.Data.List.Nodup

namespace SoftEther.Lib

/-!
# Slots that are written once

A slot keeps the first value that is written to it. What is no value for the slot is dropped.

* `written`, `slot` — the first value among the writes to a slot, and what the slot holds after
  them;
* `slot_concat` — one more write;
* `written_append`, `written_flatMap`, `written_filter` — the writes of the parts of a run;
* `written_of_mem`, `written_of_ne` — the slots of a table, and of no table.
-/

section WriteOnce

variable {κ ν α : Type*} [DecidableEq κ] (unset : κ → ν → Bool) (initial : κ → ν)

/-- The first value among the writes to a slot. -/
def written (ws : List (κ × ν)) (k : κ) : Option ν :=
  (ws.find? fun w => w.1 = k ∧ unset k w.2 = false).map Prod.snd

/-- What a slot holds after the writes. -/
def slot (ws : List (κ × ν)) (k : κ) : ν := (written unset ws k).getD (initial k)

variable {unset initial}

@[simp] theorem written_nil (k : κ) : written unset [] k = none := rfl

theorem written_cons (w : κ × ν) (ws : List (κ × ν)) (k : κ) :
    written unset (w :: ws) k =
      if w.1 = k ∧ unset k w.2 = false then some w.2 else written unset ws k := by
  unfold written
  rw [List.find?_cons]
  by_cases h : w.1 = k ∧ unset k w.2 = false
  · simp [h]
  · rw [if_neg h, decide_eq_false h]

theorem written_append (ws ws' : List (κ × ν)) (k : κ) :
    written unset (ws ++ ws') k = (written unset ws k).or (written unset ws' k) := by
  unfold written
  rw [List.find?_append, Option.map_or]

theorem written_flatMap (f : α → List (κ × ν)) (xs : List α) (k : κ) :
    written unset (xs.flatMap f) k = xs.findSome? fun x => written unset (f x) k := by
  induction xs with
  | nil => rfl
  | cons x xs ih =>
    rw [List.flatMap_cons, written_append, ih, List.findSome?_cons]
    cases written unset (f x) k <;> rfl

variable {ws : List (κ × ν)} {k : κ}

/-- A value that is found is one. -/
theorem unset_of_written {v : ν} (h : written unset ws k = some v) : unset k v = false := by
  obtain ⟨w, hw, rfl⟩ := Option.map_eq_some_iff.mp h
  have := List.find?_some hw
  simp only [decide_eq_true_eq] at this
  exact this.2

/-- A slot that no write is about. -/
theorem written_of_ne (h : ∀ w ∈ ws, w.1 ≠ k) : written unset ws k = none := by
  unfold written
  rw [Option.map_eq_none_iff, List.find?_eq_none]
  intro w hw
  simp [h w hw]

/-- Writes to other slots may be left out. -/
theorem written_filter (q : κ → Bool) (ws : List (κ × ν)) (hk : q k = true) :
    written unset (ws.filter fun w => q w.1) k = written unset ws k := by
  induction ws with
  | nil => rfl
  | cons w ws ih =>
    rw [List.filter_cons, written_cons]
    by_cases hw : q w.1 = true
    · rw [if_pos hw, written_cons, ih]
    · have hne : ¬ (w.1 = k ∧ unset k w.2 = false) := by
        rintro ⟨rfl, -⟩
        exact hw hk
      rw [if_neg hw, if_neg hne, ih]

/-- **A slot of a table**: no other entry is about it. -/
theorem written_of_mem (hnodup : (ws.map Prod.fst).Nodup) {v : ν} (h : (k, v) ∈ ws) :
    written unset ws k = if unset k v then none else some v := by
  induction ws with
  | nil => cases h
  | cons w ws ih =>
    rw [List.map_cons, List.nodup_cons] at hnodup
    obtain ⟨hfirst, hrest⟩ := hnodup
    rw [written_cons]
    rcases List.mem_cons.mp h with rfl | h
    · have hnone : written unset ws k = none := by
        refine written_of_ne fun w hw hk => hfirst ?_
        have hmem := List.mem_map_of_mem (f := Prod.fst) hw
        rwa [hk] at hmem
      cases hvalue : unset k v with
      | true => simp [hnone]
      | false => simp
    · have hne : w.1 ≠ k := by
        rintro rfl
        have hmem := List.mem_map_of_mem (f := Prod.fst) h
        exact hfirst hmem
      rw [if_neg fun hn => hne hn.1]
      exact ih hrest h

/-- **One more write** stands when it is a value and the slot held none. -/
theorem slot_concat {k' : κ} (hinitial : unset k' (initial k') = true) (ws : List (κ × ν)) (k : κ)
    (v : ν) :
    slot unset initial (ws ++ [(k, v)]) k' =
      if k' = k ∧ unset k v = false ∧ unset k (slot unset initial ws k') = true then v
      else slot unset initial ws k' := by
  unfold slot
  rw [written_append, written_cons, written_nil]
  cases hold : written unset ws k' with
  | some v' =>
    have hset := unset_of_written hold
    simp only [Option.some_or, Option.getD_some]
    rw [if_neg]
    rintro ⟨rfl, -, hunset⟩
    rw [hset] at hunset
    cases hunset
  | none =>
    simp only [Option.none_or, Option.getD_none]
    by_cases h : k = k' ∧ unset k' v = false
    · obtain ⟨rfl, hvalue⟩ := h
      simp [hvalue, hinitial]
    · rw [if_neg h, if_neg]
      · rfl
      · rintro ⟨rfl, hvalue, -⟩
        exact h ⟨rfl, hvalue⟩

end WriteOnce

end SoftEther.Lib
