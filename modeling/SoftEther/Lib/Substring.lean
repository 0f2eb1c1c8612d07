import Mathlib.Data.List.Infix

namespace SoftEther.Lib

/-!
# Texts within texts

* `cut`, `eq_append_of_cut` — the text before and behind the first place of a pattern.
-/

variable {α : Type*} [DecidableEq α]

/-- What stands before and behind the first place of a pattern. -/
def cut (pattern : List α) : List α → Option (List α × List α)
  | [] => if pattern = [] then some ([], []) else none
  | c :: text =>
    if pattern <+: c :: text then some ([], (c :: text).drop pattern.length)
    else (cut pattern text).map fun parts => (c :: parts.1, parts.2)

theorem eq_append_of_cut {pattern text before behind : List α}
    (h : cut pattern text = some (before, behind)) : text = before ++ (pattern ++ behind) := by
  induction text generalizing before with
  | nil =>
    unfold cut at h
    split_ifs at h with hempty
    cases h
    rw [hempty]
    rfl
  | cons c text ih =>
    unfold cut at h
    split_ifs at h with hhere
    · cases h
      rw [List.nil_append]
      exact (List.prefix_append_drop hhere)
    · obtain ⟨parts, hparts, hpair⟩ := Option.map_eq_some_iff.mp h
      cases hpair
      rw [List.cons_append, ← ih hparts]

end SoftEther.Lib
