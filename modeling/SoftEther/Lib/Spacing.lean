import Mathlib.Data.List.Chain
import Mathlib.Data.List.DropRight

namespace SoftEther.Lib

/-!
# Tidy spacing

A text is made tidy by writing one blank for every run of spaces and by cutting the spaces at
its two ends.

* `collapse`, `strip` — the two steps;
* `Tidy` — every space is the blank, and stands alone between two other characters;
* `tidy_strip_collapse` — what comes out is tidy;
* `Tidy.collapse_eq`, `Tidy.strip_eq` — a tidy text stays as it is, under any notion of a space
  that covers no more characters.
-/

variable {α : Type*} {isSpace isSpace' : α → Bool} {blank : α}

/-- One `blank` for every run of spaces; `inRun` when the character before was a space. -/
def collapse (isSpace : α → Bool) (blank : α) (inRun : Bool) : List α → List α
  | [] => []
  | c :: cs =>
    if isSpace c then
      if inRun then collapse isSpace blank true cs else blank :: collapse isSpace blank true cs
    else c :: collapse isSpace blank false cs

/-- The text without the spaces at its ends. -/
def strip (isSpace : α → Bool) (l : List α) : List α :=
  (l.dropWhile isSpace).rdropWhile isSpace

/-- **A tidy text.** -/
structure Tidy (isSpace : α → Bool) (blank : α) (l : List α) : Prop where
  only : ∀ c ∈ l, isSpace c = true → c = blank
  single : l.IsChain fun a b => ¬ (isSpace a = true ∧ isSpace b = true)
  head : ∀ c ∈ l.head?, isSpace c = false
  last : ∀ c ∈ l.getLast?, isSpace c = false

/-! ### What comes out is tidy -/

variable {l : List α}

theorem eq_blank_of_mem_collapse {inRun : Bool} :
    ∀ c ∈ collapse isSpace blank inRun l, isSpace c = true → c = blank := by
  induction l generalizing inRun with
  | nil => exact fun c hc => absurd hc List.not_mem_nil
  | cons x l ih =>
    intro c hc hspace
    rw [collapse] at hc
    split_ifs at hc with hx hrun
    · exact ih c hc hspace
    · rcases List.mem_cons.mp hc with rfl | hc
      · rfl
      · exact ih c hc hspace
    · rcases List.mem_cons.mp hc with rfl | hc
      · exact absurd hspace hx
      · exact ih c hc hspace

/-- Behind a space comes no other one. -/
theorem head_collapse_true : ∀ c ∈ (collapse isSpace blank true l).head?, isSpace c = false := by
  induction l with
  | nil => exact fun c hc => absurd hc (by simp [collapse])
  | cons x l ih =>
    intro c hc
    rw [collapse] at hc
    by_cases hx : isSpace x = true
    · rw [if_pos hx, if_pos rfl] at hc
      exact ih c hc
    · rw [if_neg hx, List.head?_cons, Option.mem_some] at hc
      subst hc
      simpa using hx

theorem single_collapse {inRun : Bool} : (collapse isSpace blank inRun l).IsChain
      fun a b => ¬ (isSpace a = true ∧ isSpace b = true) := by
  induction l generalizing inRun with
  | nil => exact List.IsChain.nil
  | cons x l ih =>
    rw [collapse]
    split_ifs with hx hrun
    · exact ih
    · refine List.isChain_cons.mpr ⟨fun c hc hboth => ?_, ih⟩
      rw [head_collapse_true c hc] at hboth
      exact absurd hboth.2 (by simp)
    · exact List.isChain_cons.mpr ⟨fun c _ hboth => hx hboth.1, ih⟩

/-- What is left when the ends are cut is a part of the text. -/
theorem strip_within (l : List α) : strip isSpace l <:+: l :=
  (List.rdropWhile_prefix isSpace (l.dropWhile isSpace)).isInfix.trans
    (List.dropWhile_suffix isSpace).isInfix

/-- **What comes out is tidy.** -/
theorem tidy_strip_collapse (l : List α) :
    Tidy isSpace blank (strip isSpace (collapse isSpace blank false l)) where
  only c hc := eq_blank_of_mem_collapse c ((strip_within _).subset hc)
  single := by
    have hchain : (collapse isSpace blank false l).IsChain
        fun a b => ¬ (isSpace a = true ∧ isSpace b = true) := single_collapse
    obtain ⟨front, back, hparts⟩ : strip isSpace (collapse isSpace blank false l) <:+:
      collapse isSpace blank false l := strip_within _
    rw [← hparts] at hchain
    exact hchain.left_of_append.right_of_append
  head := by
    intro c hc
    -- the first character survived the cut at the front
    set m := (collapse isSpace blank false l).dropWhile isSpace with hm
    have hmem : c ∈ m.head? := by
      have hprefix : strip isSpace (collapse isSpace blank false l) <+: m :=
        List.rdropWhile_prefix isSpace m
      cases hs : strip isSpace (collapse isSpace blank false l) with
      | nil => rw [hs] at hc; cases hc
      | cons x rest =>
        rw [hs, List.head?_cons, Option.mem_some] at hc
        subst hc
        obtain ⟨tail, htail⟩ := hprefix
        rw [← htail, hs]
        rfl
    rw [hm] at hmem
    have hnot := List.head?_dropWhile_not isSpace (collapse isSpace blank false l)
    rw [Option.mem_def] at hmem
    simpa [hmem] using hnot
  last := by
    intro c hc
    have hne : strip isSpace (collapse isSpace blank false l) ≠ [] := by
      intro hnil
      rw [hnil] at hc
      cases hc
    have hlast : ¬ isSpace ((strip isSpace (collapse isSpace blank false l)).getLast hne) :=
      List.rdropWhile_last_not isSpace _ hne
    rw [Option.mem_def, List.getLast?_eq_some_getLast hne, Option.some.injEq] at hc
    subst hc
    simpa using hlast

/-! ### A tidy text stays as it is -/

theorem Tidy.nil : Tidy isSpace blank ([] : List α) where
  only := by simp
  single := List.IsChain.nil
  head := by simp
  last := by simp

/-- A text without spaces is tidy. -/
theorem Tidy.of_no_space (h : ∀ c ∈ l, isSpace c = false) : Tidy isSpace blank l where
  only c hc hspace := absurd hspace (by rw [h c hc]; exact Bool.false_ne_true)
  single := by
    induction l with
    | nil => exact List.IsChain.nil
    | cons x l ih =>
      refine List.isChain_cons.mpr ⟨fun c _ hboth => ?_, ih fun c hc =>
        h c (List.mem_cons_of_mem x hc)⟩
      rw [h x List.mem_cons_self] at hboth
      exact absurd hboth.1 (by simp)
  head c hc := h c (List.mem_of_mem_head? hc)
  last c hc := h c (List.mem_of_mem_getLast? hc)

theorem Tidy.collapse_eq (h : Tidy isSpace blank l)
    (hsub : ∀ c, isSpace' c = true → isSpace c = true) : collapse isSpace' blank false l = l := by
  have hrun : ∀ (l : List α) (inRun : Bool), (∀ c ∈ l, isSpace c = true → c = blank) →
      l.IsChain (fun a b => ¬ (isSpace a = true ∧ isSpace b = true)) →
      (inRun = true → ∀ c ∈ l.head?, isSpace c = false) →
      collapse isSpace' blank inRun l = l := by
    intro l
    induction l with
    | nil => exact fun _ _ _ _ => rfl
    | cons x l ih =>
      intro inRun honly hsingle hhead
      obtain ⟨hnext, hrest⟩ := List.isChain_cons.mp hsingle
      have honly' : ∀ c ∈ l, isSpace c = true → c = blank :=
        fun c hc => honly c (List.mem_cons_of_mem x hc)
      rw [collapse]
      by_cases hx : isSpace' x = true
      · have hspace := hsub x hx
        have hfirst : inRun = false := by
          cases inRun with
          | false => rfl
          | true =>
            rw [hhead rfl x rfl] at hspace
            exact absurd hspace (by simp)
        rw [if_pos hx, hfirst, if_neg (by simp), honly x List.mem_cons_self hspace,
          ih true honly' hrest]
        intro _ c hc
        have hboth := hnext c hc
        rw [not_and] at hboth
        simpa using hboth hspace
      · rw [if_neg hx, ih false honly' hrest (fun h => absurd h (by simp))]
  exact hrun l false h.only h.single (fun hf => absurd hf (by simp))

theorem Tidy.strip_eq (h : Tidy isSpace blank l)
    (hsub : ∀ c, isSpace' c = true → isSpace c = true) : strip isSpace' l = l := by
  have hnot : ∀ c, isSpace c = false → isSpace' c = false := by
    intro c hc
    by_contra hspace
    rw [Bool.not_eq_false] at hspace
    rw [hsub c hspace] at hc
    cases hc
  have hfront : l.dropWhile isSpace' = l := by
    cases l with
    | nil => rfl
    | cons x l => rw [List.dropWhile_cons, hnot x (h.head x rfl), if_neg (by simp)]
  rw [strip, hfront, List.rdropWhile_eq_self_iff]
  intro hne
  rw [hnot _ (h.last _ (List.getLast?_eq_some_getLast hne))]
  simp

end SoftEther.Lib
