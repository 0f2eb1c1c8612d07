import SoftEther.Merger.NewServer
import SoftEther.Merger.Testimony

namespace SoftEther.Merger

open Lib

/-!
# The conflicts of a merged record

`conflicts` is to show every disagreement: an entry with both values for any two records that
disagree, each value under a source that supplied it, and nothing new when a record comes again.
An entry names the last source of what stands, which need not be the one that supplied it, and the
two values of one merge, which need not be all.

* `Supplied`, `Audited` — what the conflicts of a leaf are to be;
* `CleanMerge` — the merges that keep them so;
* `Hearing` — what a merged record knows of the records it was made of;
* `Audited.merge` — clean merges keep the audit.
-/

/-! ### The source that is named last -/

section LastSource

variable {fallback : String} {xs ys : List String}

theorem lastSource_concat (fallback : String) (xs : List String) {s : String} (h : s ≠ "") :
    lastSource fallback (xs ++ [s]) = s := by
  simp [lastSource, h]

theorem lastSource_concat_empty (fallback : String) (xs : List String) :
    lastSource fallback (xs ++ [""]) = lastSource fallback xs := by
  simp [lastSource]

/-- Names that are known change nothing. -/
theorem lastSource_addMissing_of_known (h : ∀ s ∈ ys, s ≠ "" → s ∈ xs) :
    lastSource fallback (addMissing xs ys) = lastSource fallback xs := by
  induction ys using List.reverseRecOn with
  | nil => rfl
  | append_singleton ys y ih =>
    have hbefore := ih fun s hs => h s (List.mem_append_left _ hs)
    rw [addMissing_concat]
    split_ifs with hy
    · exact hbefore
    · by_cases hempty : y = ""
      · rw [hempty, lastSource_concat_empty]
        exact hbefore
      · have hknown := h y (by simp) hempty
        exact absurd (mem_addMissing.mpr (Or.inl hknown)) hy

/-- A new name is last. -/
theorem lastSource_addMissing_of_new (h : ∃ s ∈ ys, s ≠ "" ∧ s ∉ xs) :
    lastSource fallback (addMissing xs ys) ∈ ys ∧ lastSource fallback (addMissing xs ys) ∉ xs := by
  induction ys using List.reverseRecOn with
  | nil => simp at h
  | append_singleton ys y ih =>
    have hmono : ∀ {s}, s ∈ ys ∧ s ∉ xs → s ∈ ys ++ [y] ∧ s ∉ xs :=
      fun hs => ⟨List.mem_append_left _ hs.1, hs.2⟩
    obtain ⟨s, hs, hname, hnew⟩ := h
    rw [addMissing_concat]
    split_ifs with hy
    · -- the last name is there already, so it is not the new one, or is among the others, too
      refine hmono (ih ⟨s, ?_, hname, hnew⟩)
      rcases List.mem_append.mp hs with hs | hs
      · exact hs
      · obtain rfl : s = y := by simpa using hs
        exact (mem_addMissing.mp hy).resolve_left hnew
    · by_cases hempty : y = ""
      · rw [hempty, lastSource_concat_empty]
        rw [hempty] at hs hmono
        refine hmono (ih ⟨s, ?_, hname, hnew⟩)
        rcases List.mem_append.mp hs with hs | hs
        · exact hs
        · exact absurd (by simpa using hs) hname
      · rw [lastSource_concat _ _ hempty]
        exact ⟨by simp, fun hx => hy (mem_addMissing.mpr (Or.inl hx))⟩

end LastSource

/-! ### What the conflicts are to be -/

/-- **A source supplied a value**: a record that has the value names the source for it, or an entry
    that a record brings says so. -/
def Supplied (heard : List Testimony) (source : String) (value : Value) : Prop :=
  ∃ c ∈ heard, (source ∈ c.claim.owners ∧ .scalar c.claim.value = value) ∨
    ∃ e ∈ c.entries, (source, value) ∈ e

/-- **The audit of a leaf** after the records `heard`: for any two that disagree some entry has
    both values, each value was supplied by the source it stands under, and no record that comes
    again adds an entry. -/
structure Audited (l : Leaf) (heard : List Testimony) (m : Testimony) : Prop where
  complete : ∀ c ∈ heard, ∀ c' ∈ heard, isFalsyScalar c.claim.value = false →
    isFalsyScalar c'.claim.value = false → c.claim.value ≠ c'.claim.value →
    ∃ e ∈ m.entries, .scalar c.claim.value ∈ e.map Prod.snd ∧
      .scalar c'.claim.value ∈ e.map Prod.snd
  truthful : ∀ e ∈ m.entries, ∀ p ∈ e, Supplied heard p.1 p.2
  settled : ∀ c ∈ heard, (m.merge l c).entries.length = m.entries.length

/-- All values that were heard are one. -/
def Agree (heard : List Testimony) : Prop :=
  ∀ c ∈ heard, ∀ c' ∈ heard, isFalsyScalar c.claim.value = false →
    isFalsyScalar c'.claim.value = false → c.claim.value = c'.claim.value

/-- The newcomer has a value, and another one stands. -/
def Differ (m n : Testimony) : Prop :=
  isFalsyScalar m.claim.value = false ∧ isFalsyScalar n.claim.value = false ∧
    m.claim.value ≠ n.claim.value

/-- The newcomer names no source that is not known. -/
def Known (m n : Testimony) : Prop := ∀ s ∈ n.claim.owners, s ≠ "" → s ∈ m.claim.owners

/-- **What a newcomer may say.** Either there is one value altogether. Or it says nothing new, and
    names only sources that are known. Or there is a second value, and no third; then the entry is
    true when the last source of either side supplied its value, and it stays the entry of the two
    when, of the new value, it is a known source that loses, and a new source that wins. -/
inductive CleanCase (l : Leaf) (heard : List Testimony) (m n : Testimony) : Prop
  | agree (h : Agree (heard ++ [n]))
  | silent (h : ¬ Differ m n) (hknown : Known m n)
  | loses (h : Differ m n)
      (hpair : ∀ c ∈ heard, isFalsyScalar c.claim.value = false →
        c.claim.value = m.claim.value ∨ c.claim.value = n.claim.value)
      (hold : Supplied heard (m.claim.oldOwner l n.claim) (.scalar m.claim.value))
      (hnew : Supplied (heard ++ [n]) n.claim.source (.scalar n.claim.value))
      (hne : m.claim.oldOwner l n.claim ≠ n.claim.source)
      (hrank : sourcePriority (m.claim.oldOwner l n.claim) ≤ sourcePriority n.claim.source)
      (hknown : Known m n)
  | wins (h : Differ m n)
      (hpair : ∀ c ∈ heard, isFalsyScalar c.claim.value = false →
        c.claim.value = m.claim.value ∨ c.claim.value = n.claim.value)
      (hold : Supplied heard (m.claim.oldOwner l n.claim) (.scalar m.claim.value))
      (hrank : sourcePriority n.claim.source < sourcePriority (m.claim.oldOwner l n.claim))
      (hlast : lastSource "previous" (addMissing m.claim.owners n.claim.owners) = n.claim.source)
      (hsame : ∀ c ∈ heard, c.claim.value = m.claim.value →
        c.claim.source = m.claim.oldOwner l n.claim)

/-- **A merge that keeps the audit**: the newcomer may say what it says, and the entries it brings
    give no source another value than the first entry of the field or one another. -/
structure CleanMerge (l : Leaf) (heard : List Testimony) (m n : Testimony) : Prop where
  case : CleanCase l heard m n
  entries : n.entries ≠ [] →
    LinkedMap.Functional ((m.recorded l n).head?.toList ++ n.entries).flatten

/-! ### A merge that keeps it -/

/-- The record `m` is what was made of `heard`, as far as its claim goes. -/
structure Hearing (heard : List Testimony) (m : Testimony) : Prop where
  owners : ∀ s, s ∈ m.claim.owners ↔ ∃ c ∈ heard, s ∈ c.claim.owners
  value : isFalsyScalar m.claim.value = false → ∃ c ∈ heard, c.claim.value = m.claim.value
  gap : isFalsyScalar m.claim.value = true → ∀ c ∈ heard, isFalsyScalar c.claim.value = true

theorem Hearing.start (c : Testimony) : Hearing [c] c where
  owners := by simp
  value := fun _ => ⟨c, by simp⟩
  gap := by simp

variable {l : Leaf} {heard : List Testimony} {m n : Testimony}

theorem Hearing.merge (h : Hearing heard m) (n : Testimony) :
    Hearing (heard ++ [n]) (m.merge l n) where
  owners := by
    intro s
    simp [Testimony.merge, h.owners]
  value := by
    intro hvalue
    by_cases htakes : m.claim.Takes l.late n.claim
    · exact ⟨n, by simp, (Claim.merge_value_of_takes htakes).symm⟩
    · have hkept : (m.merge l n).claim.value = m.claim.value := Claim.merge_value_of_not htakes
      rw [hkept] at hvalue ⊢
      obtain ⟨c, hc, hcm⟩ := h.value hvalue
      exact ⟨c, List.mem_append_left _ hc, hcm⟩
  gap := by
    intro hgap
    have hnot : ¬ m.claim.Takes l.late n.claim := by
      intro htakes
      have hnew : (m.merge l n).claim.value = n.claim.value := Claim.merge_value_of_takes htakes
      rw [hnew, htakes.1] at hgap
      simp at hgap
    have hkept : (m.merge l n).claim.value = m.claim.value := Claim.merge_value_of_not hnot
    rw [hkept] at hgap
    intro c hc
    rcases List.mem_append.mp hc with hc | hc
    · exact h.gap hgap c hc
    · obtain rfl : c = n := by simpa using hc
      by_contra hvalue
      exact hnot ⟨by simpa using hvalue, Or.inl hgap⟩

/-- For one that was heard the source named last is the last of all. -/
theorem Hearing.oldOwner (h : Hearing heard m) {c : Testimony} (hc : c ∈ heard) :
    m.claim.oldOwner l c.claim = lastSource "previous" m.claim.owners := by
  unfold Claim.oldOwner Claim.known
  cases l.late with
  | false => rfl
  | true =>
    rw [if_pos rfl, addMissing_of_subset]
    exact fun s hs => (h.owners s).mpr ⟨c, hc, hs⟩

/-! #### What a merge does to the entries -/

theorem disagreement_of_differ (h : Differ m n) :
    m.claim.disagreement l n.claim = some ⟨l.path, .scalar m.claim.value, .scalar n.claim.value,
      m.claim.oldOwner l n.claim, n.claim.source⟩ :=
  if_pos ⟨h.2.1, h.1, h.2.2⟩

theorem disagreement_of_not_differ (h : ¬ Differ m n) : m.claim.disagreement l n.claim = none :=
  if_neg fun hd => h ⟨hd.2.1, hd.1, hd.2.2⟩

/-- A record is settled when its disagreement is shown and its own entries have a place. -/
theorem settled_iff :
    (m.merge l n).entries.length = m.entries.length ↔
      (∀ d ∈ m.claim.disagreement l n.claim, ∃ e ∈ m.entries, Shows e d) ∧
        (n.entries ≠ [] → m.entries ≠ []) := by
  have hlength : (m.merge l n).entries.length = if m.recorded l n = [] ∧ n.entries ≠ [] then 1
      else (m.recorded l n).length := length_foldl_mergeEntry _ _
  rw [hlength]
  cases hd : m.claim.disagreement l n.claim with
  | none =>
    have hrecorded : m.recorded l n = m.entries := by rw [Testimony.recorded, hd]; rfl
    rw [hrecorded]
    by_cases hm : m.entries = [] <;> by_cases hn : n.entries = [] <;> simp [hm, hn]
  | some d =>
    have hrecorded : m.recorded l n = recordEntry m.entries d := by rw [Testimony.recorded, hd]; rfl
    rw [hrecorded, recordEntry]
    by_cases hshown : ∃ e ∈ m.entries, Shows e d
    · obtain ⟨e, he, -⟩ := id hshown
      have hne : m.entries ≠ [] := List.ne_nil_of_mem he
      rw [if_pos hshown, if_neg fun h => hne h.1]
      simp only [Option.mem_some_iff, forall_eq', true_iff]
      exact ⟨hshown, fun _ => hne⟩
    · rw [if_neg hshown]
      simp only [Option.mem_some_iff, forall_eq', hshown, false_and, iff_false]
      simp

variable {e : Entry}

theorem mem_recorded_of_mem (he : e ∈ m.entries) : e ∈ m.recorded l n := by
  rw [Testimony.recorded]
  cases m.claim.disagreement l n.claim with
  | none => exact he
  | some d =>
    show e ∈ recordEntry m.entries d
    rw [recordEntry]
    split_ifs
    · exact he
    · exact List.mem_append_left _ he

/-- A disagreement of two sources is shown once it is recorded. -/
theorem exists_shows_recorded {d : Disagreement} (hd : m.claim.disagreement l n.claim = some d)
    (hne : d.oldOwner ≠ d.newOwner) : ∃ e ∈ m.recorded l n, Shows e d := by
  have hrecorded : m.recorded l n = recordEntry m.entries d := by rw [Testimony.recorded, hd]; rfl
  rw [hrecorded, recordEntry]
  split_ifs with hshown
  · exact hshown
  · refine ⟨_, List.mem_append_right _ (List.mem_singleton.mpr rfl), ?_,
      LinkedMap.read_put_self _ _ _⟩
    rw [LinkedMap.read_put_of_ne (Ne.symm hne), LinkedMap.read_cons_self]

theorem mem_of_mem_recorded (he : e ∈ m.recorded l n) {p : String × Value} (hp : p ∈ e) :
    (∃ a ∈ m.entries, p ∈ a) ∨ ∃ d ∈ m.claim.disagreement l n.claim,
      p = (d.oldOwner, d.oldValue) ∨ p = (d.newOwner, d.newValue) := by
  rw [Testimony.recorded] at he
  cases hd : m.claim.disagreement l n.claim with
  | none =>
    rw [hd] at he
    exact Or.inl ⟨e, he, hp⟩
  | some d =>
    rw [hd] at he
    change e ∈ recordEntry m.entries d at he
    rw [recordEntry] at he
    split_ifs at he
    · exact Or.inl ⟨e, he, hp⟩
    · rcases List.mem_append.mp he with he | he
      · exact Or.inl ⟨e, he, hp⟩
      · obtain rfl := List.mem_singleton.mp he
        refine Or.inr ⟨d, rfl, ?_⟩
        rcases LinkedMap.mem_of_mem_put hp with hnew | hold
        · exact Or.inr hnew
        · exact Or.inl (by simpa using hold)

theorem Supplied.mono {heard' : List Testimony} {s : String} {v : Value} (h : Supplied heard s v)
    (hsub : ∀ c ∈ heard, c ∈ heard') : Supplied heard' s v := by
  obtain ⟨c, hc, hsupplied⟩ := h
  exact ⟨c, hsub c hc, hsupplied⟩

/-! #### The three parts -/

theorem snd_mem_of_shows {d : Disagreement} (h : Shows e d) :
    d.oldValue ∈ e.map Prod.snd ∧ d.newValue ∈ e.map Prod.snd :=
  ⟨List.mem_map_of_mem (LinkedMap.mem_of_read h.1), List.mem_map_of_mem (LinkedMap.mem_of_read h.2)⟩

theorem Hearing.not_differ (hheard : Hearing heard m) (h : Agree (heard ++ [n])) :
    ¬ Differ m n := by
  rintro ⟨hold, hnew, hne⟩
  obtain ⟨c, hc, hcm⟩ := hheard.value hold
  rw [← hcm] at hold hne
  exact hne (h c (by simp [hc]) n (by simp) hold hnew)

/-- Without a difference the value that stands stays, or it fills a gap. -/
theorem merge_value_of_not_differ (h : ¬ Differ m n) :
    (m.merge l n).claim.value = m.claim.value ∨ isFalsyScalar m.claim.value = true := by
  by_cases htakes : m.claim.Takes l.late n.claim
  · cases hgap : isFalsyScalar m.claim.value with
    | true => exact Or.inr rfl
    | false =>
      have hsame : m.claim.value = n.claim.value := by
        by_contra hne
        exact h ⟨hgap, htakes.1, hne⟩
      exact Or.inl ((Claim.merge_value_of_takes htakes).trans hsame.symm)
  · exact Or.inl (Claim.merge_value_of_not htakes)

/-- Known names leave the last one. -/
theorem Known.oldOwner (h : Known m n) :
    m.claim.oldOwner l n.claim = lastSource "previous" m.claim.owners := by
  unfold Claim.oldOwner Claim.known
  cases l.late with
  | false => rfl
  | true => exact lastSource_addMissing_of_known h

/-- A name that is not known is last. -/
theorem last_of_not_known (h : ¬ Known m n) :
    lastSource "previous" (addMissing m.claim.owners n.claim.owners) ∈ n.claim.owners ∧
      lastSource "previous" (addMissing m.claim.owners n.claim.owners) ∉ m.claim.owners := by
  rw [Known] at h
  push Not at h
  exact lastSource_addMissing_of_new h

/-- A source that wins and is last is new. -/
theorem new_of_wins
    (hrank : sourcePriority n.claim.source < sourcePriority (m.claim.oldOwner l n.claim))
    (hlast : lastSource "previous" (addMissing m.claim.owners n.claim.owners) = n.claim.source) :
    n.claim.source ∈ n.claim.owners ∧ n.claim.source ∉ m.claim.owners := by
  by_cases hknown : Known m n
  · rw [hknown.oldOwner, ← hlast, lastSource_addMissing_of_known hknown] at hrank
    exact absurd hrank (lt_irrefl _)
  · rw [← hlast]
    exact last_of_not_known hknown

/-- A newcomer of no higher authority leaves what stands. -/
theorem merge_value_of_le (h : isFalsyScalar m.claim.value = false)
    (hrank : sourcePriority (m.claim.oldOwner l n.claim) ≤ sourcePriority n.claim.source) :
    (m.merge l n).claim.value = m.claim.value := by
  apply Claim.merge_value_of_not
  rintro ⟨-, hgap | hlower⟩
  · rw [h] at hgap
    simp at hgap
  · exact absurd hlower (not_lt_of_ge hrank)

section Clean

/-- Entries stay, with what they show. -/
theorem CleanMerge.exists_mem {e : Entry} (hclean : CleanMerge l heard m n)
    (he : e ∈ m.recorded l n) :
    ∃ e' ∈ (m.merge l n).entries, (∀ p ∈ e, p ∈ e') ∧ ∀ d, Shows e d → Shows e' d := by
  by_cases hnone : n.entries = []
  · refine ⟨e, ?_, fun p hp => hp, fun d hd => hd⟩
    rw [Testimony.merge, hnone]
    exact he
  · obtain ⟨e', he', hsub, hread⟩ := exists_mem_foldl_mergeEntry (hclean.entries hnone) he
    exact ⟨e', he', hsub, fun d hd => ⟨hread _ _ hd.1, hread _ _ hd.2⟩⟩

/-- Where the two sides differ, the merge shows it. -/
theorem CleanMerge.exists_shows (hclean : CleanMerge l heard m n) (hheard : Hearing heard m)
    (hdiffer : Differ m n) :
    ∃ e ∈ (m.merge l n).entries, Shows e ⟨l.path, .scalar m.claim.value, .scalar n.claim.value,
      m.claim.oldOwner l n.claim, n.claim.source⟩ := by
  have hne : m.claim.oldOwner l n.claim ≠ n.claim.source := by
    cases hclean.case with
    | agree hagree => exact absurd hdiffer (hheard.not_differ hagree)
    | silent hsilent => exact absurd hdiffer hsilent
    | loses _ _ _ _ hne => exact hne
    | wins _ _ _ hrank =>
      intro heq
      rw [heq] at hrank
      exact lt_irrefl _ hrank
  obtain ⟨e, he, hshows⟩ := exists_shows_recorded (disagreement_of_differ hdiffer) hne
  obtain ⟨e', he', -, hkept⟩ := hclean.exists_mem he
  exact ⟨e', he', hkept _ hshows⟩

variable {c : Testimony}

/-- A second value comes with no third. -/
theorem CleanMerge.pair (hclean : CleanMerge l heard m n) (hheard : Hearing heard m)
    (hdiffer : Differ m n) (hc : c ∈ heard) (hvalue : isFalsyScalar c.claim.value = false) :
    c.claim.value = m.claim.value ∨ c.claim.value = n.claim.value := by
  cases hclean.case with
  | agree hagree => exact absurd hdiffer (hheard.not_differ hagree)
  | silent hsilent => exact absurd hdiffer hsilent
  | loses _ hpair => exact hpair c hc hvalue
  | wins _ hpair => exact hpair c hc hvalue

/-- Any two values that differ are in an entry. -/
theorem CleanMerge.complete (hclean : CleanMerge l heard m n) (hheard : Hearing heard m)
    (h : Audited l heard m) {c' : Testimony} (hc : c ∈ heard ++ [n]) (hc' : c' ∈ heard ++ [n])
    (hvalue : isFalsyScalar c.claim.value = false) (hvalue' : isFalsyScalar c'.claim.value = false)
    (hne : c.claim.value ≠ c'.claim.value) :
    ∃ e ∈ (m.merge l n).entries, .scalar c.claim.value ∈ e.map Prod.snd ∧
      .scalar c'.claim.value ∈ e.map Prod.snd := by
  -- two that were heard
  have hboth : ∀ {c c' : Testimony}, c ∈ heard → c' ∈ heard → isFalsyScalar c.claim.value = false →
      isFalsyScalar c'.claim.value = false → c.claim.value ≠ c'.claim.value →
      ∃ e ∈ (m.merge l n).entries, .scalar c.claim.value ∈ e.map Prod.snd ∧
        .scalar c'.claim.value ∈ e.map Prod.snd := by
    intro c c' hc hc' hvalue hvalue' hne
    obtain ⟨e, he, hin, hin'⟩ := h.complete c hc c' hc' hvalue hvalue' hne
    obtain ⟨e', he', hsub, -⟩ := hclean.exists_mem (mem_recorded_of_mem he)
    exact ⟨e', he', List.map_subset Prod.snd hsub hin, List.map_subset Prod.snd hsub hin'⟩
  -- one of them, and the newcomer
  have hone : ∀ {c : Testimony}, c ∈ heard → isFalsyScalar c.claim.value = false →
      isFalsyScalar n.claim.value = false → c.claim.value ≠ n.claim.value →
      ∃ e ∈ (m.merge l n).entries, .scalar c.claim.value ∈ e.map Prod.snd ∧
        .scalar n.claim.value ∈ e.map Prod.snd := by
    intro c hc hvalue hvalue' hne
    by_cases hdiffer : Differ m n
    · rcases hclean.pair hheard hdiffer hc hvalue with hcm | hcn
      · obtain ⟨e, he, hshows⟩ := hclean.exists_shows hheard hdiffer
        rw [hcm]
        exact ⟨e, he, snd_mem_of_shows hshows⟩
      · exact absurd hcn hne
    · -- the newcomer says what stands, and that was heard
      cases hgap : isFalsyScalar m.claim.value with
      | true =>
        rw [hheard.gap hgap c hc] at hvalue
        simp at hvalue
      | false =>
        have hsame : m.claim.value = n.claim.value := by
          by_contra hmn
          exact hdiffer ⟨hgap, hvalue', hmn⟩
        obtain ⟨c', hc', hcm⟩ := hheard.value hgap
        have hcn : c'.claim.value = n.claim.value := hcm.trans hsame
        rw [← hcn] at hvalue' hne ⊢
        exact hboth hc hc' hvalue hvalue' hne
  rw [List.mem_append, List.mem_singleton] at hc hc'
  rcases hc with hc | rfl
  · rcases hc' with hc' | rfl
    · exact hboth hc hc' hvalue hvalue' hne
    · exact hone hc hvalue hvalue' hne
  · rcases hc' with hc' | rfl
    · obtain ⟨e, he, hin, hin'⟩ := hone hc' hvalue' hvalue (Ne.symm hne)
      exact ⟨e, he, hin', hin⟩
    · exact absurd rfl hne

/-- What stands in an entry was supplied. -/
theorem CleanMerge.truthful (hclean : CleanMerge l heard m n) (hheard : Hearing heard m)
    (h : Audited l heard m) {e : Entry} (he : e ∈ (m.merge l n).entries) {p : String × Value}
    (hp : p ∈ e) : Supplied (heard ++ [n]) p.1 p.2 := by
  have hmono : ∀ {s v}, Supplied heard s v → Supplied (heard ++ [n]) s v :=
    fun hs => hs.mono fun c hc => List.mem_append_left _ hc
  rcases mem_of_mem_foldl_mergeEntry he hp with ⟨a, ha, hpa⟩ | ⟨a, ha, hpa⟩
  · rcases mem_of_mem_recorded ha hpa with ⟨b, hb, hpb⟩ | ⟨d, hd, hpd⟩
    · exact hmono (h.truthful b hb p hpb)
    · by_cases hdiffer : Differ m n
      · rw [disagreement_of_differ hdiffer] at hd
        obtain rfl := Option.some.inj hd
        have hsupplied : Supplied heard (m.claim.oldOwner l n.claim) (.scalar m.claim.value) ∧
            Supplied (heard ++ [n]) n.claim.source (.scalar n.claim.value) := by
          cases hclean.case with
          | agree hagree => exact absurd hdiffer (hheard.not_differ hagree)
          | silent hsilent => exact absurd hdiffer hsilent
          | loses _ _ hold hnew => exact ⟨hold, hnew⟩
          | wins _ _ hold hrank hlast =>
            exact ⟨hold, n, by simp, Or.inl ⟨(new_of_wins hrank hlast).1, rfl⟩⟩
        rcases hpd with rfl | rfl
        · exact hmono hsupplied.1
        · exact hsupplied.2
      · rw [disagreement_of_not_differ hdiffer] at hd
        simp at hd
  · exact ⟨n, by simp, Or.inr ⟨a, ha, hpa⟩⟩

/-- What one that was heard disagrees on with what stands is shown, as long as what stands and the
    source that is named last for it stay. -/
theorem CleanMerge.exists_shows_heard (hclean : CleanMerge l heard m n) (hheard : Hearing heard m)
    (h : Audited l heard m) (hknown : Known m n) (hc : c ∈ heard) (hdiffer : Differ m c) :
    ∃ e ∈ (m.merge l n).entries, Shows e ⟨l.path, .scalar m.claim.value, .scalar c.claim.value,
      lastSource "previous" (addMissing m.claim.owners n.claim.owners), c.claim.source⟩ := by
  obtain ⟨e, he, hshows⟩ :=
    (settled_iff.mp (h.settled c hc)).1 _ (disagreement_of_differ hdiffer)
  obtain ⟨e', he', -, hkept⟩ := hclean.exists_mem (mem_recorded_of_mem he)
  rw [hheard.oldOwner hc, ← lastSource_addMissing_of_known hknown] at hshows
  exact ⟨e', he', hkept _ hshows⟩

/-- A record that was heard disagrees with what stands now as an entry shows. -/
theorem CleanMerge.exists_shows_again (hclean : CleanMerge l heard m n) (hheard : Hearing heard m)
    (h : Audited l heard m) (hc : c ∈ heard ++ [n]) (hagain : Differ (m.merge l n) c) :
    ∃ e ∈ (m.merge l n).entries, Shows e ⟨l.path, .scalar (m.merge l n).claim.value,
      .scalar c.claim.value, lastSource "previous" (addMissing m.claim.owners n.claim.owners),
      c.claim.source⟩ := by
  obtain ⟨hfilled, hvalue, hne⟩ := id hagain
  have hmem := hc
  rw [List.mem_append, List.mem_singleton] at hc
  cases hclean.case with
  | agree hagree =>
    obtain ⟨c', hc', hcm⟩ := (hheard.merge (l := l) n).value hfilled
    rw [← hcm] at hfilled hne
    exact absurd (hagree c' hc' c hmem hfilled hvalue) hne
  | silent hsilent hknown =>
    rcases merge_value_of_not_differ (l := l) hsilent with hkept | hgap
    · rw [hkept] at hfilled hne ⊢
      rcases hc with hc | rfl
      · exact hclean.exists_shows_heard hheard h hknown hc ⟨hfilled, hvalue, hne⟩
      · exact absurd ⟨hfilled, hvalue, hne⟩ hsilent
    · -- a gap is filled by the first value, and no other was heard
      rcases hc with hc | rfl
      · rw [hheard.gap hgap c hc] at hvalue
        simp at hvalue
      · exact absurd (Claim.merge_value_of_takes ⟨hvalue, Or.inl hgap⟩) hne
  | loses hdiffer hpair hold hnew hsources hrank hknown =>
    have hkept : (m.merge l n).claim.value = m.claim.value := merge_value_of_le hdiffer.1 hrank
    rw [hkept] at hfilled hne ⊢
    rcases hc with hc | rfl
    · exact hclean.exists_shows_heard hheard h hknown hc ⟨hfilled, hvalue, hne⟩
    · have hshows := hclean.exists_shows hheard hdiffer
      rw [hknown.oldOwner, ← lastSource_addMissing_of_known hknown] at hshows
      exact hshows
  | wins hdiffer hpair hold hrank hlast hsame =>
    have htaken : (m.merge l n).claim.value = n.claim.value :=
      Claim.merge_value_of_takes ⟨hdiffer.2.1, Or.inr hrank⟩
    rw [htaken] at hfilled hne ⊢
    rcases hc with hc | rfl
    · -- one of the other value: the entry of the two, the other way round
      have hcm : c.claim.value = m.claim.value := (hpair c hc hvalue).resolve_right (Ne.symm hne)
      obtain ⟨e, he, hshows⟩ := hclean.exists_shows hheard hdiffer
      rw [hlast, hsame c hc hcm, hcm]
      exact ⟨e, he, hshows.2, hshows.1⟩
    · exact absurd rfl hne

/-- No record that comes again adds an entry. -/
theorem CleanMerge.settled (hclean : CleanMerge l heard m n) (hheard : Hearing heard m)
    (h : Audited l heard m) (hc : c ∈ heard ++ [n]) :
    ((m.merge l n).merge l c).entries.length = (m.merge l n).entries.length := by
  rw [settled_iff]
  constructor
  · intro d hd
    by_cases hagain : Differ (m.merge l n) c
    · rw [disagreement_of_differ hagain, (hheard.merge n).oldOwner hc] at hd
      obtain rfl := Option.some.inj hd
      exact hclean.exists_shows_again hheard h hc hagain
    · rw [disagreement_of_not_differ hagain] at hd
      simp at hd
  · -- there is an entry to take those that are brought
    intro hbrought
    have hlength : (m.merge l n).entries.length = if m.recorded l n = [] ∧ n.entries ≠ [] then 1
        else (m.recorded l n).length := length_foldl_mergeEntry _ _
    rw [List.mem_append, List.mem_singleton] at hc
    rw [← List.length_pos_iff_ne_nil, hlength]
    split_ifs with hnone
    · exact Nat.one_pos
    · rw [List.length_pos_iff_ne_nil]
      rcases hc with hc | rfl
      · obtain ⟨e, he⟩ := List.exists_mem_of_ne_nil _ ((settled_iff.mp (h.settled c hc)).2 hbrought)
        exact List.ne_nil_of_mem (mem_recorded_of_mem he)
      · exact fun hnil => hnone ⟨hnil, hbrought⟩

/-- One record alone has nothing to disagree with. -/
theorem Audited.start (c : Testimony) : Audited l [c] c where
  complete := by simp
  truthful := fun e he p hp => ⟨c, by simp, Or.inr ⟨e, he, hp⟩⟩
  settled := by
    intro c' hc
    obtain rfl := List.mem_singleton.mp hc
    rw [settled_iff, disagreement_of_not_differ fun h => h.2.2 rfl]
    simp

/-- **A clean merge keeps the audit.** -/
theorem Audited.merge (h : Audited l heard m) (hheard : Hearing heard m)
    (hclean : CleanMerge l heard m n) : Audited l (heard ++ [n]) (m.merge l n) where
  complete := fun _ hc _ hc' hvalue hvalue' hne =>
    hclean.complete hheard h hc hc' hvalue hvalue' hne
  truthful := fun _ he _ hp => hclean.truthful hheard h he hp
  settled := fun _ hc => hclean.settled hheard h hc

end Clean

end SoftEther.Merger
