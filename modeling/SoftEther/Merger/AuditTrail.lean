import SoftEther.Merger.Audit
import SoftEther.Merger.Authority

namespace SoftEther.Merger

open Lib

/-!
# The merges that keep the audit, in a list of records

Where no record brings entries of its own, only clean merges keep the audit. So for the records of
a list the conflicts are right after each of them exactly if each merges cleanly.

* `Paired` — what clean merges leave: two values at most;
* `Paired.cleanMerge` — only a clean merge keeps the audit;
* `audited_of_allClean` — the conflicts of a merged record, after any records of a list.
-/

variable {l : Leaf} {heard : List Testimony} {m n : Testimony}

/-! ### No other merge keeps it -/

/-- What clean merges of records that bring no entries leave: at most two values, entries only when
    there are two, and in them what stands under the source that is named last. -/
structure Paired (heard : List Testimony) (m : Testimony) : Prop where
  bare : ∀ c ∈ heard, c.entries = []
  two : ∀ a ∈ heard, ∀ b ∈ heard, ∀ c ∈ heard, isFalsyScalar a.claim.value = false →
    isFalsyScalar b.claim.value = false → isFalsyScalar c.claim.value = false →
    a.claim.value = b.claim.value ∨ b.claim.value = c.claim.value ∨ a.claim.value = c.claim.value
  idle : Agree heard → m.entries = []
  last : ∀ e ∈ m.entries, ∀ v, e.read (lastSource "previous" m.claim.owners) = some v →
    v = .scalar m.claim.value

theorem Paired.start {c : Testimony} (h : c.entries = []) : Paired [c] c where
  bare := by simpa using h
  two := by simp
  idle := fun _ => h
  last := by simp [h]

/-- Who supplied a value is known, and the value was heard. -/
theorem Paired.supplied (hpaired : Paired heard m) (hheard : Hearing heard m) {s : String}
    {v : Value} (h : Supplied heard s v) :
    s ∈ m.claim.owners ∧ ∃ c ∈ heard, .scalar c.claim.value = v := by
  obtain ⟨c, hc, ⟨howner, hvalue⟩ | ⟨e, he, -⟩⟩ := h
  · exact ⟨(hheard.owners s).mpr ⟨c, hc, howner⟩, c, hc, hvalue⟩
  · rw [hpaired.bare c hc] at he
    simp at he

/-- The entry that a merge makes. -/
theorem read_pair {a b s : String} {x y w : Value}
    (h : LinkedMap.read (LinkedMap.put [(a, x)] b y) s = some w) :
    (s = b ∧ w = y) ∨ (s ≠ b ∧ s = a ∧ w = x) := by
  by_cases hs : s = b
  · rw [hs, LinkedMap.read_put_self] at h
    exact Or.inl ⟨hs, (Option.some.inj h).symm⟩
  · rw [LinkedMap.read_put_of_ne (Ne.symm hs), LinkedMap.read] at h
    split_ifs at h with ha
    · exact Or.inr ⟨hs, ha.symm, (Option.some.inj h).symm⟩
    · simp at h

/-- The entries of a merge with a record that brings none. -/
theorem merge_entries_of_differ (hn : n.entries = []) (h : Differ m n) {e : Entry}
    (he : e ∈ (m.merge l n).entries) :
    e ∈ m.entries ∨ e = LinkedMap.put [(m.claim.oldOwner l n.claim, .scalar m.claim.value)]
      n.claim.source (.scalar n.claim.value) := by
  rw [Testimony.merge, hn] at he
  change e ∈ m.recorded l n at he
  rw [Testimony.recorded, disagreement_of_differ h] at he
  change e ∈ recordEntry m.entries _ at he
  rw [recordEntry] at he
  split_ifs at he
  · exact Or.inl he
  · simpa using he

theorem merge_entries_of_not_differ (hn : n.entries = []) (h : ¬ Differ m n) :
    (m.merge l n).entries = m.entries := by
  rw [Testimony.merge, hn]
  change m.recorded l n = m.entries
  rw [Testimony.recorded, disagreement_of_not_differ h]
  rfl

section Exact

variable (hheard : Hearing heard m) (h : Audited l heard m) (hpaired : Paired heard m)
  (hn : n.entries = []) (h' : Audited l (heard ++ [n]) (m.merge l n))

include hheard h hpaired in
/-- A name that is not known is in no entry so far. -/
theorem read_of_new {s : String} (hs : s ∉ m.claim.owners) {e : Entry} (he : e ∈ m.entries)
    (v : Value) : e.read s ≠ some v := by
  intro hread
  exact hs (hpaired.supplied hheard (h.truthful e he _ (LinkedMap.mem_of_read hread))).1

include hheard h' in
/-- What disagrees with what stands now is shown already. -/
theorem shows_again {c : Testimony} (hc : c ∈ heard ++ [n]) (hagain : Differ (m.merge l n) c) :
    ∃ e ∈ (m.merge l n).entries, Shows e ⟨l.path, .scalar (m.merge l n).claim.value,
      .scalar c.claim.value, lastSource "previous" (addMissing m.claim.owners n.claim.owners),
      c.claim.source⟩ := by
  obtain ⟨e, he, hshows⟩ := (settled_iff.mp (h'.settled c hc)).1 _ (disagreement_of_differ hagain)
  rw [(hheard.merge n).oldOwner hc] at hshows
  exact ⟨e, he, hshows⟩

include hheard h hpaired hn h' in
/-- **One that says nothing new names only known sources**, unless there is one value altogether. -/
theorem known_of_silent (hsilent : ¬ Differ m n) (hagree : ¬ Agree (heard ++ [n])) : Known m n := by
  by_contra hknown
  -- some record disagrees with what stands
  obtain ⟨c, hc, hdiffer⟩ : ∃ c ∈ heard, Differ m c := by
    unfold Agree at hagree
    push Not at hagree
    obtain ⟨a, ha, b, hb, hvalue, hvalue', hne⟩ := hagree
    cases hgap : isFalsyScalar m.claim.value with
    | true =>
      have hlast : ∀ {c}, c ∈ heard ++ [n] → isFalsyScalar c.claim.value = false → c = n := by
        intro c hc hfilled
        rw [List.mem_append, List.mem_singleton] at hc
        rcases hc with hc | hc
        · rw [hheard.gap hgap c hc] at hfilled
          simp at hfilled
        · exact hc
      rw [hlast ha hvalue, hlast hb hvalue'] at hne
      exact absurd rfl hne
    | false =>
      -- the newcomer, if it has a value, says what stands
      have hother : ∀ {c}, c ∈ heard ++ [n] → isFalsyScalar c.claim.value = false →
          m.claim.value ≠ c.claim.value → ∃ c ∈ heard, Differ m c := by
        intro c hc hfilled hne
        rw [List.mem_append, List.mem_singleton] at hc
        rcases hc with hc | rfl
        · exact ⟨c, hc, hgap, hfilled, hne⟩
        · exact absurd ⟨hgap, hfilled, hne⟩ hsilent
      by_cases hma : m.claim.value = a.claim.value
      · exact hother hb hvalue' (hma ▸ hne)
      · exact hother ha hvalue hma
  have hkept : (m.merge l n).claim.value = m.claim.value := by
    rcases merge_value_of_not_differ (l := l) hsilent with hkept | hgap
    · exact hkept
    · rw [hdiffer.1] at hgap
      simp at hgap
  have hagain : Differ (m.merge l n) c := by
    rw [Differ, hkept]
    exact hdiffer
  obtain ⟨e, he, hshows⟩ := shows_again hheard h' (List.mem_append_left _ hc) hagain
  rw [merge_entries_of_not_differ hn hsilent] at he
  exact read_of_new hheard h hpaired (last_of_not_known hknown).2 he _ hshows.1

include hheard h hpaired hn h' in
/-- **There is no third value.** -/
theorem pair_of_differ (hdiffer : Differ m n) {c : Testimony} (hc : c ∈ heard)
    (hvalue : isFalsyScalar c.claim.value = false) :
    c.claim.value = m.claim.value ∨ c.claim.value = n.claim.value := by
  by_contra hthird
  obtain ⟨hcm, hcn⟩ := not_or.mp hthird
  obtain ⟨e, he, hine, hine'⟩ := h'.complete c (List.mem_append_left _ hc) n (by simp) hvalue
    hdiffer.2.1 hcn
  rcases merge_entries_of_differ hn hdiffer he with hold | rfl
  · -- the newcomer's value was heard before, so there were three
    obtain ⟨p, hp, hpn⟩ := List.mem_map.mp hine'
    obtain ⟨-, a, ha, han⟩ := hpaired.supplied hheard (h.truthful e hold p hp)
    obtain ⟨b, hb, hbm⟩ := hheard.value hdiffer.1
    have hvalue' : a.claim.value = n.claim.value := by simpa [hpn] using han
    have hthree := hpaired.two b hb c hc a ha (by rw [hbm]; exact hdiffer.1) hvalue
      (by rw [hvalue']; exact hdiffer.2.1)
    rw [hbm, hvalue'] at hthree
    rcases hthree with hmc | hcn' | hmn
    · exact hcm hmc.symm
    · exact hcn hcn'
    · exact hdiffer.2.2 hmn
  · obtain ⟨p, hp, hpc⟩ := List.mem_map.mp hine
    rcases LinkedMap.mem_of_mem_put hp with hpn | hpm
    · rw [hpn] at hpc
      exact hcn (by simpa using hpc.symm)
    · rw [List.mem_singleton.mp hpm] at hpc
      exact hcm (by simpa using hpc.symm)

include hheard h hpaired hn h' in
/-- **The two sides stand under two names.** -/
theorem oldOwner_ne_source (hdiffer : Differ m n) :
    m.claim.oldOwner l n.claim ≠ n.claim.source := by
  intro heq
  have hkept : (m.merge l n).claim.value = m.claim.value :=
    merge_value_of_le hdiffer.1 (le_of_eq (congrArg sourcePriority heq))
  have hagain : Differ (m.merge l n) n := by
    rw [Differ, hkept]
    exact hdiffer
  obtain ⟨e, he, hshows⟩ := shows_again hheard h' (by simp) hagain
  rw [hkept] at hshows
  by_cases hknown : Known m n
  · -- both values would stand under one name
    have hboth : lastSource "previous" (addMissing m.claim.owners n.claim.owners) =
        n.claim.source := by
      rw [lastSource_addMissing_of_known hknown, ← hknown.oldOwner, heq]
    have hread := hshows.1
    dsimp only at hread
    rw [hboth, hshows.2, Option.some_inj] at hread
    exact hdiffer.2.2 (by simpa using hread.symm)
  · rcases merge_entries_of_differ hn hdiffer he with hold | rfl
    · exact read_of_new hheard h hpaired (last_of_not_known hknown).2 hold _ hshows.1
    · rcases read_pair hshows.1 with ⟨-, hvalue⟩ | ⟨hne, hlast, -⟩
      · exact hdiffer.2.2 (by simpa using hvalue)
      · exact hne (hlast.trans heq)

include hheard h hpaired hn h' in
/-- **Both sides supplied their value.** -/
theorem supplied_of_differ (hdiffer : Differ m n) :
    Supplied heard (m.claim.oldOwner l n.claim) (.scalar m.claim.value) ∧
      Supplied (heard ++ [n]) n.claim.source (.scalar n.claim.value) := by
  obtain ⟨e, he, hshows⟩ := exists_shows_recorded (disagreement_of_differ hdiffer)
    (oldOwner_ne_source hheard h hpaired hn h' hdiffer)
  have he' : e ∈ (m.merge l n).entries := by
    rw [Testimony.merge, hn]
    exact he
  refine ⟨?_, h'.truthful e he' _ (LinkedMap.mem_of_read hshows.2)⟩
  obtain ⟨c, hc, hsupplied⟩ := h'.truthful e he' _ (LinkedMap.mem_of_read hshows.1)
  rw [List.mem_append, List.mem_singleton] at hc
  rcases hc with hc | rfl
  · exact ⟨c, hc, hsupplied⟩
  · -- the newcomer did not
    rcases hsupplied with ⟨-, hvalue⟩ | ⟨e, he, -⟩
    · exact absurd (by simpa using hvalue.symm) hdiffer.2.2
    · rw [hn] at he
      simp at he

include hheard in
/-- After a clean merge two values were heard, or only values that were heard before it. -/
theorem CleanMerge.heard_values (hclean : CleanMerge l heard m n) :
    (∃ v w, ∀ c ∈ heard ++ [n], isFalsyScalar c.claim.value = false →
        c.claim.value = v ∨ c.claim.value = w) ∨
      ∀ c ∈ heard ++ [n], isFalsyScalar c.claim.value = false →
        ∃ b ∈ heard, b.claim.value = c.claim.value := by
  by_cases hdiffer : Differ m n
  · refine Or.inl ⟨m.claim.value, n.claim.value, ?_⟩
    intro c hc hvalue
    rw [List.mem_append, List.mem_singleton] at hc
    rcases hc with hc | rfl
    · exact hclean.pair hheard hdiffer hc hvalue
    · exact Or.inr rfl
  · cases hgap : isFalsyScalar m.claim.value with
    | true =>
      refine Or.inl ⟨n.claim.value, n.claim.value, ?_⟩
      intro c hc hvalue
      rw [List.mem_append, List.mem_singleton] at hc
      rcases hc with hc | rfl
      · rw [hheard.gap hgap c hc] at hvalue
        simp at hvalue
      · exact Or.inl rfl
    | false =>
      refine Or.inr ?_
      intro c hc hvalue
      rw [List.mem_append, List.mem_singleton] at hc
      rcases hc with hc | rfl
      · exact ⟨c, hc, rfl⟩
      · have hsame : m.claim.value = c.claim.value := by
          by_contra hne
          exact hdiffer ⟨hgap, hvalue, hne⟩
        rw [← hsame]
        exact hheard.value hgap

include hheard h hpaired hn in
/-- What an entry has under the source named last is what stands, also after a clean merge. -/
theorem Paired.last_merge (hclean : CleanMerge l heard m n) {e : Entry}
    (he : e ∈ (m.merge l n).entries) {v : Value}
    (hread : e.read (lastSource "previous" (addMissing m.claim.owners n.claim.owners)) = some v) :
    v = .scalar (m.merge l n).claim.value := by
  cases hclean.case with
  | agree hagree =>
    rw [merge_entries_of_not_differ hn (hheard.not_differ hagree), hpaired.idle fun c hc c' hc' =>
      hagree c (List.mem_append_left _ hc) c' (List.mem_append_left _ hc')] at he
    simp at he
  | silent hsilent hknown =>
    rw [merge_entries_of_not_differ hn hsilent] at he
    rw [lastSource_addMissing_of_known hknown] at hread
    rcases merge_value_of_not_differ (l := l) hsilent with hkept | hgap
    · rw [hkept]
      exact hpaired.last e he v hread
    · -- no entry without a value
      have hagree : Agree heard := by
        intro c hc c' hc' hvalue
        rw [hheard.gap hgap c hc] at hvalue
        simp at hvalue
      rw [hpaired.idle hagree] at he
      simp at he
  | loses hdiffer hpair hold hnew hne hrank hknown =>
    have hkept : (m.merge l n).claim.value = m.claim.value := merge_value_of_le hdiffer.1 hrank
    rw [lastSource_addMissing_of_known hknown] at hread
    rw [hkept]
    rcases merge_entries_of_differ hn hdiffer he with hin | rfl
    · exact hpaired.last e hin v hread
    · rw [← hknown.oldOwner (l := l)] at hread
      rcases read_pair hread with ⟨heq, -⟩ | ⟨-, -, hvalue⟩
      · exact absurd heq hne
      · exact hvalue
  | wins hdiffer hpair hold hrank hlast hsame =>
    have htaken : (m.merge l n).claim.value = n.claim.value :=
      Claim.merge_value_of_takes ⟨hdiffer.2.1, Or.inr hrank⟩
    rw [hlast] at hread
    rw [htaken]
    rcases merge_entries_of_differ hn hdiffer he with hin | rfl
    · exact absurd hread (read_of_new hheard h hpaired (new_of_wins hrank hlast).2 hin v)
    · rcases read_pair hread with ⟨-, hvalue⟩ | ⟨hne, -⟩
      · exact hvalue
      · exact absurd rfl hne

include hheard h hpaired hn in
/-- A clean merge leaves two values at most. -/
theorem Paired.merge (hclean : CleanMerge l heard m n) :
    Paired (heard ++ [n]) (m.merge l n) where
  bare := by
    intro c hc
    rw [List.mem_append, List.mem_singleton] at hc
    rcases hc with hc | rfl
    · exact hpaired.bare c hc
    · exact hn
  two := by
    intro a ha b hb c hc hvalue hvalue' hvalue''
    rcases hclean.heard_values hheard with ⟨v, w, hpair⟩ | hsame
    · have hpa := hpair a ha hvalue
      have hpb := hpair b hb hvalue'
      have hpc := hpair c hc hvalue''
      grind
    · obtain ⟨a', ha', haa⟩ := hsame a ha hvalue
      obtain ⟨b', hb', hbb⟩ := hsame b hb hvalue'
      obtain ⟨c', hc', hcc⟩ := hsame c hc hvalue''
      rw [← haa] at hvalue ⊢
      rw [← hbb] at hvalue' ⊢
      rw [← hcc] at hvalue'' ⊢
      exact hpaired.two a' ha' b' hb' c' hc' hvalue hvalue' hvalue''
  idle := by
    intro hagree
    rw [merge_entries_of_not_differ hn (hheard.not_differ hagree)]
    exact hpaired.idle fun c hc c' hc' =>
      hagree c (List.mem_append_left _ hc) c' (List.mem_append_left _ hc')
  last := by
    intro e he v hread
    exact hpaired.last_merge hheard h hn hclean he hread

include hheard h hpaired hn h' in
/-- **Only a clean merge keeps the audit.** -/
theorem Paired.cleanMerge : CleanMerge l heard m n := by
  refine ⟨?_, fun hbrings => absurd hn hbrings⟩
  by_cases hagree : Agree (heard ++ [n])
  · exact .agree hagree
  by_cases hdiffer : Differ m n
  · have hpair := fun c hc => pair_of_differ (c := c) hheard h hpaired hn h' hdiffer hc
    have hne := oldOwner_ne_source hheard h hpaired hn h' hdiffer
    obtain ⟨hold, hnew⟩ := supplied_of_differ hheard h hpaired hn h' hdiffer
    obtain ⟨howner, b, hb, hbm⟩ := hpaired.supplied hheard hold
    -- who is known is not a name that the newcomer adds
    have hnewName : ∀ {e : Entry} {v : Value}, ¬ Known m n → e ∈ (m.merge l n).entries →
        e.read (lastSource "previous" (addMissing m.claim.owners n.claim.owners)) = some v →
        e = LinkedMap.put [(m.claim.oldOwner l n.claim, .scalar m.claim.value)] n.claim.source
            (.scalar n.claim.value) ∧
          lastSource "previous" (addMissing m.claim.owners n.claim.owners) = n.claim.source ∧
            v = .scalar n.claim.value := by
      intro e v hknown he hread
      rcases merge_entries_of_differ hn hdiffer he with hold | rfl
      · exact absurd hread (read_of_new hheard h hpaired (last_of_not_known hknown).2 hold v)
      · rcases read_pair hread with ⟨hlast, hv⟩ | ⟨-, hlast, -⟩
        · exact ⟨rfl, hlast, hv⟩
        · exact absurd (hlast ▸ howner) (last_of_not_known hknown).2
    rcases le_or_gt (sourcePriority (m.claim.oldOwner l n.claim)) (sourcePriority n.claim.source)
      with hrank | hrank
    · refine .loses hdiffer hpair hold hnew hne hrank ?_
      by_contra hknown
      have hkept : (m.merge l n).claim.value = m.claim.value := merge_value_of_le hdiffer.1 hrank
      have hagain : Differ (m.merge l n) n := by
        rw [Differ, hkept]
        exact hdiffer
      obtain ⟨e, he, hshows⟩ := shows_again hheard h' (by simp) hagain
      have hvalue := (hnewName hknown he hshows.1).2.2
      rw [hkept] at hvalue
      exact hdiffer.2.2 (by simpa using hvalue)
    · have htaken : (m.merge l n).claim.value = n.claim.value :=
        Claim.merge_value_of_takes ⟨hdiffer.2.1, Or.inr hrank⟩
      -- what any record of the other value has to find
      have hother : ∀ c ∈ heard, c.claim.value = m.claim.value →
          ∃ e ∈ (m.merge l n).entries, Shows e ⟨l.path, .scalar n.claim.value,
            .scalar m.claim.value, lastSource "previous" (addMissing m.claim.owners n.claim.owners),
            c.claim.source⟩ := by
        intro c hc hcm
        have hagain : Differ (m.merge l n) c := by
          rw [Differ, htaken, hcm]
          exact ⟨hdiffer.2.1, hdiffer.1, Ne.symm hdiffer.2.2⟩
        have hshows := shows_again hheard h' (List.mem_append_left _ hc) hagain
        rw [htaken, hcm] at hshows
        exact hshows
      have hknown : ¬ Known m n := by
        intro hknown
        obtain ⟨e, he, hshows⟩ := hother b hb (by simpa using hbm)
        have hread := hshows.1
        dsimp only at hread
        rw [lastSource_addMissing_of_known hknown] at hread
        rcases merge_entries_of_differ hn hdiffer he with hin | rfl
        · have hvalue := hpaired.last e hin _ hread
          exact hdiffer.2.2 (by simpa using hvalue.symm)
        · rw [← hknown.oldOwner (l := l)] at hread
          rcases read_pair hread with ⟨heq, -⟩ | ⟨-, -, hvalue⟩
          · exact hne heq
          · exact hdiffer.2.2 (by simpa using hvalue.symm)
      obtain ⟨e, he, hshows⟩ := hother b hb (by simpa using hbm)
      refine .wins hdiffer hpair hold hrank (hnewName hknown he hshows.1).2.1 ?_
      intro c hc hcm
      obtain ⟨e, he, hshows⟩ := hother c hc hcm
      rw [(hnewName hknown he hshows.1).1] at hshows
      rcases read_pair hshows.2 with ⟨-, hvalue⟩ | ⟨-, hlast, -⟩
      · exact absurd (by simpa using hvalue) hdiffer.2.2
      · exact hlast
  · exact .silent hdiffer (known_of_silent hheard h hpaired hn h' hdiffer hagree)

end Exact

/-! ### The records of a list -/

/-- What the records of a key testify at a leaf, in their order. -/
def heardAt (key : String) (l : Leaf) (records : List VpnServerRecord) : List Testimony :=
  (recordsOf key records).map fun r => r.testimonyAt l

/-- **The audit of a leaf of a merged record**, against the records of its key. -/
structure AuditedRecord (key : String) (l : Leaf) (records : List VpnServerRecord)
    (m : VpnServerRecord) : Prop where
  complete : ∀ r ∈ recordsOf key records, ∀ r' ∈ recordsOf key records,
    isFalsyScalar (r.claimAt l).value = false → isFalsyScalar (r'.claimAt l).value = false →
    (r.claimAt l).value ≠ (r'.claimAt l).value →
    ∃ e ∈ entriesOf l.path m.conflicts, .scalar (r.claimAt l).value ∈ e.map Prod.snd ∧
      .scalar (r'.claimAt l).value ∈ e.map Prod.snd
  truthful : ∀ e ∈ entriesOf l.path m.conflicts, ∀ p ∈ e, Supplied (heardAt key l records) p.1 p.2
  settled : ∀ r ∈ recordsOf key records,
    (entriesOf l.path (recursiveMerge m r).conflicts).length =
      (entriesOf l.path m.conflicts).length

theorem auditedRecord_iff {key : String} {records : List VpnServerRecord} {m : VpnServerRecord}
    (hleaf : ∀ r ∈ records, r.HasLeaf l) (hm : m.HasLeaf l) :
    AuditedRecord key l records m ↔ Audited l (heardAt key l records) (m.testimonyAt l) := by
  have hmerge : ∀ r ∈ recordsOf key records,
      entriesOf l.path (recursiveMerge m r).conflicts =
        ((m.testimonyAt l).merge l (r.testimonyAt l)).entries := by
    intro r hr
    rw [← hm.testimonyAt_recursiveMerge (hleaf r (List.mem_of_mem_filter hr))]
    rfl
  constructor
  · rintro ⟨hcomplete, htruthful, hsettled⟩
    refine ⟨?_, htruthful, ?_⟩
    · intro c hc c' hc'
      obtain ⟨r, hr, rfl⟩ := List.mem_map.mp hc
      obtain ⟨r', hr', rfl⟩ := List.mem_map.mp hc'
      exact hcomplete r hr r' hr'
    · intro c hc
      obtain ⟨r, hr, rfl⟩ := List.mem_map.mp hc
      rw [← hmerge r hr]
      exact hsettled r hr
  · rintro ⟨hcomplete, htruthful, hsettled⟩
    refine ⟨?_, htruthful, ?_⟩
    · intro r hr r' hr'
      exact hcomplete _ (List.mem_map_of_mem hr) _ (List.mem_map_of_mem hr')
    · intro r hr
      rw [hmerge r hr]
      exact hsettled _ (List.mem_map_of_mem hr)

/-- One more record of a list merges cleanly. -/
def CleanAt (key : String) (l : Leaf) (before : List VpnServerRecord) (r : VpnServerRecord) :
    Prop :=
  identityKey r = some key → ∀ m, (key, m) ∈ database before →
    CleanMerge l (heardAt key l before) (m.testimonyAt l) (r.testimonyAt l)

/-- All records of a list merge cleanly, each into what those before it were merged to. -/
def AllClean (key : String) (l : Leaf) (records : List VpnServerRecord) : Prop :=
  ∀ before r after, records = before ++ r :: after → CleanAt key l before r

section Run

variable {key : String} {records : List VpnServerRecord} {m : VpnServerRecord}

theorem heardAt_merge {r : VpnServerRecord} (hm : (key, m) ∈ database records)
    (hr : identityKey r = some key) :
    heardAt key l (records ++ [r]) = heardAt key l records ++ [r.testimonyAt l] := by
  rw [heardAt, (mem_database_merge hm hr).1, List.map_append]
  rfl

/-- Clean merges keep all that is known of a merged record. -/
theorem AllClean.keeps (hleaf : ∀ r ∈ records, r.HasLeaf l) (hclean : AllClean key l records)
    (hm : (key, m) ∈ database records) :
    Hearing (heardAt key l records) (m.testimonyAt l) ∧
      Audited l (heardAt key l records) (m.testimonyAt l) ∧
      ((∀ r ∈ records, entriesOf l.path r.conflicts = []) →
        Paired (heardAt key l records) (m.testimonyAt l)) := by
  induction records using List.reverseRecOn generalizing m with
  | nil =>
    obtain ⟨first, rest, hrecords, -⟩ := mem_database.mp hm
    simp [recordsOf] at hrecords
  | append_singleton records r ih =>
    have hleaf' : ∀ r ∈ records, r.HasLeaf l := fun r hr => hleaf r (List.mem_append_left _ hr)
    have hclean' : AllClean key l records := fun before r' after heq =>
      hclean before r' (after ++ [r]) (by simp [heq])
    rcases mem_database_concat hm with ⟨hsame, hbefore⟩ | ⟨hfirst, rfl⟩ | ⟨hr, before, hbefore, rfl⟩
    · rw [heardAt, hsame]
      obtain ⟨hheard, haudited, hpaired⟩ := ih hleaf' hclean' hbefore
      exact ⟨hheard, haudited, fun hbare =>
        hpaired fun r hr => hbare r (List.mem_append_left _ hr)⟩
    · rw [heardAt, hfirst]
      exact ⟨.start _, .start _, fun hbare => .start (hbare _ (by simp))⟩
    · obtain ⟨hheard, haudited, hpaired⟩ := ih hleaf' hclean' hbefore
      have hmerge := hclean records r [] rfl hr before hbefore
      have htestimony := (hasLeaf_of_mem_database hleaf' hbefore).testimonyAt_recursiveMerge
        (hleaf r (by simp))
      rw [heardAt_merge hbefore hr, htestimony]
      refine ⟨hheard.merge _, haudited.merge hheard hmerge, fun hbare => ?_⟩
      exact Paired.merge hheard haudited
        (hpaired fun r hr => hbare r (List.mem_append_left _ hr)) (hbare r (by simp)) hmerge

/-- **The conflicts of a leaf are right after every record of a list, if each merges cleanly**; and
    where no record brings entries of its own, only then. -/
theorem audited_of_allClean (hleaf : ∀ r ∈ records, r.HasLeaf l) :
    (AllClean key l records → ∀ before, before <+: records → ∀ m, (key, m) ∈ database before →
        AuditedRecord key l before m) ∧
      ((∀ r ∈ records, entriesOf l.path r.conflicts = []) →
        (∀ before, before <+: records → ∀ m, (key, m) ∈ database before →
          AuditedRecord key l before m) → AllClean key l records) := by
  constructor
  · rintro hclean before ⟨rest, rfl⟩ m hm
    have hleaf' : ∀ r ∈ before, r.HasLeaf l := fun r hr => hleaf r (List.mem_append_left _ hr)
    have hclean' : AllClean key l before := fun before' r after heq =>
      hclean before' r (after ++ rest) (by simp [heq])
    rw [auditedRecord_iff hleaf' (hasLeaf_of_mem_database hleaf' hm)]
    exact (hclean'.keeps hleaf' hm).2.1
  · intro hbare haudited
    induction records using List.reverseRecOn with
    | nil =>
      intro before r after heq
      simp at heq
    | append_singleton records r ih =>
      have hleaf' : ∀ r ∈ records, r.HasLeaf l := fun r hr => hleaf r (List.mem_append_left _ hr)
      have hbare' := fun r hr => hbare r (List.mem_append_left _ hr)
      have hclean := ih hleaf' hbare' fun before hbefore =>
        haudited before (hbefore.trans (List.prefix_append records [r]))
      intro before r' after heq
      rcases List.eq_nil_or_concat' after with rfl | ⟨after, r'', rfl⟩
      · -- the last record: the audit before it and after it
        obtain ⟨rfl, hlast⟩ := List.append_inj' heq rfl
        obtain rfl : r = r' := by simpa using hlast
        intro hr m hm
        obtain ⟨hheard, hbefore, hpaired⟩ := hclean.keeps hleaf' hm
        have hmleaf := hasLeaf_of_mem_database hleaf' hm
        obtain ⟨-, hmerged⟩ := mem_database_merge hm hr
        have hafter := haudited _ List.prefix_rfl _ hmerged
        rw [auditedRecord_iff hleaf (hasLeaf_of_mem_database hleaf hmerged), heardAt_merge hm hr,
          hmleaf.testimonyAt_recursiveMerge (hleaf r (by simp))] at hafter
        exact Paired.cleanMerge hheard hbefore (hpaired hbare') (hbare r (by simp)) hafter
      · have hsplit : records ++ [r] = (before ++ r' :: after) ++ [r''] := by simpa using heq
        exact hclean before r' after (List.append_inj' hsplit rfl).1

end Run

/-- A mirror says one and then the API says two: the mirror has said one, and the API, which is new,
    wins. -/
theorem audited_of_mirror_and_api :
    AllClean "1.2.3.4" scoreLeaf [scored "mirror_1" 1, scored "api" 2] ∧
      ∀ before, before <+: [scored "mirror_1" 1, scored "api" 2] →
        ∀ m, ("1.2.3.4", m) ∈ database before → AuditedRecord "1.2.3.4" scoreLeaf before m := by
  have hclean : AllClean "1.2.3.4" scoreLeaf [scored "mirror_1" 1, scored "api" 2] := by
    intro before r after heq hr m hm
    rcases before with - | ⟨a, - | ⟨b, before⟩⟩
    · obtain ⟨first, rest, hrecords, -⟩ := mem_database.mp hm
      simp [recordsOf] at hrecords
    · simp only [List.cons_append, List.nil_append, List.cons.injEq] at heq
      obtain ⟨rfl, rfl, -⟩ := heq
      have hself : recordsOf "1.2.3.4" [scored "mirror_1" 1] = [scored "mirror_1" 1] :=
        List.filter_eq_self.mpr (by decide)
      obtain ⟨first, rest, hrecords, rfl⟩ := mem_database.mp hm
      rw [hself, List.cons.injEq] at hrecords
      obtain ⟨rfl, rfl⟩ := hrecords
      rw [heardAt, hself]
      refine ⟨.wins ?_ ?_ ?_ ?_ ?_ ?_, fun hbrings => absurd (by decide) hbrings⟩
      · unfold Differ
        decide
      · decide
      · unfold Supplied
        decide
      · decide
      · decide
      · decide
    · have hlength := congrArg List.length heq
      simp at hlength
  exact ⟨hclean, (audited_of_allClean (by decide)).1 hclean⟩

/-- Three mirrors say one, two and three. The second is named with the value of the first, the
    second and the third disagree in no entry, and when the second comes again there is one more. -/
theorem three_mirrors :
    ∃ m ∈ mergeRecords [scored "mirror_1" 1, scored "mirror_2" 2, scored "mirror_3" 3],
      entriesOf scoreLeaf.path m.conflicts =
          [[("mirror_1", .scalar (.int 1)), ("mirror_2", .scalar (.int 2))],
            [("mirror_2", .scalar (.int 1)), ("mirror_3", .scalar (.int 3))]] ∧
        ¬ Supplied (heardAt "1.2.3.4" scoreLeaf
            [scored "mirror_1" 1, scored "mirror_2" 2, scored "mirror_3" 3])
          "mirror_2" (.scalar (.int 1)) ∧
        (entriesOf scoreLeaf.path (recursiveMerge m (scored "mirror_2" 2)).conflicts).length = 3 ∧
        ¬ AuditedRecord "1.2.3.4" scoreLeaf
          [scored "mirror_1" 1, scored "mirror_2" 2, scored "mirror_3" 3] m := by
  refine ⟨recursiveMerge (recursiveMerge (scored "mirror_1" 1) (scored "mirror_2" 2))
    (scored "mirror_3" 3), ?_, by decide, ?_, by decide, ?_⟩
  · rw [mergeRecords, List.mem_map]
    exact ⟨("1.2.3.4", _), mem_database.mpr ⟨scored "mirror_1" 1,
      [scored "mirror_2" 2, scored "mirror_3" 3],
      List.filter_eq_self.mpr (by decide), rfl⟩, rfl⟩
  · unfold Supplied
    decide
  · intro h
    have hsettled := h.settled (scored "mirror_2" 2)
      (List.mem_filter.mpr ⟨by simp, by decide⟩)
    revert hsettled
    decide

end SoftEther.Merger
