import SoftEther.AutoMode.Candidate
import SoftEther.Lib.Insertion

namespace SoftEther.AutoMode

open Lib
open AutoModeCandidate (activeRttMs)

/-!
# The order of an automatic connection (`sortedForAutoConnect`)

The list is sorted by quality and then rearranged in place, one run of equal quality after the
other: first by measured round-trip time, then by history. Indices are those of the source.

* `applyRttTieBreak`, `applyHistoryTieBreak` — the two passes over the window of a run;
* `qualityOrder` — the list before known-good servers are promoted and unhealthy ones demoted;
* `QualityRules` — quality alone ranks, and the passes only arrange the candidates of a run;
* `qualityRules_iff` — this holds exactly when no measured candidate can move past the start of
  its own run.
-/

/-! ### The passes -/

/-- The inner `while` of `applyRttTieBreak`; the count stands for `j + 1`. -/
def shiftRight (rtt : ℤ) : ℕ → List AutoModeCandidate → List AutoModeCandidate × ℕ
  | 0, ordered => (ordered, 0)
  | j + 1, ordered =>
    match ordered[j]? with
    | none => (ordered, j + 1)
    | some candidate =>
      match candidate.activeRttMs with
      | none => (ordered, j + 1)
      | some previous =>
        if previous ≤ rtt then (ordered, j + 1)
        else shiftRight rtt j (ordered.set (j + 1) candidate)

/-- The body of the `for` of `applyRttTieBreak`. -/
def rttStep (ordered : List AutoModeCandidate) (i : ℕ) : List AutoModeCandidate :=
  match ordered[i]? with
  | none => ordered
  | some current =>
    match current.activeRttMs with
    | none => ordered
    | some rtt => (shiftRight rtt i ordered).1.set (shiftRight rtt i ordered).2 current

/-- `applyRttTieBreak`, an insertion sort of the run by its measured times. -/
def applyRttTieBreak (ordered : List AutoModeCandidate) (start stop : ℕ) :
    List AutoModeCandidate :=
  (List.range' (start + 1) (stop - (start + 1))).foldl rttStep ordered

/-- The part of a list between two indices, `subList`. -/
def slice (xs : List AutoModeCandidate) (start stop : ℕ) : List AutoModeCandidate :=
  (xs.drop start).take (stop - start)

/-- `applyHistoryTieBreak`. Without a history, or with one candidate, nothing moves. -/
def applyHistoryTieBreak (history : History) (network : NetworkType)
    (ordered : List AutoModeCandidate) (start stop : ℕ) : List AutoModeCandidate :=
  if history.isEmpty || stop - start < 2 then ordered
  else
    ordered.take start ++ sortedWith (historyComparator history network) (slice ordered start stop)
      ++ ordered.drop stop

/-- The end of the run that starts at `runStart`. -/
def runEndOf (ordered : List AutoModeCandidate) (runStart : ℕ) : ℕ :=
  match ordered[runStart]? with
  | none => runStart
  | some first =>
    runStart + 1 +
      ((ordered.drop (runStart + 1)).takeWhile fun c => byQuality first c == .eq).length

/-- A turn of the outer loop: the list it finds and the window it works on. -/
structure Turn where
  ordered : List AutoModeCandidate
  runStart : ℕ
  runEnd : ℕ
  deriving DecidableEq, Repr

/-- The list once the run is sorted by its times. -/
def Turn.afterRtt (t : Turn) : List AutoModeCandidate :=
  applyRttTieBreak t.ordered t.runStart t.runEnd

section Loop

variable (history : History) (network : NetworkType)

/-- The list at the end of the turn. -/
def Turn.afterHistory (t : Turn) : List AutoModeCandidate :=
  applyHistoryTieBreak history network t.afterRtt t.runStart t.runEnd

/-- The outer loop. A turn takes at least one candidate, so `fuel` is the length of the list. -/
def tieBreaks : ℕ → List AutoModeCandidate → ℕ → List AutoModeCandidate
  | 0, ordered, _ => ordered
  | fuel + 1, ordered, runStart =>
    if runStart < ordered.length then
      let turn : Turn := ⟨ordered, runStart, runEndOf ordered runStart⟩
      tieBreaks fuel (turn.afterHistory history network) turn.runEnd
    else ordered

/-- The turns of the outer loop. -/
def turns : ℕ → List AutoModeCandidate → ℕ → List Turn
  | 0, _, _ => []
  | fuel + 1, ordered, runStart =>
    if runStart < ordered.length then
      let turn : Turn := ⟨ordered, runStart, runEndOf ordered runStart⟩
      turn :: turns fuel (turn.afterHistory history network) turn.runEnd
    else []

/-- `sortedForAutoConnect` up to `promoteKnownGood`. -/
def qualityOrder (candidates : List AutoModeCandidate) : List AutoModeCandidate :=
  tieBreaks history network candidates.length (sortedWith byQuality candidates) 0

/-- The turns that `qualityOrder` takes. -/
def qualityTurns (candidates : List AutoModeCandidate) : List Turn :=
  turns history network candidates.length (sortedWith byQuality candidates) 0

/-! ### The rules -/

/-- A pass over a window permutes candidates of equal quality and touches no others. -/
structure WithinRun (before after : List AutoModeCandidate) (start stop : ℕ) : Prop where
  level : ∀ a ∈ slice before start stop, ∀ b ∈ slice before start stop, byQuality a b = .eq
  inside : (slice after start stop).Perm (slice before start stop)
  outside : ∀ i, i < start ∨ stop ≤ i → after[i]? = before[i]?

/-- The pass by round-trip time, moreover, keeps the unmeasured candidates in their places and
sorts each stretch of measured ones. -/
structure RttRules (turn : Turn) : Prop where
  within : WithinRun turn.ordered turn.afterRtt turn.runStart turn.runEnd
  unmeasured : ∀ (i : ℕ) (c : AutoModeCandidate), turn.ordered[i]? = some c →
    c.activeRttMs = none →
    turn.afterRtt[i]? = some c
  stretches : ∀ before stretch after,
    slice turn.ordered turn.runStart turn.runEnd = before ++ stretch ++ after →
    Stretch activeRttMs before stretch after →
    let arranged := ((slice turn.afterRtt turn.runStart turn.runEnd).drop before.length).take
      stretch.length
    arranged.Perm stretch ∧ Ascending activeRttMs arranged

/-- **Quality is the sole ranking authority.** -/
structure QualityRules (candidates : List AutoModeCandidate) : Prop where
  perm : (qualityOrder history network candidates).Perm candidates
  sorted : (qualityOrder history network candidates).Pairwise fun a b =>
    (byQuality a b).isLE = true
  rtt : ∀ turn ∈ qualityTurns history network candidates, RttRules turn
  history : ∀ turn ∈ qualityTurns history network candidates,
    WithinRun turn.afterRtt (turn.afterHistory history network) turn.runStart turn.runEnd

/-! ### One run on its own -/

/-- The tie-break by history, on a list that is one run. -/
def byHistory (run : List AutoModeCandidate) : List AutoModeCandidate :=
  if history.isEmpty || run.length < 2 then run
  else sortedWith (historyComparator history network) run

/-- Both tie-breaks of a run that nothing enters or leaves. -/
def settled (run : List AutoModeCandidate) : List AutoModeCandidate :=
  byHistory history network (insertionPass activeRttMs run)

end Loop

/-- No candidate of `run` moves past `last`: in the measured stretch that `run` starts with, who
is faster than the first one is not faster than `last` as well. -/
def Holds (last : Option AutoModeCandidate) (run : List AutoModeCandidate) : Prop :=
  ∀ p ∈ last, ∀ bound ∈ p.activeRttMs, ∀ first ∈ run.head?, ∀ own ∈ first.activeRttMs,
    ∀ c ∈ run.takeWhile fun c => c.activeRttMs.isSome, ∀ rtt ∈ c.activeRttMs,
      rtt < own → bound ≤ rtt

/-- The candidate that its tie-breaks put last in `run` holds the next run back. -/
def HoldsBack (history : History) (network : NetworkType)
    (run next : List AutoModeCandidate) : Prop :=
  Holds (settled history network run).getLast? next

/-! ### The pass by round-trip time -/

section Rtt

variable {acc pre post xs run : List AutoModeCandidate} {c : AutoModeCandidate} {rtt : ℤ}

/-- The inner loop, on a list whose first part is `acc`. -/
theorem shiftRight_spec (rtt : ℤ) (acc post : List AutoModeCandidate) (x c : AutoModeCandidate) :
    (shiftRight rtt acc.length (acc ++ x :: post)).1.set
        (shiftRight rtt acc.length (acc ++ x :: post)).2 c =
      acc.rdropWhile (passes activeRttMs rtt) ++
        c :: acc.rtakeWhile (passes activeRttMs rtt) ++ post := by
  induction acc using List.reverseRecOn generalizing x post with
  | nil => simp [shiftRight]
  | append_singleton acc p ih =>
    have hlen : (acc ++ [p]).length = acc.length + 1 := by simp
    have hread : (acc ++ [p] ++ x :: post)[acc.length]? = some p := by simp
    -- where `p` stops it, the candidate is written right after `p`
    have hstop : passes activeRttMs rtt p = false →
        (acc ++ [p] ++ x :: post).set (acc.length + 1) c =
          (acc ++ [p]).rdropWhile (passes activeRttMs rtt) ++
            c :: (acc ++ [p]).rtakeWhile (passes activeRttMs rtt) ++ post := by
      intro hp
      rw [List.rdropWhile_concat_neg _ _ _ (by simp [hp]),
        List.rtakeWhile_concat_neg _ _ _ (by simp [hp]), ← hlen]
      simp
    rw [hlen]
    cases hp : p.activeRttMs with
    | none =>
      simp only [shiftRight, hread, hp]
      exact hstop (by simp [passes, hp])
    | some previous =>
      simp only [shiftRight, hread, hp]
      split_ifs with hle
      · exact hstop (by simp [passes, hp, hle])
      · have hpass : passes activeRttMs rtt p = true := by
          simpa [passes, hp] using hle
        have hset : (acc ++ [p] ++ x :: post).set (acc.length + 1) p =
            acc ++ p :: (p :: post) := by
          rw [← hlen]
          simp
        rw [hset, ih, List.rdropWhile_concat_pos _ _ _ hpass,
          List.rtakeWhile_concat_pos _ _ _ hpass]
        simp

theorem rttStep_append (acc post : List AutoModeCandidate) (c : AutoModeCandidate) :
    rttStep (acc ++ c :: post) acc.length =
      settle activeRttMs acc c ++ post := by
  have hread : (acc ++ c :: post)[acc.length]? = some c := by simp
  rw [rttStep, hread]
  cases hc : c.activeRttMs with
  | none => simp [settle_of_none hc, hc]
  | some rtt =>
    simp only [hc]
    rw [settle_of_some hc, shiftRight_spec]

theorem foldl_rttStep (acc xs post : List AutoModeCandidate) :
    (List.range' acc.length xs.length).foldl rttStep (acc ++ xs ++ post) =
      xs.foldl (settle activeRttMs) acc ++ post := by
  induction xs generalizing acc with
  | nil => simp
  | cons c xs ih =>
    have hlen : (settle activeRttMs acc c).length = acc.length + 1 := by
      rw [(settle_perm acc c).length_eq]
      simp
    have hstep : rttStep (acc ++ c :: xs ++ post) acc.length =
        settle activeRttMs acc c ++ xs ++ post := by
      rw [List.append_assoc, List.cons_append, rttStep_append, List.append_assoc]
    rw [List.length_cons, List.range'_succ, List.foldl_cons, hstep, ← hlen, ih]
    rfl

/-- **The pass as the source runs it.** The rows that stand before the window take part: the
inner loop stops at the start of the list, not at the start of the run. -/
theorem applyRttTieBreak_append (pre run post : List AutoModeCandidate) :
    applyRttTieBreak (pre ++ run ++ post) pre.length (pre.length + run.length) =
      run.tail.foldl (settle activeRttMs) (pre ++ run.head?.toList) ++ post := by
  cases run with
  | nil => simp [applyRttTieBreak]
  | cons first run =>
    have hfold := foldl_rttStep (pre ++ [first]) run post
    have hstop : pre.length + (first :: run).length - (pre.length + 1) = run.length := by
      simp only [List.length_cons]
      omega
    rw [applyRttTieBreak, hstop]
    simpa using hfold

/-- A run that is held back is arranged on its own. -/
theorem applyRttTieBreak_of_holds (h : Holds pre.getLast? run) (post : List AutoModeCandidate) :
    applyRttTieBreak (pre ++ run ++ post) pre.length (pre.length + run.length) =
      pre ++ insertionPass activeRttMs run ++ post := by
  rw [applyRttTieBreak_append]
  cases run with
  | nil => simp [insertionPass]
  | cons first run =>
    have hfold : run.foldl (settle activeRttMs) (pre ++ [first]) =
        pre ++ run.foldl (settle activeRttMs) [first] := by
      apply foldl_settle_append (List.mem_singleton_self first)
      intro l c r hsplit hkeys rtt hrtt hpass p hp
      obtain ⟨own, hown, hlt⟩ := passes_eq_true.mp hpass
      have hmem : c ∈ (first :: run).takeWhile fun c => c.activeRttMs.isSome := by
        rw [hsplit, ← List.cons_append, List.takeWhile_append_of_pos (by simpa using hkeys)]
        simp [hrtt]
      cases hbound : p.activeRttMs with
      | none => simp [passes, hbound]
      | some bound =>
        have hle := h p hp bound hbound first rfl own hown c hmem rtt hrtt hlt
        simpa [passes, hbound] using hle
    have hfirst : settle activeRttMs [] first = [first] := by
      simpa using List.perm_singleton.mp (settle_perm [] first)
    simp only [List.tail_cons, List.head?_cons, Option.toList_some]
    rw [hfold, insertionPass, List.foldl_cons, hfirst]

/-- The first of the candidates that satisfy a predicate. -/
theorem exists_first {P : AutoModeCandidate → Prop} (h : ∃ c ∈ xs, P c) :
    ∃ l c r, xs = l ++ c :: r ∧ P c ∧ ∀ a ∈ l, ¬ P a := by
  classical
  obtain ⟨c, hc, hP⟩ := h
  have hsome : (xs.find? fun a => decide (P a)).isSome := by
    rw [List.find?_isSome]
    exact ⟨c, hc, by simpa using hP⟩
  obtain ⟨a, ha⟩ := Option.isSome_iff_exists.mp hsome
  obtain ⟨hPa, l, r, rfl, hl⟩ := List.find?_eq_some_iff_append.mp ha
  exact ⟨l, a, r, rfl, by simpa using hPa, fun b hb => by simpa using hl b hb⟩

/-- The first candidate of a run that is faster than both the first one of the run and the last
one before. -/
structure Overtaker (last first : AutoModeCandidate) (own bound : ℤ) where
  before : List AutoModeCandidate
  candidate : AutoModeCandidate
  after : List AutoModeCandidate
  rtt : ℤ
  firstRtt : first.activeRttMs = some own
  lastRtt : last.activeRttMs = some bound
  candidateRtt : candidate.activeRttMs = some rtt
  faster : rtt < own ∧ rtt < bound
  measured : ∀ y ∈ first :: before, y.activeRttMs.isSome
  earlier : ∀ y ∈ before, ∀ k ∈ y.activeRttMs, k < own → bound ≤ k

theorem exists_overtaker (h : ¬ Holds pre.getLast? run) :
    ∃ last ∈ pre.getLast?, ∃ first own bound, ∃ o : Overtaker last first own bound,
      run = first :: (o.before ++ o.candidate :: o.after) := by
  unfold Holds at h
  push Not at h
  obtain ⟨last, hlast, bound, hbound, first, hfirst, own, hown, c, hc, rtt, hrtt, hlt, hout⟩ := h
  obtain ⟨run, rfl⟩ : ∃ tail, run = first :: tail := by
    cases run with
    | nil => simp at hfirst
    | cons a tail => exact ⟨tail, by simpa using hfirst⟩
  have hstretch : (first :: run).takeWhile (fun c => c.activeRttMs.isSome) =
      first :: run.takeWhile (fun c => c.activeRttMs.isSome) :=
    List.takeWhile_cons_of_pos (by simpa using Option.isSome_of_mem hown)
  have hne : c ≠ first := by
    rintro rfl
    rw [Option.mem_def, hown] at hrtt
    exact lt_irrefl rtt (Option.some.inj hrtt ▸ hlt)
  have hmem : c ∈ run.takeWhile fun c => c.activeRttMs.isSome := by
    rw [hstretch] at hc
    exact (List.mem_cons.mp hc).resolve_left hne
  have hsome : ∃ c ∈ run.takeWhile (fun c => c.activeRttMs.isSome),
      ∃ rtt ∈ c.activeRttMs, rtt < own ∧ rtt < bound :=
    ⟨c, hmem, rtt, hrtt, hlt, hout⟩
  obtain ⟨l, c, r, hsplit, ⟨rtt, hrtt, hfaster⟩, hearlier⟩ := exists_first hsome
  refine ⟨last, hlast, first, own, bound, ⟨l, c,
    r ++ run.dropWhile fun c => c.activeRttMs.isSome, rtt, hown, hbound, hrtt, hfaster, ?_, ?_⟩, ?_⟩
  · intro y hy
    obtain rfl | hy := List.mem_cons.mp hy
    · exact Option.isSome_of_mem hown
    · have hstretch : y ∈ run.takeWhile fun c => c.activeRttMs.isSome := by
        rw [hsplit]
        exact List.mem_append_left _ hy
      exact List.mem_takeWhile_imp (p := fun c : AutoModeCandidate => c.activeRttMs.isSome) hstretch
  · intro y hy k hk hlt
    by_contra hnot
    exact hearlier y hy ⟨k, hk, hlt, not_le.mp hnot⟩
  · have hrun : run = l ++ c :: (r ++ run.dropWhile fun c => c.activeRttMs.isSome) := by
      rw [← List.cons_append, ← List.append_assoc, ← hsplit, List.takeWhile_append_dropWhile]
    exact congrArg (first :: ·) hrun

/-- **A run that is not held back.** One of its candidates ends among the rows before. -/
theorem exists_mem_take_of_not_holds (h : ¬ Holds pre.getLast? run)
    (post : List AutoModeCandidate) :
    ∃ c ∈ (applyRttTieBreak (pre ++ run ++ post) pre.length (pre.length + run.length)).take
      pre.length, c ∈ run := by
  obtain ⟨last, hlast, first, own, bound, o, rfl⟩ := exists_overtaker h
  -- the rows before it in the run stay in the run, and it moves past all of them
  have hbefore : o.before.foldl (settle activeRttMs) (pre ++ [first]) =
      pre ++ o.before.foldl (settle activeRttMs) [first] := by
    apply foldl_settle_append (List.mem_singleton_self first)
    intro l y r hsplit _ k hk hpass p hp
    obtain ⟨own', hown, hlt⟩ := passes_eq_true.mp hpass
    rw [o.firstRtt] at hown
    obtain rfl := Option.some.inj hown
    rw [Option.mem_def, hlast] at hp
    obtain rfl := Option.some.inj hp
    have hle := o.earlier y (by simp [hsplit]) k hk hlt
    simpa [passes, o.lastRtt] using hle
  have hall : ∀ y ∈ o.before.foldl (settle activeRttMs) [first],
      passes activeRttMs o.rtt y = true := by
    intro y hy
    obtain rfl | hmem := List.mem_cons.mp ((foldl_settle_perm [first] o.before).mem_iff.mp hy)
    · exact passes_eq_true.mpr ⟨own, o.firstRtt, o.faster.1⟩
    · obtain ⟨k, hk⟩ := Option.isSome_iff_exists.mp (o.measured y (List.mem_cons_of_mem _ hmem))
      refine passes_eq_true.mpr ⟨k, hk, ?_⟩
      by_contra hnot
      have hle : k ≤ o.rtt := not_lt.mp hnot
      have hbound := o.earlier y hmem k hk (lt_of_le_of_lt hle o.faster.1)
      exact absurd (lt_of_le_of_lt (hbound.trans hle) o.faster.2) (lt_irrefl _)
  have hescape := mem_take_settle o.candidateRtt hall hlast
    (passes_eq_true.mpr ⟨bound, o.lastRtt, o.faster.2⟩)
  rw [← hbefore] at hescape
  have hlen : pre.length ≤ (settle activeRttMs
      (o.before.foldl (settle activeRttMs) (pre ++ [first])) o.candidate).length := by
    rw [(settle_perm _ _).length_eq, hbefore]
    simp
  -- whoever moves to the front later is of the same run
  have hfront : ∃ y ∈ (o.after.foldl (settle activeRttMs) (settle activeRttMs
      (o.before.foldl (settle activeRttMs) (pre ++ [first])) o.candidate)).take pre.length,
      y ∈ first :: (o.before ++ o.candidate :: o.after) := by
    apply exists_mem_take_foldl_settle hlen
    · intro y hy
      simp [hy]
    · exact ⟨o.candidate, hescape, by simp⟩
  rw [applyRttTieBreak_append, List.tail_cons, List.foldl_append, List.foldl_cons,
    List.take_append_of_le_length]
  · exact hfront
  · rw [(foldl_settle_perm (κ := ℤ) _ _).length_eq, List.length_append]
    exact hlen.trans (Nat.le_add_right _ _)

end Rtt

/-! ### The pass by history -/

section Window

variable {history : History} {network : NetworkType}

@[simp] theorem slice_append (pre run post : List AutoModeCandidate) :
    slice (pre ++ run ++ post) pre.length (pre.length + run.length) = run := by
  simp [slice]

theorem byHistory_perm (run : List AutoModeCandidate) :
    (byHistory history network run).Perm run := by
  unfold byHistory
  split_ifs
  · exact List.Perm.refl run
  · exact sortedWith_perm _ run

variable (history network) in
theorem settled_perm (run : List AutoModeCandidate) : (settled history network run).Perm run :=
  (byHistory_perm _).trans (insertionPass_perm run)

variable (history network) in
/-- This pass stays in its window. -/
theorem applyHistoryTieBreak_append (pre run post : List AutoModeCandidate) :
    applyHistoryTieBreak history network (pre ++ run ++ post) pre.length
      (pre.length + run.length) = pre ++ byHistory history network run ++ post := by
  have hlen : pre.length + run.length - pre.length = run.length := by omega
  have hdrop : (pre ++ run ++ post).drop (pre.length + run.length) = post := by
    rw [← List.length_append, List.drop_left]
  rw [applyHistoryTieBreak, byHistory, hlen, slice_append, hdrop]
  split_ifs
  · rfl
  · rw [List.append_assoc pre run post, List.take_left]

/-- A window that is rearranged. -/
theorem WithinRun.of_perm {pre run arranged post : List AutoModeCandidate}
    (hlevel : ∀ a ∈ run, ∀ b ∈ run, byQuality a b = .eq) (hperm : arranged.Perm run) :
    WithinRun (pre ++ run ++ post) (pre ++ arranged ++ post) pre.length
      (pre.length + run.length) where
  level := by
    rw [slice_append]
    exact hlevel
  inside := by
    have hlen := hperm.length_eq
    rw [slice_append, ← hlen, slice_append]
    exact hperm
  outside i hi := by
    have hlen := hperm.length_eq
    rw [List.append_assoc, List.append_assoc]
    obtain hlt | hge := hi
    · rw [List.getElem?_append_left hlt, List.getElem?_append_left hlt]
    · rw [List.getElem?_append_right (by omega), List.getElem?_append_right (by omega),
        List.getElem?_append_right (by omega), List.getElem?_append_right (by omega), hlen]

/-- The rules of the pass by round-trip time hold of a run that is arranged on its own. -/
theorem RttRules.of_insertionPass {pre run post : List AutoModeCandidate}
    (hlevel : ∀ a ∈ run, ∀ b ∈ run, byQuality a b = .eq)
    (hrtt : applyRttTieBreak (pre ++ run ++ post) pre.length (pre.length + run.length) =
      pre ++ insertionPass activeRttMs run ++ post) :
    RttRules ⟨pre ++ run ++ post, pre.length, pre.length + run.length⟩ where
  within := by
    rw [Turn.afterRtt, hrtt]
    exact WithinRun.of_perm hlevel (insertionPass_perm run)
  unmeasured i c hi hc := by
    rw [Turn.afterRtt, hrtt]
    have hlen : (insertionPass activeRttMs run).length = run.length := length_insertionPass run
    simp only [List.append_assoc] at hi ⊢
    by_cases hpre : i < pre.length
    · rw [List.getElem?_append_left hpre] at hi ⊢
      exact hi
    · rw [List.getElem?_append_right (by omega)] at hi ⊢
      by_cases hrun : i - pre.length < run.length
      · rw [List.getElem?_append_left (by omega)] at hi ⊢
        exact getElem?_insertionPass hi hc
      · rw [List.getElem?_append_right (by omega)] at hi ⊢
        rw [hlen]
        exact hi
  stretches before stretch after hsplit hstretch := by
    have hslice : slice (applyRttTieBreak (pre ++ run ++ post) pre.length
        (pre.length + run.length)) pre.length (pre.length + run.length) =
        insertionPass activeRttMs run := by
      have hlen : (insertionPass activeRttMs run).length = run.length := length_insertionPass run
      rw [hrtt, ← hlen, slice_append]
    rw [slice_append] at hsplit
    intro arranged
    have harranged : arranged = insertionPass activeRttMs stretch := by
      show ((slice (applyRttTieBreak _ _ _) _ _).drop before.length).take stretch.length = _
      rw [hslice, hsplit, insertionPass_stretch hstretch, List.append_assoc, List.drop_left',
        List.take_left']
      · exact length_insertionPass stretch
      · exact length_insertionPass before
    rw [harranged]
    exact ⟨insertionPass_perm stretch, ascending_insertionPass hstretch.keys⟩

end Window

/-! ### The loop -/

section Loop

variable {history : History} {network : NetworkType} {pre run : List AutoModeCandidate}
  {rest : List (List AutoModeCandidate)} {fuel : ℕ}

/-- What is left of the list at the start of a turn: the runs that have not been visited. -/
structure Runs (runs : List (List AutoModeCandidate)) : Prop where
  nonempty : ∀ run ∈ runs, run ≠ []
  level : ∀ run ∈ runs, ∀ a ∈ run, ∀ b ∈ run, byQuality a b = .eq
  before : runs.Pairwise fun run next => ∀ a ∈ run, ∀ b ∈ next, byQuality a b = .lt

theorem runs_levelRuns (candidates : List AutoModeCandidate) :
    Runs (levelRuns byQuality candidates) where
  nonempty _ h := ne_nil_of_mem_levelRuns byQuality h
  level _ h _ ha _ hb := level_of_mem_levelRuns byQuality h ha hb
  before := levelRuns_pairwise byQuality candidates

theorem Runs.tail (h : Runs (run :: rest)) : Runs rest where
  nonempty r hr := h.nonempty r (List.mem_cons_of_mem run hr)
  level r hr := h.level r (List.mem_cons_of_mem run hr)
  before := (List.pairwise_cons.mp h.before).2

variable {runs : List (List AutoModeCandidate)}

theorem Runs.length_le (h : Runs runs) : runs.length ≤ runs.flatten.length := by
  induction runs with
  | nil => simp
  | cons run rest ih =>
    have hpos := List.length_pos_of_ne_nil (h.nonempty run List.mem_cons_self)
    have hrest := ih h.tail
    rw [List.length_cons, List.flatten_cons, List.length_append]
    omega

theorem flatten_settled_perm (runs : List (List AutoModeCandidate)) :
    (runs.map (settled history network)).flatten.Perm runs.flatten := by
  induction runs with
  | nil => exact List.Perm.refl _
  | cons run rest ih => exact (settled_perm history network run).append ih

/-- Settled runs in a row are in the order of quality. -/
theorem Runs.sorted_settled (h : Runs runs) :
    (runs.map (settled history network)).flatten.Pairwise fun a b =>
      (byQuality a b).isLE = true := by
  rw [List.pairwise_flatten]
  constructor
  · intro arranged harranged
    obtain ⟨run, hrun, rfl⟩ := List.mem_map.mp harranged
    refine List.Pairwise.imp_of_mem ?_ (List.pairwise_of_forall (R := fun _ _ => True) ?_)
    · intro a b ha hb _
      rw [h.level run hrun a ((settled_perm history network run).mem_iff.mp ha) b
        ((settled_perm history network run).mem_iff.mp hb)]
      rfl
    · simp
  · rw [List.pairwise_map]
    refine h.before.imp ?_
    intro run next hlt a ha b hb
    have hcmp := hlt a ((settled_perm history network run).mem_iff.mp ha) b
      ((settled_perm history network next).mem_iff.mp hb)
    rw [hcmp]
    rfl

/-- The scan finds the end of the run. -/
theorem runEndOf_append (h : Runs (run :: rest)) (pre : List AutoModeCandidate) :
    runEndOf (pre ++ run ++ rest.flatten) pre.length = pre.length + run.length := by
  obtain ⟨first, run, rfl⟩ := List.exists_cons_of_ne_nil (h.nonempty run List.mem_cons_self)
  have hread : (pre ++ (first :: run) ++ rest.flatten)[pre.length]? = some first := by simp
  have hdrop : (pre ++ (first :: run) ++ rest.flatten).drop (pre.length + 1) =
      run ++ rest.flatten := by
    rw [List.append_assoc, ← List.drop_drop, List.drop_left]
    rfl
  have hown : ∀ c ∈ run, (byQuality first c == .eq) = true := by
    intro c hc
    have heq := h.level _ List.mem_cons_self first List.mem_cons_self c
      (List.mem_cons_of_mem first hc)
    rw [heq]
    rfl
  have hnext : rest.flatten.takeWhile (fun c => byQuality first c == .eq) = [] := by
    rw [List.takeWhile_eq_nil_iff]
    intro hpos
    obtain ⟨r, hr, hmem⟩ := List.mem_flatten.mp (List.getElem_mem hpos)
    have hlt := (List.pairwise_cons.mp h.before).1 r hr first List.mem_cons_self _ hmem
    simp [hlt]
  rw [runEndOf, hread]
  simp only
  rw [hdrop, List.takeWhile_append_of_pos hown, hnext, List.append_nil, List.length_cons]
  omega

/-- A run has a row, so the turn is not behind the end. -/
theorem lt_length_append (h : Runs (run :: rest)) (pre : List AutoModeCandidate) :
    pre.length < (pre ++ run ++ rest.flatten).length := by
  have hpos := List.length_pos_of_ne_nil (h.nonempty run List.mem_cons_self)
  simp only [List.length_append]
  omega

/-- A turn that finds the run `run` after the rows `pre`. -/
theorem tieBreaks_succ (h : Runs (run :: rest)) (pre : List AutoModeCandidate) (fuel : ℕ) :
    tieBreaks history network (fuel + 1) (pre ++ run ++ rest.flatten) pre.length =
      tieBreaks history network fuel
        (Turn.afterHistory history network
          ⟨pre ++ run ++ rest.flatten, pre.length, pre.length + run.length⟩)
        (pre.length + run.length) := by
  rw [tieBreaks, if_pos (lt_length_append h pre)]
  simp only [runEndOf_append h pre]

theorem turns_succ (h : Runs (run :: rest)) (pre : List AutoModeCandidate) (fuel : ℕ) :
    turns history network (fuel + 1) (pre ++ run ++ rest.flatten) pre.length =
      ⟨pre ++ run ++ rest.flatten, pre.length, pre.length + run.length⟩ ::
        turns history network fuel
          (Turn.afterHistory history network
            ⟨pre ++ run ++ rest.flatten, pre.length, pre.length + run.length⟩)
          (pre.length + run.length) := by
  rw [turns, if_pos (lt_length_append h pre)]
  simp only [runEndOf_append h pre]

theorem tieBreaks_end (ordered : List AutoModeCandidate) (fuel : ℕ) :
    tieBreaks history network fuel ordered ordered.length = ordered := by
  cases fuel <;> simp [tieBreaks]

theorem turns_end (ordered : List AutoModeCandidate) (fuel : ℕ) :
    turns history network fuel ordered ordered.length = [] := by
  cases fuel <;> simp [turns]

/-- A turn over a run that is held back. -/
theorem afterHistory_of_holds (h : Holds pre.getLast? run) (post : List AutoModeCandidate) :
    Turn.afterHistory history network ⟨pre ++ run ++ post, pre.length, pre.length + run.length⟩ =
      pre ++ settled history network run ++ post := by
  have hlen : (insertionPass activeRttMs run).length = run.length := length_insertionPass run
  rw [Turn.afterHistory, Turn.afterRtt]
  show applyHistoryTieBreak history network (applyRttTieBreak _ _ _) _ _ = _
  rw [applyRttTieBreak_of_holds h]
  show applyHistoryTieBreak history network _ pre.length (pre.length + run.length) = _
  rw [← hlen, applyHistoryTieBreak_append]
  rfl

/-- Every run is held back by what stands before it once the runs before it are settled. -/
def AllHeld (history : History) (network : NetworkType) :
    Option AutoModeCandidate → List (List AutoModeCandidate) → Prop
  | _, [] => True
  | last, run :: rest =>
    Holds last run ∧ AllHeld history network (settled history network run).getLast? rest

theorem allHeld_iff_isChain {last : Option AutoModeCandidate} {run : List AutoModeCandidate}
    {rest : List (List AutoModeCandidate)} :
    AllHeld history network last (run :: rest) ↔
      Holds last run ∧ (run :: rest).IsChain (HoldsBack history network) := by
  induction rest generalizing last run with
  | nil => simp [AllHeld]
  | cons next rest ih =>
    rw [AllHeld, ih, List.isChain_cons_cons]
    rfl

theorem allHeld_none_iff :
    AllHeld history network none runs ↔ runs.IsChain (HoldsBack history network) := by
  cases runs with
  | nil => simp [AllHeld]
  | cons run rest =>
    rw [allHeld_iff_isChain, and_iff_right]
    intro p hp
    simp at hp

theorem getLast?_append_settled (hne : run ≠ []) (pre : List AutoModeCandidate) :
    (pre ++ settled history network run).getLast? = (settled history network run).getLast? := by
  have hpos : settled history network run ≠ [] := by
    intro hnil
    have hperm := settled_perm history network run
    rw [hnil] at hperm
    exact hne hperm.nil_eq.symm
  rw [List.getLast?_append]
  cases hlast : (settled history network run).getLast? with
  | none => exact absurd (List.getLast?_eq_none_iff.mp hlast) hpos
  | some c => rfl

/-- **Held back, every run is settled on its own.** -/
theorem tieBreaks_of_allHeld (hruns : Runs runs) (hheld : AllHeld history network pre.getLast? runs)
    (hfuel : runs.length ≤ fuel) : tieBreaks history network fuel (pre ++ runs.flatten) pre.length =
      pre ++ (runs.map (settled history network)).flatten ∧
    ∀ turn ∈ turns history network fuel (pre ++ runs.flatten) pre.length, RttRules turn ∧
      WithinRun turn.afterRtt (turn.afterHistory history network) turn.runStart turn.runEnd := by
  induction runs generalizing pre fuel with
  | nil =>
    rw [List.flatten_nil, List.append_nil, tieBreaks_end, turns_end]
    simp
  | cons run rest ih =>
    obtain ⟨hheld, hrest⟩ := hheld
    obtain ⟨fuel, rfl⟩ : ∃ n, fuel = n + 1 := by
      cases fuel with
      | zero => simp at hfuel
      | succ n => exact ⟨n, rfl⟩
    have hlen := (settled_perm history network run).length_eq
    have hlevel := hruns.level run List.mem_cons_self
    rw [← getLast?_append_settled (hruns.nonempty run List.mem_cons_self) pre] at hrest
    obtain ⟨hfinal, hturns⟩ := ih hruns.tail hrest (by simpa using hfuel)
    rw [List.length_append, hlen] at hfinal hturns
    rw [List.flatten_cons, ← List.append_assoc, tieBreaks_succ hruns, turns_succ hruns,
      afterHistory_of_holds hheld, hfinal]
    refine ⟨by simp, ?_⟩
    intro turn hturn
    obtain rfl | hturn := List.mem_cons.mp hturn
    · refine ⟨RttRules.of_insertionPass hlevel (applyRttTieBreak_of_holds hheld _), ?_⟩
      have hrtt : Turn.afterRtt ⟨pre ++ run ++ rest.flatten, pre.length, pre.length + run.length⟩ =
          pre ++ insertionPass activeRttMs run ++ rest.flatten := applyRttTieBreak_of_holds hheld _
      have hkeep : (insertionPass activeRttMs run).length = run.length := length_insertionPass run
      rw [hrtt, afterHistory_of_holds hheld, ← hkeep]
      apply WithinRun.of_perm _ (byHistory_perm _)
      intro a ha b hb
      exact hlevel a ((insertionPass_perm run).mem_iff.mp ha) b
        ((insertionPass_perm run).mem_iff.mp hb)
    · exact hturns turn hturn

/-! ### A candidate that escapes -/

variable (history network) in
/-- What a turn makes of the list: the rows before its window are those that the pass by
round-trip time leaves there. -/
theorem exists_afterHistory (pre run post : List AutoModeCandidate) :
    ∃ front window, front.length = pre.length ∧ window.length = run.length ∧
      front = (run.tail.foldl (settle activeRttMs) (pre ++ run.head?.toList)).take pre.length ∧
      Turn.afterHistory history network
        ⟨pre ++ run ++ post, pre.length, pre.length + run.length⟩ = front ++ window ++ post := by
  let arranged := run.tail.foldl (settle activeRttMs) (pre ++ run.head?.toList)
  have hlen : arranged.length = pre.length + run.length := by
    rw [(foldl_settle_perm (κ := ℤ) _ _).length_eq]
    cases run <;> simp
  have hfront : (arranged.take pre.length).length = pre.length := by
    rw [List.length_take, hlen]
    omega
  have hwindow : (arranged.drop pre.length).length = run.length := by
    rw [List.length_drop, hlen]
    omega
  refine ⟨arranged.take pre.length, byHistory history network (arranged.drop pre.length),
    hfront, ?_, rfl, ?_⟩
  · rw [(byHistory_perm _).length_eq, hwindow]
  · have hhistory := applyHistoryTieBreak_append history network
      (arranged.take pre.length) (arranged.drop pre.length) post
    rw [hfront, hwindow, List.take_append_drop] at hhistory
    rw [← hhistory, Turn.afterHistory, Turn.afterRtt]
    show applyHistoryTieBreak history network (applyRttTieBreak _ _ _) _ _ = _
    rw [applyRttTieBreak_append]

/-- **Who stands too early stays too early.** Among the first `n` rows one of those that are
still to come, or of their kind, remains. -/
theorem exists_mem_take_tieBreaks (hruns : Runs runs) {P : AutoModeCandidate → Prop}
    (hP : ∀ y ∈ runs.flatten, P y) {n : ℕ} (hn : n ≤ pre.length) (h : ∃ y ∈ pre.take n, P y) :
    ∃ y ∈ (tieBreaks history network fuel (pre ++ runs.flatten) pre.length).take n, P y := by
  induction runs generalizing pre fuel with
  | nil =>
    rw [List.flatten_nil, List.append_nil, tieBreaks_end]
    exact h
  | cons run rest ih =>
    cases fuel with
    | zero =>
      rw [tieBreaks, List.take_append_of_le_length hn]
      exact h
    | succ fuel =>
      have hpass : ∃ y ∈ (run.tail.foldl (settle activeRttMs) (pre ++ run.head?.toList)).take n,
          P y := by
        apply exists_mem_take_foldl_settle
        · rw [List.length_append]
          omega
        · intro y hy
          exact hP y (List.mem_flatten.mpr ⟨run, List.mem_cons_self, List.mem_of_mem_tail hy⟩)
        · rw [List.take_append_of_le_length hn]
          exact h
      obtain ⟨front, window, hfront, hwindow, htake, hafter⟩ :=
        exists_afterHistory history network pre run rest.flatten
      rw [List.flatten_cons, ← List.append_assoc, tieBreaks_succ hruns, hafter, ← hfront,
        ← hwindow, ← List.length_append]
      apply ih hruns.tail
      · intro y hy
        rw [List.flatten_cons] at hP
        exact hP y (List.mem_append_right run hy)
      · rw [List.length_append]
        omega
      · rw [List.take_append_of_le_length (by omega), htake, List.take_take, min_eq_left hn]
        exact hpass

/-- **Not held back, a candidate of a later run ends among the earlier ones.** -/
theorem exists_mem_take_of_not_allHeld (hruns : Runs runs) (hfuel : runs.length ≤ fuel)
    (hnot : ¬ AllHeld history network pre.getLast? runs) : ∃ front back, runs = front ++ back ∧
      ∃ y ∈ (tieBreaks history network fuel (pre ++ runs.flatten) pre.length).take
        (pre.length + front.flatten.length), y ∈ back.flatten := by
  induction runs generalizing pre fuel with
  | nil => exact absurd trivial hnot
  | cons run rest ih =>
    obtain ⟨fuel, rfl⟩ : ∃ n, fuel = n + 1 := by
      cases fuel with
      | zero => simp at hfuel
      | succ n => exact ⟨n, rfl⟩
    have hlen := (settled_perm history network run).length_eq
    by_cases hheld : Holds pre.getLast? run
    · have hrest : ¬ AllHeld history network
          (pre ++ settled history network run).getLast? rest := by
        rw [getLast?_append_settled (hruns.nonempty run List.mem_cons_self)]
        exact fun h => hnot ⟨hheld, h⟩
      obtain ⟨front, back, hsplit, y, hy, hback⟩ := ih hruns.tail (by simpa using hfuel) hrest
      refine ⟨run :: front, back, by rw [hsplit]; rfl, y, ?_, hback⟩
      have hfront : pre.length + (run :: front).flatten.length =
          (pre ++ settled history network run).length + front.flatten.length := by
        simp only [List.flatten_cons, List.length_append, hlen]
        omega
      rw [List.length_append, hlen] at hy hfront
      rw [hfront, List.flatten_cons, ← List.append_assoc, tieBreaks_succ hruns,
        afterHistory_of_holds hheld]
      exact hy
    · refine ⟨[], run :: rest, rfl, ?_⟩
      obtain ⟨c, hc, hrun⟩ := exists_mem_take_of_not_holds hheld rest.flatten
      obtain ⟨front, window, hfront, hwindow, htake, hafter⟩ :=
        exists_afterHistory history network pre run rest.flatten
      rw [List.flatten_cons, ← List.append_assoc, tieBreaks_succ hruns, hafter]
      rw [applyRttTieBreak_append, List.take_append_of_le_length, ← htake] at hc
      · have hstart : pre.length + run.length = (front ++ window).length := by
          rw [List.length_append, hfront, hwindow]
        rw [hstart]
        apply exists_mem_take_tieBreaks hruns.tail
        · intro y hy
          exact List.mem_append_right run hy
        · simp [hfront]
        · refine ⟨c, ?_, List.mem_append_left _ hrun⟩
          simpa [← hfront] using hc
      · rw [(foldl_settle_perm (κ := ℤ) _ _).length_eq, List.append_assoc, List.length_append]
        omega

end Loop

/-! ### Quality as the sole ranking authority -/

section Rules

variable (history : History) (network : NetworkType) (candidates : List AutoModeCandidate)

/-- **Quality rules, exactly when each run of equal quality is held back by the one before.**
A run is held back when the candidate that the tie-breaks of the run before put last has no
round-trip time, or is as fast as everyone in the leading measured stretch who is faster than the
first of the run. -/
theorem qualityRules_iff :
    QualityRules history network candidates ↔
      (levelRuns byQuality candidates).IsChain (HoldsBack history network) := by
  have hruns := runs_levelRuns candidates
  have hsorted := flatten_levelRuns byQuality candidates
  have hfuel : (levelRuns byQuality candidates).length ≤ candidates.length := by
    rw [← (sortedWith_perm byQuality candidates).length_eq, ← hsorted]
    exact hruns.length_le
  rw [← allHeld_none_iff]
  constructor
  · intro hrules
    by_contra hnot
    have hempty : none = ([] : List AutoModeCandidate).getLast? := rfl
    rw [hempty] at hnot
    obtain ⟨front, back, hsplit, hescape⟩ := exists_mem_take_of_not_allHeld hruns hfuel hnot
    have hcross := hruns.before
    rw [hsplit, List.pairwise_append] at hcross
    have hperm :
        (qualityOrder history network candidates).Perm (front.flatten ++ back.flatten) := by
      rw [← List.flatten_append, ← hsplit, hsorted]
      exact hrules.perm.trans (sortedWith_perm byQuality candidates).symm
    refine not_pairwise_of_mem_take byQuality hperm ?_ ?_ hrules.sorted
    · intro a ha b hb
      obtain ⟨run, hrun, ha⟩ := List.mem_flatten.mp ha
      obtain ⟨next, hnext, hb⟩ := List.mem_flatten.mp hb
      exact hcross.2.2 run hrun next hnext a ha b hb
    · simpa [hsorted, qualityOrder] using hescape
  · intro hheld
    have hempty : none = ([] : List AutoModeCandidate).getLast? := rfl
    rw [hempty] at hheld
    obtain ⟨hfinal, hturns⟩ := tieBreaks_of_allHeld hruns hheld hfuel
    rw [List.nil_append, hsorted] at hfinal hturns
    have horder : qualityOrder history network candidates =
        ((levelRuns byQuality candidates).map (settled history network)).flatten := hfinal
    exact {
      perm := by
        rw [horder]
        refine (flatten_settled_perm _).trans ?_
        rw [hsorted]
        exact sortedWith_perm byQuality candidates
      sorted := by
        rw [horder]
        exact hruns.sorted_settled
      rtt := fun turn hturn => (hturns turn hturn).1
      history := fun turn hturn => (hturns turn hturn).2 }

end Rules

/-- Two servers of equal quality and a better one, with their round-trip times. -/
def escapingCandidates : List AutoModeCandidate :=
  [{ hostname := none, ip := none, speed := 200, ping := 1, sessions := 0, score := 0,
     activeRttMs := some 30 },
   { hostname := none, ip := none, speed := 100, ping := 1, sessions := 0, score := 0,
     activeRttMs := some 50 },
   { hostname := none, ip := none, speed := 100, ping := 1, sessions := 0, score := 0,
     activeRttMs := some 10 }]

/-- The fastest to answer is put before the server of better quality. -/
theorem escapingCandidates_not_qualityRules : ¬ QualityRules [] .WIFI escapingCandidates := by
  intro h
  have hsame : sortedWith byQuality escapingCandidates = escapingCandidates := by
    apply List.mergeSort_of_pairwise
    decide
  have hsorted := h.sorted
  rw [qualityOrder, hsame] at hsorted
  revert hsorted
  decide

end SoftEther.AutoMode
