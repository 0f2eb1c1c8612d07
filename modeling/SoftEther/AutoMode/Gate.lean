import SoftEther.AutoMode.Capability
import SoftEther.Lib.KeyedRows

namespace SoftEther.AutoMode

open Lib

/-!
# The reachability gate (`ServerReachabilityTester.filterReachableCandidates`)

A run probes the endpoints of its ranked servers and goes on with those that the gate lets
through. The probes run at once and end in any order.

* `awaitAll` — the results of concurrent blocks, in the order of the blocks;
* `filterReachableCandidates` — the verdicts of a candidate, put together;
* `gated` — the servers that the run goes on with;
* `GateFair` — the gate ranks nobody and removes nobody without evidence;
* `gateFair_iff` — this needs a usable protocol for each server, and servers that are told apart.
-/

/-! ### Concurrent blocks -/

section Await

variable {ρ : Type*}

/-- The block `i` ends: its result goes to its slot, an exception ends the scope. -/
def complete (blocks : List (Option ρ)) (slots : List (Option ρ)) (i : ℕ) :
    Option (List (Option ρ)) :=
  match blocks[i]? with
  | some (some result) => some (slots.set i (some result))
  | some none => none
  | none => some slots

/-- `awaitAll` in a `coroutineScope`: the blocks end in the order `completions`; a block that
    throws is `none`. -/
def awaitAll (blocks : List (Option ρ)) (completions : List ℕ) : Option (List ρ) :=
  (completions.foldlM (complete blocks) (blocks.map fun _ => none)).bind fun slots =>
    slots.mapM id

variable {blocks : List (Option ρ)} {completions : List ℕ}

/-- What the slots hold after some blocks have ended, none of which throws. -/
theorem foldlM_complete {slots : List (Option ρ)} (hlen : slots.length = blocks.length)
    (hok : none ∉ blocks) : ∃ after, completions.foldlM (complete blocks) slots = some after ∧
      after.length = blocks.length ∧
      ∀ i < blocks.length, after[i]? = if i ∈ completions then blocks[i]? else slots[i]? := by
  induction completions generalizing slots with
  | nil => exact ⟨slots, rfl, hlen, by simp⟩
  | cons i completions ih =>
    cases hi : blocks[i]? with
    | none =>
      obtain ⟨after, hafter, hsame, hread⟩ := ih hlen
      refine ⟨after, by simpa [complete, hi] using hafter, hsame, ?_⟩
      intro j hj
      have hne : j ≠ i := by
        rintro rfl
        simp [hj] at hi
      simp [hread j hj, hne]
    | some b =>
      cases b with
      | none => exact absurd (List.mem_of_getElem? hi) hok
      | some result =>
        have hset : (slots.set i (some result)).length = blocks.length := by simpa using hlen
        obtain ⟨after, hafter, hsame, hread⟩ := ih hset
        refine ⟨after, by simpa [complete, hi] using hafter, hsame, ?_⟩
        intro j hj
        rw [hread j hj]
        by_cases hji : j = i
        · subst hji
          rw [List.getElem?_set_self (by omega), hi]
          simp
        · simp [hji, List.getElem?_set_ne (Ne.symm hji)]

/-- A block that throws ends the scope, whenever it does. -/
theorem foldlM_complete_none {slots : List (Option ρ)} {i : ℕ} (hi : blocks[i]? = some none)
    (hmem : i ∈ completions) : completions.foldlM (complete blocks) slots = none := by
  induction completions generalizing slots with
  | nil => exact absurd hmem List.not_mem_nil
  | cons j completions ih =>
    rw [List.foldlM_cons]
    rcases List.mem_cons.mp hmem with rfl | hrest
    · simp [complete, hi]
    · cases complete blocks slots j with
      | none => rfl
      | some slots => exact ih hrest

theorem mapM_id_eq_none (h : none ∈ blocks) : blocks.mapM id = none := by
  induction blocks with
  | nil => exact absurd h List.not_mem_nil
  | cons b blocks ih =>
    rw [List.mapM_cons]
    rcases List.mem_cons.mp h with rfl | hrest
    · rfl
    · cases b with
      | none => rfl
      | some result => simp [ih hrest]

theorem mapM_id_map_some (results : List ρ) : (results.map some).mapM id = some results := by
  induction results with
  | nil => rfl
  | cons r results ih => simp [List.mapM_cons, ih]

theorem exists_eq_map_some (h : none ∉ blocks) : ∃ results : List ρ, blocks = results.map some := by
  induction blocks with
  | nil => exact ⟨[], rfl⟩
  | cons b blocks ih =>
    obtain ⟨results, rfl⟩ := ih fun hrest => h (List.mem_cons_of_mem b hrest)
    cases b with
    | none => exact absurd List.mem_cons_self h
    | some r => exact ⟨r :: results, rfl⟩

/-- **The order in which the blocks end does not matter.** -/
theorem awaitAll_eq (h : completions.Perm (List.range blocks.length)) :
    awaitAll blocks completions = blocks.mapM id := by
  have hall : ∀ i < blocks.length, i ∈ completions := by
    intro i hi
    rw [h.mem_iff]
    exact List.mem_range.mpr hi
  unfold awaitAll
  by_cases hok : none ∈ blocks
  · obtain ⟨i, hi, hthrows⟩ := List.getElem_of_mem hok
    have hread : blocks[i]? = some none := List.getElem?_eq_some_iff.mpr ⟨hi, hthrows⟩
    rw [foldlM_complete_none hread (hall i hi), mapM_id_eq_none hok]
    rfl
  · have hslots : (blocks.map fun _ => (none : Option ρ)).length = blocks.length := by simp
    obtain ⟨after, hafter, hlen, hread⟩ := foldlM_complete hslots hok
    have hblocks : after = blocks := by
      refine List.ext_getElem? fun i => ?_
      by_cases hi : i < blocks.length
      · rw [hread i hi, if_pos (hall i hi)]
      · rw [List.getElem?_eq_none (by omega), List.getElem?_eq_none (by omega)]
    rw [hafter, hblocks]
    rfl

end Await

/-! ### Verdicts -/

/-- `AutoConnectReachabilityState`. -/
inductive AutoConnectReachabilityState
  | REACHABLE
  | UNREACHABLE
  | UNKNOWN
  deriving DecidableEq, Repr

/-- `WireOutcome`. -/
inductive WireOutcome
  | ANSWERED
  | REFUSED
  | SILENT
  deriving DecidableEq, Repr

/-- `classify`. -/
def classify : WireOutcome → AutoConnectReachabilityState
  | .ANSWERED => .REACHABLE
  | .REFUSED => .UNREACHABLE
  | .SILENT => .UNKNOWN

/-- A verdict on an endpoint of a candidate. -/
abbrev Verdict := Server × AutoConnectReachabilityState

/-- One `async` block: no verdict without an address, no conclusion without a port. The probe
    answers, or throws. -/
def probeBlock (target : ReachabilityTarget) (answer : Option WireOutcome) :
    Option (Option Verdict) :=
  if JavaString.isNullOrBlank target.candidate.1.ip then some none
  else if target.port ≤ 0 then some (some (target.candidate, classify .SILENT))
  else answer.map fun outcome => some (target.candidate, classify outcome)

/-- `ReachabilityGate`. -/
structure ReachabilityGate where
  kept : List Server
  allUnreachable : Bool
  deriving DecidableEq, Repr

/-- The candidate was measured, and each of its verdicts is `UNREACHABLE`. Verdicts are grouped by
    what the candidates are equal to. -/
def doomed (verdicts : List Verdict) (c : AutoModeCandidate) : Bool :=
  verdicts.any (fun v => v.1.1 == c) &&
    verdicts.all fun v => v.1.1 != c || v.2 == .UNREACHABLE

/-- What the gate makes of the verdicts. -/
def gateOf (targets : List ReachabilityTarget) (verdicts : List Verdict) : ReachabilityGate :=
  let measured := distinctBy Prod.fst (verdicts.map Prod.fst)
  { kept := (distinctBy Prod.fst (targets.map ReachabilityTarget.candidate)).filter fun c =>
      !doomed verdicts c.1
    allUnreachable := !measured.isEmpty && measured.all fun c => doomed verdicts c.1 }

/-- `filterReachableCandidates`; `none` when a probe throws. The `i`-th target gets `answers i`. -/
def filterReachableCandidates (targets : List ReachabilityTarget)
    (answers : ℕ → Option WireOutcome) (completions : List ℕ) : Option ReachabilityGate :=
  if targets.isEmpty then some ⟨[], false⟩
  else
    (awaitAll (targets.mapIdx fun i target => probeBlock target (answers i)) completions).map
      fun verdicts => gateOf targets (verdicts.filterMap id)

/-- The servers that the run goes on with. -/
def gated (reachabilityFilter : Bool) (priorities : List AutoModeProtocol)
    (answers : ℕ → Option WireOutcome) (completions : List ℕ) (ranked : List Server) :
    List Server :=
  let targets := probeTargets ranked priorities
  let gate :=
    if reachabilityFilter && !targets.isEmpty then
      filterReachableCandidates targets answers completions
    else none
  match gate with
  | none => ranked
  | some gate =>
    if !gate.kept.isEmpty then
      -- identity: the same place
      ranked.filter fun candidate => gate.kept.any fun c => c.2 == candidate.2
    else if gate.allUnreachable then []
    else ranked

/-! ### Evidence -/

section Evidence

variable (targets : List ReachabilityTarget) (answers : ℕ → Option WireOutcome)

/-- An endpoint of `c` was probed, with the verdict `state`. -/
def Measured (c : Server) (state : AutoConnectReachabilityState) : Prop :=
  ∃ i t, targets[i]? = some t ∧ probeBlock t (answers i) = some (some (c, state))

/-- At least one endpoint of `c` was probed, and all that were are definitively unreachable. -/
def Unreachable (c : Server) : Prop :=
  (∃ state, Measured targets answers c state) ∧
    ∀ state, Measured targets answers c state → state = .UNREACHABLE

/-- No probe throws. -/
def NoThrow : Prop := ∀ i t, targets[i]? = some t → probeBlock t (answers i) ≠ none

/-- **The gate is fair**: it ranks nobody, removes a server only on evidence, and leaves none only
    with evidence against all. -/
structure GateFair (ranked walked : List Server) : Prop where
  order : walked.Sublist ranked
  evidence : ∀ c ∈ ranked, c ∉ walked → Unreachable targets answers c
  emptied : walked = [] → ∀ c ∈ ranked, Unreachable targets answers c

variable {targets answers}

variable {t : ReachabilityTarget} {answer : Option WireOutcome}

theorem probeBlock_candidate {v : Verdict} (h : probeBlock t answer = some (some v)) :
    v.1 = t.candidate := by
  unfold probeBlock at h
  split_ifs at h with hblank hport
  · cases h
  · cases h
    rfl
  · cases answer with
    | none => cases h
    | some outcome =>
      cases h
      rfl

theorem noThrow_iff :
    NoThrow targets answers ↔ none ∉ targets.mapIdx fun i t => probeBlock t (answers i) := by
  rw [List.mem_mapIdx]
  constructor
  · rintro hok ⟨i, hi, hnone⟩
    exact hok i targets[i] (List.getElem?_eq_getElem hi) hnone
  · intro hnone i t ht hthrows
    obtain ⟨hi, rfl⟩ := List.getElem?_eq_some_iff.mp ht
    exact hnone ⟨i, hi, hthrows⟩

/-- Whether a block comes to a verdict depends on the address. -/
theorem probeBlock_isNone (h : probeBlock t answer = some none) :
    JavaString.isNullOrBlank t.candidate.1.ip = true := by
  unfold probeBlock at h
  by_contra hblank
  rw [if_neg hblank] at h
  split_ifs at h with hport
  · cases h
  · cases answer with
    | none => cases h
    | some outcome => cases h

theorem not_blank_of_verdict {v : Verdict} (h : probeBlock t answer = some (some v)) :
    JavaString.isNullOrBlank t.candidate.1.ip ≠ true := by
  intro hblank
  rw [probeBlock, if_pos hblank] at h
  cases h

/-- The verdicts of the blocks. -/
theorem mem_verdicts {results : List (Option Verdict)} {c : Server}
    {state : AutoConnectReachabilityState}
    (h : (targets.mapIdx fun i target => probeBlock target (answers i)) = results.map some) :
    (c, state) ∈ results.filterMap id ↔ Measured targets answers c state := by
  have hmem : some (c, state) ∈ results ↔ some (some (c, state)) ∈ results.map some := by simp
  rw [List.mem_filterMap]
  simp only [id_eq, exists_eq_right]
  rw [hmem, ← h, List.mem_mapIdx]
  constructor
  · rintro ⟨i, hi, hblock⟩
    exact ⟨i, targets[i], List.getElem?_eq_getElem hi, hblock⟩
  · rintro ⟨i, t, ht, hblock⟩
    obtain ⟨hi, rfl⟩ := List.getElem?_eq_some_iff.mp ht
    exact ⟨i, hi, hblock⟩

theorem doomed_iff {verdicts : List Verdict} {c : AutoModeCandidate} :
    doomed verdicts c = true ↔
      (∃ v ∈ verdicts, v.1.1 = c) ∧ ∀ v ∈ verdicts, v.1.1 = c → v.2 = .UNREACHABLE := by
  simp only [doomed, Bool.and_eq_true, List.any_eq_true, beq_iff_eq, List.all_eq_true,
    Bool.or_eq_true, bne_iff_ne, ne_eq, ← imp_iff_not_or]

end Evidence

/-! ### Which servers are kept -/

/-- Of equal candidates the first in the ranked list stays. -/
theorem mem_distinctBy_fst {servers : List Server} {c : Server}
    (h : servers.Pairwise fun a b => a.2 ≤ b.2) :
    c ∈ distinctBy Prod.fst servers ↔ c ∈ servers ∧ ∀ d ∈ servers, d.1 = c.1 → c.2 ≤ d.2 := by
  induction servers with
  | nil => simp [distinctBy]
  | cons a servers ih =>
    obtain ⟨ha, hrest⟩ := List.pairwise_cons.mp h
    rw [distinctBy, List.mem_cons, List.mem_filter, ih hrest, List.mem_cons]
    constructor
    · rintro (rfl | ⟨⟨hc, hfirst⟩, hne⟩)
      · refine ⟨Or.inl rfl, ?_⟩
        intro d hd _
        rcases List.mem_cons.mp hd with rfl | hd
        · exact le_refl _
        · exact ha d hd
      · refine ⟨Or.inr hc, ?_⟩
        intro d hd hdc
        rcases List.mem_cons.mp hd with rfl | hd
        · simp [hdc] at hne
        · exact hfirst d hd hdc
    · rintro ⟨hc, hfirst⟩
      by_cases hca : c = a
      · exact Or.inl hca
      · have hmem : c ∈ servers := hc.resolve_left hca
        refine Or.inr ⟨⟨hmem, fun d hd => hfirst d (List.mem_cons_of_mem a hd)⟩, ?_⟩
        -- equal to the earlier `a`, it would stand at the place of `a`
        rw [decide_eq_true_eq]
        intro heq
        have hplace : c.2 = a.2 :=
          le_antisymm (hfirst a List.mem_cons_self heq.symm) (ha c hmem)
        exact hca (Prod.ext heq hplace)

/-- The objects of a ranked list have different places. -/
theorem eq_of_place {ranked : List Server} (h : ranked.Pairwise fun a b => a.2 < b.2) {c d : Server}
    (hc : c ∈ ranked) (hd : d ∈ ranked) (hplace : c.2 = d.2) : c = d := by
  have hnodup : (ranked.map Prod.snd).Nodup :=
    (List.pairwise_map.mpr h).imp fun hlt => Nat.ne_of_lt hlt
  exact List.inj_on_of_nodup_map hnodup hc hd hplace

/-- The objects of a ranked list stand at growing places. -/
theorem zipIdx_places (all : List AutoModeCandidate) :
    all.zipIdx.Pairwise fun a b => a.2 < b.2 := by
  have hplaces : (all.zipIdx.map Prod.snd).Pairwise (· < ·) := by
    rw [List.zipIdx_map_snd]
    exact List.pairwise_lt_range'
  exact List.pairwise_map.mp hplaces

section Kept

variable {priorities : List AutoModeProtocol} {answers : ℕ → Option WireOutcome}
  {ranked : List Server} {results : List (Option Verdict)}

variable {c : Server} {reachabilityFilter : Bool}

theorem mem_targets_candidate :
    c ∈ (probeTargets ranked priorities).map ReachabilityTarget.candidate ↔
      c ∈ ranked ∧ usableProtocols c.1 priorities ≠ [] := by
  rw [List.mem_map]
  constructor
  · rintro ⟨t, ht, rfl⟩
    obtain ⟨hranked, husable, -⟩ := mem_probeTargets.mp ht
    exact ⟨hranked, List.ne_nil_of_mem husable⟩
  · rintro ⟨hranked, husable⟩
    obtain ⟨protocol, hprotocol⟩ := List.exists_mem_of_ne_nil _ husable
    exact ⟨⟨c, protocol, probeEndpoint c.1 protocol⟩,
      mem_probeTargets.mpr ⟨hranked, hprotocol, rfl⟩, rfl⟩

/-- Only a server with a usable protocol is probed. -/
theorem usable_of_unreachable (h : Unreachable (probeTargets ranked priorities) answers c) :
    usableProtocols c.1 priorities ≠ [] := by
  obtain ⟨⟨state, i, t, ht, hblock⟩, -⟩ := h
  have hcandidate : c = t.candidate := probeBlock_candidate hblock
  obtain ⟨-, husable⟩ := mem_targets_candidate.mp (List.mem_map_of_mem (List.mem_of_getElem? ht))
  exact hcandidate ▸ husable

/-- The targets follow the ranked list. -/
theorem targets_ordered (h : ranked.Pairwise fun a b => a.2 < b.2) :
    ((probeTargets ranked priorities).map ReachabilityTarget.candidate).Pairwise
      fun a b => a.2 ≤ b.2 := by
  unfold probeTargets
  rw [List.map_flatMap]
  induction ranked with
  | nil => exact List.Pairwise.nil
  | cons c ranked ih =>
    obtain ⟨hc, hrest⟩ := List.pairwise_cons.mp h
    rw [List.flatMap_cons, List.pairwise_append]
    refine ⟨?_, ih hrest, ?_⟩
    · rw [List.map_map]
      exact List.pairwise_map.mpr (List.pairwise_of_forall fun _ _ => le_refl c.2)
    · intro a ha b hb
      obtain ⟨d, hd, hb⟩ := List.mem_flatMap.mp hb
      simp only [List.map_map, List.mem_map, Function.comp_apply] at ha hb
      obtain ⟨_, _, rfl⟩ := ha
      obtain ⟨_, _, rfl⟩ := hb
      exact (hc d hd).le

/-- **What the gate keeps.** -/
theorem mem_kept (h : ranked.Pairwise fun a b => a.2 < b.2) {verdicts : List Verdict} :
    c ∈ (gateOf (probeTargets ranked priorities) verdicts).kept ↔
      c ∈ ranked ∧ usableProtocols c.1 priorities ≠ [] ∧
        (∀ d ∈ ranked, d.1 = c.1 → c.2 ≤ d.2) ∧ doomed verdicts c.1 = false := by
  simp only [gateOf, List.mem_filter, mem_distinctBy_fst (targets_ordered h),
    mem_targets_candidate, Bool.not_eq_true']
  constructor
  · rintro ⟨⟨⟨hranked, husable⟩, hfirst⟩, hdoomed⟩
    exact ⟨hranked, husable, fun d hd heq => hfirst d ⟨hd, by rwa [heq]⟩ heq, hdoomed⟩
  · rintro ⟨hranked, husable, hfirst, hdoomed⟩
    exact ⟨⟨⟨hranked, husable⟩, fun d hd heq => hfirst d hd.1 heq⟩, hdoomed⟩

/-- A gate that keeps nobody has measured everybody it was asked about. -/
theorem allUnreachable_of_kept {verdicts : List Verdict}
    (htargets : probeTargets ranked priorities ≠ [])
    (hverdicts : ∀ v ∈ verdicts, v.1 ∈ (probeTargets ranked priorities).map
      ReachabilityTarget.candidate)
    (hkept : (gateOf (probeTargets ranked priorities) verdicts).kept = []) :
    (gateOf (probeTargets ranked priorities) verdicts).allUnreachable = true := by
  -- each candidate that was asked about equals one that the gate looked at
  have hdoomed : ∀ c ∈ (probeTargets ranked priorities).map ReachabilityTarget.candidate,
      doomed verdicts c.1 = true := by
    intro c hc
    have hsome : ∃ d ∈ distinctBy Prod.fst ((probeTargets ranked priorities).map
        ReachabilityTarget.candidate), d.1 = c.1 := exists_mem_distinctBy hc
    obtain ⟨d, hd, heq⟩ := hsome
    have hout := List.filter_eq_nil_iff.mp hkept d hd
    rw [← heq]
    simpa using hout
  simp only [gateOf, Bool.and_eq_true, Bool.not_eq_true', List.isEmpty_eq_false_iff,
    List.all_eq_true]
  constructor
  · obtain ⟨t, ht⟩ := List.exists_mem_of_ne_nil _ htargets
    obtain ⟨⟨v, hv, -⟩, -⟩ := doomed_iff.mp (hdoomed _ (List.mem_map_of_mem ht))
    have hsome : ∃ d ∈ distinctBy Prod.fst (verdicts.map Prod.fst), d.1 = v.1.1 :=
      exists_mem_distinctBy (List.mem_map_of_mem hv)
    obtain ⟨c, hc, -⟩ := hsome
    exact List.ne_nil_of_mem hc
  · intro c hc
    have hmem : c ∈ verdicts.map Prod.fst := (distinctBy_sublist Prod.fst _).mem hc
    obtain ⟨v, hv, rfl⟩ := List.mem_map.mp hmem
    exact hdoomed v.1 (hverdicts v hv)

variable {completions : List ℕ}

/-- The gate, when it was asked and no probe threw. -/
theorem filterReachableCandidates_eq {targets : List ReachabilityTarget} (htargets : targets ≠ [])
    (hcompletions : completions.Perm (List.range targets.length))
    (hresults : (targets.mapIdx fun i t => probeBlock t (answers i)) = results.map some) :
    filterReachableCandidates targets answers completions =
      some (gateOf targets (results.filterMap id)) := by
  have hawait : awaitAll (targets.mapIdx fun i t => probeBlock t (answers i)) completions =
      some results := by
    rw [awaitAll_eq (by simpa using hcompletions), hresults]
    exact mapM_id_map_some results
  rw [filterReachableCandidates, if_neg (by simpa using htargets), hawait]
  rfl

/-- **The servers that the run goes on with** are those the gate keeps. -/
theorem mem_gated (hranked : ranked.Pairwise fun a b => a.2 < b.2)
    (htargets : probeTargets ranked priorities ≠ [])
    (hcompletions : completions.Perm (List.range (probeTargets ranked priorities).length))
    (hresults : ((probeTargets ranked priorities).mapIdx fun i t => probeBlock t (answers i)) =
      results.map some) : c ∈ gated true priorities answers completions ranked ↔
      c ∈ (gateOf (probeTargets ranked priorities) (results.filterMap id)).kept := by
  have hverdicts : ∀ v ∈ results.filterMap id, v.1 ∈ (probeTargets ranked priorities).map
      ReachabilityTarget.candidate := by
    rintro ⟨c, state⟩ hv
    obtain ⟨i, t, ht, hblock⟩ := (mem_verdicts hresults).mp hv
    rw [probeBlock_candidate hblock]
    exact List.mem_map_of_mem (List.mem_of_getElem? ht)
  have hask : (true && !(probeTargets ranked priorities).isEmpty) = true := by simpa using htargets
  simp only [gated, hask, if_true, filterReachableCandidates_eq htargets hcompletions hresults]
  by_cases hkept : (gateOf (probeTargets ranked priorities) (results.filterMap id)).kept = []
  · have hall := allUnreachable_of_kept htargets hverdicts hkept
    simp only [hkept, hall, List.isEmpty_nil, Bool.not_true, Bool.false_eq_true, if_false, if_true]
  · rw [if_pos (by simpa using hkept), List.mem_filter, List.any_eq_true]
    constructor
    · rintro ⟨hc, k, hk, hplace⟩
      have hkc : k = c :=
        eq_of_place hranked ((mem_kept hranked).mp hk).1 hc (by simpa using hplace)
      exact hkc ▸ hk
    · intro hc
      exact ⟨((mem_kept hranked).mp hc).1, c, hc, by simp⟩

/-! ### Fairness -/

/-- The gate is asked, and no probe throws. -/
def Answered (reachabilityFilter : Bool) (targets : List ReachabilityTarget)
    (answers : ℕ → Option WireOutcome) : Prop :=
  reachabilityFilter = true ∧ targets ≠ [] ∧ NoThrow targets answers

/-- Each server has a usable protocol; one that equals an earlier server has its own evidence. -/
def Separable (priorities : List AutoModeProtocol) (answers : ℕ → Option WireOutcome)
    (ranked : List Server) : Prop :=
  ∀ c ∈ ranked, usableProtocols c.1 priorities ≠ [] ∧
    ((∃ d ∈ ranked, d.1 = c.1 ∧ d.2 < c.2) →
      Unreachable (probeTargets ranked priorities) answers c)

theorem gated_sublist :
    (gated reachabilityFilter priorities answers completions ranked).Sublist ranked := by
  unfold gated
  simp only
  split
  · exact List.Sublist.refl ranked
  · split_ifs
    · exact List.filter_sublist
    · exact List.nil_sublist ranked
    · exact List.Sublist.refl ranked

/-- A gate that is not asked, or whose probe throws, lets everybody through. -/
theorem gated_of_not_answered
    (hcompletions : completions.Perm (List.range (probeTargets ranked priorities).length))
    (h : ¬ Answered reachabilityFilter (probeTargets ranked priorities) answers) :
    gated reachabilityFilter priorities answers completions ranked = ranked := by
  unfold gated
  by_cases hask : (reachabilityFilter && !(probeTargets ranked priorities).isEmpty) = true
  · have hthrows : none ∈ (probeTargets ranked priorities).mapIdx fun i t =>
        probeBlock t (answers i) := by
      by_contra hok
      rw [Bool.and_eq_true, Bool.not_eq_true', List.isEmpty_eq_false_iff] at hask
      exact h ⟨hask.1, hask.2, noThrow_iff.mpr hok⟩
    rw [Bool.and_eq_true, Bool.not_eq_true'] at hask
    have hnone : filterReachableCandidates (probeTargets ranked priorities) answers completions =
        none := by
      rw [filterReachableCandidates, if_neg (by simp [hask.2]),
        awaitAll_eq (by simpa using hcompletions), mapM_id_eq_none hthrows]
      rfl
    simp only [hask.1, hask.2, Bool.not_false, Bool.and_self, if_true, hnone]
  · simp only [if_neg hask]

/-- What an object's equal shows of it: it has an endpoint that is probed. -/
theorem measured_of_equal {targets : List ReachabilityTarget} {d : Server}
    (hresults : (targets.mapIdx fun i t => probeBlock t (answers i)) = results.map some)
    (hc : c ∈ targets.map ReachabilityTarget.candidate) (heq : d.1 = c.1)
    {state : AutoConnectReachabilityState} (hd : Measured targets answers d state) :
    ∃ state, Measured targets answers c state := by
  obtain ⟨t, ht, rfl⟩ := List.mem_map.mp hc
  obtain ⟨i, hi, rfl⟩ := List.getElem_of_mem ht
  have hread : targets[i]? = some targets[i] := List.getElem?_eq_getElem hi
  have hblock : probeBlock targets[i] (answers i) ∈ results.map some := by
    rw [← hresults]
    exact List.mem_mapIdx.mpr ⟨i, hi, rfl⟩
  obtain ⟨result, -, hresult⟩ := List.mem_map.mp hblock
  cases result with
  | none =>
    -- the address is the same, so the equal object would have no verdict either
    obtain ⟨j, t', -, hblock'⟩ := hd
    have hblank := probeBlock_isNone hresult.symm
    rw [← heq] at hblank
    have hsame := probeBlock_candidate hblock'
    exact absurd (hsame ▸ hblank) (not_blank_of_verdict hblock')
  | some v =>
    have hv : v = (targets[i].candidate, v.2) :=
      Prod.ext (probeBlock_candidate hresult.symm) rfl
    exact ⟨v.2, i, targets[i], hread, by rw [← hresult, ← hv]⟩

/-- **The gate is fair exactly when it can tell**: it is not asked, or a probe throws, or each
    server has a usable protocol and those that equal an earlier one are themselves unreachable. -/
theorem gateFair_of_ordered (hranked : ranked.Pairwise fun a b => a.2 < b.2)
    (hcompletions : completions.Perm (List.range (probeTargets ranked priorities).length)) :
    GateFair (probeTargets ranked priorities) answers ranked
        (gated reachabilityFilter priorities answers completions ranked) ↔
      ¬ Answered reachabilityFilter (probeTargets ranked priorities) answers ∨
        Separable priorities answers ranked := by
  by_cases hans : Answered reachabilityFilter (probeTargets ranked priorities) answers
  · obtain ⟨rfl, htargets, hok⟩ := hans
    obtain ⟨results, hresults⟩ := exists_eq_map_some (noThrow_iff.mp hok)
    have hmem : ∀ c, c ∈ gated true priorities answers completions ranked ↔ _ := fun c =>
      (mem_gated hranked htargets hcompletions hresults).trans (mem_kept hranked)
    constructor
    -- a candidate that the gate drops for another reason is a counterexample
    · intro hfair
      refine Or.inr fun c hc => ⟨?_, ?_⟩
      · intro hnone
        have hout : c ∉ gated true priorities answers completions ranked :=
          fun hin => ((hmem c).mp hin).2.1 hnone
        exact usable_of_unreachable (hfair.evidence c hc hout) hnone
      · rintro ⟨d, hd, heq, hlt⟩
        apply hfair.evidence c hc
        intro hin
        have hle := ((hmem c).mp hin).2.2.1 d hd heq
        omega
    · rintro (hnot | hsep)
      · exact absurd ⟨rfl, htargets, hok⟩ hnot
      · have hevidence : ∀ c ∈ ranked, c ∉ gated true priorities answers completions ranked →
            Unreachable (probeTargets ranked priorities) answers c := by
          intro c hc hout
          by_cases hfirst : ∀ d ∈ ranked, d.1 = c.1 → c.2 ≤ d.2
          · have hdoomed : doomed (results.filterMap id) c.1 = true := by
              by_contra hnot
              exact hout ((hmem c).mpr ⟨hc, (hsep c hc).1, hfirst, by simpa using hnot⟩)
            obtain ⟨⟨⟨d, state⟩, hv, heq⟩, hall⟩ := doomed_iff.mp hdoomed
            have htarget := mem_targets_candidate.mpr ⟨hc, (hsep c hc).1⟩
            refine ⟨measured_of_equal hresults htarget heq ((mem_verdicts hresults).mp hv), ?_⟩
            intro state' hstate
            exact hall (c, state') ((mem_verdicts hresults).mpr hstate) rfl
          · push Not at hfirst
            exact (hsep c hc).2 hfirst
        refine ⟨gated_sublist, hevidence, ?_⟩
        intro hnil c hc
        exact hevidence c hc (hnil ▸ List.not_mem_nil)
  · rw [gated_of_not_answered hcompletions hans]
    refine iff_of_true ⟨List.Sublist.refl ranked, ?_, ?_⟩ (Or.inl hans)
    · intro c hc hout
      exact absurd hc hout
    · intro hnil c hc
      rw [hnil] at hc
      exact absurd hc List.not_mem_nil

/-- The same for a ranked list whose objects are told apart by their places. -/
theorem gateFair_iff (reachabilityFilter : Bool) (priorities : List AutoModeProtocol)
    (answers : ℕ → Option WireOutcome) (completions : List ℕ) (servers : List AutoModeCandidate)
    (hcompletions :
      completions.Perm (List.range (probeTargets servers.zipIdx priorities).length)) :
    GateFair (probeTargets servers.zipIdx priorities) answers servers.zipIdx
        (gated reachabilityFilter priorities answers completions servers.zipIdx) ↔
      ¬ Answered reachabilityFilter (probeTargets servers.zipIdx priorities) answers ∨
        Separable priorities answers servers.zipIdx :=
  gateFair_of_ordered (zipIdx_places servers) hcompletions

end Kept

/-! ### Two servers, one of them without a protocol -/

/-- A server that SoftEther reaches over TCP. -/
def tcpServer : AutoModeCandidate :=
  { hostname := none, ip := some (JavaString.ofChars ['a']), speed := 0, ping := 0, sessions := 0,
    score := 0, seTcpPort := 443 }

/-- A server that no protocol reaches. -/
def bareServer : AutoModeCandidate :=
  { hostname := none, ip := some (JavaString.ofChars ['b']), speed := 0, ping := 0, sessions := 0,
    score := 0 }

/-- The server that was never probed is removed, whether the other one answers or refuses. -/
theorem unprobed_removed :
    ¬ GateFair (probeTargets [tcpServer, bareServer].zipIdx [.SOFTETHER_TCP])
        (fun _ => some .ANSWERED) [tcpServer, bareServer].zipIdx
        (gated true [.SOFTETHER_TCP] (fun _ => some .ANSWERED) [0]
          [tcpServer, bareServer].zipIdx) ∧
      gated true [.SOFTETHER_TCP] (fun _ => some .REFUSED) [0] [tcpServer, bareServer].zipIdx =
        [] := by
  refine ⟨?_, by decide⟩
  intro h
  exact usable_of_unreachable (h.evidence (bareServer, 1) (by decide) (by decide)) (by decide)

/-- A gate between two servers that are both probed, of which one refuses. -/
theorem gateFair_iff_refused :
    GateFair (probeTargets [tcpServer, { tcpServer with speed := 1 }].zipIdx [.SOFTETHER_TCP])
      (fun i => if i = 0 then some .ANSWERED else some .REFUSED)
      [tcpServer, { tcpServer with speed := 1 }].zipIdx
      (gated true [.SOFTETHER_TCP] (fun i => if i = 0 then some .ANSWERED else some .REFUSED) [1, 0]
        [tcpServer, { tcpServer with speed := 1 }].zipIdx) := by
  refine (gateFair_iff true [.SOFTETHER_TCP] _ [1, 0] [tcpServer, { tcpServer with speed := 1 }]
    (by decide)).mpr (Or.inr ?_)
  have hdistinct : ∀ c ∈ [tcpServer, { tcpServer with speed := 1 }].zipIdx,
      usableProtocols c.1 [.SOFTETHER_TCP] ≠ [] ∧
        ∀ d ∈ [tcpServer, { tcpServer with speed := 1 }].zipIdx, ¬ (d.1 = c.1 ∧ d.2 < c.2) := by
    decide
  intro c hc
  refine ⟨(hdistinct c hc).1, ?_⟩
  rintro ⟨d, hd, hearlier⟩
  exact absurd hearlier ((hdistinct c hc).2 d hd)

end SoftEther.AutoMode
