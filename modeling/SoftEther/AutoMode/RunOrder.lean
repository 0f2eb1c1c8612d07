import SoftEther.AutoMode.Gate
import SoftEther.AutoMode.Ranking
import SoftEther.AutoMode.WalkOrder

namespace SoftEther.AutoMode

open Lib

/-!
# The servers that a run dials (`runAutoMode`)

A run ranks the list it was given, probes it, arranges what is left once more and walks it. A
server is dialled unless its key was visited before, it is excluded by its wedges, or no protocol
of the user can be used for it.

* `withActiveRtt` — each candidate with the least round-trip time of its usable protocols;
* `promoteKnownGood`, `demoteUnhealthy`, `sortedForAutoConnect` — the ranked list;
* `RunReading`, `runOrder` — what a run reads from outside, and the list that it walks;
* `dials` — the servers it dials, as long as none of them brings up a tunnel;
* `dials_eq` — the first candidate of each server, where it can be dialled;
* `mem_runOrder` — a run walks no other candidates than it was given.
-/

/-! ### The ranked list -/

def KNOWN_GOOD_MAX : ℕ := 3
def KNOWN_GOOD_WINDOW_MS : ℤ := 14 * 24 * 60 * 60 * 1000
def QUALITY_REJECT_DEMOTE_AFTER : ℤ := 2
def MISSED_REFRESH_DEMOTE_AFTER : ℤ := 2
def demoteAfterConsecutiveFailures : ℤ := 2

/-- `representativeRtt`. -/
def representativeRtt (activeRtt : JavaString → AutoModeProtocol → Option ℤ)
    (priorities : List AutoModeProtocol) (c : AutoModeCandidate) : Option ℤ :=
  match c.ip with
  | none => none
  | some ip =>
    (((usableProtocols c priorities).filterMap fun protocol => activeRtt ip protocol).filter
      fun rtt => decide (rtt > 0)).min?

/-- `withActiveRtt`. -/
def withActiveRtt (activeRtt : JavaString → AutoModeProtocol → Option ℤ)
    (priorities : List AutoModeProtocol) (c : AutoModeCandidate) : AutoModeCandidate :=
  { c with activeRttMs := representativeRtt activeRtt priorities c }

section Ranked

variable (history : History) (network : NetworkType)

/-- `isKnownGood`. -/
def isKnownGood (cutoff : ℤ) (c : AutoModeCandidate) : Bool :=
  match history.viewOf c with
  | none => false
  | some h =>
    decide (h.successesOn network > 0) && decide (h.lastSuccessAt ≥ cutoff) &&
      (h.lastFailureAtOn network).all (fun failedAt => decide (failedAt ≤ h.lastSuccessAt)) &&
      decide (h.qualityRejectionCount ≤ 0)

/-- The first `k` rows that satisfy `p`, and the others. -/
def splitFirst (p : AutoModeCandidate → Bool) :
    ℕ → List AutoModeCandidate → List AutoModeCandidate × List AutoModeCandidate
  | 0, xs => ([], xs)
  | _ + 1, [] => ([], [])
  | k + 1, x :: xs =>
    if p x then (x :: (splitFirst p k xs).1, (splitFirst p k xs).2)
    else ((splitFirst p (k + 1) xs).1, x :: (splitFirst p (k + 1) xs).2)

/-- `promoteKnownGood`: the objects that are promoted are the first that are known to be good. -/
def promoteKnownGood (now : ℤ) (ordered : List AutoModeCandidate) : List AutoModeCandidate :=
  if history.isEmpty || network == .UNKNOWN then ordered
  else
    let split := splitFirst (isKnownGood history network (now - KNOWN_GOOD_WINDOW_MS))
      KNOWN_GOOD_MAX ordered
    split.1 ++ split.2

/-- `isDemoted`. -/
def isDemoted (c : AutoModeCandidate) : Bool :=
  match history.viewOf c with
  | none => false
  | some h =>
    decide (h.consecutiveFailuresOn network ≥ demoteAfterConsecutiveFailures) ||
      decide (h.qualityRejectionCount ≥ QUALITY_REJECT_DEMOTE_AFTER) &&
        h.successesOn network == 0 ||
      decide (h.missedRefreshCount ≥ MISSED_REFRESH_DEMOTE_AFTER) && h.successesOn network == 0

/-- `demoteUnhealthy`. -/
def demoteUnhealthy (ordered : List AutoModeCandidate) : List AutoModeCandidate :=
  if history.isEmpty then ordered
  else ordered.filter (fun c => !isDemoted history network c) ++
    ordered.filter (isDemoted history network)

/-- `sortedForAutoConnect`. -/
def sortedForAutoConnect (now : ℤ) (candidates : List AutoModeCandidate) :
    List AutoModeCandidate :=
  demoteUnhealthy history network
    (promoteKnownGood history network now (qualityOrder history network candidates))

end Ranked

/-! ### A run -/

/-- What a run reads from outside. `first i` and `second i` are what the clock reads when the
server at place `i` of the ranked list is looked at in the two passes of the deferral. -/
structure RunReading where
  priorities : List AutoModeProtocol
  activeRtt : JavaString → AutoModeProtocol → Option ℤ := fun _ _ => none
  history : History := []
  network : NetworkType := .UNKNOWN
  now : ℤ := 0
  reachabilityFilter : Bool := true
  answers : ℕ → Option WireOutcome := fun _ => some .ANSWERED
  completions : List ℕ := []
  runIndex : ℕ := 1
  first : ℕ → ℤ := fun _ => 0
  second : ℕ → ℤ := fun _ => 0
  /-- `wedgeTracker.isExcluded` -/
  excluded : JavaString → Bool := fun _ => false

section Run

variable (w : RunReading)

/-- The ranked list of a run, as objects. -/
def rankedServers (all : List AutoModeCandidate) : List Server :=
  (sortedForAutoConnect w.history w.network w.now
    (all.map (withActiveRtt w.activeRtt w.priorities))).zipIdx

/-- What the gate lets through. -/
def keptServers (all : List AutoModeCandidate) : List Server :=
  gated w.reachabilityFilter w.priorities w.answers w.completions
    (rankedServers w all)

/-- The list that a run walks; no run starts behind its first server. -/
def runOrder (all : List AutoModeCandidate) : List Server :=
  walkOrder Prod.fst w.history w.network 0 w.runIndex (fun c => w.first c.2)
    (fun c => w.second c.2) (keptServers w all)

/-- The server can be dialled in this run. -/
def dialable (c : Server) : Bool :=
  !w.excluded (serverKey c.1) && !(usableProtocols c.1 w.priorities).isEmpty

/-- The walk, behind the servers whose keys are `attempted`. -/
def walkFrom (attempted : List JavaString) : List Server → List Server
  | [] => []
  | server :: rest =>
    let key := serverKey server.1
    if key ∈ attempted then walkFrom attempted rest
    else if w.excluded key then walkFrom (key :: attempted) rest
    else if (usableProtocols server.1 w.priorities).isEmpty then walkFrom (key :: attempted) rest
    else server :: walkFrom (key :: attempted) rest

/-- **The servers that a run dials**, as long as none of them brings up a tunnel. -/
def dials (all : List AutoModeCandidate) : List Server := walkFrom w [] (runOrder w all)

end Run

/-! ### The ranked list is the given one, rearranged -/

section Perm

variable (history : History) (network : NetworkType)

theorem rttStep_perm (ordered : List AutoModeCandidate) (i : ℕ) :
    (rttStep ordered i).Perm ordered := by
  by_cases hi : i < ordered.length
  · have hcut : ordered = ordered.take i ++ ordered[i] :: ordered.drop (i + 1) := by
      rw [← List.drop_eq_getElem_cons hi, List.take_append_drop]
    have hlen : (ordered.take i).length = i := by
      rw [List.length_take]
      omega
    have hstep := rttStep_append (ordered.take i) (ordered.drop (i + 1)) ordered[i]
    rw [hlen, ← hcut] at hstep
    rw [hstep]
    refine ((settle_perm _ _).append_right _).trans (.of_eq ?_)
    simp
  · rw [rttStep, List.getElem?_eq_none (by omega)]

theorem applyRttTieBreak_perm (ordered : List AutoModeCandidate) (start stop : ℕ) :
    (applyRttTieBreak ordered start stop).Perm ordered := by
  unfold applyRttTieBreak
  generalize List.range' (start + 1) (stop - (start + 1)) = places
  induction places generalizing ordered with
  | nil => exact List.Perm.refl ordered
  | cons i places ih => exact (ih (rttStep ordered i)).trans (rttStep_perm ordered i)

theorem applyHistoryTieBreak_perm (ordered : List AutoModeCandidate) (start stop : ℕ) :
    (applyHistoryTieBreak history network ordered start stop).Perm ordered := by
  unfold applyHistoryTieBreak
  split_ifs with hskip
  · exact List.Perm.refl ordered
  · have hlt : start < stop := by
      simp only [Bool.or_eq_true, decide_eq_true_eq, not_or] at hskip
      omega
    have hcut : ordered.take start ++ slice ordered start stop ++ ordered.drop stop = ordered := by
      have hdrop : ordered.drop stop = (ordered.drop start).drop (stop - start) := by
        rw [List.drop_drop]
        congr 1
        omega
      rw [hdrop, slice, List.append_assoc, List.take_append_drop, List.take_append_drop]
    refine (((sortedWith_perm _ _).append_left _).append_right _).trans (.of_eq hcut)

theorem tieBreaks_perm (fuel : ℕ) (ordered : List AutoModeCandidate) (runStart : ℕ) :
    (tieBreaks history network fuel ordered runStart).Perm ordered := by
  induction fuel generalizing ordered runStart with
  | zero => exact List.Perm.refl ordered
  | succ fuel ih =>
    unfold tieBreaks
    split_ifs with hlt
    · refine (ih _ _).trans ?_
      exact (applyHistoryTieBreak_perm history network _ _ _).trans (applyRttTieBreak_perm _ _ _)
    · exact List.Perm.refl ordered

theorem splitFirst_perm (p : AutoModeCandidate → Bool) (k : ℕ) (xs : List AutoModeCandidate) :
    ((splitFirst p k xs).1 ++ (splitFirst p k xs).2).Perm xs := by
  induction xs generalizing k with
  | nil => cases k <;> exact List.Perm.refl []
  | cons x xs ih =>
    cases k with
    | zero => exact List.Perm.refl (x :: xs)
    | succ k =>
      unfold splitFirst
      split_ifs with hp
      · exact (ih k).cons x
      · exact List.perm_middle.trans ((ih (k + 1)).cons x)

theorem promoteKnownGood_perm (now : ℤ) (ordered : List AutoModeCandidate) :
    (promoteKnownGood history network now ordered).Perm ordered := by
  unfold promoteKnownGood
  split_ifs
  · exact List.Perm.refl ordered
  · exact splitFirst_perm _ _ ordered

theorem demoteUnhealthy_perm (ordered : List AutoModeCandidate) :
    (demoteUnhealthy history network ordered).Perm ordered := by
  unfold demoteUnhealthy
  split_ifs
  · exact List.Perm.refl ordered
  · exact List.perm_append_comm.trans (List.filter_append_perm (isDemoted history network) ordered)

/-- **The ranked list** holds the candidates that were given. -/
theorem sortedForAutoConnect_perm (now : ℤ) (candidates : List AutoModeCandidate) :
    (sortedForAutoConnect history network now candidates).Perm candidates :=
  (demoteUnhealthy_perm history network _).trans <|
    (promoteKnownGood_perm history network now _).trans <|
      (tieBreaks_perm history network _ _ _).trans (sortedWith_perm byQuality candidates)

end Perm

/-! ### What a run walks and dials -/

section Walk

variable (w : RunReading)

theorem mem_deferCooling {T : Type*} {cooling : T → ℤ → Bool} {first second : T → ℤ} {xs : List T}
    {c : T} (h : c ∈ deferCooling cooling first second xs) : c ∈ xs := by
  unfold deferCooling at h
  simp only at h
  split_ifs at h
  · rw [List.mem_append, List.mem_filter, List.mem_filter] at h
    exact h.elim And.left And.left
  · exact h

/-- A run walks no other servers than it ranked. -/
theorem mem_keptServers {all : List AutoModeCandidate} {c : Server} (h : c ∈ runOrder w all) :
    c ∈ keptServers w all :=
  (explored_perm Prod.fst w.history w.network 0 w.runIndex _).mem_iff.mp (mem_deferCooling h)

@[simp] theorem serverKey_withActiveRtt (activeRtt : JavaString → AutoModeProtocol → Option ℤ)
    (priorities : List AutoModeProtocol) (c : AutoModeCandidate) :
    serverKey (withActiveRtt activeRtt priorities c) = serverKey c := rfl

/-- **A run walks no other candidates than it was given.** -/
theorem mem_runOrder {all : List AutoModeCandidate} {c : Server} (h : c ∈ runOrder w all) :
    ∃ d ∈ all, c.1 = withActiveRtt w.activeRtt w.priorities d := by
  have hranked : c ∈ rankedServers w all := gated_sublist.mem (mem_keptServers w h)
  have hmem : c.1 ∈ (rankedServers w all).map Prod.fst := List.mem_map_of_mem hranked
  rw [rankedServers, List.zipIdx_map_fst, (sortedForAutoConnect_perm _ _ _ _).mem_iff,
    List.mem_map] at hmem
  obtain ⟨d, hd, heq⟩ := hmem
  exact ⟨d, hd, heq.symm⟩

/-- The walk, server by server. -/
theorem walkFrom_eq (attempted : List JavaString) (servers : List Server) :
    walkFrom w attempted servers =
      (distinctBy (fun c : Server => serverKey c.1)
        (servers.filter fun c => decide (serverKey c.1 ∉ attempted))).filter (dialable w) := by
  induction servers generalizing attempted with
  | nil => rfl
  | cons server rest ih =>
    by_cases hseen : serverKey server.1 ∈ attempted
    · rw [walkFrom, if_pos hseen, List.filter_cons_of_neg (by simpa using hseen), ih]
    · -- behind `server` its key is attempted as well
      have hrest : (rest.filter fun c => decide (serverKey c.1 ∉ serverKey server.1 :: attempted)) =
          (rest.filter fun c => decide (serverKey c.1 ∉ attempted)).filter fun c =>
            decide (serverKey c.1 ≠ serverKey server.1) := by
        rw [List.filter_filter]
        exact List.filter_congr fun c _ => by simp
      have hnext : walkFrom w (serverKey server.1 :: attempted) rest =
          ((distinctBy (fun c : Server => serverKey c.1)
            (rest.filter fun c => decide (serverKey c.1 ∉ attempted))).filter fun c =>
              decide (serverKey c.1 ≠ serverKey server.1)).filter (dialable w) := by
        rw [ih, hrest]
        congr 1
        exact distinctBy_filter (fun c : Server => serverKey c.1)
          (fun k => decide (k ≠ serverKey server.1)) _
      rw [walkFrom, if_neg hseen, List.filter_cons_of_pos (by simpa using hseen), distinctBy, hnext]
      by_cases hexcluded : w.excluded (serverKey server.1) = true
      · rw [if_pos hexcluded, List.filter_cons_of_neg (by simp [dialable, hexcluded])]
      · rw [if_neg hexcluded]
        by_cases hnone : (usableProtocols server.1 w.priorities).isEmpty = true
        · rw [if_pos hnone, List.filter_cons_of_neg (by simp [dialable, hnone])]
        · rw [if_neg hnone, List.filter_cons_of_pos (by simp [dialable, hexcluded, hnone])]

/-- **A run dials the first candidate of each server**, where it can be dialled. -/
theorem dials_eq (all : List AutoModeCandidate) :
    dials w all = (distinctBy (fun c : Server => serverKey c.1) (runOrder w all)).filter
      (dialable w) := by
  rw [dials, walkFrom_eq]
  simp

end Walk

end SoftEther.AutoMode
