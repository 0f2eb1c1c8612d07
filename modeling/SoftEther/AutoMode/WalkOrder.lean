import Mathlib.Data.List.MinMax
import Mathlib.Data.List.Perm.Basic
import SoftEther.AutoMode.Wedges

namespace SoftEther.AutoMode

open Lib

/-!
# The list that a run walks

The servers that a run keeps are rearranged twice more before they are dialled: one server is
explored in second place, and those that failed lately on this network wait behind the others.
The list holds objects; `T` is their type and `server` the candidate of one.

* `withSingleExploration` — one server moves to the second place;
* `inFailureCooldown`, `deferCooling` — the servers that cool down go last, by two passes that
  read the clock for each server;
* `walkOrder` — the list that is walked;
* `WalksKept` — it holds each kept server once, and is arranged as it should be;
* `walksKept_iff` — this needs a clock that puts no server between the two passes.
-/

/-! ### The two passes -/

def EXPLORATION_FIRST_EVERY_K_RUNS : ℕ := 0
def FAILURE_COOLDOWN_MS : ℤ := 30 * 60 * 1000
def Long.MAX_VALUE : ℤ := 9223372036854775807

section Passes

variable {T : Type*}

/-- The index of the server to explore: not the first one, eligible, and of the oldest attempt. -/
def exploreAt (startAt : ℕ) (key : T → JavaString) (eligible : T → Bool) (ageKey : T → Option ℤ)
    (servers : List T) : Option ℕ :=
  let candidates := (List.range' (startAt + 1) (servers.length - (startAt + 1))).filter fun i =>
    (servers[i]?).any fun c => (servers[startAt]?).all (key · != key c) && eligible c
  -- of the instances for the order of the integers, the one that computes
  @List.argmin ℕ ℤ Int.instLinearOrder.toPreorder Int.decLt
    (fun i => ((servers[i]?).bind ageKey).getD Long.MAX_VALUE) candidates

/-- `withSingleExploration`. -/
def withSingleExploration (startAt : ℕ) (key : T → JavaString) (eligible : T → Bool)
    (ageKey : T → Option ℤ) (firstEveryK runIndex : ℕ) (servers : List T) : List T :=
  if servers.length ≤ startAt + 1 then servers
  else
    match exploreAt startAt key eligible ageKey servers with
    | none => servers
    | some i =>
      let target := if firstEveryK > 0 && runIndex % firstEveryK == 0 then startAt else startAt + 1
      match servers[i]? with
      | none => servers
      | some candidate => (servers.eraseIdx i).insertIdx target candidate

/-- The deferral: `first c` and `second c` are what the clock reads when `c` is looked at. -/
def deferCooling (cooling : T → ℤ → Bool) (first second : T → ℤ) (servers : List T) : List T :=
  let coolingDown := servers.filter fun c => cooling c (first c)
  if !coolingDown.isEmpty && decide (coolingDown.length < servers.length) then
    servers.filter (fun c => !cooling c (second c)) ++ coolingDown
  else servers

end Passes

/-- `inFailureCooldown`. -/
def inFailureCooldown (history : History) (network : NetworkType) (c : AutoModeCandidate)
    (now : ℤ) : Bool :=
  match history.viewOf c with
  | none => false
  | some h =>
    match h.lastFailureAtOn network with
    | none => false
    | some failedAt => decide (now - failedAt < FAILURE_COOLDOWN_MS)

/-- A server that was attempted, and has no success on this network. -/
def explorable (history : History) (network : NetworkType) (c : AutoModeCandidate) : Bool :=
  match history.viewOf c with
  | none => false
  | some h => h.hasHistory && h.successesOn network == 0 && h.lastAttemptAt.isSome

section Walk

variable {T : Type*} (server : T → AutoModeCandidate) (history : History) (network : NetworkType)

/-- The kept servers, after the exploration pass. -/
def explored (startAt runIndex : ℕ) (kept : List T) : List T :=
  withSingleExploration startAt (fun c => serverKey (server c))
    (fun c => explorable history network (server c))
    (fun c => (history.viewOf (server c)).bind ServerHistoryView.lastAttemptAt)
    EXPLORATION_FIRST_EVERY_K_RUNS runIndex kept

/-- **The list that is walked.** -/
def walkOrder (startAt runIndex : ℕ) (first second : T → ℤ) (kept : List T) : List T :=
  deferCooling (fun c now => inFailureCooldown history network (server c) now) first second
    (explored server history network startAt runIndex kept)

end Walk

/-! ### What the passes do -/

section Facts

variable {T : Type*} {xs servers : List T}

/-- A list, cut at two of its elements. -/
theorem exists_cut {a i : ℕ} (ha : a < i) (hi : i < xs.length) :
    ∃ front first between c rest, xs = front ++ first :: (between ++ c :: rest) ∧
      front.length = a ∧ between.length = i - (a + 1) := by
  have hfirst : a < xs.length := by omega
  refine ⟨xs.take a, xs[a], (xs.drop (a + 1)).take (i - (a + 1)), xs[i], xs.drop (i + 1),
    ?_, ?_, ?_⟩
  · have hdrop : (xs.drop (a + 1)).drop (i - (a + 1)) = xs[i] :: xs.drop (i + 1) := by
      rw [List.drop_drop, show a + 1 + (i - (a + 1)) = i by omega, List.drop_eq_getElem_cons hi]
    rw [← hdrop, List.take_append_drop, ← List.drop_eq_getElem_cons hfirst,
      List.take_append_drop]
  · rw [List.length_take]
    omega
  · rw [List.length_take, List.length_drop]
    omega

theorem eraseIdx_append (front rest : List T) (c : T) :
    (front ++ c :: rest).eraseIdx front.length = front ++ rest := by
  simp [List.eraseIdx_append_of_length_le]

theorem insertIdx_append (front rest : List T) (c : T) :
    (front ++ rest).insertIdx front.length c = front ++ c :: rest := by
  induction front with
  | nil => rfl
  | cons a front ih => simpa using ih

/-- One server, and only one, came from behind to the place after the first. -/
def MovesToSecond (startAt : ℕ) (kept explored : List T) : Prop :=
  ∃ front first between c rest, front.length = startAt ∧
    kept = front ++ first :: (between ++ c :: rest) ∧
    explored = front ++ first :: c :: (between ++ rest)

theorem MovesToSecond.perm {startAt : ℕ} {kept explored : List T}
    (h : MovesToSecond startAt kept explored) : explored.Perm kept := by
  obtain ⟨front, first, between, c, rest, -, rfl, rfl⟩ := h
  exact (List.Perm.cons first List.perm_middle.symm).append_left front

/-- The index that is explored is behind the first place. -/
theorem exploreAt_spec {startAt i : ℕ} {key : T → JavaString} {eligible : T → Bool}
    {ageKey : T → Option ℤ} (h : exploreAt startAt key eligible ageKey servers = some i) :
    startAt < i ∧ i < servers.length := by
  have hmem := List.argmin_mem (Option.mem_def.mpr h)
  rw [List.mem_filter, List.mem_range'_1] at hmem
  omega

theorem withSingleExploration_spec (startAt : ℕ) (key : T → JavaString) (eligible : T → Bool)
    (ageKey : T → Option ℤ) (runIndex : ℕ) (servers : List T) :
    withSingleExploration startAt key eligible ageKey 0 runIndex servers = servers ∨
      MovesToSecond startAt servers
        (withSingleExploration startAt key eligible ageKey 0 runIndex servers) := by
  unfold withSingleExploration
  by_cases hshort : servers.length ≤ startAt + 1
  · rw [if_pos hshort]
    exact Or.inl rfl
  · rw [if_neg hshort]
    cases hat : exploreAt startAt key eligible ageKey servers with
    | none => exact Or.inl rfl
    | some i =>
      obtain ⟨hstart, hi⟩ := exploreAt_spec hat
      obtain ⟨front, first, between, c, rest, hcut, hfront, hbetween⟩ := exists_cut hstart hi
      right
      refine ⟨front, first, between, c, rest, hfront, hcut, ?_⟩
      have hi' : i = (front ++ first :: between).length := by
        simp only [List.length_append, List.length_cons, hfront, hbetween]
        omega
      have hcut' : servers = (front ++ first :: between) ++ c :: rest := by simp [hcut]
      have hread : servers[i]? = some c := by
        rw [hcut', hi']
        simp
      have herase : servers.eraseIdx i = (front ++ [first]) ++ (between ++ rest) := by
        rw [hcut', hi', eraseIdx_append]
        simp
      have htarget : startAt + 1 = (front ++ [first]).length := by simp [hfront]
      simp only [hread, gt_iff_lt, lt_self_iff_false, decide_false, Bool.false_and,
        Bool.false_eq_true, if_false]
      rw [herase, htarget, insertIdx_append]
      simp

/-- **The two passes of the deferral.** They keep each server once exactly when no server is
    looked upon differently by them. -/
theorem filter_append_filter_perm_iff {p q : T → Bool} (hxs : xs.Nodup) :
    (xs.filter (fun c => !q c) ++ xs.filter p).Perm xs ↔ ∀ c ∈ xs, p c = q c := by
  induction xs with
  | nil => simp
  | cons x xs ih =>
    obtain ⟨hx, hxs⟩ := List.nodup_cons.mp hxs
    rw [List.forall_mem_cons]
    cases hp : p x with
    | true =>
      cases hq : q x with
      | true =>
        -- `x` is put behind, where it was left out
        rw [List.filter_cons_of_neg (by simp [hq]), List.filter_cons_of_pos hp]
        simpa using (List.perm_middle.congr_left _).trans ((List.perm_cons x).trans (ih hxs))
      | false =>
        -- `x` is kept in front and put behind as well
        refine iff_of_false ?_ (by simp)
        intro hperm
        rw [List.filter_cons_of_pos (by simp [hq]), List.filter_cons_of_pos hp] at hperm
        have hnodup : (x :: xs).Nodup := List.nodup_cons.mpr ⟨hx, hxs⟩
        have htwice := hperm.nodup_iff.mpr hnodup
        rw [List.cons_append, List.nodup_cons] at htwice
        exact htwice.1 (by simp)
    | false =>
      cases hq : q x with
      | true =>
        -- `x` is left out and not put behind
        refine iff_of_false ?_ (by simp)
        intro hperm
        rw [List.filter_cons_of_neg (by simp [hq]), List.filter_cons_of_neg (by simp [hp])] at hperm
        have hmem := hperm.mem_iff.mpr (List.mem_cons_self (a := x))
        rw [List.mem_append, List.mem_filter, List.mem_filter] at hmem
        exact hx (hmem.elim And.left And.left)
      | false =>
        rw [List.filter_cons_of_pos (by simp [hq]), List.filter_cons_of_neg (by simp [hp])]
        simpa using (List.perm_cons x).trans (ih hxs)

end Facts

section Walk

variable {T : Type*} (server : T → AutoModeCandidate) (history : History) (network : NetworkType)

theorem explored_spec (startAt runIndex : ℕ) (kept : List T) :
    explored server history network startAt runIndex kept = kept ∨
      MovesToSecond startAt kept (explored server history network startAt runIndex kept) :=
  withSingleExploration_spec _ _ _ _ _ _

theorem explored_perm (startAt runIndex : ℕ) (kept : List T) :
    (explored server history network startAt runIndex kept).Perm kept := by
  rcases explored_spec server history network startAt runIndex kept with h | h
  · exact .of_eq h
  · exact h.perm

/-- **What the walked list should be**: it holds each kept server once; at most one server was
    explored, in second place; and those that cool down come after the others, in both groups in
    the order they had. -/
structure WalksKept (startAt runIndex : ℕ) (first second : T → ℤ) (kept : List T) : Prop where
  once : (walkOrder server history network startAt runIndex first second kept).Perm kept
  explores : explored server history network startAt runIndex kept = kept ∨
    MovesToSecond startAt kept (explored server history network startAt runIndex kept)
  defers : walkOrder server history network startAt runIndex first second kept =
    (explored server history network startAt runIndex kept).filter
        (fun c => !inFailureCooldown history network (server c) (first c)) ++
      (explored server history network startAt runIndex kept).filter
        (fun c => inFailureCooldown history network (server c) (first c))

/-- The clock puts no server between the two passes, where there are two. -/
def SteadyCooldown (first second : T → ℤ) (kept : List T) : Prop :=
  (∀ c ∈ kept, inFailureCooldown history network (server c) (first c) = false) ∨
  (∀ c ∈ kept, inFailureCooldown history network (server c) (first c) = true) ∨
  ∀ c ∈ kept, inFailureCooldown history network (server c) (first c) =
    inFailureCooldown history network (server c) (second c)

variable {first second : T → ℤ}

theorem deferCooling_of_uniform {cooling : T → ℤ → Bool} {xs : List T}
    (h : (∀ c ∈ xs, cooling c (first c) = false) ∨ (∀ c ∈ xs, cooling c (first c) = true)) :
    deferCooling cooling first second xs = xs := by
  unfold deferCooling
  rcases h with hnone | hall
  · rw [List.filter_eq_nil_iff.mpr (by simpa using hnone)]
    rfl
  · rw [List.filter_eq_self.mpr hall]
    simp

/-- When some servers cool down and some do not, there are two passes. -/
theorem deferCooling_of_mixed {cooling : T → ℤ → Bool} {xs : List T}
    (hnone : ¬ ∀ c ∈ xs, cooling c (first c) = false)
    (hall : ¬ ∀ c ∈ xs, cooling c (first c) = true) : deferCooling cooling first second xs =
      xs.filter (fun c => !cooling c (second c)) ++ xs.filter fun c => cooling c (first c) := by
  unfold deferCooling
  rw [if_pos]
  rw [Bool.and_eq_true, decide_eq_true_eq, Bool.not_eq_true', List.isEmpty_eq_false_iff]
  constructor
  · intro hnil
    exact hnone (by simpa using List.filter_eq_nil_iff.mp hnil)
  · rcases (List.length_filter_le (fun c => cooling c (first c)) xs).lt_or_eq with hlt | heq
    · exact hlt
    · exact absurd (List.length_filter_eq_length_iff.mp heq) hall

variable {server history network} in
theorem walkOrder_of_uniform {startAt runIndex : ℕ} (second : T → ℤ) {kept : List T}
    (h : (∀ c ∈ explored server history network startAt runIndex kept,
        inFailureCooldown history network (server c) (first c) = false) ∨
      ∀ c ∈ explored server history network startAt runIndex kept,
        inFailureCooldown history network (server c) (first c) = true) :
    walkOrder server history network startAt runIndex first second kept =
      explored server history network startAt runIndex kept :=
  deferCooling_of_uniform h

theorem walksKept_of_nodup {startAt runIndex : ℕ} {kept : List T} (hkept : kept.Nodup) :
    WalksKept server history network startAt runIndex first second kept ↔
      SteadyCooldown server history network first second kept := by
  have hperm := explored_perm server history network startAt runIndex kept
  have hnodup := hperm.nodup_iff.mpr hkept
  unfold SteadyCooldown
  -- the kept servers are those of the explored list
  simp only [← hperm.mem_iff]
  by_cases hnone : ∀ c ∈ explored server history network startAt runIndex kept,
      inFailureCooldown history network (server c) (first c) = false
  · have hwalk := walkOrder_of_uniform second (Or.inl hnone)
    refine iff_of_true ⟨?_, explored_spec server history network startAt runIndex kept, ?_⟩
      (Or.inl hnone)
    · rw [hwalk]
      exact hperm
    · rw [hwalk, List.filter_eq_self.mpr (by simpa using hnone),
        List.filter_eq_nil_iff.mpr (by simpa using hnone), List.append_nil]
  · by_cases hall : ∀ c ∈ explored server history network startAt runIndex kept,
        inFailureCooldown history network (server c) (first c) = true
    · have hwalk := walkOrder_of_uniform second (Or.inr hall)
      refine iff_of_true ⟨?_, explored_spec server history network startAt runIndex kept, ?_⟩
        (Or.inr (Or.inl hall))
      · rw [hwalk]
        exact hperm
      · rw [hwalk, List.filter_eq_nil_iff.mpr (by simpa using hall),
          List.filter_eq_self.mpr hall, List.nil_append]
    · have hwalk : walkOrder server history network startAt runIndex first second kept = _ :=
        deferCooling_of_mixed hnone hall
      -- the two passes, for servers that occur once
      have hpasses : (walkOrder server history network startAt runIndex first second kept).Perm
          (explored server history network startAt runIndex kept) ↔
          ∀ c ∈ explored server history network startAt runIndex kept,
            inFailureCooldown history network (server c) (first c) =
              inFailureCooldown history network (server c) (second c) := by
        rw [hwalk]
        exact filter_append_filter_perm_iff hnodup
      constructor
      · intro h
        exact Or.inr (Or.inr (hpasses.mp (h.once.trans hperm.symm)))
      · rintro (h | h | h)
        · exact absurd h hnone
        · exact absurd h hall
        · refine ⟨(hpasses.mpr h).trans hperm, explored_spec server history network startAt
            runIndex kept, ?_⟩
          rw [hwalk]
          congr 1
          exact List.filter_congr fun c hc => by rw [h c hc]

end Walk

/-! ### The walked list of a run -/

section Run

variable (history : History) (network : NetworkType) (startAt runIndex : ℕ)
  (first second : ℕ → ℤ) (kept : List AutoModeCandidate)

theorem nodup_zipIdx : kept.zipIdx.Nodup := by
  have hplaces : (kept.zipIdx.map Prod.snd).Nodup := by
    rw [List.zipIdx_map_snd]
    exact List.nodup_range'
  exact hplaces.of_map

/-- **The walked list holds each kept server once**, explores at most one and defers those that
    cool down, exactly when the clock puts no server between the two passes: none of the servers
    cools down at the first pass, or all of them do, or none changes from one pass to the other.
    The servers are told apart by their places in the kept list, and `first i` and `second i` are
    what the clock reads for the one at place `i`. -/
theorem walksKept_iff :
    WalksKept Prod.fst history network startAt runIndex (fun c => first c.2) (fun c => second c.2)
        kept.zipIdx ↔
      SteadyCooldown Prod.fst history network (fun c => first c.2) (fun c => second c.2)
        kept.zipIdx :=
  walksKept_of_nodup Prod.fst history network (nodup_zipIdx kept)

end Run

/-- Two servers. -/
def twoServers : List AutoModeCandidate :=
  [{ hostname := some (JavaString.ofChars ['a']), ip := none, speed := 0, ping := 0, sessions := 0,
     score := 0 },
   { hostname := some (JavaString.ofChars ['b']), ip := none, speed := 0, ping := 0, sessions := 0,
     score := 0 }]

/-- Both have failed on Wi-Fi, the second one a second later. -/
def twoFailures : History :=
  [(JavaString.ofChars ['a'], { wifiLastFailureAt := some 0 }),
   (JavaString.ofChars ['b'], { wifiLastFailureAt := some 1000 })]

/-- The second server's cooldown expires between the two passes: it is in the list twice.  With a
    clock that is set back, the first one begins to cool down between them: it is in neither
    part. -/
theorem expiring_not_once :
    (¬ WalksKept Prod.fst twoFailures .WIFI 0 0 (fun _ => 1800000)
        (fun _ => 1801000) twoServers.zipIdx ∧
      (walkOrder Prod.fst twoFailures .WIFI 0 0 (fun _ => 1800000) (fun _ => 1801000)
        twoServers.zipIdx).map Prod.snd = [0, 1, 1]) ∧
    (walkOrder Prod.fst twoFailures .WIFI 0 0 (fun _ => 1800000) (fun _ => 0)
      twoServers.zipIdx).map Prod.snd = [1] := by
  refine ⟨⟨?_, by decide⟩, by decide⟩
  intro h
  have hlen := h.once.length_eq
  revert hlen
  decide

end SoftEther.AutoMode
