import SoftEther.AutoMode.RunOrder

namespace SoftEther.AutoMode

open Lib

/-!
# The order of a reconnect (`onUnexpectedDisconnect`)

A reconnect passes its run the server that was lost and, behind it, the servers that the lost run
had not attempted. The run takes the list through the same passes as a fresh one.

* `reconnectServers` — the list that is passed;
* `DialsInOrder` — the lost server is dialled first, and the others in the order of the list;
* `Arranged` — the list is such that no pass of the run has anything to move;
* `dialsInOrder_of_arranged` — then the run dials in order;
* `better_server_first` — otherwise it need not.
-/

/-! ### The list that is passed -/

/-- `overrideServers` of `onUnexpectedDisconnect`; `none` leaves the provider's list to the run. -/
def reconnectServers (dropped : Option AutoModeCandidate) (remaining : List AutoModeCandidate) :
    Option (List AutoModeCandidate) :=
  match dropped with
  | none => if remaining.isEmpty then none else some remaining
  | some d =>
    if remaining.isEmpty then some [d]
    else some (d :: remaining.filter fun it => !(it.ip == d.ip && it.hostname == d.hostname))

section Order

variable (w : RunReading)

/-- **A reconnect dials in order.** If the gate keeps the lost server and it can be dialled, it is
    dialled first; and the servers are dialled in the order of the list that was passed. -/
structure DialsInOrder (dropped : Option AutoModeCandidate) (all : List AutoModeCandidate) :
    Prop where
  first : ∀ d ∈ dropped, ∀ c ∈ keptServers w all,
    c.1 = withActiveRtt w.activeRtt w.priorities d → dialable w c = true →
      (dials w all).head?.map Prod.fst = some (withActiveRtt w.activeRtt w.priorities d)
  order : ((dials w all).map Prod.fst).Sublist (all.map (withActiveRtt w.activeRtt w.priorities))

/-- The server may be promoted. -/
def promotable (c : AutoModeCandidate) : Bool :=
  !(w.history.isEmpty || w.network == .UNKNOWN) &&
    isKnownGood w.history w.network (w.now - KNOWN_GOOD_WINDOW_MS) c

/-- The server cools down, at the first pass of the deferral. -/
def coolsDown (c : Server) : Bool :=
  inFailureCooldown w.history w.network c.1 (w.first c.2)

/-- The server may be explored, behind the first server of the list. -/
def mayExplore (head c : Server) : Bool :=
  serverKey head.1 != serverKey c.1 && explorable w.history w.network c.1

/-- The last attempt of the server, `Long.MAX_VALUE` without one. -/
def attemptedAt (c : Server) : ℤ :=
  ((w.history.viewOf c.1).bind ServerHistoryView.lastAttemptAt).getD Long.MAX_VALUE

/-- **No pass has anything to move.** In `all`, with the round-trip times of the run: the servers
    are in the order of quality, and those of equal quality as their tie-breaks put them; at most
    three servers that are known to be good lead the list, and no others of them follow when they
    are fewer; those that are demoted come last. Of the servers that the gate keeps, the one to
    explore, if there is one, is in second place, and those that cool down come last. -/
structure Arranged (all : List AutoModeCandidate) : Prop where
  quality : (all.map (withActiveRtt w.activeRtt w.priorities)).Pairwise fun a b =>
    (byQuality a b).isLE = true
  ties : ∀ run ∈ levelRuns byQuality (all.map (withActiveRtt w.activeRtt w.priorities)),
    settled w.history w.network run = run
  held : (levelRuns byQuality (all.map (withActiveRtt w.activeRtt w.priorities))).IsChain
    (HoldsBack w.history w.network)
  knownGood : ∃ good rest, all.map (withActiveRtt w.activeRtt w.priorities) = good ++ rest ∧
    (∀ c ∈ good, promotable w c = true) ∧ good.length ≤ KNOWN_GOOD_MAX ∧
      (good.length = KNOWN_GOOD_MAX ∨ ∀ c ∈ rest, promotable w c = false)
  demoted : (all.map (withActiveRtt w.activeRtt w.priorities)).Pairwise fun a b =>
    isDemoted w.history w.network a = true → isDemoted w.history w.network b = true
  explored : ∀ a b rest, keptServers w all = a :: b :: rest → ∀ c ∈ rest,
    mayExplore w a c = true → mayExplore w a b = true ∧ attemptedAt w b ≤ attemptedAt w c
  cooling : (keptServers w all).Pairwise fun a b => coolsDown w a = true → coolsDown w b = true
  steady : SteadyCooldown Prod.fst w.history w.network (fun c => w.first c.2)
    (fun c => w.second c.2) (keptServers w all)

end Order

/-! ### Passes that move nothing -/

section Fixed

variable {T : Type*}

/-- A list that ends with the rows of `p` is left alone by the partition. -/
theorem partition_of_pairwise {p : T → Bool} {xs : List T}
    (h : xs.Pairwise fun a b => p a = true → p b = true) :
    xs.filter (fun c => !p c) ++ xs.filter p = xs := by
  induction xs with
  | nil => rfl
  | cons x xs ih =>
    obtain ⟨hx, hxs⟩ := List.pairwise_cons.mp h
    cases hp : p x with
    | false =>
      rw [List.filter_cons_of_pos (by simp [hp]), List.filter_cons_of_neg (by simp [hp]),
        List.cons_append, ih hxs]
    | true =>
      -- the rest is all `p`
      have hall : ∀ c ∈ xs, p c = true := fun c hc => hx c hc hp
      have hnone : (x :: xs).filter (fun c => !p c) = [] := by
        rw [List.filter_eq_nil_iff]
        intro c hc
        rcases List.mem_cons.mp hc with rfl | hc
        · simp [hp]
        · simp [hall c hc]
      rw [hnone, List.nil_append, List.filter_eq_self]
      intro c hc
      rcases List.mem_cons.mp hc with rfl | hc
      · exact hp
      · exact hall c hc

theorem splitFirst_of_none {p : AutoModeCandidate → Bool} {xs : List AutoModeCandidate}
    (h : ∀ c ∈ xs, p c = false) (k : ℕ) : splitFirst p k xs = ([], xs) := by
  induction xs with
  | nil => cases k <;> rfl
  | cons x xs ih =>
    cases k with
    | zero => rfl
    | succ k =>
      have hx : p x = false := h x List.mem_cons_self
      rw [splitFirst, if_neg (by simp [hx]), ih fun c hc => h c (List.mem_cons_of_mem x hc)]

/-- The promotion moves nobody when those that it would promote lead the list. -/
theorem splitFirst_append {p : AutoModeCandidate → Bool} {good rest : List AutoModeCandidate}
    {k : ℕ} (hgood : ∀ c ∈ good, p c = true) (hlen : good.length ≤ k)
    (hrest : good.length = k ∨ ∀ c ∈ rest, p c = false) :
    splitFirst p k (good ++ rest) = (good, rest) := by
  induction good generalizing k with
  | nil =>
    rcases hrest with hzero | hnone
    · rw [← hzero, List.nil_append, List.length_nil]
      cases rest <;> rfl
    · exact splitFirst_of_none hnone k
  | cons x good ih =>
    cases k with
    | zero => simp at hlen
    | succ k =>
      have hx : p x = true := hgood x List.mem_cons_self
      have hnext := ih (fun c hc => hgood c (List.mem_cons_of_mem x hc)) (by simpa using hlen)
        (by simpa using hrest)
      rw [List.cons_append, splitFirst, if_pos hx, hnext]

/-- A run that is arranged is its own quality order. -/
theorem qualityOrder_of_settled {history : History} {network : NetworkType}
    {all : List AutoModeCandidate}
    (hsorted : all.Pairwise fun a b => (byQuality a b).isLE = true)
    (hties : ∀ run ∈ levelRuns byQuality all, settled history network run = run)
    (hheld : (levelRuns byQuality all).IsChain (HoldsBack history network)) :
    qualityOrder history network all = all := by
  have hsame : sortedWith byQuality all = all := List.mergeSort_of_pairwise hsorted
  have hflat : (levelRuns byQuality all).flatten = all := by rw [flatten_levelRuns, hsame]
  have hruns := runs_levelRuns all
  have hfuel : (levelRuns byQuality all).length ≤ all.length := by
    have hle := hruns.length_le
    rwa [hflat] at hle
  have hall : AllHeld history network ([] : List AutoModeCandidate).getLast?
      (levelRuns byQuality all) := allHeld_none_iff.mpr hheld
  have hfinal := (tieBreaks_of_allHeld hruns hall hfuel).1
  rw [List.nil_append, List.nil_append, hflat, List.map_congr_left hties, List.map_id'] at hfinal
  rw [qualityOrder, hsame]
  exact hfinal.trans hflat

theorem argmin_cons_of_le {α β : Type*} [LinearOrder β] {f : α → β} {i : α} {places : List α}
    (h : ∀ j ∈ places, f i ≤ f j) : (i :: places).argmin f = some i := by
  rw [List.argmin_cons]
  cases hmin : places.argmin f with
  | none => rfl
  | some j =>
    have hle : f i ≤ f j := h j (List.argmin_mem (Option.mem_def.mpr hmin))
    exact if_neg (not_lt.mpr hle)

/-- The server to explore is the second one, if there is any. -/
theorem exploreAt_of_second {key : T → JavaString} {eligible : T → Bool} {ageKey : T → Option ℤ}
    {a b : T} {rest : List T}
    (h : ∀ c ∈ rest, key a ≠ key c → eligible c = true → (key a ≠ key b ∧ eligible b = true) ∧
      (ageKey b).getD Long.MAX_VALUE ≤ (ageKey c).getD Long.MAX_VALUE) :
    exploreAt 0 key eligible ageKey (a :: b :: rest) = none ∨
      exploreAt 0 key eligible ageKey (a :: b :: rest) = some 1 := by
  have hbehind : ∀ j ∈ (List.range' 2 rest.length).filter (fun i =>
      ((a :: b :: rest)[i]?).any fun c => ((a :: b :: rest)[0]?).all (key · != key c) &&
        eligible c), ∃ c ∈ rest, (a :: b :: rest)[j]? = some c ∧ key a ≠ key c ∧
          eligible c = true := by
    intro j hj
    obtain ⟨hplace, hmay⟩ := List.mem_filter.mp hj
    obtain ⟨k, rfl⟩ : ∃ k, j = k + 2 := ⟨j - 2, by have := (List.mem_range'_1.mp hplace).1; omega⟩
    simp only [List.getElem?_cons_succ, List.getElem?_cons_zero, Option.all_some,
      Option.any_eq_true, Bool.and_eq_true, bne_iff_ne] at hmay
    obtain ⟨c, hread, hkey, heligible⟩ := hmay
    exact ⟨c, List.mem_of_getElem? hread, by simpa using hread, hkey, heligible⟩
  have hplaces : List.range' (0 + 1) ((a :: b :: rest).length - (0 + 1)) =
      1 :: List.range' 2 rest.length := by simp [List.range'_succ]
  unfold exploreAt
  rw [hplaces]
  by_cases hb : key a ≠ key b ∧ eligible b = true
  · right
    rw [List.filter_cons_of_pos (by simpa using hb)]
    apply argmin_cons_of_le
    intro j hj
    obtain ⟨c, hc, hread, hkey, heligible⟩ := hbehind j hj
    simpa [hread] using (h c hc hkey heligible).2
  · left
    rw [List.filter_cons_of_neg (by simpa using hb), List.argmin_eq_none,
      List.eq_nil_iff_forall_not_mem]
    intro j hj
    obtain ⟨c, hc, -, hkey, heligible⟩ := hbehind j hj
    exact hb (h c hc hkey heligible).1

/-- The exploration moves nobody when the server to explore is in second place. -/
theorem withSingleExploration_of_second {key : T → JavaString} {eligible : T → Bool}
    {ageKey : T → Option ℤ} {runIndex : ℕ} {servers : List T}
    (h : ∀ a b rest, servers = a :: b :: rest → ∀ c ∈ rest,
      key a ≠ key c → eligible c = true → (key a ≠ key b ∧ eligible b = true) ∧
        (ageKey b).getD Long.MAX_VALUE ≤ (ageKey c).getD Long.MAX_VALUE) :
    withSingleExploration 0 key eligible ageKey 0 runIndex servers = servers := by
  unfold withSingleExploration
  match servers with
  | [] => rfl
  | [a] => rfl
  | a :: b :: rest =>
    have hlong : ¬ (a :: b :: rest).length ≤ 0 + 1 := by simp
    rw [if_neg hlong]
    rcases exploreAt_of_second (h a b rest rfl) with hat | hat
    · rw [hat]
    · rw [hat]
      rfl

/-- The deferral moves nobody when those that cool down are behind the others. -/
theorem deferCooling_of_pairwise {cooling : T → ℤ → Bool} {first second : T → ℤ} {xs : List T}
    (hlast : xs.Pairwise fun a b => cooling a (first a) = true → cooling b (first b) = true)
    (hsteady : (∀ c ∈ xs, cooling c (first c) = false) ∨ (∀ c ∈ xs, cooling c (first c) = true) ∨
      ∀ c ∈ xs, cooling c (first c) = cooling c (second c)) :
    deferCooling cooling first second xs = xs := by
  by_cases hnone : ∀ c ∈ xs, cooling c (first c) = false
  · exact deferCooling_of_uniform (Or.inl hnone)
  · by_cases hall : ∀ c ∈ xs, cooling c (first c) = true
    · exact deferCooling_of_uniform (Or.inr hall)
    · have hsame : ∀ c ∈ xs, cooling c (first c) = cooling c (second c) := by
        rcases hsteady with h | h | h
        · exact absurd h hnone
        · exact absurd h hall
        · exact h
      have hfront : xs.filter (fun c => !cooling c (second c)) =
          xs.filter fun c => !cooling c (first c) :=
        List.filter_congr fun c hc => by rw [hsame c hc]
      rw [deferCooling_of_mixed hnone hall, hfront]
      exact partition_of_pairwise hlast

end Fixed

/-! ### A run over an arranged list -/

section Run

variable {w : RunReading} {all : List AutoModeCandidate}

theorem promoteKnownGood_of_arranged (h : Arranged w all) :
    promoteKnownGood w.history w.network w.now (all.map (withActiveRtt w.activeRtt w.priorities)) =
      all.map (withActiveRtt w.activeRtt w.priorities) := by
  unfold promoteKnownGood
  by_cases hoff : (w.history.isEmpty || w.network == .UNKNOWN) = true
  · rw [if_pos hoff]
  · obtain ⟨good, rest, hcut, hgood, hlen, hrest⟩ := h.knownGood
    have hpromotable : ∀ c, promotable w c =
        isKnownGood w.history w.network (w.now - KNOWN_GOOD_WINDOW_MS) c := by
      intro c
      simp only [promotable, eq_false_of_ne_true hoff, Bool.not_false, Bool.true_and]
    simp only [hpromotable] at hgood hrest
    rw [if_neg hoff, hcut, splitFirst_append hgood hlen hrest]

theorem demoteUnhealthy_of_arranged (h : Arranged w all) :
    demoteUnhealthy w.history w.network (all.map (withActiveRtt w.activeRtt w.priorities)) =
      all.map (withActiveRtt w.activeRtt w.priorities) := by
  unfold demoteUnhealthy
  split_ifs
  · rfl
  · exact partition_of_pairwise h.demoted

/-- The ranked list is the one that was passed. -/
theorem rankedServers_of_arranged (h : Arranged w all) :
    rankedServers w all = (all.map (withActiveRtt w.activeRtt w.priorities)).zipIdx := by
  rw [rankedServers, sortedForAutoConnect, qualityOrder_of_settled h.quality h.ties h.held,
    promoteKnownGood_of_arranged h, demoteUnhealthy_of_arranged h]

/-- The list that is walked is what the gate keeps of it. -/
theorem runOrder_of_arranged (h : Arranged w all) : runOrder w all = keptServers w all := by
  have hexplored : explored Prod.fst w.history w.network 0 w.runIndex (keptServers w all) =
      keptServers w all := by
    apply withSingleExploration_of_second
    intro a b rest hkept c hc hkey heligible
    have hmay : mayExplore w a c = true := by simp [mayExplore, hkey, heligible]
    have hb := h.explored a b rest hkept c hc hmay
    simpa [mayExplore, attemptedAt] using hb
  rw [runOrder, walkOrder, hexplored]
  exact deferCooling_of_pairwise h.cooling h.steady

/-- The lost server, when it is kept, leads the kept list. -/
theorem keptServers_head {d : AutoModeCandidate} {rest : List AutoModeCandidate} {c : Server}
    (h : Arranged w (d :: rest))
    (hother : ∀ e ∈ rest, ¬(e.ip = d.ip ∧ e.hostname = d.hostname))
    (hkept : c ∈ keptServers w (d :: rest))
    (hc : c.1 = withActiveRtt w.activeRtt w.priorities d) :
    ∃ others, keptServers w (d :: rest) = c :: others := by
  have hsub : (keptServers w (d :: rest)).Sublist
      ((withActiveRtt w.activeRtt w.priorities d, 0) ::
        (rest.map (withActiveRtt w.activeRtt w.priorities)).zipIdx 1) := by
    have hranked := rankedServers_of_arranged h
    rw [List.map_cons, List.zipIdx_cons] at hranked
    rw [← hranked]
    exact gated_sublist
  -- no other server of the list has the address and the name of the lost one
  have hnot : c ∉ (rest.map (withActiveRtt w.activeRtt w.priorities)).zipIdx 1 := by
    intro hmem
    have hmem' : c.1 ∈ rest.map (withActiveRtt w.activeRtt w.priorities) := by
      have hmap := List.mem_map_of_mem (f := Prod.fst) hmem
      rwa [List.zipIdx_map_fst] at hmap
    obtain ⟨e, he, heq⟩ := List.mem_map.mp hmem'
    rw [hc] at heq
    have hip : (withActiveRtt w.activeRtt w.priorities e).ip =
        (withActiveRtt w.activeRtt w.priorities d).ip := by rw [heq]
    have hname : (withActiveRtt w.activeRtt w.priorities e).hostname =
        (withActiveRtt w.activeRtt w.priorities d).hostname := by rw [heq]
    exact hother e he ⟨hip, hname⟩
  rcases List.sublist_cons_iff.mp hsub with hbehind | ⟨others, hlist, hothers⟩
  · exact absurd (hbehind.mem hkept) hnot
  · refine ⟨others, ?_⟩
    rw [hlist] at hkept ⊢
    rcases List.mem_cons.mp hkept with heq | hmem
    · rw [heq]
    · exact absurd (hothers.mem hmem) hnot

end Run

/-- **A reconnect dials in order** when the list that is passed is arranged: the lost server first,
    if the gate keeps it and it can be dialled, and all of them in the order of the list. -/
theorem dialsInOrder_of_arranged (w : RunReading) (dropped : Option AutoModeCandidate)
    (remaining all : List AutoModeCandidate)
    (hpassed : reconnectServers dropped remaining = some all) (h : Arranged w all) :
    DialsInOrder w dropped all := by
  have hdials : dials w all =
      (distinctBy (fun c : Server => serverKey c.1) (keptServers w all)).filter (dialable w) := by
    rw [dials_eq, runOrder_of_arranged h]
  constructor
  · intro d hd c hkept hc hdial
    rw [Option.mem_def] at hd
    subst hd
    -- the lost server leads the list, and no other server of it is the same one
    obtain ⟨rest, rfl, hother⟩ : ∃ rest, all = d :: rest ∧
        ∀ e ∈ rest, ¬(e.ip = d.ip ∧ e.hostname = d.hostname) := by
      unfold reconnectServers at hpassed
      simp only at hpassed
      split_ifs at hpassed
      · exact ⟨[], (Option.some_inj.mp hpassed).symm, by simp⟩
      · refine ⟨_, (Option.some_inj.mp hpassed).symm, ?_⟩
        rintro e he ⟨hip, hname⟩
        simp [hip, hname] at he
    obtain ⟨others, hlist⟩ := keptServers_head h hother hkept hc
    rw [hdials, hlist, distinctBy, List.filter_cons_of_pos hdial, List.head?_cons, Option.map_some,
      hc]
  · have hsub : (dials w all).Sublist
        (all.map (withActiveRtt w.activeRtt w.priorities)).zipIdx := by
      rw [hdials, ← rankedServers_of_arranged h]
      exact List.filter_sublist.trans ((distinctBy_sublist _ _).trans gated_sublist)
    have hmap := hsub.map Prod.fst
    rwa [List.zipIdx_map_fst] at hmap

/-! ### A server of better quality behind the lost one -/

/-- A run over servers that SoftEther reaches over TCP, with nothing known about them. -/
def plainRun : RunReading := { priorities := [.SOFTETHER_TCP], reachabilityFilter := false }

/-- The server that was lost. -/
def lostServer : AutoModeCandidate := { tcpServer with speed := 100 }

/-- A server that the lost run had not attempted. -/
def fasterServer : AutoModeCandidate :=
  { tcpServer with ip := some (JavaString.ofChars ['c']), speed := 200 }

/-- The list is sorted again, and the server of better quality is dialled first. -/
theorem better_server_first :
    reconnectServers (some lostServer) [fasterServer] = some [lostServer, fasterServer] ∧
      (dials plainRun [lostServer, fasterServer]).map Prod.fst = [fasterServer, lostServer] ∧
      ¬ DialsInOrder plainRun (some lostServer) [lostServer, fasterServer] := by
  have hbetter : (byQuality lostServer fasterServer).isLE = false := by decide
  have hsorted : sortedWith byQuality [lostServer, fasterServer] = [fasterServer, lostServer] := by
    simp [sortedWith, List.mergeSort, List.MergeSort.Internal.splitInTwo,
      hbetter]
  have hranked : rankedServers plainRun [lostServer, fasterServer] =
      [(fasterServer, 0), (lostServer, 1)] := by
    have hsame : [lostServer, fasterServer].map
        (withActiveRtt plainRun.activeRtt plainRun.priorities) = [lostServer, fasterServer] := by
      decide
    rw [rankedServers, hsame, sortedForAutoConnect, qualityOrder, hsorted]
    decide
  have hdials : (dials plainRun [lostServer, fasterServer]).map Prod.fst =
      [fasterServer, lostServer] := by
    rw [dials, runOrder, keptServers, hranked]
    decide
  refine ⟨by decide, hdials, ?_⟩
  intro h
  have horder := h.order
  rw [hdials] at horder
  revert horder
  decide

/-- The lost server is the one of better quality. -/
theorem dialsInOrder_of_arranged_faster :
    DialsInOrder plainRun (some fasterServer) [fasterServer, lostServer] := by
  apply dialsInOrder_of_arranged plainRun (some fasterServer) [lostServer] _ (by decide)
  have hsame : [fasterServer, lostServer].map
      (withActiveRtt plainRun.activeRtt plainRun.priorities) = [fasterServer, lostServer] := by
    decide
  have hsorted : [fasterServer, lostServer].Pairwise fun a b => (byQuality a b).isLE = true := by
    decide
  have hruns : levelRuns byQuality [fasterServer, lostServer] = [[fasterServer], [lostServer]] := by
    rw [levelRuns, sortedWith, List.mergeSort_of_pairwise hsorted]
    decide
  -- nothing is known about any server
  have hview : ∀ c : AutoModeCandidate, plainRun.history.viewOf c = none := by
    intro c
    unfold History.viewOf
    split
    · rfl
    · split_ifs <;> rfl
  have hcool : ∀ c : Server, coolsDown plainRun c = false := by
    intro c
    simp only [coolsDown, inFailureCooldown, hview]
  refine ⟨?_, ?_, ?_, ?_, ?_, ?_, ?_, ?_⟩
  · rwa [hsame]
  · rw [hsame, hruns]
    decide
  · rw [hsame, hruns, List.isChain_pair]
    intro p _ bound _ first hfirst own hown
    rw [List.head?_cons, Option.mem_some_iff] at hfirst
    rw [← hfirst] at hown
    cases hown
  · refine ⟨[], [fasterServer, lostServer], hsame, by simp, by decide, Or.inr ?_⟩
    decide
  · rw [hsame]
    decide
  · intro a b rest _ c _ hmay
    simp [mayExplore, explorable, hview] at hmay
  · exact List.pairwise_iff_forall_sublist.mpr fun _ h => by simp [hcool] at h
  · exact Or.inl fun c _ => hcool c

end SoftEther.AutoMode
