import SoftEther.Connection.RaceWorkers

namespace SoftEther.Connection

open Lib

/-!
# Who wins the race

* `Arbitrated` — one winner at most, each handshake adopted or destroyed once, no payload adopted
  half written, the control block freed behind the last worker;
* `ParentInv` — the invariant of the parent's side, `ParentInv.next` what a step has to show for
  it;
* `Settles` — the threads come to an end;
* `race_arbitration` — every interleaving.

The compare-and-swap on `winner_published` lets either a worker publish or the parent give up.
-/

/-! ### The property -/

/-- The resources of worker `i` are destroyed once and never adopted. -/
def Discarded (x : Logged RaceState RaceEvent) (i : ℕ) (r : Resources) : Prop :=
  destroyedSsl i x.log = [r.ssl] ∧ destroyedCarriers i x.log = [r.carrier (x.state.type i)] ∧
    ∀ p ∈ adoptions x.log, p.1 ≠ i

/-- They are not destroyed, and adopted once by the time the parent returns. -/
def Promoted (x : Logged RaceState RaceEvent) (i : ℕ) (r : Resources) : Prop :=
  destroyedSsl i x.log = [] ∧ destroyedCarriers i x.log = [] ∧
    (x.state.parent = .returned → adoptions x.log = [(i, r.payload (x.state.type i))])

/-- **The race is arbitrated.** -/
structure Arbitrated (x : Logged RaceState RaceEvent) : Prop where
  /-- one adoption at most -/
  one_adopted : (adoptions x.log).length ≤ 1
  /-- what is adopted is all of a complete handshake, and its worker destroyed nothing -/
  adopted : ∀ p ∈ adoptions x.log, ∃ r, (x.state.pcs p.1).completed = some r ∧
    p.2 = r.payload (x.state.type p.1) ∧
    destroyedSsl p.1 x.log = [] ∧ destroyedCarriers p.1 x.log = []
  /-- nothing else is ever destroyed, nor twice -/
  destroyed : ∀ i, destroyedSsl i x.log <+: ((x.state.pcs i).completed.map Resources.ssl).toList ∧
    destroyedCarriers i x.log <+:
      ((x.state.pcs i).completed.map (Resources.carrier · (x.state.type i))).toList
  /-- when a worker has ended, its handshake is disposed of -/
  settled : ∀ i r, (x.state.pcs i).completed = some r → (x.state.pcs i).over = true →
    Discarded x i r ∨ Promoted x i r
  /-- a worker the parent has picked has written its payload -/
  written : ∀ i, x.state.winner = some i → ∃ r, (x.state.pcs i).completed = some r ∧
    (x.state.results i).toPayload = r.payload (x.state.type i)
  /-- behind the parent's return and the free no worker is left -/
  joined : x.state.freed = true ∨ x.state.parent = .returned → ∀ i, (x.state.pcs i).over = true

/-! ### The parent -/

variable {x : Logged RaceState RaceEvent}

namespace ParentPc

/-- The order in which the parent passes its places. -/
def stage : ParentPc → ℕ
  | .launch _ => 0
  | .poll | .pollPublished | .pollIndex => 1
  | .revoke => 2
  | .recheck => 3
  | .recheckIndex => 4
  | .cancel => 5
  | .join _ => 6
  | .snapshot => 7
  | .free => 8
  | .promote => 9
  | .returned => 10

/-- The workers that the parent is done with. -/
def joined (numTransports : ℕ) : ParentPc → ℕ
  | .join k => k
  | pc => if 7 ≤ pc.stage then numTransports else 0

theorem joined_eq_zero {pc : ParentPc} (h : pc.stage < 6) (numTransports : ℕ) :
    pc.joined numTransports = 0 := by
  cases pc with
  | join k => exact absurd h (by simp [stage])
  | snapshot => exact absurd h (by decide)
  | free => exact absurd h (by decide)
  | promote => exact absurd h (by decide)
  | returned => exact absurd h (by decide)
  | _ => rfl

end ParentPc

/-- **The parent's side**: a worker it has joined is over, the winner it holds has published, and
    once it has taken the right to publish back, there is a winner or nobody publishes. -/
structure ParentInv (x : Logged RaceState RaceEvent) : Prop where
  unlaunched : ∀ k, x.state.parent = .launch k → ∀ i, k ≤ i → x.state.pcs i = .idle
  created : ∀ i, x.state.control.created i = false → x.state.pcs i = .idle
  pointer : ∀ i, x.state.control.created i = true → x.state.control.exitedPtr i = some i
  detached : x.state.detachedCount = 0
  joined : ∀ i, i < x.state.parent.joined x.state.types.length → (x.state.pcs i).over = true
  winner : ∀ i, x.state.winner = some i → (x.state.pcs i).published = true
  reads : x.state.parent = .pollIndex ∨ x.state.parent = .recheckIndex →
    x.state.control.winnerPublished = .published
  decided : 3 ≤ x.state.parent.stage → x.state.control.winnerPublished ≠ .pending
  lost : 5 ≤ x.state.parent.stage → x.state.winner = none →
    x.state.control.winnerPublished = .abandoned
  copied : 8 ≤ x.state.parent.stage →
    x.state.copy = x.state.winner.map fun i => (x.state.results i).toPayload
  freed : x.state.freed = true → 7 ≤ x.state.parent.stage
  adopted : adoptions x.log =
    if x.state.parent = .returned then
      x.state.winner.toList.map fun i => (i, (x.state.results i).toPayload)
    else []

variable {e : Option RaceEvent} {s' : RaceState} {i : ℕ}

/-- What a worker's step is for the parent: nothing, or a move of a worker that is not over. -/
theorem WorkerEffect.frame {s : RaceState} (h : WorkerEffect s i s' e) : (s' = s ∧ e = none) ∨
      ∃ pc control exited, s' = s.moved i pc control exited ∧ (s.pcs i).over = false ∧
        ((s.pcs i).published = true → pc.published = true) ∧
        control.created = s.control.created ∧ control.exitedPtr = s.control.exitedPtr ∧
        (control.winnerPublished = s.control.winnerPublished ∨
          s.control.winnerPublished = .pending) ∧
        adoptions e.toList = [] := by
  cases h with
  | still hover => exact .inl ⟨rfl, rfl⟩
  | own pc exited hactive hidle hmarks hcompleted =>
    have hpublished : pc.published = (s.pcs i).published :=
      congrArg WorkerPc.Marks.published hmarks
    exact .inr ⟨pc, s.control, exited, rfl, hactive, fun hi => hpublished.trans hi, rfl, rfl,
      .inl rfl, rfl⟩
  | claims r hpc hfree =>
    exact .inr ⟨_, _, _, rfl, by rw [hpc]; rfl, by rw [hpc]; exact nofun, rfl, rfl, .inl rfl, rfl⟩
  | indexes r hpc =>
    exact .inr ⟨_, _, _, rfl, by rw [hpc]; rfl, by rw [hpc]; exact nofun, rfl, rfl, .inl rfl, rfl⟩
  | publishes r hpc hpending =>
    exact .inr ⟨_, _, _, rfl, by rw [hpc]; rfl, fun _ => rfl, rfl, rfl, .inr hpending, rfl⟩
  | destroysSsl r claimed hpc =>
    exact .inr ⟨_, _, _, rfl, by rw [hpc]; rfl, by rw [hpc]; exact nofun, rfl, rfl, .inl rfl, rfl⟩
  | destroysCarrier r claimed hpc =>
    exact .inr ⟨_, _, _, rfl, by rw [hpc]; rfl, by rw [hpc]; exact nofun, rfl, rfl, .inl rfl, rfl⟩

/-- From the snapshot on every worker is over. -/
theorem ParentInv.all_over (hw : WorkersInv x) (hp : ParentInv x)
    (h : 7 ≤ x.state.parent.stage) (i : ℕ) : (x.state.pcs i).over = true := by
  by_cases hi : x.state.pcs i = .idle
  · rw [hi]
    rfl
  · refine hp.joined i ?_
    have hrange := hw.range i hi
    unfold ParentPc.joined
    split
    · next hpc =>
      rw [hpc] at h
      exact absurd h (by simp [ParentPc.stage])
    · rw [if_pos h]
      exact hrange

/-- **A worker's step keeps the parent's side.** -/
theorem ParentInv.effect (hw : WorkersInv x) (hp : ParentInv x)
    (heffect : WorkerEffect x.state i s' e) : ParentInv ⟨s', e.toList ++ x.log⟩ := by
  rcases heffect.frame with ⟨rfl, rfl⟩ | ⟨pc, control, exited, rfl, hactive, hpublished, hcreated,
    hpointer, hdecided, hadoptions⟩
  · exact hp
  -- Whoever is idle or over is not the worker that moves.
  have hidle : ∀ j, x.state.pcs j = .idle → j ≠ i := by
    rintro j hj rfl
    rw [hj] at hactive
    cases hactive
  have hover : ∀ j, (x.state.pcs j).over = true → j ≠ i := by
    rintro j hj rfl
    rw [hj] at hactive
    cases hactive
  have hstage : ¬ 7 ≤ x.state.parent.stage := by
    intro hstage
    exact hover i (hp.all_over hw hstage i) rfl
  refine ⟨?_, ?_, ?_, hp.detached, ?_, ?_, ?_, ?_, ?_, ?_, ?_, ?_⟩
  · intro k hk j hkj
    have hj := hp.unlaunched k hk j hkj
    exact (moved_pcs_of_ne (hidle j hj) ..).trans hj
  · intro j hj
    have hj := hp.created j (hcreated ▸ hj)
    exact (moved_pcs_of_ne (hidle j hj) ..).trans hj
  · intro j hj
    exact (congrFun hpointer j).trans (hp.pointer j (hcreated ▸ hj))
  · intro j hj
    have hj := hp.joined j hj
    exact (congrArg WorkerPc.over (moved_pcs_of_ne (hover j hj) ..)).trans hj
  · intro j hj
    have hj := hp.winner j hj
    refine moved_forall (Q := fun k pc => k = j → pc.published = true) ?_ ?_ j rfl
    · rintro rfl
      exact hpublished hj
    · rintro k _ rfl
      exact hj
  · intro hreads
    have hwas := hp.reads hreads
    rcases hdecided with hsame | hpending
    · exact hsame.trans hwas
    · rw [hpending] at hwas
      cases hwas
  · intro h3
    have hwas := hp.decided h3
    rcases hdecided with hsame | hpending
    · exact fun hnow => hwas (hsame.symm.trans hnow)
    · exact absurd hpending hwas
  · intro h5 hnone
    have hwas := hp.lost h5 hnone
    rcases hdecided with hsame | hpending
    · exact hsame.trans hwas
    · rw [hpending] at hwas
      cases hwas
  · intro h8
    exact absurd (Nat.le_of_lt h8) hstage
  · exact hp.freed
  · have hreturned : x.state.parent ≠ .returned := by
      intro hreturned
      rw [hreturned] at hstage
      exact hstage (by decide)
    show adoptions (e.toList ++ x.log) = if x.state.parent = .returned then _ else []
    rw [if_neg hreturned]
    have hwas := hp.adopted
    rw [if_neg hreturned] at hwas
    rw [adoptions, List.filterMap_append, show e.toList.filterMap _ = [] from hadoptions]
    exact hwas

/-- **No worker is detached**: the pointer to its exit flag is there, so the parent waits in
    `pthread_join` until the worker is over. -/
theorem ParentInv.joinWorker (hp : ParentInv x) (k : ℕ) (ans : RaceAnswer) :
    joinWorker x.state k ans = x.state ∨
      (x.state.pcs k).over = true ∧
        joinWorker x.state k ans = { x.state with parent := .join (k + 1) } := by
  unfold Connection.joinWorker
  cases hcreated : x.state.control.created k with
  | false =>
    have hidle := hp.created k hcreated
    exact .inr ⟨by rw [hidle]; rfl, rfl⟩
  | true =>
    rw [hp.pointer k hcreated]
    simp only [Bool.not_true, Bool.false_eq_true, if_false]
    split_ifs with hover
    · exact .inr ⟨hover, rfl⟩
    · exact .inl rfl

/-- **The parent's step keeps the workers' side.** -/
theorem WorkersInv.parent (hw : WorkersInv x) (hp : ParentInv x) (ans : RaceAnswer) :
    WorkersInv ⟨(parentStep x.state ans).1, (parentStep x.state ans).2.toList ++ x.log⟩ := by
  -- A step that leaves the workers alone and does not publish.
  have hquiet : ∀ (s' : RaceState) log, s'.pcs = x.state.pcs → s'.results = x.state.results →
      s'.types = x.state.types → s'.control.winnerClaimed = x.state.control.winnerClaimed →
      s'.control.winnerIndex = x.state.control.winnerIndex →
      (s'.control.winnerPublished = .published ↔
        x.state.control.winnerPublished = .published) →
      (∀ i, destroyedSsl i log = destroyedSsl i x.log) →
      (∀ i, destroyedCarriers i log = destroyedCarriers i x.log) → WorkersInv ⟨s', log⟩ := by
    intro s' log hpcs hresults htypes hclaimed hindex hpublished hssl hcarriers
    have htype : s'.type = x.state.type := by
      funext i
      rw [RaceState.type, htypes]
      rfl
    refine hw.same ?_ hclaimed hindex hpublished hssl hcarriers ?_ ?_
    · intro i
      rw [hpcs, htype]
    · intro i
      rw [hpcs, hresults, htype]
      exact hw.results i
    · intro i
      rw [hpcs, htypes]
      exact hw.range i
  have hsame : ∀ s' : RaceState, s'.pcs = x.state.pcs → s'.results = x.state.results →
      s'.types = x.state.types → s'.control = x.state.control → WorkersInv ⟨s', x.log⟩ := by
    intro s' hpcs hresults htypes hcontrol
    exact hquiet s' x.log hpcs hresults htypes (by rw [hcontrol]) (by rw [hcontrol])
      (by rw [hcontrol]) (fun _ => rfl) (fun _ => rfl)
  unfold parentStep
  simp only
  cases hpc : x.state.parent with
  | launch k =>
    simp only
    split_ifs with hk hok
    · -- The new thread looks like no thread, and its result is still as it was allocated.
      have hidle := hp.unlaunched k hpc k (Nat.le_refl k)
      have hres : x.state.results k = WorkerPc.start.written (x.state.type k) := by
        rw [hw.results k, hidle]
        rfl
      have hmarks : (x.state.pcs k).marks (x.state.type k) =
          WorkerPc.start.marks (x.state.type k) := by
        rw [hidle]
        rfl
      have hmoved : WorkersInv ⟨x.state.moved k .start x.state.control x.state.exited, x.log⟩ := by
        refine hw.moved hk nofun id nofun (.inr rfl) nofun (fun hpub => ⟨hpub, ?_⟩) .inr ?_ ?_
        · rw [hidle]
          exact nofun
        · intro j
          split_ifs with hj
          · rw [hj, hw.ssl]
            exact congrArg WorkerPc.Marks.destroyedSsl hmarks
          · rfl
        · intro j
          split_ifs with hj
          · rw [hj, hw.carriers]
            exact congrArg WorkerPc.Marks.destroyedCarrier hmarks
          · rfl
      have hgoto : x.state.goto k .start =
          x.state.moved k .start x.state.control x.state.exited :=
        goto_eq_moved _ _ hres
      rw [hgoto]
      exact hmoved.same (fun _ => rfl) rfl rfl Iff.rfl (fun _ => rfl) (fun _ => rfl)
        hmoved.results hmoved.range
    · exact hquiet _ x.log rfl rfl rfl rfl rfl Iff.rfl (fun _ => rfl) (fun _ => rfl)
    · exact hsame _ rfl rfl rfl rfl
  | poll => exact hsame _ rfl rfl rfl rfl
  | pollPublished => exact hsame _ rfl rfl rfl rfl
  | pollIndex => exact hsame _ rfl rfl rfl rfl
  | revoke =>
    refine hquiet _ x.log rfl rfl rfl rfl rfl ?_ (fun _ => rfl) (fun _ => rfl)
    show (if _ then _ else _) = _ ↔ _
    split_ifs with hpending
    · rw [hpending]
      exact ⟨nofun, nofun⟩
    · exact Iff.rfl
  | recheck => exact hsame _ rfl rfl rfl rfl
  | recheckIndex => exact hsame _ rfl rfl rfl rfl
  | cancel =>
    exact hquiet _ x.log rfl rfl rfl rfl rfl Iff.rfl (fun _ => rfl) (fun _ => rfl)
  | join k =>
    simp only
    split_ifs with hk
    · rcases hp.joinWorker k ans with hstay | ⟨_, hnext⟩
      · rw [hstay]
        exact hw
      · rw [hnext]
        exact hsame _ rfl rfl rfl rfl
    · exact hsame _ rfl rfl rfl rfl
  | snapshot => exact hsame _ rfl rfl rfl rfl
  | free => exact hsame _ rfl rfl rfl rfl
  | promote =>
    simp only
    split
    · exact hquiet _ (_ :: x.log) rfl rfl rfl rfl rfl Iff.rfl (fun _ => rfl) (fun _ => rfl)
    · exact hsame _ rfl rfl rfl rfl
  | returned => exact hw

/-- The winner that the parent reads behind a publication. -/
theorem WorkersInv.raceWinner (hw : WorkersInv x)
    (hpublished : x.state.control.winnerPublished = .published) :
    ∃ i, raceWinner x.state.types.length x.state.control.winnerIndex = some i ∧
      (x.state.pcs i).published = true := by
  obtain ⟨i, hi⟩ := hw.publisher hpublished
  have hindex := hw.indexed i (WorkerPc.published_spec .tcp hi).1
  have hlt : i < x.state.types.length := by
    refine hw.range i ?_
    intro hidle
    rw [hidle] at hi
    cases hi
  refine ⟨i, ?_, hi⟩
  rw [hindex, Connection.raceWinner, if_pos ⟨Int.natCast_nonneg i, Int.ofNat_lt.mpr hlt⟩,
    Int.toNat_natCast]

/-- **What the parent has to show** for its side when it goes on to a place behind the launches and
    before its return, and leaves the workers alone. -/
theorem ParentInv.next (hp : ParentInv x) (hpcs : s'.pcs = x.state.pcs)
    (hcreated : s'.control.created = x.state.control.created)
    (hpointer : s'.control.exitedPtr = x.state.control.exitedPtr)
    (hdetached : s'.detachedCount = x.state.detachedCount) (hactive : x.state.parent ≠ .returned)
    (hreturned : s'.parent ≠ .returned) (hlaunch : ∀ k, s'.parent ≠ .launch k)
    (hjoined : ∀ i, i < s'.parent.joined s'.types.length → (s'.pcs i).over = true)
    (hwinner : ∀ i, s'.winner = some i → (s'.pcs i).published = true)
    (hreads : s'.parent = .pollIndex ∨ s'.parent = .recheckIndex →
      s'.control.winnerPublished = .published)
    (hdecided : 3 ≤ s'.parent.stage → s'.control.winnerPublished ≠ .pending)
    (hlost : 5 ≤ s'.parent.stage → s'.winner = none → s'.control.winnerPublished = .abandoned)
    (hcopied : 8 ≤ s'.parent.stage →
      s'.copy = s'.winner.map fun i => (s'.results i).toPayload)
    (hfreed : s'.freed = true → 7 ≤ s'.parent.stage) : ParentInv ⟨s', x.log⟩ where
  unlaunched := fun k hk => absurd hk (hlaunch k)
  created := by
    intro i hi
    show s'.pcs i = .idle
    rw [hpcs]
    exact hp.created i (hcreated ▸ hi)
  pointer := by
    intro i hi
    show s'.control.exitedPtr i = some i
    rw [hpointer]
    exact hp.pointer i (hcreated ▸ hi)
  detached := hdetached.trans hp.detached
  joined := hjoined
  winner := hwinner
  reads := hreads
  decided := hdecided
  lost := hlost
  copied := hcopied
  freed := hfreed
  adopted := by
    have hwas := hp.adopted
    rw [if_neg hactive] at hwas
    exact hwas.trans (if_neg hreturned).symm

/-- Nothing is freed before all workers are joined. -/
theorem ParentInv.not_freed (hp : ParentInv x) (hstage : x.state.parent.stage < 7) :
    x.state.freed ≠ true := by
  intro hfree
  have := hp.freed hfree
  omega

/-- Until the right to publish is taken back, only the place and the winner change. -/
theorem ParentInv.polls (hp : ParentInv x) (pc : ParentPc) (winner : Option ℕ)
    (hwas : x.state.parent.stage < 3) (hnow : pc.stage < 3) (hlaunch : ∀ k, pc ≠ .launch k)
    (hwinner : ∀ i, winner = some i → (x.state.pcs i).published = true)
    (hreads : pc = .pollIndex → x.state.control.winnerPublished = .published) :
    ParentInv ⟨{ x.state with winner := winner, parent := pc }, x.log⟩ := by
  have hfree := hp.not_freed (by omega)
  refine hp.next rfl rfl rfl rfl ?_ ?_ hlaunch ?_ hwinner ?_ ?_ ?_ ?_ (fun h => absurd h hfree)
  · intro hreturned
    rw [hreturned] at hwas
    exact absurd hwas (by decide)
  · rintro rfl
    exact absurd hnow (by decide)
  · intro i hi
    rw [ParentPc.joined_eq_zero (show pc.stage < 6 by omega)] at hi
    exact absurd hi (Nat.not_lt_zero i)
  · rintro (rfl | rfl)
    · exact hreads rfl
    · exact absurd hnow (by decide)
  · intro h
    exact absurd h (Nat.not_le.mpr hnow)
  · intro h
    exact absurd (Nat.le_trans (by decide) h) (Nat.not_le.mpr hnow)
  · intro h
    exact absurd (Nat.le_trans (by decide) h) (Nat.not_le.mpr hnow)

/-- A thread is created, or its creation fails. -/
theorem ParentInv.launches (hp : ParentInv x) {k : ℕ} (hpc : x.state.parent = .launch k)
    (ok : Bool) :
    ParentInv ⟨{ (if ok then x.state.goto k .start else x.state) with
      control :=
        { x.state.control with
          exitedPtr := Function.update x.state.control.exitedPtr k (some k)
          created := Function.update x.state.control.created k ok }
      parent := .launch (k + 1) }, x.log⟩ := by
  have hidle := hp.unlaunched k hpc
  have hfree := hp.not_freed (by rw [hpc]; exact Nat.lt_of_sub_eq_succ rfl)
  -- The new thread is the only one that is not idle any more.
  have hpcs : ∀ i, i ≠ k →
      (if ok then x.state.goto k .start else x.state).pcs i = x.state.pcs i := by
    intro i hi
    cases ok with
    | false => rfl
    | true => exact Function.update_of_ne hi ..
  have hnone : adoptions x.log = [] := by
    rw [hp.adopted, if_neg (by rw [hpc]; exact nofun)]
  refine ⟨?_, ?_, ?_, ?_, nofun, ?_, nofun, nofun, nofun, nofun, ?_, hnone⟩
  · rintro _ ⟨rfl⟩ i hi
    exact (hpcs i (by omega)).trans (hidle i (by omega))
  · intro i hi
    by_cases hik : i = k
    · subst hik
      have hok : ok = false := (Function.update_self ..).symm.trans hi
      rw [hok]
      exact hidle i (Nat.le_refl i)
    · exact (hpcs i hik).trans (hp.created i ((Function.update_of_ne hik ..).symm.trans hi))
  · intro i hi
    by_cases hik : i = k
    · subst hik
      exact Function.update_self ..
    · exact (Function.update_of_ne hik ..).trans
        (hp.pointer i ((Function.update_of_ne hik ..).symm.trans hi))
  · cases ok <;> exact hp.detached
  · intro i hi
    have hi : x.state.winner = some i := by
      cases ok <;> exact hi
    have hpublished := hp.winner i hi
    have hik : i ≠ k := by
      rintro rfl
      rw [hidle i (Nat.le_refl i)] at hpublished
      cases hpublished
    exact (congrArg WorkerPc.published (hpcs i hik)).trans hpublished
  · intro h
    have h : x.state.freed = true := by
      cases ok <;> exact h
    exact absurd h hfree

/-- The parent goes on behind a worker that is over, or behind the last one. -/
theorem ParentInv.joins (hp : ParentInv x) {k : ℕ} (hpc : x.state.parent = .join k)
    {pc : ParentPc} (hnext : pc = .join (k + 1) ∨ pc = .snapshot)
    (hover : ∀ i, i < pc.joined x.state.types.length → (x.state.pcs i).over = true) :
    ParentInv ⟨{ x.state with parent := pc }, x.log⟩ := by
  have hstage : x.state.parent.stage = 6 := by rw [hpc]; rfl
  have hfree := hp.not_freed (by omega)
  have hactive : x.state.parent ≠ .returned := by rw [hpc]; exact nofun
  have hdecided := hp.decided (by omega)
  have hlost := hp.lost (by omega)
  rcases hnext with rfl | rfl
  · refine hp.next rfl rfl rfl rfl hactive nofun nofun hover hp.winner ?_ (fun _ => hdecided)
      (fun _ => hlost) nofun (fun h => absurd h hfree)
    rintro (h | h) <;> cases h
  · refine hp.next rfl rfl rfl rfl hactive nofun nofun hover hp.winner ?_ (fun _ => hdecided)
      (fun _ => hlost) nofun (fun h => absurd h hfree)
    rintro (h | h) <;> cases h

/-- The parent returns, and what it has adopted is its copy of the winner's payload. -/
theorem ParentInv.promotes (hw : WorkersInv x) (hp : ParentInv x)
    (hpc : x.state.parent = .promote) (ans : RaceAnswer) :
    ParentInv ⟨(parentStep x.state ans).1, (parentStep x.state ans).2.toList ++ x.log⟩ := by
  have hstage : x.state.parent.stage = 9 := by rw [hpc]; rfl
  have hcopied := hp.copied (by omega)
  have hwas := hp.adopted
  rw [if_neg (by rw [hpc]; exact nofun)] at hwas
  have hdone : ∀ log, adoptions log =
      x.state.winner.toList.map (fun i => (i, (x.state.results i).toPayload)) →
      ParentInv ⟨{ x.state with parent := .returned }, log⟩ := by
    intro log hlog
    refine ⟨nofun, hp.created, hp.pointer, hp.detached, fun i _ => hp.all_over hw (by omega) i,
      hp.winner, ?_, fun _ => hp.decided (by omega), fun _ => hp.lost (by omega),
      fun _ => hcopied, fun _ => show 7 ≤ ParentPc.returned.stage by decide, hlog⟩
    rintro (h | h) <;> cases h
  unfold parentStep
  rw [hpc]
  simp only
  split
  · next w payload hwinner hcopy =>
    rw [hwinner, hcopy] at hcopied
    cases hcopied
    refine hdone (_ :: x.log) ?_
    rw [hwinner]
    exact congrArg (_ :: ·) hwas
  · next hnone =>
    refine hdone x.log ?_
    rw [hwas]
    cases hwinner : x.state.winner with
    | none => rfl
    | some w =>
      rw [hwinner] at hcopied
      exact (hnone w _ hwinner hcopied).elim

/-- **The parent's step keeps its own side.** -/
theorem ParentInv.parent (hw : WorkersInv x) (hp : ParentInv x) (ans : RaceAnswer) :
    ParentInv ⟨(parentStep x.state ans).1, (parentStep x.state ans).2.toList ++ x.log⟩ := by
  -- what a read of the winner means is in the invariant of the workers
  cases hpc : x.state.parent with
  | promote => exact hp.promotes hw hpc ans
  | launch k =>
    have hstage : x.state.parent.stage < 3 := by rw [hpc]; exact Nat.lt_of_sub_eq_succ rfl
    unfold parentStep
    rw [hpc]
    by_cases hk : k < x.state.types.length
    · simp only [if_pos hk]
      exact hp.launches hpc ans.ok
    · simp only [if_neg hk]
      exact hp.polls .poll x.state.winner hstage (by decide) nofun hp.winner nofun
  | poll =>
    have hstage : x.state.parent.stage < 3 := by rw [hpc]; decide
    unfold parentStep
    rw [hpc]
    simp only
    split_ifs
    · exact hp.polls .pollPublished x.state.winner hstage (by decide) nofun hp.winner nofun
    · exact hp.polls .revoke x.state.winner hstage (by decide) nofun hp.winner nofun
  | pollPublished =>
    have hstage : x.state.parent.stage < 3 := by rw [hpc]; decide
    unfold parentStep
    rw [hpc]
    simp only
    split_ifs with hpublished
    · exact hp.polls .pollIndex x.state.winner hstage (by decide) nofun hp.winner
        (fun _ => hpublished)
    · exact hp.polls .poll x.state.winner hstage (by decide) nofun hp.winner nofun
  | pollIndex =>
    have hstage : x.state.parent.stage < 3 := by rw [hpc]; decide
    obtain ⟨w, hindex, hpublished⟩ := hw.raceWinner (hp.reads (.inl hpc))
    unfold parentStep
    rw [hpc]
    refine hp.polls .revoke _ hstage (by decide) nofun ?_ nofun
    intro i hi
    cases hindex.symm.trans hi
    exact hpublished
  | join k =>
    -- the workers in front of `k` are joined
    have hjoined : ∀ i, i < k → (x.state.pcs i).over = true := by
      intro i hi
      refine hp.joined i ?_
      rw [hpc]
      exact hi
    unfold parentStep
    rw [hpc]
    simp only
    split_ifs with hk
    · rcases hp.joinWorker k ans with hstay | ⟨hover, hjoin⟩
      · rw [hstay]
        exact hp
      · rw [hjoin]
        refine hp.joins hpc (.inl rfl) ?_
        intro i hi
        rcases Nat.lt_succ_iff_lt_or_eq.mp (show i < k + 1 from hi) with hlt | rfl
        · exact hjoined i hlt
        · exact hover
    · refine hp.joins hpc (.inr rfl) ?_
      intro i hi
      have hi : i < x.state.types.length := hi
      exact hjoined i (by omega)
  | returned =>
    unfold parentStep
    rw [hpc]
    exact hp
  | revoke =>
    unfold parentStep
    rw [hpc]
    have hfree := hp.not_freed (by rw [hpc]; decide)
    refine hp.next rfl rfl rfl rfl (by rw [hpc]; exact nofun) nofun nofun nofun hp.winner ?_ ?_
      nofun nofun (fun h => absurd h hfree)
    · rintro (h | h) <;> cases h
    · intro _
      show (if _ then _ else _) ≠ _
      split_ifs with hpending
      · exact nofun
      · exact hpending
  | recheck =>
    unfold parentStep
    rw [hpc]
    have hfree := hp.not_freed (by rw [hpc]; decide)
    have hdecided := hp.decided (by rw [hpc]; decide)
    simp only
    split_ifs with hpublished
    · exact hp.next rfl rfl rfl rfl (by rw [hpc]; exact nofun) nofun nofun nofun hp.winner
        (fun _ => hpublished.2) (fun _ => hdecided) nofun nofun (fun h => absurd h hfree)
    · refine hp.next rfl rfl rfl rfl (by rw [hpc]; exact nofun) nofun nofun nofun hp.winner ?_
        (fun _ => hdecided) ?_ nofun (fun h => absurd h hfree)
      · rintro (h | h) <;> cases h
      · intro _ hnone
        show x.state.control.winnerPublished = .abandoned
        cases hp : x.state.control.winnerPublished with
        | pending => exact absurd hp hdecided
        | published => exact absurd ⟨hnone, hp⟩ hpublished
        | abandoned => rfl
  | recheckIndex =>
    unfold parentStep
    rw [hpc]
    have hfree := hp.not_freed (by rw [hpc]; decide)
    obtain ⟨w, hw, hpublished⟩ := hw.raceWinner (hp.reads (.inr hpc))
    refine hp.next rfl rfl rfl rfl (by rw [hpc]; exact nofun) nofun nofun nofun ?_ ?_
      (fun _ => hp.decided (by rw [hpc]; decide)) ?_ nofun (fun h => absurd h hfree)
    · intro i hi
      cases hw.symm.trans hi
      exact hpublished
    · rintro (h | h) <;> cases h
    · intro _ hnone
      cases hw.symm.trans hnone
  | cancel =>
    unfold parentStep
    rw [hpc]
    have hfree := hp.not_freed (by rw [hpc]; decide)
    refine hp.next rfl rfl rfl rfl (by rw [hpc]; exact nofun) nofun nofun nofun hp.winner ?_
      (fun _ => hp.decided (by rw [hpc]; decide)) (fun _ => hp.lost (by rw [hpc]; decide)) nofun
      (fun h => absurd h hfree)
    rintro (h | h) <;> cases h
  | snapshot =>
    unfold parentStep
    rw [hpc]
    refine hp.next rfl rfl rfl rfl (by rw [hpc]; exact nofun) nofun nofun ?_ hp.winner ?_
      (fun _ => hp.decided (by rw [hpc]; decide)) (fun _ => hp.lost (by rw [hpc]; decide))
      (fun _ => rfl) (fun _ => show 7 ≤ ParentPc.free.stage by decide)
    · intro i _
      exact hp.all_over hw (by rw [hpc]; decide) i
    · rintro (h | h) <;> cases h
  | free =>
    unfold parentStep
    rw [hpc]
    refine hp.next rfl rfl rfl rfl (by rw [hpc]; exact nofun) nofun nofun ?_ hp.winner ?_
      (fun _ => hp.decided (by rw [hpc]; decide)) (fun _ => hp.lost (by rw [hpc]; decide))
      (fun _ => hp.copied (by rw [hpc]; decide))
      (fun _ => show 7 ≤ ParentPc.promote.stage by decide)
    · intro i _
      exact hp.all_over hw (by rw [hpc]; decide) i
    · rintro (h | h) <;> cases h

/-! ### Every interleaving -/

/-- Both sides. -/
structure RaceInv (x : Logged RaceState RaceEvent) : Prop where
  workers : WorkersInv x
  parent : ParentInv x

theorem raceInv_init (wantTcp : Bool) (udpPort : ℤ) (now timeoutMs : ℕ) :
    RaceInv ⟨raceInit wantTcp udpPort now timeoutMs, []⟩ where
  workers :=
    { results := fun _ => rfl
      one_claim := nofun
      claimed := nofun
      indexed := nofun
      published := nofun
      publisher := nofun
      range := fun _ h => absurd rfl h
      ssl := fun _ => rfl
      carriers := fun _ => rfl }
  parent :=
    { unlaunched := fun _ _ _ _ => rfl
      created := fun _ _ => rfl
      pointer := nofun
      detached := rfl
      joined := fun _ _ => rfl
      winner := nofun
      reads := by rintro (h | h) <;> cases h
      decided := nofun
      lost := nofun
      copied := nofun
      freed := nofun
      adopted := rfl }

theorem RaceInv.step (h : RaceInv x) (a : RaceAction) : RaceInv (logStep raceStep x a) := by
  cases a with
  | worker i ans =>
    have heffect := workerStep_effect ans (h.workers.results i)
    exact ⟨h.workers.effect heffect, h.parent.effect h.workers heffect⟩
  | parent ans => exact ⟨h.workers.parent h.parent ans, h.parent.parent h.workers ans⟩

/-- What the parent has adopted is the payload of a published worker. -/
theorem RaceInv.adopted (h : RaceInv x) {p : ℕ × Payload} (hp : p ∈ adoptions x.log) :
    x.state.winner = some p.1 ∧ p.2 = (x.state.results p.1).toPayload := by
  rw [h.parent.adopted] at hp
  split_ifs at hp with hreturned
  · obtain ⟨i, hi, rfl⟩ := List.mem_map.mp hp
    exact ⟨Option.mem_toList.mp hi, rfl⟩
  · cases hp

/-- A published worker's memory. -/
theorem RaceInv.published (h : RaceInv x) (hi : (x.state.pcs i).published = true) :
    destroyedSsl i x.log = [] ∧ destroyedCarriers i x.log = [] ∧
      ∃ r, (x.state.pcs i).completed = some r ∧
        (x.state.results i).toPayload = r.payload (x.state.type i) := by
  obtain ⟨_, hssl, hcarrier, r, hr, hpayload⟩ :=
    WorkerPc.published_spec (x.state.type i) hi
  refine ⟨(h.workers.ssl i).trans hssl, (h.workers.carriers i).trans hcarrier, r, hr, ?_⟩
  rw [h.workers.results i]
  exact hpayload

/-- Once the parent has returned, a published worker is its winner. -/
theorem RaceInv.winner_of_published (h : RaceInv x) (hreturned : x.state.parent = .returned)
    (hi : (x.state.pcs i).published = true) : x.state.winner = some i := by
  cases hwinner : x.state.winner with
  | none =>
    have hlost := h.parent.lost (by rw [hreturned]; decide) hwinner
    rw [h.workers.published i hi] at hlost
    cases hlost
  | some j =>
    have hj := h.parent.winner j hwinner
    have hclaimed : ∀ k, (x.state.pcs k).published = true → (x.state.pcs k).claimed = true :=
      fun k hk => WorkerPc.indexed_claimed (WorkerPc.published_spec .tcp hk).1
    rw [h.workers.one_claim j i (hclaimed j hj) (hclaimed i hi)]

theorem RaceInv.arbitrated (h : RaceInv x) : Arbitrated x where
  one_adopted := by
    rw [h.parent.adopted]
    split_ifs
    · cases x.state.winner with
      | none => exact Nat.zero_le 1
      | some i => exact Nat.le_refl 1
    · exact Nat.zero_le 1
  adopted := by
    intro p hp
    obtain ⟨hwinner, hpayload⟩ := h.adopted hp
    obtain ⟨hssl, hcarriers, r, hr, hresult⟩ := h.published (h.parent.winner _ hwinner)
    exact ⟨r, hr, hpayload.trans hresult, hssl, hcarriers⟩
  destroyed := by
    intro i
    rw [h.workers.ssl i, h.workers.carriers i]
    exact WorkerPc.destroyed_initial _
  settled := by
    intro i r hr hover
    rcases WorkerPc.over_spec (x.state.type i) hover hr with hpublished | ⟨hnot, hssl, hcarrier⟩
    · obtain ⟨hssl, hcarriers, r', hr', hresult⟩ := h.published hpublished
      cases hr.symm.trans hr'
      refine .inr ⟨hssl, hcarriers, ?_⟩
      intro hreturned
      rw [h.parent.adopted, if_pos hreturned, h.winner_of_published hreturned hpublished,
        ← hresult]
      rfl
    · refine .inl ⟨(h.workers.ssl i).trans hssl, (h.workers.carriers i).trans hcarrier, ?_⟩
      rintro p hp rfl
      have hpublished := h.parent.winner _ (h.adopted hp).1
      rw [hnot] at hpublished
      cases hpublished
  written := by
    intro i hi
    exact (h.published (h.parent.winner i hi)).2.2
  joined := by
    rintro (hfreed | hreturned) i
    · exact h.parent.all_over h.workers (h.parent.freed hfreed) i
    · exact h.parent.all_over h.workers (by rw [hreturned]; decide) i

/-! ### The threads finish -/

/-- The action is a step of worker `i`. -/
def RaceAction.moves (i : ℕ) : RaceAction → Bool
  | .worker j _ => j = i
  | .parent _ => false

/-- The action is a step of the parent with the clock past the deadline. -/
def RaceAction.late (deadline : ℕ) : RaceAction → Bool
  | .worker _ _ => false
  | .parent ans => deadline ≤ ans.now

/-- **The race comes to an end**: a worker with a complete handshake ends within twelve of its own
    steps, and when all workers have, the parent returns. -/
structure Settles (x : Logged RaceState RaceEvent) : Prop where
  worker : ∀ i bs, (x.state.pcs i).completed ≠ none → 12 ≤ bs.countP (RaceAction.moves i) →
    ((run (logStep raceStep) x bs).state.pcs i).over = true
  parent : (∀ i, (x.state.pcs i).over = true) → 1 ≤ x.state.parent.stage →
    ∀ bs : List RaceAction, bs.all (RaceAction.late x.state.control.raceDeadlineMs) = true →
      x.state.types.length + 12 ≤ bs.length →
      (run (logStep raceStep) x bs).state.parent = .returned

/-- A worker's own step brings it nearer to its end. -/
theorem WorkerEffect.rank {s : RaceState} {r : Resources} (h : WorkerEffect s i s' e)
    (hr : (s.pcs i).completed = some r) : (s.pcs i).over = true ∧ s' = s ∨
      (s'.pcs i).completed = some r ∧ (s'.pcs i).rank < (s.pcs i).rank := by
  cases h with
  | still hover => exact .inl ⟨hover, rfl⟩
  | own pc exited hactive hidle hmarks hcompleted =>
    rw [moved_pcs_self]
    exact .inr (hcompleted r hr)
  | claims r' hpc hfree =>
    rw [moved_pcs_self, hpc]
    rw [hpc] at hr
    exact .inr ⟨hr, by simp [WorkerPc.rank]⟩
  | indexes r' hpc =>
    rw [moved_pcs_self, hpc]
    rw [hpc] at hr
    exact .inr ⟨hr, by simp [WorkerPc.rank]⟩
  | publishes r' hpc hpending =>
    rw [moved_pcs_self, hpc]
    rw [hpc] at hr
    exact .inr ⟨hr, by simp [WorkerPc.rank]⟩
  | destroysSsl r' claimed hpc =>
    rw [moved_pcs_self, hpc]
    rw [hpc] at hr
    exact .inr ⟨hr, by simp [WorkerPc.rank]⟩
  | destroysCarrier r' claimed hpc =>
    rw [moved_pcs_self, hpc]
    rw [hpc] at hr
    exact .inr ⟨hr, by simp [WorkerPc.rank]⟩

theorem WorkerPc.rank_bounds {pc : WorkerPc} (h : pc.completed ≠ none) :
    pc.rank ≤ 12 ∧ (pc.rank = 0 → pc.over = true) := by
  cases pc <;> first | exact absurd rfl h | simp [rank, WorkerPc.over]

/-- The parent only touches workers that it creates. -/
theorem ParentInv.pcs (hp : ParentInv x) (ans : RaceAnswer) (hi : x.state.pcs i ≠ .idle) :
    (parentStep x.state ans).1.pcs i = x.state.pcs i := by
  unfold parentStep
  simp only
  cases hpc : x.state.parent with
  | launch k =>
    simp only
    split_ifs
    · refine Function.update_of_ne ?_ ..
      rintro rfl
      exact hi (hp.unlaunched i hpc i (Nat.le_refl i))
    · rfl
    · rfl
  | join k =>
    simp only
    split_ifs
    · rcases hp.joinWorker k ans with hstay | ⟨_, hnext⟩
      · rw [hstay]
      · rw [hnext]
    · rfl
  | promote =>
    simp only
    split <;> rfl
  | _ => rfl

theorem RaceInv.worker_over (h : RaceInv x) (bs : List RaceAction)
    (hr : (x.state.pcs i).completed ≠ none)
    (hrank : (x.state.pcs i).rank ≤ bs.countP (RaceAction.moves i)) :
    ((run (logStep raceStep) x bs).state.pcs i).over = true := by
  induction bs generalizing x with
  | nil => exact (WorkerPc.rank_bounds hr).2 (Nat.le_zero.mp hrank)
  | cons a bs ih =>
    rw [run_cons]
    -- A step of another thread leaves the worker where it is.
    have hsame : (logStep raceStep x a).state.pcs i = x.state.pcs i → RaceAction.moves i a = false →
        ((run (logStep raceStep) (logStep raceStep x a) bs).state.pcs i).over = true := by
      intro hpcs hother
      rw [List.countP_cons, hother] at hrank
      refine ih (h.step a) ?_ ?_
      · rw [hpcs]
        exact hr
      · rw [hpcs]
        simpa using hrank
    cases a with
    | parent ans =>
      refine hsame (h.parent.pcs ans ?_) rfl
      intro hidle
      rw [hidle] at hr
      exact hr rfl
    | worker j ans =>
      have heffect := workerStep_effect ans (h.workers.results j)
      by_cases hj : j = i
      · subst hj
        have hmove : RaceAction.moves j (.worker j ans) = true := decide_eq_true rfl
        rw [List.countP_cons, if_pos hmove] at hrank
        obtain ⟨r, hsome⟩ := Option.ne_none_iff_exists'.mp hr
        rcases heffect.rank hsome with ⟨hover, hstay⟩ | ⟨hnext, hlt⟩
        · have hstate : (logStep raceStep x (.worker j ans)).state = x.state := hstay
          refine ih (h.step _) ?_ ?_
          · rw [hstate]
            exact hr
          · rw [hstate]
            have hzero : (x.state.pcs j).rank = 0 := by
              cases hpc : x.state.pcs j <;> rw [hpc] at hover <;> first | rfl | cases hover
            omega
        · refine ih (h.step _) ?_ ?_
          · show ((workerStep x.state j ans).1.pcs j).completed ≠ none
            rw [hnext]
            exact nofun
          · show ((workerStep x.state j ans).1.pcs j).rank ≤ _
            omega
      · refine hsame ?_ (decide_eq_false hj)
        rcases heffect.frame with ⟨hstay, _⟩ | ⟨pc, control, exited, hmoved, _⟩
        · exact congrArg (fun s => s.pcs i) hstay
        · refine (congrArg (fun s => s.pcs i) hmoved).trans ?_
          exact moved_pcs_of_ne (Ne.symm hj) ..

/-- The steps that the parent takes at most, once all workers are over and the deadline has
    passed. -/
def ParentPc.rank (numTransports : ℕ) : ParentPc → ℕ
  | .launch _ => numTransports + 12
  | .pollPublished => numTransports + 11
  | .poll | .pollIndex => numTransports + 10
  | .revoke => numTransports + 9
  | .recheck => numTransports + 8
  | .recheckIndex => numTransports + 7
  | .cancel => numTransports + 6
  | .join k => numTransports - k + 4
  | .snapshot => 3
  | .free => 2
  | .promote => 1
  | .returned => 0

/-- A late step of the parent, behind the launches and with all workers over. -/
theorem ParentInv.late_step (hp : ParentInv x) (hover : ∀ i, (x.state.pcs i).over = true)
    (hstage : 1 ≤ x.state.parent.stage) {ans : RaceAnswer}
    (hlate : x.state.control.raceDeadlineMs ≤ ans.now) :
    (parentStep x.state ans).1.pcs = x.state.pcs ∧
      (parentStep x.state ans).1.types = x.state.types ∧
      (parentStep x.state ans).1.control.raceDeadlineMs = x.state.control.raceDeadlineMs ∧
      1 ≤ (parentStep x.state ans).1.parent.stage ∧
      (parentStep x.state ans).1.parent.rank x.state.types.length ≤
        x.state.parent.rank x.state.types.length - 1 := by
  -- behind the deadline every step lowers the rank, and no join waits
  unfold parentStep
  dsimp only
  cases hpc : x.state.parent with
  | launch k =>
    rw [hpc] at hstage
    exact absurd hstage (by simp [ParentPc.stage])
  | poll =>
    rw [if_neg (Nat.not_lt.mpr hlate)]
    exact ⟨rfl, rfl, rfl, Nat.le_of_ble_eq_true rfl, Nat.le_refl _⟩
  | pollPublished =>
    dsimp only
    split_ifs
    · exact ⟨rfl, rfl, rfl, Nat.le_of_ble_eq_true rfl, Nat.le_refl _⟩
    · exact ⟨rfl, rfl, rfl, Nat.le_of_ble_eq_true rfl, Nat.le_refl _⟩
  | pollIndex => exact ⟨rfl, rfl, rfl, Nat.le_of_ble_eq_true rfl, Nat.le_refl _⟩
  | revoke => exact ⟨rfl, rfl, rfl, Nat.le_of_ble_eq_true rfl, Nat.le_refl _⟩
  | recheck =>
    dsimp only
    split_ifs
    · exact ⟨rfl, rfl, rfl, Nat.le_of_ble_eq_true rfl, Nat.le_refl _⟩
    · refine ⟨rfl, rfl, rfl, Nat.le_of_ble_eq_true rfl, ?_⟩
      simp only [ParentPc.rank]
      omega
  | recheckIndex => exact ⟨rfl, rfl, rfl, Nat.le_of_ble_eq_true rfl, Nat.le_refl _⟩
  | cancel =>
    refine ⟨rfl, rfl, rfl, Nat.le_of_ble_eq_true rfl, ?_⟩
    simp only [ParentPc.rank]
    omega
  | join k =>
    dsimp only
    split_ifs with hk
    · have hnext : Connection.joinWorker x.state k ans =
          { x.state with parent := .join (k + 1) } := by
        have hworker := hover k
        unfold Connection.joinWorker
        cases hcreated : x.state.control.created k with
        | false => rfl
        | true =>
          rw [hp.pointer k hcreated]
          simp [hworker]
      rw [hnext]
      refine ⟨rfl, rfl, rfl, Nat.le_of_ble_eq_true rfl, ?_⟩
      simp only [ParentPc.rank]
      omega
    · refine ⟨rfl, rfl, rfl, Nat.le_of_ble_eq_true rfl, ?_⟩
      simp only [ParentPc.rank]
      omega
  | snapshot => exact ⟨rfl, rfl, rfl, Nat.le_of_ble_eq_true rfl, Nat.le_refl _⟩
  | free => exact ⟨rfl, rfl, rfl, Nat.le_of_ble_eq_true rfl, Nat.le_refl _⟩
  | promote =>
    dsimp only
    split
    · exact ⟨rfl, rfl, rfl, Nat.le_of_ble_eq_true rfl, Nat.le_refl _⟩
    · exact ⟨rfl, rfl, rfl, Nat.le_of_ble_eq_true rfl, Nat.le_refl _⟩
  | returned =>
    rw [hpc]
    exact ⟨rfl, rfl, rfl, Nat.le_of_ble_eq_true rfl, Nat.le_refl _⟩

theorem RaceInv.parent_returns (h : RaceInv x) (hover : ∀ i, (x.state.pcs i).over = true)
    (hstage : 1 ≤ x.state.parent.stage) (bs : List RaceAction)
    (hlate : bs.all (RaceAction.late x.state.control.raceDeadlineMs) = true)
    (hrank : x.state.parent.rank x.state.types.length ≤ bs.length) :
    (run (logStep raceStep) x bs).state.parent = .returned := by
  induction bs generalizing x with
  | nil =>
    have hzero := Nat.le_zero.mp hrank
    cases hpc : x.state.parent with
    | returned => exact hpc
    | _ =>
      rw [hpc] at hzero
      simp [ParentPc.rank] at hzero
  | cons a bs ih =>
    rw [List.all_cons, Bool.and_eq_true] at hlate
    obtain ⟨hnow, hrest⟩ := hlate
    cases a with
    | worker i ans => cases hnow
    | parent ans =>
      obtain ⟨hpcs, htypes, hdeadline, hnext, hless⟩ :=
        h.parent.late_step hover hstage (of_decide_eq_true hnow)
      refine ih (x := logStep raceStep x (.parent ans)) (h.step _) ?_ hnext ?_ ?_
      · intro i
        exact (congrArg (fun pcs => (pcs i).over) hpcs).trans (hover i)
      · rw [show (logStep raceStep x (.parent ans)).state.control.raceDeadlineMs = _ from hdeadline]
        exact hrest
      · rw [List.length_cons] at hrank
        show (parentStep x.state ans).1.parent.rank (parentStep x.state ans).1.types.length ≤ _
        rw [htypes]
        omega

theorem RaceInv.settles (h : RaceInv x) : Settles x where
  worker := by
    intro i bs hr hmoves
    exact h.worker_over bs hr (Nat.le_trans (WorkerPc.rank_bounds hr).1 hmoves)
  parent := by
    intro hover hstage bs hlate hlength
    refine h.parent_returns hover hstage bs hlate (Nat.le_trans ?_ hlength)
    cases x.state.parent <;> simp only [ParentPc.rank] <;> omega

/-- **Arbitration of the race**, in every interleaving of the workers, the clock and the parent. -/
theorem race_arbitration (wantTcp : Bool) (udpPort : ℤ) (now timeoutMs : ℕ)
    (as : List RaceAction) :
    Always (logStep raceStep) (fun x => Arbitrated x ∧ Settles x)
      ⟨raceInit wantTcp udpPort now timeoutMs, []⟩ as :=
  always_of_along (I := RaceInv) (fun _ a h _ => h.step a) (fun _ h => ⟨h.arbitrated, h.settles⟩)
    (along_true _ _ as) (raceInv_init wantTcp udpPort now timeoutMs)

end SoftEther.Connection
