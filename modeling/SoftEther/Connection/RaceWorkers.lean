import Mathlib.Data.List.Count
import SoftEther.Connection.Race

namespace SoftEther.Connection

open Lib

/-!
# The workers of the race

* `WorkerPc.completed`, `claimed`, `published`, … — what a worker has done so far, read off the
  place where it stands;
* `destroyedSsl`, `destroyedCarriers`, `adoptions` — the log, by worker;
* `WorkerEffect`, `workerStep_effect` — all that a worker's step can do;
* `WorkersInv` — the invariant of the workers' side, `WorkersInv.moved` what a move has to show
  for it.

The compare-and-swap on `winner_claimed` lets one worker write the index and publish.
-/

/-! ### Where a worker stands -/

/-- What a worker had when its connect came back. -/
def Fate.completed : Fate → Option Resources
  | .failed => none
  | .published r | .destroyed r _ => some r

/-- The worker had claimed the race. -/
def Fate.claimed : Fate → Bool
  | .failed => false
  | .published _ => true
  | .destroyed _ claimed => claimed

/-- The worker published its link. -/
def Fate.isPublished : Fate → Bool
  | .published _ => true
  | _ => false

namespace WorkerPc

/-- The resources of the handshake, once it is complete. -/
def completed : WorkerPc → Option Resources
  | .claim r | .writeIndex r | .writeSocketFd r | .writeSslCtx r | .writeSsl r
  | .writeTransport r | .publish r | .setOk r | .destroySsl r _ | .destroyCarrier r _ => some r
  | .returned fate | .exiting fate | .ended fate => fate.completed
  | _ => none

/-- The worker took `winner_claimed`. -/
def claimed : WorkerPc → Bool
  | .writeIndex _ | .writeSocketFd _ | .writeSslCtx _ | .writeSsl _ | .writeTransport _
  | .publish _ | .setOk _ => true
  | .destroySsl _ claimed | .destroyCarrier _ claimed => claimed
  | .returned fate | .exiting fate | .ended fate => fate.claimed
  | _ => false

/-- It wrote `winner_index`. -/
def indexed : WorkerPc → Bool
  | .writeIndex _ => false
  | pc => pc.claimed

/-- It took `winner_published`. -/
def published : WorkerPc → Bool
  | .setOk _ => true
  | .returned fate | .exiting fate | .ended fate => fate.isPublished
  | _ => false

/-- The TLS contexts it destroyed. -/
def destroyedSsl : WorkerPc → List ℕ
  | .destroyCarrier r _ => [r.ssl]
  | .returned (.destroyed r _) | .exiting (.destroyed r _) | .ended (.destroyed r _) => [r.ssl]
  | _ => []

/-- The sockets or transports it destroyed. -/
def destroyedCarrier (type : TransportType) : WorkerPc → List ℕ
  | .returned (.destroyed r _) | .exiting (.destroyed r _) | .ended (.destroyed r _) =>
    [r.carrier type]
  | _ => []

/-- The result in its memory. -/
def written (type : TransportType) : WorkerPc → TransportResult
  | .idle | .start => .zero
  | .writeSslCtx r => { TransportResult.reset type with socketFd := r.socketFd }
  | .writeSsl r =>
    { TransportResult.reset type with socketFd := r.socketFd, sslCtx := some r.ssl }
  | .writeTransport r =>
    { TransportResult.reset type with
      socketFd := r.socketFd
      sslCtx := some r.ssl
      ssl := some r.ssl }
  | .publish r | .setOk r | .destroySsl r true | .destroyCarrier r true
  | .returned (.destroyed r true) | .exiting (.destroyed r true) | .ended (.destroyed r true) =>
    ⟨r.payload type, false⟩
  | .returned (.published r) | .exiting (.published r) | .ended (.published r) =>
    ⟨r.payload type, true⟩
  | _ => .reset type

/-- The steps that a worker takes at most, once its handshake is complete. -/
def rank : WorkerPc → ℕ
  | .claim _ => 12
  | .writeIndex _ => 11
  | .writeSocketFd _ => 10
  | .writeSslCtx _ => 9
  | .writeSsl _ => 8
  | .writeTransport _ => 7
  | .publish _ => 6
  | .setOk _ => 4
  | .destroySsl _ _ => 5
  | .destroyCarrier _ _ => 4
  | .returned _ => 2
  | .exiting _ => 1
  | _ => 0

end WorkerPc

/-! ### The log -/

namespace RaceEvent

/-- The TLS object that an event of worker `i` destroys. -/
def sslOf (i : ℕ) : RaceEvent → Option ℕ
  | .sslDestroyed j ssl => if j = i then some ssl else none
  | _ => none

/-- The transport that an event of worker `i` destroys. -/
def carrierOf (i : ℕ) : RaceEvent → Option ℕ
  | .carrierDestroyed j carrier => if j = i then some carrier else none
  | _ => none

/-- What the parent adopts. -/
def adoption : RaceEvent → Option (ℕ × Payload)
  | .adopted i payload => some (i, payload)
  | _ => none

end RaceEvent

/-- The TLS contexts that worker `i` destroyed. -/
abbrev destroyedSsl (i : ℕ) (log : List RaceEvent) : List ℕ := log.filterMap (RaceEvent.sslOf i)

/-- The sockets or transports that worker `i` destroyed. -/
abbrev destroyedCarriers (i : ℕ) (log : List RaceEvent) : List ℕ :=
  log.filterMap (RaceEvent.carrierOf i)

/-- What the parent adopted, and from which worker. -/
abbrev adoptions (log : List RaceEvent) : List (ℕ × Payload) :=
  log.filterMap RaceEvent.adoption

theorem destroyedSsl_cons (i j ssl : ℕ) (log : List RaceEvent) :
    destroyedSsl j (.sslDestroyed i ssl :: log) =
      if j = i then ssl :: destroyedSsl j log else destroyedSsl j log := by
  split_ifs with hj
  · subst hj
    simp [RaceEvent.sslOf]
  · simp [RaceEvent.sslOf, Ne.symm hj]

theorem destroyedCarriers_cons (i j carrier : ℕ) (log : List RaceEvent) :
    destroyedCarriers j (.carrierDestroyed i carrier :: log) =
      if j = i then carrier :: destroyedCarriers j log else destroyedCarriers j log := by
  split_ifs with hj
  · subst hj
    simp [RaceEvent.carrierOf]
  · simp [RaceEvent.carrierOf, Ne.symm hj]

/-! ### What a place says by itself -/

namespace WorkerPc

variable {pc : WorkerPc}

theorem indexed_claimed (h : pc.indexed = true) : pc.claimed = true := by
  cases pc <;> first | exact h | cases h

/-- A published worker claimed the race, wrote everything and destroyed nothing. -/
theorem published_spec (type : TransportType) (h : pc.published = true) :
    pc.indexed = true ∧ pc.destroyedSsl = [] ∧ pc.destroyedCarrier type = [] ∧
      ∃ r, pc.completed = some r ∧ (pc.written type).toPayload = r.payload type := by
  have hfate : ∀ fate : Fate, fate.isPublished = true → ∃ r, fate = .published r := by
    intro fate hfate
    cases fate with
    | published r => exact ⟨r, rfl⟩
    | _ => cases hfate
  cases pc with
  | setOk r => exact ⟨rfl, rfl, rfl, r, rfl, rfl⟩
  | returned fate =>
    obtain ⟨r, rfl⟩ := hfate fate h
    exact ⟨rfl, rfl, rfl, r, rfl, rfl⟩
  | exiting fate =>
    obtain ⟨r, rfl⟩ := hfate fate h
    exact ⟨rfl, rfl, rfl, r, rfl, rfl⟩
  | ended fate =>
    obtain ⟨r, rfl⟩ := hfate fate h
    exact ⟨rfl, rfl, rfl, r, rfl, rfl⟩
  | _ => cases h

/-- A worker that ended behind a complete handshake published it or destroyed all of it. -/
theorem over_spec (type : TransportType) {r : Resources} (hover : pc.over = true)
    (hr : pc.completed = some r) :
    pc.published = true ∨
      pc.published = false ∧ pc.destroyedSsl = [r.ssl] ∧
        pc.destroyedCarrier type = [r.carrier type] := by
  cases pc with
  | ended fate =>
    cases fate with
    | failed => cases hr
    | published r => exact .inl rfl
    | destroyed r claimed =>
      cases hr
      exact .inr ⟨rfl, rfl, rfl⟩
  | idle => cases hr
  | _ => cases hover

theorem destroyed_initial (type : TransportType) :
    pc.destroyedSsl <+: (pc.completed.map Resources.ssl).toList ∧
      pc.destroyedCarrier type <+: (pc.completed.map (Resources.carrier · type)).toList := by
  have hfate : ∀ fate : Fate,
      (WorkerPc.returned fate).destroyedSsl <+: (fate.completed.map Resources.ssl).toList ∧
        (WorkerPc.returned fate).destroyedCarrier type <+:
          (fate.completed.map (Resources.carrier · type)).toList := by
    intro fate
    cases fate with
    | destroyed r claimed => exact ⟨List.prefix_refl _, List.prefix_refl _⟩
    | _ => exact ⟨List.nil_prefix, List.nil_prefix⟩
  cases pc with
  | destroyCarrier r claimed => exact ⟨List.prefix_refl _, List.nil_prefix⟩
  | returned fate => exact hfate fate
  | exiting fate =>
    cases fate with
    | destroyed r claimed => exact hfate (.destroyed r claimed)
    | _ => exact ⟨List.nil_prefix, List.nil_prefix⟩
  | ended fate =>
    cases fate with
    | destroyed r claimed => exact hfate (.destroyed r claimed)
    | _ => exact ⟨List.nil_prefix, List.nil_prefix⟩
  | _ => exact ⟨List.nil_prefix, List.nil_prefix⟩

/-- What the other threads and the log see of a worker. -/
structure Marks where
  claimed : Bool
  indexed : Bool
  published : Bool
  destroyedSsl : List ℕ
  destroyedCarrier : List ℕ

/-- What the place of a worker says of the race. -/
def marks (pc : WorkerPc) (type : TransportType) : Marks where
  claimed := pc.claimed
  indexed := pc.indexed
  published := pc.published
  destroyedSsl := pc.destroyedSsl
  destroyedCarrier := pc.destroyedCarrier type

end WorkerPc

/-! ### A worker's step -/

/-- Worker `i` stands at `pc`, with its result written so far. -/
def RaceState.moved (s : RaceState) (i : ℕ) (pc : WorkerPc) (control : RaceControl)
    (exited : ℕ → Bool) : RaceState :=
  { s with
    pcs := Function.update s.pcs i pc
    results := Function.update s.results i (pc.written (s.type i))
    exited := exited
    control := control }

/-- All that a step of worker `i` can do. -/
inductive WorkerEffect (s : RaceState) (i : ℕ) : RaceState → Option RaceEvent → Prop
  | still (h : (s.pcs i).over = true) : WorkerEffect s i s none
  | own (pc : WorkerPc) (exited : ℕ → Bool) (hactive : (s.pcs i).over = false)
      (hidle : pc ≠ .idle)
      (hmarks : pc.marks (s.type i) = (s.pcs i).marks (s.type i))
      (hcompleted : ∀ r, (s.pcs i).completed = some r →
        pc.completed = some r ∧ pc.rank < (s.pcs i).rank) :
      WorkerEffect s i (s.moved i pc s.control exited) none
  | claims (r : Resources) (h : s.pcs i = .claim r) (hfree : s.control.winnerClaimed = false) :
      WorkerEffect s i
        (s.moved i (.writeIndex r) { s.control with winnerClaimed := true } s.exited) none
  | indexes (r : Resources) (h : s.pcs i = .writeIndex r) :
      WorkerEffect s i
        (s.moved i (.writeSocketFd r) { s.control with winnerIndex := i } s.exited) none
  | publishes (r : Resources) (h : s.pcs i = .publish r)
      (hpending : s.control.winnerPublished = .pending) :
      WorkerEffect s i
        (s.moved i (.setOk r) { s.control with winnerPublished := .published } s.exited) none
  | destroysSsl (r : Resources) (claimed : Bool) (h : s.pcs i = .destroySsl r claimed) :
      WorkerEffect s i (s.moved i (.destroyCarrier r claimed) s.control s.exited)
        (some (.sslDestroyed i r.ssl))
  | destroysCarrier (r : Resources) (claimed : Bool) (h : s.pcs i = .destroyCarrier r claimed) :
      WorkerEffect s i (s.moved i (.returned (.destroyed r claimed)) s.control s.exited)
        (some (.carrierDestroyed i (r.carrier (s.type i))))

variable {s : RaceState} {pc : WorkerPc} {i : ℕ}

/-- A step that writes no result. -/
theorem goto_eq_moved (control : RaceControl) (exited : ℕ → Bool)
    (h : s.results i = pc.written (s.type i)) :
    { s.goto i pc with control := control, exited := exited } = s.moved i pc control exited := by
  rw [RaceState.moved, ← h, Function.update_eq_self]
  rfl

theorem write_eq_moved {f : TransportResult → TransportResult}
    (h : f (s.results i) = pc.written (s.type i)) :
    s.write i f pc = s.moved i pc s.control s.exited := by
  rw [RaceState.write, RaceState.moved, h]
  rfl

section Effect

variable {s : RaceState} {i : ℕ} (hres : s.results i = (s.pcs i).written (s.type i))

include hres

theorem goto_effect_shared (pc : WorkerPc) (control : RaceControl) (exited : ℕ → Bool)
    (e : Option RaceEvent) (hwritten : (s.pcs i).written (s.type i) = pc.written (s.type i))
    (heffect : WorkerEffect s i (s.moved i pc control exited) e) :
    WorkerEffect s i { s.goto i pc with control := control, exited := exited } e := by
  rw [goto_eq_moved control exited (hres.trans hwritten)]
  exact heffect

theorem goto_effect (pc : WorkerPc) (hactive : (s.pcs i).over = false) (hidle : pc ≠ .idle)
    (hmarks : pc.marks (s.type i) = (s.pcs i).marks (s.type i))
    (hwritten : (s.pcs i).written (s.type i) = pc.written (s.type i))
    (hcompleted : ∀ r, (s.pcs i).completed = some r →
      pc.completed = some r ∧ pc.rank < (s.pcs i).rank) :
    WorkerEffect s i (s.goto i pc) none :=
  goto_effect_shared hres pc s.control s.exited none hwritten
    (.own pc s.exited hactive hidle hmarks hcompleted)

theorem write_effect (pc : WorkerPc) (f : TransportResult → TransportResult)
    (hactive : (s.pcs i).over = false) (hidle : pc ≠ .idle)
    (hmarks : pc.marks (s.type i) = (s.pcs i).marks (s.type i))
    (hwritten : f ((s.pcs i).written (s.type i)) = pc.written (s.type i))
    (hcompleted : ∀ r, (s.pcs i).completed = some r →
      pc.completed = some r ∧ pc.rank < (s.pcs i).rank) :
    WorkerEffect s i (s.write i f pc) none := by
  rw [← hres] at hwritten
  rw [write_eq_moved hwritten]
  exact .own pc s.exited hactive hidle hmarks hcompleted

/-- Before the handshake is complete a worker goes on or fails, and shows nothing of it. -/
theorem early_effect (c : Prop) [Decidable c] (pc : WorkerPc) (hactive : (s.pcs i).over = false)
    (hnone : (s.pcs i).completed = none) (hidle : pc ≠ .idle)
    (hold : (s.pcs i).marks (s.type i) = WorkerPc.marks .budget (s.type i))
    (hnew : pc.marks (s.type i) = WorkerPc.marks .budget (s.type i))
    (hwas : (s.pcs i).written (s.type i) = .reset (s.type i))
    (hnow : pc.written (s.type i) = .reset (s.type i)) :
    WorkerEffect s i (if c then s.goto i (.returned .failed) else s.goto i pc) none := by
  have hcompleted : ∀ pc : WorkerPc, ∀ r, (s.pcs i).completed = some r →
      pc.completed = some r ∧ pc.rank < (s.pcs i).rank := by
    intro pc r hr
    rw [hnone] at hr
    cases hr
  split_ifs
  · exact goto_effect hres _ hactive nofun hold.symm hwas (hcompleted _)
  · exact goto_effect hres pc hactive hidle (hnew.trans hold.symm) (hwas.trans hnow.symm)
      (hcompleted _)

end Effect

theorem workerStep_effect (ans : RaceAnswer) (hres : s.results i = (s.pcs i).written (s.type i)) :
    WorkerEffect s i (workerStep s i ans).1 (workerStep s i ans).2 := by
  have hshared := @goto_effect_shared s i hres
  have hgoto := @goto_effect s i hres
  have hwrite := @write_effect s i hres
  have hearly := @early_effect s i hres
  unfold workerStep
  simp only
  -- before the claim a worker writes its own place only
  cases hpc : s.pcs i with
  | idle => exact .still (by rw [hpc]; rfl)
  | ended fate => exact .still (by rw [hpc]; rfl)
  | start =>
    rw [hpc] at hwrite
    exact hwrite .budget (fun _ => .reset (s.type i)) rfl nofun rfl rfl nofun
  | budget =>
    rw [hpc] at hearly
    exact hearly _ .delay rfl rfl nofun rfl rfl rfl rfl
  | delay =>
    rw [hpc] at hearly
    cases htype : decide (s.type i = .natT) with
    | true =>
      simp only [of_decide_eq_true htype, if_true]
      exact hearly _ .rendezvous rfl rfl nofun rfl rfl rfl rfl
    | false =>
      simp only [of_decide_eq_false htype, if_false]
      exact hearly _ .connect rfl rfl nofun rfl rfl rfl rfl
  | rendezvous =>
    rw [hpc] at hearly
    exact hearly _ .connect rfl rfl nofun rfl rfl rfl rfl
  | connect =>
    rw [hpc] at hearly
    exact hearly _ .connected rfl rfl nofun rfl rfl rfl rfl
  | connected =>
    rw [hpc] at hearly
    exact hearly _ .handshake rfl rfl nofun rfl rfl rfl rfl
  | handshake =>
    rw [hpc] at hearly
    exact hearly _ (.claim ans.resources) rfl rfl nofun rfl rfl rfl rfl
  | claim r =>
    rw [hpc] at hgoto hshared
    cases hclaimed : s.control.winnerClaimed with
    | true =>
      refine hgoto (.destroySsl r false) rfl nofun rfl rfl ?_
      rintro _ ⟨rfl⟩
      exact ⟨rfl, by simp [WorkerPc.rank]⟩
    | false =>
      exact hshared (.writeIndex r) { s.control with winnerClaimed := true } s.exited none rfl
        (.claims r hpc hclaimed)
  | writeIndex r =>
    rw [hpc] at hshared
    exact hshared (.writeSocketFd r) { s.control with winnerIndex := i } s.exited none rfl
      (.indexes r hpc)
  | writeSocketFd r =>
    rw [hpc] at hwrite
    refine hwrite (.writeSslCtx r) (fun res => { res with socketFd := r.socketFd }) rfl nofun rfl
      rfl ?_
    rintro _ ⟨rfl⟩
    exact ⟨rfl, by simp [WorkerPc.rank]⟩
  | writeSslCtx r =>
    rw [hpc] at hwrite
    refine hwrite (.writeSsl r) (fun res => { res with sslCtx := some r.ssl }) rfl nofun rfl rfl ?_
    rintro _ ⟨rfl⟩
    exact ⟨rfl, by simp [WorkerPc.rank]⟩
  | writeSsl r =>
    rw [hpc] at hwrite
    refine hwrite (.writeTransport r) (fun res => { res with ssl := some r.ssl }) rfl nofun rfl
      rfl ?_
    rintro _ ⟨rfl⟩
    exact ⟨rfl, by simp [WorkerPc.rank]⟩
  | writeTransport r =>
    rw [hpc] at hgoto hwrite
    have hnext : ∀ r', (WorkerPc.writeTransport r).completed = some r' →
        (WorkerPc.publish r).completed = some r' ∧
          (WorkerPc.publish r).rank < (WorkerPc.writeTransport r).rank := by
      rintro _ ⟨rfl⟩
      exact ⟨rfl, by simp [WorkerPc.rank]⟩
    simp only
    split_ifs with htype
    · refine hgoto (.publish r) rfl nofun rfl ?_ hnext
      simp [WorkerPc.written, Resources.payload, TransportResult.reset, htype]
    · refine hwrite (.publish r) _ rfl nofun rfl ?_ hnext
      simp [WorkerPc.written, Resources.payload, TransportResult.reset, htype]
  | publish r =>
    rw [hpc] at hgoto hshared
    simp only
    split_ifs with hpending
    · exact hshared (.setOk r) { s.control with winnerPublished := .published } s.exited none rfl
        (.publishes r hpc hpending)
    · refine hgoto (.destroySsl r true) rfl nofun rfl rfl ?_
      rintro _ ⟨rfl⟩
      exact ⟨rfl, by simp [WorkerPc.rank]⟩
  | setOk r =>
    rw [hpc] at hwrite
    refine hwrite (.returned (.published r)) (fun res => { res with ok := true }) rfl nofun rfl
      rfl ?_
    rintro _ ⟨rfl⟩
    exact ⟨rfl, by simp [WorkerPc.rank]⟩
  | destroySsl r claimed =>
    rw [hpc] at hshared
    refine hshared (.destroyCarrier r claimed) s.control s.exited _ ?_ (.destroysSsl r claimed hpc)
    cases claimed <;> rfl
  | destroyCarrier r claimed =>
    rw [hpc] at hshared
    refine hshared (.returned (.destroyed r claimed)) s.control s.exited _ ?_
      (.destroysCarrier r claimed hpc)
    cases claimed <;> rfl
  | returned fate =>
    rw [hpc] at hshared
    refine hshared (.exiting fate) s.control _ none ?_ (.own _ _ (by rw [hpc]; rfl) nofun ?_ ?_)
    · rcases fate with _ | r | ⟨r, _ | _⟩ <;> rfl
    · rw [hpc]
      rcases fate with _ | r | ⟨r, claimed⟩ <;> rfl
    · rw [hpc]
      intro r hr
      exact ⟨hr, by simp [WorkerPc.rank]⟩
  | exiting fate =>
    rw [hpc] at hgoto
    refine hgoto (.ended fate) rfl nofun ?_ ?_ ?_
    · rcases fate with _ | r | ⟨r, claimed⟩ <;> rfl
    · rcases fate with _ | r | ⟨r, _ | _⟩ <;> rfl
    · intro r hr
      exact ⟨hr, by simp [WorkerPc.rank]⟩

/-! ### The workers -/

@[simp] theorem moved_pcs_self (s : RaceState) (i : ℕ) (pc : WorkerPc) (control : RaceControl)
    (exited : ℕ → Bool) : (s.moved i pc control exited).pcs i = pc :=
  Function.update_self ..

theorem moved_pcs_of_ne {j : ℕ} (hj : j ≠ i) (pc : WorkerPc) (control : RaceControl)
    (exited : ℕ → Bool) : (s.moved i pc control exited).pcs j = s.pcs j :=
  Function.update_of_ne hj ..

/-- A property of all workers, behind a move of one. -/
theorem moved_forall {Q : ℕ → WorkerPc → Prop} {control : RaceControl} {exited : ℕ → Bool}
    (hi : Q i pc) (hne : ∀ j, j ≠ i → Q j (s.pcs j)) (j : ℕ) :
    Q j ((s.moved i pc control exited).pcs j) := by
  by_cases hj : j = i
  · subst hj
    rw [moved_pcs_self]
    exact hi
  · rw [moved_pcs_of_ne hj]
    exact hne j hj

/-- **The workers' side**: the result in memory is what the place says, one worker at most has
    claimed the race, its index is the one written, and the log is what the places say. -/
structure WorkersInv (x : Logged RaceState RaceEvent) : Prop where
  results : ∀ i, x.state.results i = (x.state.pcs i).written (x.state.type i)
  one_claim : ∀ i j, (x.state.pcs i).claimed = true → (x.state.pcs j).claimed = true → i = j
  claimed : ∀ i, (x.state.pcs i).claimed = true → x.state.control.winnerClaimed = true
  indexed : ∀ i, (x.state.pcs i).indexed = true → x.state.control.winnerIndex = i
  published : ∀ i, (x.state.pcs i).published = true →
    x.state.control.winnerPublished = .published
  publisher : x.state.control.winnerPublished = .published →
    ∃ i, (x.state.pcs i).published = true
  range : ∀ i, x.state.pcs i ≠ .idle → i < x.state.types.length
  ssl : ∀ i, destroyedSsl i x.log = (x.state.pcs i).destroyedSsl
  carriers : ∀ i, destroyedCarriers i x.log = (x.state.pcs i).destroyedCarrier (x.state.type i)

variable {x : Logged RaceState RaceEvent}

/-- A step behind which every worker looks the same, and the flags too. -/
theorem WorkersInv.same (h : WorkersInv x) {y : Logged RaceState RaceEvent}
    (hmarks : ∀ i, (y.state.pcs i).marks (y.state.type i) =
      (x.state.pcs i).marks (x.state.type i))
    (hclaimed : y.state.control.winnerClaimed = x.state.control.winnerClaimed)
    (hindex : y.state.control.winnerIndex = x.state.control.winnerIndex)
    (hpublished : y.state.control.winnerPublished = .published ↔
      x.state.control.winnerPublished = .published)
    (hssl : ∀ i, destroyedSsl i y.log = destroyedSsl i x.log)
    (hcarriers : ∀ i, destroyedCarriers i y.log = destroyedCarriers i x.log)
    (hresults : ∀ i, y.state.results i = (y.state.pcs i).written (y.state.type i))
    (hrange : ∀ i, y.state.pcs i ≠ .idle → i < y.state.types.length) : WorkersInv y := by
  have hclaims : ∀ i, (y.state.pcs i).claimed = (x.state.pcs i).claimed :=
    fun i => congrArg WorkerPc.Marks.claimed (hmarks i)
  have hindexes : ∀ i, (y.state.pcs i).indexed = (x.state.pcs i).indexed :=
    fun i => congrArg WorkerPc.Marks.indexed (hmarks i)
  have hpublishes : ∀ i, (y.state.pcs i).published = (x.state.pcs i).published :=
    fun i => congrArg WorkerPc.Marks.published (hmarks i)
  refine ⟨hresults, ?_, ?_, ?_, ?_, ?_, hrange, ?_, ?_⟩
  · intro i j hi hj
    exact h.one_claim i j (hclaims i ▸ hi) (hclaims j ▸ hj)
  · intro i hi
    rw [hclaimed]
    exact h.claimed i (hclaims i ▸ hi)
  · intro i hi
    rw [hindex]
    exact h.indexed i (hindexes i ▸ hi)
  · intro i hi
    exact hpublished.mpr (h.published i (hpublishes i ▸ hi))
  · intro hp
    obtain ⟨i, hi⟩ := h.publisher (hpublished.mp hp)
    exact ⟨i, (hpublishes i).trans hi⟩
  · intro i
    rw [hssl, h.ssl]
    exact (congrArg WorkerPc.Marks.destroyedSsl (hmarks i)).symm
  · intro i
    rw [hcarriers, h.carriers]
    exact (congrArg WorkerPc.Marks.destroyedCarrier (hmarks i)).symm

/-- What a move of one worker keeps, whatever it moves to. -/
theorem WorkersInv.moved_memory (h : WorkersInv x) (hi : i < x.state.types.length) (pc : WorkerPc)
    (control : RaceControl) (exited : ℕ → Bool) :
    (∀ j, (x.state.moved i pc control exited).results j =
      ((x.state.moved i pc control exited).pcs j).written (x.state.type j)) ∧
    ∀ j, (x.state.moved i pc control exited).pcs j ≠ .idle → j < x.state.types.length := by
  constructor
  · refine moved_forall (Q := fun j pc' =>
      (x.state.moved i pc control exited).results j = pc'.written (x.state.type j)) ?_ ?_
    · exact Function.update_self ..
    · intro j hj
      rw [← h.results j]
      exact Function.update_of_ne hj ..
  · exact moved_forall (Q := fun j pc => pc ≠ .idle → j < x.state.types.length)
      (fun _ => hi) (fun j _ => h.range j)

/-- **What a move has to show** for the workers' side: what it says about the worker itself, that
    it takes no flag back, and that it writes the index only for a worker that claimed the race. -/
theorem WorkersInv.moved (h : WorkersInv x) {control : RaceControl} {exited : ℕ → Bool}
    {log : List RaceEvent} (hi : i < x.state.types.length) (hclaim : pc.claimed = true →
      control.winnerClaimed = true ∧
        ((x.state.pcs i).claimed = true ∨ x.state.control.winnerClaimed = false))
    (hclaimed : x.state.control.winnerClaimed = true → control.winnerClaimed = true)
    (hindex : pc.indexed = true → control.winnerIndex = i)
    (hindexed : (x.state.pcs i).claimed = true ∨
      control.winnerIndex = x.state.control.winnerIndex)
    (hpublish : pc.published = true → control.winnerPublished = .published)
    (hpublished : x.state.control.winnerPublished = .published →
      control.winnerPublished = .published ∧
        ((x.state.pcs i).published = true → pc.published = true))
    (hpublisher : control.winnerPublished = .published →
      pc.published = true ∨ x.state.control.winnerPublished = .published)
    (hssl : ∀ j, destroyedSsl j log = if j = i then pc.destroyedSsl else destroyedSsl j x.log)
    (hcarriers : ∀ j, destroyedCarriers j log =
      if j = i then pc.destroyedCarrier (x.state.type i) else destroyedCarriers j x.log) :
    WorkersInv ⟨x.state.moved i pc control exited, log⟩ := by
  obtain ⟨hresults, hrange⟩ := h.moved_memory hi pc control exited
  -- A worker next to `i` that claimed the race is not `i`, nor did `i` claim it now.
  have hother : ∀ j, j ≠ i → (x.state.pcs j).claimed = true → pc.claimed = true → False := by
    intro j hj hjclaimed hnow
    rcases (hclaim hnow).2 with hwas | hfree
    · exact hj (h.one_claim j i hjclaimed hwas)
    · have hset := h.claimed j hjclaimed
      rw [hfree] at hset
      cases hset
  refine ⟨hresults, ?_, ?_, ?_, ?_, ?_, hrange, ?_, ?_⟩
  · intro j k
    refine moved_forall (Q := fun j pc => pc.claimed = true → _ → j = k) ?_ ?_ j
    · intro hnow
      refine moved_forall (Q := fun k pc => pc.claimed = true → i = k) (fun _ => rfl) ?_ k
      intro k hk hkclaimed
      exact (hother k hk hkclaimed hnow).elim
    · intro j hj hjclaimed
      refine moved_forall (Q := fun k pc => pc.claimed = true → j = k) ?_ ?_ k
      · intro hnow
        exact (hother j hj hjclaimed hnow).elim
      · intro k _ hk
        exact h.one_claim j k hjclaimed hk
  · refine moved_forall (Q := fun _ pc => pc.claimed = true → _) (fun hnow => (hclaim hnow).1) ?_
    intro j _ hj
    exact hclaimed (h.claimed j hj)
  · refine moved_forall (Q := fun j pc => pc.indexed = true → _ = (j : ℤ)) hindex ?_
    intro j hj hjindexed
    rcases hindexed with hwas | hsame
    · exact absurd (h.one_claim j i (WorkerPc.indexed_claimed hjindexed) hwas) hj
    · exact hsame.trans (h.indexed j hjindexed)
  · refine moved_forall (Q := fun _ pc => pc.published = true → _) hpublish ?_
    intro j _ hj
    exact (hpublished (h.published j hj)).1
  · intro hp
    rcases hpublisher hp with hnow | hwas
    · exact ⟨i, (congrArg WorkerPc.published (moved_pcs_self ..)).trans hnow⟩
    · obtain ⟨j, hj⟩ := h.publisher hwas
      refine ⟨j, moved_forall (Q := fun k pc => k = j → pc.published = true) ?_ ?_ j rfl⟩
      · rintro rfl
        exact (hpublished hwas).2 hj
      · rintro k _ rfl
        exact hj
  · refine moved_forall (Q := fun j pc => destroyedSsl j log = pc.destroyedSsl) ?_ ?_
    · rw [hssl, if_pos rfl]
    · intro j hj
      rw [hssl, if_neg hj, h.ssl]
  · refine moved_forall
      (Q := fun j pc => destroyedCarriers j log = pc.destroyedCarrier (x.state.type j)) ?_ ?_
    · rw [hcarriers, if_pos rfl]
    · intro j hj
      rw [hcarriers, if_neg hj, h.carriers]

/-- **A worker's step keeps the workers' side.** -/
theorem WorkersInv.effect (h : WorkersInv x) {s' : RaceState} {e : Option RaceEvent}
    (heffect : WorkerEffect x.state i s' e) : WorkersInv ⟨s', e.toList ++ x.log⟩ := by
  have hssl : ∀ ssl, (x.state.pcs i).destroyedSsl = ssl →
      ∀ j, destroyedSsl j x.log = if j = i then ssl else destroyedSsl j x.log := by
    intro ssl heq j
    split_ifs with hj
    · rw [hj, h.ssl, heq]
    · rfl
  have hcarriers : ∀ carrier, (x.state.pcs i).destroyedCarrier (x.state.type i) = carrier →
      ∀ j, destroyedCarriers j x.log = if j = i then carrier else destroyedCarriers j x.log := by
    intro carrier heq j
    split_ifs with hj
    · rw [hj, h.carriers, heq]
    · rfl
  -- the marks of the other workers stay, so each clause is about `i` or as before
  cases heffect with
  | still hover => exact h
  | own pc exited hactive hidle hmarks hcompleted =>
    have hwas : x.state.pcs i ≠ .idle := by
      intro hpc
      rw [hpc] at hactive
      cases hactive
    have hclaimed : pc.claimed = (x.state.pcs i).claimed :=
      congrArg WorkerPc.Marks.claimed hmarks
    have hindexed : pc.indexed = (x.state.pcs i).indexed :=
      congrArg WorkerPc.Marks.indexed hmarks
    have hpublished : pc.published = (x.state.pcs i).published :=
      congrArg WorkerPc.Marks.published hmarks
    refine h.moved (h.range i hwas) ?_ id ?_ (.inr rfl) ?_ ?_ .inr
      (hssl _ (congrArg WorkerPc.Marks.destroyedSsl hmarks).symm)
      (hcarriers _ (congrArg WorkerPc.Marks.destroyedCarrier hmarks).symm)
    · intro hnow
      rw [hclaimed] at hnow
      exact ⟨h.claimed i hnow, .inl hnow⟩
    · intro hnow
      exact h.indexed i (hindexed ▸ hnow)
    · intro hnow
      exact h.published i (hpublished ▸ hnow)
    · intro hp
      exact ⟨hp, fun hi => hpublished.trans hi⟩
  | claims r hpc hfree =>
    refine h.moved (h.range i (hpc ▸ nofun)) (fun _ => ⟨rfl, .inr hfree⟩) (fun _ => rfl) nofun
      (.inr rfl) nofun (fun hp => ⟨hp, ?_⟩) .inr (hssl _ ?_) (hcarriers _ ?_)
    all_goals rw [hpc]
    · exact nofun
    · rfl
    · rfl
  | indexes r hpc =>
    have hwas : (x.state.pcs i).claimed = true := by rw [hpc]; rfl
    refine h.moved (h.range i (hpc ▸ nofun)) (fun _ => ⟨h.claimed i hwas, .inl hwas⟩) id
      (fun _ => rfl) (.inl hwas) nofun (fun hp => ⟨hp, ?_⟩) .inr (hssl _ ?_) (hcarriers _ ?_)
    all_goals rw [hpc]
    · exact nofun
    · rfl
    · rfl
  | publishes r hpc hpending =>
    have hwas : (x.state.pcs i).claimed = true := by rw [hpc]; rfl
    have hindexed : (x.state.pcs i).indexed = true := by rw [hpc]; rfl
    refine h.moved (h.range i (hpc ▸ nofun)) (fun _ => ⟨h.claimed i hwas, .inl hwas⟩) id
      (fun _ => h.indexed i hindexed) (.inr rfl) (fun _ => rfl) (fun _ => ⟨rfl, fun _ => rfl⟩)
      (fun _ => .inl rfl) (hssl _ ?_) (hcarriers _ ?_)
    all_goals
      rw [hpc]
      rfl
  | destroysSsl r claimed hpc =>
    have hclaimed : (x.state.pcs i).claimed = claimed := by rw [hpc]; rfl
    have hindexed : (x.state.pcs i).indexed = claimed := by rw [hpc]; rfl
    have hpublished : (x.state.pcs i).published = false := by rw [hpc]; rfl
    refine h.moved (h.range i (hpc ▸ nofun)) ?_ id ?_ (.inr rfl) nofun (fun hp => ⟨hp, ?_⟩) .inr ?_
      (hcarriers _ ?_)
    · intro hnow
      exact ⟨h.claimed i (hclaimed.trans hnow), .inl (hclaimed.trans hnow)⟩
    · intro hnow
      exact h.indexed i (hindexed.trans hnow)
    · rw [hpublished]
      exact nofun
    · intro j
      refine (destroyedSsl_cons i j r.ssl x.log).trans ?_
      split_ifs with hj
      · rw [hj, h.ssl, hpc]
        rfl
      · rfl
    · rw [hpc]
      rfl
  | destroysCarrier r claimed hpc =>
    have hclaimed : (x.state.pcs i).claimed = claimed := by rw [hpc]; rfl
    have hindexed : (x.state.pcs i).indexed = claimed := by rw [hpc]; rfl
    have hpublished : (x.state.pcs i).published = false := by rw [hpc]; rfl
    refine h.moved (h.range i (hpc ▸ nofun)) ?_ id ?_ (.inr rfl) nofun (fun hp => ⟨hp, ?_⟩) .inr
      (hssl _ ?_) ?_
    · intro hnow
      exact ⟨h.claimed i (hclaimed.trans hnow), .inl (hclaimed.trans hnow)⟩
    · intro hnow
      exact h.indexed i (hindexed.trans hnow)
    · rw [hpublished]
      exact nofun
    · rw [hpc]
      rfl
    · intro j
      refine (destroyedCarriers_cons i j _ x.log).trans ?_
      split_ifs with hj
      · rw [hj, h.carriers, hpc]
        rfl
      · rfl

end SoftEther.Connection
