import SoftEther.Lib.Transition
import Mathlib.Data.List.Nodup
import Mathlib.Data.Int.Notation

namespace SoftEther.Sstp

open Lib

/-!
# One session at a time (`service/SstpVpnService.kt`, `control/Controller.kt`)

The service starts a controller for each session, on its main thread when the user connects and
in a job when a session is to be reconnected. A controller that fails is torn down by a job of its
own, which then schedules such a reconnection or stops the service. Sessions have generations, and
a job looks at the current one before it acts.

* `serviceStep` — one step of the main thread or of one of the jobs, in any order;
* `Timely` — no job acts on a generation that it has not seen;
* `single_session` — then there is one session at a time, and nobody stops or replaces it;
* `stale_teardown_orphans` — a teardown that schedules for a later session replaces it.
-/

/-! ### The service and its jobs -/

/-- The job of `kill`: it closes what the session has opened, or has seen that the session is the
    current one and goes on to close the service. -/
inductive Teardown
  | cleaning (isReconnectionRequested : Bool)
  | closing
  deriving DecidableEq

/-- A `Controller`. Its mutex is held while there is a teardown; `isKilled` once there was one. -/
structure SstpController where
  generation : ℕ
  isReconnectionEnabled : Bool
  teardown : Option Teardown
  isKilled : Bool
  deriving DecidableEq

/-- Where the job of `launchJobReconnect` is. -/
inductive ReconnectStage
  | launched
  | delaying
  | initializing
  | done
  deriving DecidableEq

/-- A job that reconnects, with the session it was started for. -/
structure ReconnectJob where
  scheduledGeneration : ℕ
  stage : ReconnectStage
  deriving DecidableEq

/-- What the main thread does next: the steps of `onStartCommand`, for `ACTION_VPN_CONNECT` and
    for anything else, and of `onDestroy`. -/
inductive MainThread
  | idle
  | connectJoin
  | connectForget
  | connectBegin
  | connectKill (generation : ℕ)
  | connectReset (generation : ℕ)
  | connectInitialize (generation : ℕ)
  | disconnectJoin
  | disconnectKill
  | disconnectForget
  | disconnectClose
  | destroyKill
  | destroyForget
  | destroyed
  deriving DecidableEq

/-- The `SstpVpnService`, with every controller and every job there has been. -/
structure SstpService where
  sessionGeneration : ℕ
  controllers : List SstpController
  controller : Option ℕ
  jobs : List ReconnectJob
  jobReconnect : Option ℕ
  reconnectionLife : ℤ
  main : MainThread
  closes : ℕ

/-- What happens to the service. -/
inductive ServiceEvent
  | onConnect
  | onDisconnect
  | onDestroy
  | main (isReconnectionEnabled : Bool)
  | fail (generation : ℕ)
  | connected (generation : ℕ)
  | cleaned (generation : ℕ)
  | cleaningThrows (generation : ℕ)
  | close (generation : ℕ)
  | startJob (job : ℕ)
  | delayOver (job : ℕ)
  | initializeClient (job : ℕ) (isReconnectionEnabled : Bool)

/-! ### Sessions -/

/-- The controller of a session. -/
def controllerOf (generation : ℕ) (s : SstpService) : Option SstpController :=
  s.controllers.find? (fun c => c.generation = generation)

/-- A session's own controller is changed. -/
def modifyController (generation : ℕ) (f : SstpController → SstpController) (s : SstpService) :
    SstpService :=
  { s with controllers := s.controllers.map fun c => if c.generation = generation then f c else c }

/-- `kill`: a teardown is launched, unless there is one that holds the mutex. -/
def SstpController.kill (isReconnectionRequested : Bool) (c : SstpController) : SstpController :=
  if c.teardown.isSome then c
  else
    { c with
      teardown := some (.cleaning isReconnectionRequested)
      isKilled := true }

/-- `kill` on the controller that the service knows, if it knows one. -/
def killController (s : SstpService) : SstpService :=
  match s.controller with
  | some generation => modifyController generation (SstpController.kill false) s
  | none => s

/-- The mutex is released. -/
def SstpController.finish (c : SstpController) : SstpController := { c with teardown := none }

/-- `initializeClient` for a generation that has begun. -/
def initializeClient (generation : ℕ) (isReconnectionEnabled : Bool) (s : SstpService) :
    SstpService :=
  { s with
    controllers := s.controllers ++
      [{ generation := generation
         isReconnectionEnabled := isReconnectionEnabled
         teardown := none
         isKilled := false }]
    controller := some generation }

def beginSessionGeneration (s : SstpService) : SstpService :=
  { s with sessionGeneration := s.sessionGeneration + 1 }

/-- `launchJobReconnect`: the job is bound to the generation that is current by now. -/
def launchJobReconnect (s : SstpService) : SstpService :=
  { s with
    jobs := s.jobs ++ [⟨s.sessionGeneration, .launched⟩]
    jobReconnect := some s.jobs.length }

/-- `resetReconnectionLife`, where `count` is `RECONNECTION_COUNT`. -/
def resetReconnectionLife (count : ℕ) (s : SstpService) : SstpService :=
  { s with reconnectionLife := count }

/-- What a teardown does in the end. -/
def finishTeardown (c : SstpController) (isReconnectionRequested : Bool) (s : SstpService) :
    SstpService :=
  if isReconnectionRequested ∧ 0 < s.reconnectionLife then
    modifyController c.generation SstpController.finish (launchJobReconnect s)
  else if s.sessionGeneration = c.generation then
    modifyController c.generation (fun c => { c with teardown := some .closing }) s
  else modifyController c.generation SstpController.finish s

/-! ### The main thread -/

/-- A job goes on at a stage. -/
def setStage (job : ℕ) (stage : ReconnectStage) (s : SstpService) : SstpService :=
  { s with jobs := s.jobs.modify job (fun r => { r with stage := stage }) }

/-- `jobReconnect?.cancelAndJoin()`. A job that is past its delay is waited for. -/
def cancelAndJoin (next : MainThread) (s : SstpService) : SstpService :=
  match s.jobReconnect with
  | none => { s with main := next }
  | some job =>
    match s.jobs[job]? with
    | some ⟨_, .initializing⟩ => s
    | _ => { setStage job .done s with main := next }

/-- The next step of the main thread. -/
def mainStep (count : ℕ) (isReconnectionEnabled : Bool) (s : SstpService) : SstpService :=
  match s.main with
  | .idle => s
  | .connectJoin => cancelAndJoin .connectForget s
  | .connectForget =>
    { s with
      jobReconnect := none
      main := .connectBegin }
  | .connectBegin =>
    { beginSessionGeneration s with main := .connectKill (s.sessionGeneration + 1) }
  | .connectKill generation => { killController s with main := .connectReset generation }
  | .connectReset generation =>
    { resetReconnectionLife count s with main := .connectInitialize generation }
  | .connectInitialize generation =>
    { initializeClient generation isReconnectionEnabled s with main := .idle }
  | .disconnectJoin => cancelAndJoin .disconnectKill s
  | .disconnectKill => { killController s with main := .disconnectForget }
  | .disconnectForget =>
    { s with
      controller := none
      main := .disconnectClose }
  | .disconnectClose =>
    { s with
      closes := s.closes + 1
      main := .idle }
  | .destroyKill => { killController s with main := .destroyForget }
  | .destroyForget =>
    { s with
      controller := none
      main := .destroyed }
  | .destroyed => s

/-! ### A step -/

/-- One step of the main thread or of a job. -/
def serviceStep (count : ℕ) (s : SstpService) (e : ServiceEvent) : SstpService :=
  -- `onDestroy` ends by cancelling the scope of all jobs
  if s.main = .destroyed then s
  else
    match e with
    | .onConnect => if s.main = .idle then { s with main := .connectJoin } else s
    | .onDisconnect => if s.main = .idle then { s with main := .disconnectJoin } else s
    | .onDestroy => if s.main = .idle then { s with main := .destroyKill } else s
    | .main isReconnectionEnabled => mainStep count isReconnectionEnabled s
    | .fail generation =>
      modifyController generation (fun c => c.kill c.isReconnectionEnabled) s
    | .connected generation =>
      match controllerOf generation s with
      | some c => if c.isReconnectionEnabled then resetReconnectionLife count s else s
      | none => s
    | .cleaned generation =>
      match controllerOf generation s with
      | some c =>
        match c.teardown with
        | some (.cleaning isReconnectionRequested) => finishTeardown c isReconnectionRequested s
        | _ => s
      | none => s
    | .cleaningThrows generation =>
      match controllerOf generation s with
      | some c =>
        match c.teardown with
        | some (.cleaning _) => modifyController generation SstpController.finish s
        | _ => s
      | none => s
    | .close generation =>
      match controllerOf generation s with
      | some c =>
        match c.teardown with
        | some .closing =>
          modifyController generation SstpController.finish { s with closes := s.closes + 1 }
        | _ => s
      | none => s
    | .startJob job =>
      match s.jobs[job]? with
      | some ⟨_, .launched⟩ =>
        setStage job .delaying { s with reconnectionLife := s.reconnectionLife - 1 }
      | _ => s
    | .delayOver job =>
      match s.jobs[job]? with
      | some ⟨scheduledGeneration, .delaying⟩ =>
        if s.sessionGeneration = scheduledGeneration then setStage job .initializing s
        else setStage job .done s
      | _ => s
    | .initializeClient job isReconnectionEnabled =>
      match s.jobs[job]? with
      | some ⟨_, .initializing⟩ =>
        setStage job .done
          (initializeClient (s.sessionGeneration + 1) isReconnectionEnabled
            (beginSessionGeneration s))
      | _ => s

/-- The service is created. `RECONNECTION_LIFE` is what the last one left. -/
def launchService (reconnectionLife : ℤ) : SstpService where
  sessionGeneration := 0
  controllers := []
  controller := none
  jobs := []
  jobReconnect := none
  reconnectionLife := reconnectionLife
  main := .idle
  closes := 0

/-- The service after some events. -/
def serviceRun (count : ℕ) (reconnectionLife : ℤ) (events : List ServiceEvent) : SstpService :=
  run (serviceStep count) (launchService reconnectionLife) events

/-! ### What may come when -/

/-- Every session has been torn down, or is being so. -/
def AllKilled (s : SstpService) : Prop := ∀ c ∈ s.controllers, c.isKilled = true

/-- No teardown has seen its session to be the current one and is about to close the service. -/
def NoneCloses (s : SstpService) : Prop := ∀ c ∈ s.controllers, c.teardown ≠ some .closing

/-- The teardown of a session would now schedule a reconnection. -/
def Schedules (generation : ℕ) (s : SstpService) : Prop :=
  (controllerOf generation s).any (fun c => c.teardown = some (.cleaning true)) = true ∧
    0 < s.reconnectionLife

/-- **No job acts on a generation it has not seen.** A session is begun while no other job is past
    its look at the generation, and not between the steps by which the main thread tears the
    session down and forgets it. A teardown schedules a reconnection when the current session is
    torn down. -/
def Timely (s : SstpService) : ServiceEvent → Prop
  | .main _ =>
    s.main = .connectBegin → NoneCloses s ∧ ∀ r ∈ s.jobs, r.stage ≠ .initializing
  | .initializeClient job _ =>
    NoneCloses s ∧ (∀ r ∈ s.jobs.eraseIdx job, r.stage ≠ .initializing) ∧
      s.main ≠ .disconnectForget ∧ s.main ≠ .destroyForget
  | .cleaned generation =>
    Schedules generation s →
      ∃ c ∈ s.controllers, c.generation = s.sessionGeneration ∧ c.isKilled = true
  | _ => True

instance decidableNoneCloses (s : SstpService) : Decidable (NoneCloses s) :=
  inferInstanceAs (Decidable (∀ c ∈ s.controllers, _))

instance decidableSchedules (generation : ℕ) (s : SstpService) :
    Decidable (Schedules generation s) :=
  inferInstanceAs (Decidable (_ ∧ _))

instance decidableTimely (s : SstpService) : (e : ServiceEvent) → Decidable (Timely s e)
  | .main _ => inferInstanceAs (Decidable (_ → _))
  | .initializeClient _ _ => inferInstanceAs (Decidable (_ ∧ _))
  | .cleaned _ => inferInstanceAs (Decidable (_ → _))
  | .onConnect | .onDisconnect | .onDestroy | .fail _ | .connected _ | .cleaningThrows _
  | .close _ | .startJob _ | .delayOver _ => inferInstanceAs (Decidable True)

/-! ### The invariant -/

/-- The generation that the main thread has begun without a session so far. -/
def MainThread.begun : MainThread → Option ℕ
  | connectKill generation => some generation
  | connectReset generation => some generation
  | connectInitialize generation => some generation
  | _ => none

/-- The main thread has torn a session down, and has not come to the next one. -/
def MainThread.isQuiet : MainThread → Bool
  | connectReset _ => true
  | connectInitialize _ => true
  | disconnectForget => true
  | destroyForget => true
  | _ => false

/-- The job may still begin a session. -/
def ReconnectJob.Pending (r : ReconnectJob) (s : SstpService) : Prop :=
  r.stage ≠ .done ∧ r.scheduledGeneration = s.sessionGeneration

/-- **The invariant.** A session that is not torn down is the current one, and the service knows
    its controller; a job that may still begin a session does so for one that is torn down. -/
structure ServiceOk (s : SstpService) : Prop where
  bounded : ∀ c ∈ s.controllers, c.generation ≤ s.sessionGeneration
  nodup : (s.controllers.map SstpController.generation).Nodup
  torn : ∀ c ∈ s.controllers, c.teardown ≠ none → c.isKilled = true
  known : ∀ c ∈ s.controllers, c.isKilled = false → s.controller = some c.generation
  current : ∀ c ∈ s.controllers, c.isKilled = false → s.main.begun = none →
    c.generation = s.sessionGeneration
  begun : ∀ generation, s.main.begun = some generation → generation = s.sessionGeneration ∧
    ∀ c ∈ s.controllers, c.generation ≠ generation
  quiet : s.main.isQuiet = true → AllKilled s
  closing : ∀ c ∈ s.controllers, c.teardown = some .closing → c.generation = s.sessionGeneration
  jobs : ∀ r ∈ s.jobs, r.scheduledGeneration ≤ s.sessionGeneration
  initializing : ∀ r ∈ s.jobs, r.stage = .initializing → r.scheduledGeneration = s.sessionGeneration
  pending : ∀ r ∈ s.jobs, r.Pending s → s.main.begun = none ∧ AllKilled s

variable {s : SstpService} {c : SstpController} {job : ℕ}

theorem eq_of_generation (h : ServiceOk s) {d : SstpController} (hc : c ∈ s.controllers)
    (hd : d ∈ s.controllers) (hsame : c.generation = d.generation) : c = d :=
  List.inj_on_of_nodup_map h.nodup hc hd hsame

/-- A session that is torn down while it is the current one was the last one to be. -/
theorem allKilled_of_current (h : ServiceOk s) (hc : c ∈ s.controllers)
    (hcurrent : c.generation = s.sessionGeneration) (hkilled : c.isKilled = true) :
    s.main.begun = none ∧ AllKilled s := by
  have hbegun : s.main.begun = none := by
    by_contra hsome
    obtain ⟨generation, hgeneration⟩ := Option.ne_none_iff_exists'.mp hsome
    obtain ⟨hsame, hno⟩ := h.begun generation hgeneration
    exact hno c hc (hcurrent.trans hsame.symm)
  refine ⟨hbegun, fun d hd => ?_⟩
  by_contra halive
  have hdcurrent := h.current d hd (by simpa using halive) hbegun
  rw [eq_of_generation h hd hc (hdcurrent.trans hcurrent.symm)] at halive
  exact halive hkilled

/-- A session that is about to close the service was the last one. -/
theorem allKilled_of_closing (h : ServiceOk s) (hc : c ∈ s.controllers)
    (hclosing : c.teardown = some .closing) : AllKilled s :=
  (allKilled_of_current h hc (h.closing c hc hclosing)
    (h.torn c hc (by rw [hclosing]; exact nofun))).2

theorem mem_modifyController {generation : ℕ} {f : SstpController → SstpController} :
    c ∈ (modifyController generation f s).controllers ↔
      ∃ d ∈ s.controllers, (if d.generation = generation then f d else d) = c :=
  List.mem_map

/-- What may be done to the controller of a session. -/
structure Keeps (s : SstpService) (generation : ℕ) (f : SstpController → SstpController) :
    Prop where
  same : ∀ c ∈ s.controllers, (f c).generation = c.generation
  killed : ∀ c ∈ s.controllers, c.isKilled = true → (f c).isKilled = true
  torn : ∀ c ∈ s.controllers, c.generation = generation → (f c).teardown ≠ none →
    (f c).isKilled = true
  closing : ∀ c ∈ s.controllers, c.generation = generation → (f c).teardown = some .closing →
    generation = s.sessionGeneration

namespace ServiceOk

variable {s : SstpService} {generation : ℕ} {f : SstpController → SstpController}

/-- A controller is changed, and no session is begun. -/
theorem modify (h : ServiceOk s) (hf : Keeps s generation f) :
    ServiceOk (modifyController generation f s) ∧
      (AllKilled s → AllKilled (modifyController generation f s)) := by
  -- a controller that is not torn down afterwards was not before
  have hback : ∀ c ∈ (modifyController generation f s).controllers, ∃ d ∈ s.controllers,
      d.generation = c.generation ∧ (c.isKilled = false → d.isKilled = false) ∧
        (c.teardown ≠ none → c.isKilled = true) ∧
          (c.teardown = some .closing → c.generation = s.sessionGeneration) := by
    intro c hc
    obtain ⟨d, hd, hdc⟩ := mem_modifyController.mp hc
    by_cases hsame : d.generation = generation
    · rw [if_pos hsame] at hdc
      rw [← hdc]
      refine ⟨d, hd, (hf.same d hd).symm, ?_, hf.torn d hd hsame, ?_⟩
      · intro halive
        by_contra hkilled
        rw [hf.killed d hd (by simpa using hkilled)] at halive
        exact absurd halive nofun
      · intro hclosing
        rw [hf.same d hd, hsame]
        exact hf.closing d hd hsame hclosing
    · rw [if_neg hsame] at hdc
      rw [← hdc]
      exact ⟨d, hd, rfl, id, h.torn d hd, h.closing d hd⟩
  have hall : AllKilled s → AllKilled (modifyController generation f s) := by
    intro hkilled c hc
    obtain ⟨d, hd, -, hdalive, -⟩ := hback c hc
    by_contra halive
    exact absurd (hkilled d hd) (by rw [hdalive (by simpa using halive)]; exact nofun)
  refine ⟨⟨?_, ?_, ?_, ?_, ?_, ?_, fun hquiet => hall (h.quiet hquiet), ?_, h.jobs,
    h.initializing, fun r hr hpending => ?_⟩, hall⟩
  · intro c hc
    obtain ⟨d, hd, hsame, -⟩ := hback c hc
    exact hsame ▸ h.bounded d hd
  · have hmap : (modifyController generation f s).controllers.map SstpController.generation =
        s.controllers.map SstpController.generation := by
      unfold modifyController
      rw [List.map_map]
      refine List.map_congr_left (fun c hc => ?_)
      show (if c.generation = generation then f c else c).generation = c.generation
      split_ifs
      · exact hf.same c hc
      · rfl
    rw [hmap]
    exact h.nodup
  · intro c hc
    obtain ⟨d, -, -, -, htorn, -⟩ := hback c hc
    exact htorn
  · intro c hc halive
    obtain ⟨d, hd, hsame, hdalive, -⟩ := hback c hc
    rw [← hsame]
    exact h.known d hd (hdalive halive)
  · intro c hc halive hbegun
    obtain ⟨d, hd, hsame, hdalive, -⟩ := hback c hc
    rw [← hsame]
    exact h.current d hd (hdalive halive) hbegun
  · intro g hg
    refine ⟨(h.begun g hg).1, fun c hc => ?_⟩
    obtain ⟨d, hd, hsame, -⟩ := hback c hc
    rw [← hsame]
    exact (h.begun g hg).2 d hd
  · intro c hc hclosing
    obtain ⟨d, -, -, -, -, hcurrent⟩ := hback c hc
    exact hcurrent hclosing
  · obtain ⟨hbegun, hkilled⟩ := h.pending r hr hpending
    exact ⟨hbegun, hall hkilled⟩

end ServiceOk

theorem keeps_kill (h : ServiceOk s) (generation : ℕ) (isRequested : SstpController → Bool) :
    Keeps s generation (fun c => c.kill (isRequested c)) := by
  refine ⟨?_, ?_, ?_, ?_⟩
  · intro c _
    unfold SstpController.kill
    split_ifs <;> rfl
  · intro c _ hkilled
    unfold SstpController.kill
    split_ifs
    · exact hkilled
    · rfl
  · intro c hc _ _
    unfold SstpController.kill
    split_ifs with hlocked
    · exact h.torn c hc (by rintro hnone; rw [hnone] at hlocked; exact absurd hlocked nofun)
    · rfl
  · intro c hc hsame
    unfold SstpController.kill
    split_ifs
    · exact fun hclosing => hsame ▸ h.closing c hc hclosing
    · exact fun hclosing => absurd hclosing nofun

theorem keeps_finish (s : SstpService) (generation : ℕ) :
    Keeps s generation SstpController.finish where
  same _ _ := rfl
  killed _ _ hkilled := hkilled
  torn _ _ _ htorn := absurd rfl htorn
  closing _ _ _ hclosing := absurd hclosing nofun

theorem controllerOf_spec {generation : ℕ} (h : controllerOf generation s = some c) :
    c ∈ s.controllers ∧ c.generation = generation := by
  refine ⟨List.mem_of_find?_eq_some h, ?_⟩
  have hfound := List.find?_some h
  exact of_decide_eq_true hfound

/-- The teardown of the current session goes on to close the service. -/
theorem keeps_closing (h : ServiceOk s) (hc : c ∈ s.controllers) (hlocked : c.teardown ≠ none)
    (hcurrent : s.sessionGeneration = c.generation) :
    Keeps s c.generation (fun d => { d with teardown := some .closing }) where
  same _ _ := rfl
  killed _ _ hkilled := hkilled
  torn d hd hsame _ := by
    rw [eq_of_generation h hd hc hsame]
    exact h.torn c hc hlocked
  closing _ _ _ _ := hcurrent.symm

/-- The main thread is quiet on its way to a session, or before it forgets one. -/
theorem MainThread.begun_of_isQuiet {main : MainThread} (h : main.isQuiet = true) :
    main.begun ≠ none ∨ main = .disconnectForget ∨ main = .destroyForget := by
  cases main with
  | connectReset generation => exact .inl nofun
  | connectInitialize generation => exact .inl nofun
  | disconnectForget => exact .inr (.inl rfl)
  | destroyForget => exact .inr (.inr rfl)
  | _ => exact absurd h nofun

/-- A job of a list of jobs that is changed in one place. -/
theorem mem_setStage {stage : ReconnectStage} {r : ReconnectJob}
    (hr : r ∈ (setStage job stage s).jobs) :
    r ∈ s.jobs.eraseIdx job ∨ ∃ r₀, s.jobs[job]? = some r₀ ∧ r = { r₀ with stage := stage } := by
  obtain ⟨i, hi⟩ := List.mem_iff_getElem?.mp hr
  unfold setStage at hi
  rw [List.getElem?_modify] at hi
  by_cases hsame : job = i
  · subst hsame
    obtain ⟨r₀, hr₀, heq⟩ := Option.map_eq_some_iff.mp hi
    exact .inr ⟨r₀, hr₀, by rw [if_pos rfl] at heq; exact heq.symm⟩
  · obtain ⟨r₀, hr₀, heq⟩ := Option.map_eq_some_iff.mp hi
    rw [if_neg hsame] at heq
    refine .inl (List.mem_eraseIdx_iff_getElem?.mpr ⟨i, fun heq => hsame heq.symm, ?_⟩)
    rw [hr₀]
    exact congrArg some heq

namespace ServiceOk

variable {s : SstpService}

/-- The stage of a job is changed, and no session is begun. -/
theorem setStage (h : ServiceOk s) {job : ℕ} {r₀ : ReconnectJob} {stage : ReconnectStage}
    (hr₀ : s.jobs[job]? = some r₀) (hpending : stage ≠ .done → r₀.stage ≠ .done)
    (hinitializing : stage = .initializing → r₀.scheduledGeneration = s.sessionGeneration) :
    ServiceOk (setStage job stage s) := by
  have hmem := List.mem_of_getElem? hr₀
  refine ⟨h.bounded, h.nodup, h.torn, h.known, h.current, h.begun, h.quiet, h.closing, ?_, ?_, ?_⟩
  · intro r hr
    rcases mem_setStage hr with hr | ⟨r', hr', rfl⟩
    · exact h.jobs r (List.mem_of_mem_eraseIdx hr)
    · exact h.jobs r' (List.mem_of_getElem? hr')
  · intro r hr hstage
    rcases mem_setStage hr with hr | ⟨r', hr', rfl⟩
    · exact h.initializing r (List.mem_of_mem_eraseIdx hr) hstage
    · rw [Option.some.inj (hr'.symm.trans hr₀)]
      exact hinitializing hstage
  · intro r hr hfresh
    rcases mem_setStage hr with hr | ⟨r', hr', rfl⟩
    · exact h.pending r (List.mem_of_mem_eraseIdx hr) hfresh
    · rw [Option.some.inj (hr'.symm.trans hr₀)] at hfresh
      exact h.pending r₀ hmem ⟨hpending hfresh.1, hfresh.2⟩

/-- A job that does not exist has no stage. -/
theorem setStage_done (h : ServiceOk s) (job : ℕ) : ServiceOk (Sstp.setStage job .done s) := by
  cases hjob : s.jobs[job]? with
  | some r₀ => exact h.setStage hjob (fun hdone => absurd rfl hdone) nofun
  | none =>
    have hsame : Sstp.setStage job .done s = s := by
      unfold Sstp.setStage
      rw [List.modify_eq_self (List.getElem?_eq_none_iff.mp hjob)]
    rw [hsame]
    exact h

/-- The main thread goes on, and begins no generation. -/
theorem proceed (h : ServiceOk s) {next : MainThread}
    (hbegun : next.begun = s.main.begun) (hquiet : next.isQuiet = true → AllKilled s) :
    ServiceOk { s with main := next } where
  bounded := h.bounded
  nodup := h.nodup
  torn := h.torn
  known := h.known
  current c hc halive hnext := h.current c hc halive (hbegun ▸ hnext)
  begun g hg := h.begun g (hbegun ▸ hg)
  quiet := hquiet
  closing := h.closing
  jobs := h.jobs
  initializing := h.initializing
  pending r hr hr' := ⟨hbegun.trans (h.pending r hr hr').1, (h.pending r hr hr').2⟩

theorem killController (h : ServiceOk s) :
    ServiceOk (killController s) ∧ AllKilled (Sstp.killController s) := by
  unfold Sstp.killController
  cases hcontroller : s.controller with
  | none =>
    refine ⟨h, fun c hc => ?_⟩
    by_contra halive
    have := h.known c hc (by simpa using halive)
    rw [hcontroller] at this
    exact absurd this nofun
  | some generation =>
    dsimp only
    -- a session that is up is the one whose controller the service knows
    refine ⟨(h.modify (keeps_kill h generation (fun _ => false))).1, ?_⟩
    intro c hc
    obtain ⟨d, hd, hdc⟩ := mem_modifyController.mp hc
    by_cases hsame : d.generation = generation
    · rw [if_pos hsame] at hdc
      rw [← hdc]
      unfold SstpController.kill
      split_ifs with hlocked
      · exact h.torn d hd (by intro hnone; rw [hnone] at hlocked; exact absurd hlocked nofun)
      · rfl
    · rw [if_neg hsame] at hdc
      rw [← hdc]
      by_contra halive
      have hknown := h.known d hd (by simpa using halive)
      rw [hcontroller] at hknown
      exact hsame (Option.some.inj hknown).symm

/-- What is counted, and what a job is joined by, is not part of the invariant. -/
theorem congr (h : ServiceOk s) {t : SstpService}
    (hgeneration : t.sessionGeneration = s.sessionGeneration)
    (hcontrollers : t.controllers = s.controllers) (hcontroller : t.controller = s.controller)
    (hjobs : t.jobs = s.jobs) (hmain : t.main = s.main) : ServiceOk t := by
  obtain ⟨generation, controllers, controller, jobs, _, _, main, _⟩ := t
  dsimp only at hgeneration hcontrollers hcontroller hjobs hmain
  subst hgeneration hcontrollers hcontroller hjobs hmain
  exact ⟨h.bounded, h.nodup, h.torn, h.known, h.current, h.begun, h.quiet, h.closing, h.jobs,
    h.initializing, h.pending⟩

/-- The service forgets a controller that is torn down. -/
theorem forget (h : ServiceOk s) (hkilled : AllKilled s) :
    ServiceOk { s with controller := none } where
  bounded := h.bounded
  nodup := h.nodup
  torn := h.torn
  known c hc halive := by
    rw [hkilled c hc] at halive
    exact absurd halive nofun
  current := h.current
  begun := h.begun
  quiet := h.quiet
  closing := h.closing
  jobs := h.jobs
  initializing := h.initializing
  pending := h.pending

/-- A generation begins, while nobody acts on the last one. -/
theorem begin (h : ServiceOk s) (hcloses : NoneCloses s)
    (hinitializing : ∀ r ∈ s.jobs, r.stage ≠ .initializing) :
    ServiceOk
      { beginSessionGeneration s with main := .connectKill (s.sessionGeneration + 1) } where
  bounded c hc := Nat.le_succ_of_le (h.bounded c hc)
  nodup := h.nodup
  torn := h.torn
  known := h.known
  current _ _ _ hnext := absurd hnext nofun
  begun g hg := by
    have hsame : s.sessionGeneration + 1 = g := Option.some.inj hg
    refine ⟨hsame.symm, fun c hc => ?_⟩
    have := h.bounded c hc
    omega
  quiet hquiet := absurd hquiet nofun
  closing c hc hclosing := absurd hclosing (hcloses c hc)
  jobs r hr := Nat.le_succ_of_le (h.jobs r hr)
  initializing r hr hstage := absurd hstage (hinitializing r hr)
  pending r hr hpending := by
    have hbound := h.jobs r hr
    have hsame : r.scheduledGeneration = s.sessionGeneration + 1 := hpending.2
    omega

variable {generation : ℕ}

/-- A new session is the last of the list of controllers. -/
theorem mem_initializeClient {isReconnectionEnabled : Bool} {c : SstpController}
    (hc : c ∈ (initializeClient generation isReconnectionEnabled s).controllers) :
    c ∈ s.controllers ∨ c = ⟨generation, isReconnectionEnabled, none, false⟩ := by
  rcases List.mem_append.mp hc with hc | hc
  · exact .inl hc
  · exact .inr (List.mem_singleton.mp hc)

/-- Where every session is torn down, a new one is the only one that is not. -/
theorem initializeClient (h : ServiceOk s) (hkilled : AllKilled s)
    (hnew : ∀ c ∈ s.controllers, c.generation ≠ generation) (isReconnectionEnabled : Bool) :
    let t := Sstp.initializeClient generation isReconnectionEnabled s
    (t.controllers.map SstpController.generation).Nodup ∧
      (∀ c ∈ t.controllers, c.teardown ≠ none → c.isKilled = true) ∧
        ∀ c ∈ t.controllers, c.isKilled = false → c.generation = generation := by
  refine ⟨?_, ?_, ?_⟩
  · show ((s.controllers ++ _).map SstpController.generation).Nodup
    rw [List.map_append, List.nodup_append]
    refine ⟨h.nodup, List.nodup_singleton _, ?_⟩
    intro g hg g' hg'
    obtain ⟨c, hc, rfl⟩ := List.mem_map.mp hg
    rw [List.mem_singleton.mp hg']
    exact hnew c hc
  · intro c hc
    rcases mem_initializeClient hc with hc | rfl
    · exact h.torn c hc
    · exact fun htorn => absurd rfl htorn
  · intro c hc halive
    rcases mem_initializeClient hc with hc | rfl
    · rw [hkilled c hc] at halive
      exact absurd halive nofun
    · rfl

/-- The main thread begins the session of its generation. -/
theorem connect (h : ServiceOk s) (isReconnectionEnabled : Bool)
    (hmain : s.main = .connectInitialize generation) :
    ServiceOk { Sstp.initializeClient generation isReconnectionEnabled s with main := .idle } := by
  have hkilled : AllKilled s := h.quiet (by rw [hmain]; rfl)
  obtain ⟨hcurrent, hnew⟩ := h.begun generation (by rw [hmain]; rfl)
  obtain ⟨hnodup, htorn, halive⟩ := h.initializeClient hkilled hnew isReconnectionEnabled
  refine ⟨?_, hnodup, htorn, fun c hc hc' => congrArg some (halive c hc hc').symm,
    fun c hc hc' _ => (halive c hc hc').trans hcurrent, nofun, nofun, ?_, h.jobs, h.initializing,
    ?_⟩
  · intro c hc
    rcases mem_initializeClient hc with hc | rfl
    · exact h.bounded c hc
    · exact Nat.le_of_eq hcurrent
  · intro c hc
    rcases mem_initializeClient hc with hc | rfl
    · exact h.closing c hc
    · exact nofun
  · intro r hr hpending
    have hbegun := (h.pending r hr hpending).1
    rw [hmain] at hbegun
    exact absurd hbegun nofun

/-- A job begins a session, while no other thread acts on the last one. -/
theorem reconnect (h : ServiceOk s) {job : ℕ} {r₀ : ReconnectJob} (isReconnectionEnabled : Bool)
    (hr₀ : s.jobs[job]? = some r₀) (hstage : r₀.stage = .initializing)
    (hcloses : NoneCloses s) (hother : ∀ r ∈ s.jobs.eraseIdx job, r.stage ≠ .initializing)
    (hdisconnect : s.main ≠ .disconnectForget) (hdestroy : s.main ≠ .destroyForget) :
    ServiceOk (Sstp.setStage job .done
      (Sstp.initializeClient (s.sessionGeneration + 1) isReconnectionEnabled
        (beginSessionGeneration s))) := by
  have hmem := List.mem_of_getElem? hr₀
  -- the job is bound to the current generation, whose session is torn down
  obtain ⟨hbegun, hkilled⟩ :=
    h.pending r₀ hmem ⟨by rw [hstage]; decide, h.initializing r₀ hmem hstage⟩
  have hnew : ∀ c ∈ s.controllers, c.generation ≠ s.sessionGeneration + 1 := by
    intro c hc
    have := h.bounded c hc
    omega
  obtain ⟨hnodup, htorn, halive⟩ := h.initializeClient hkilled hnew isReconnectionEnabled
  have hjobs : ∀ r ∈ (Sstp.setStage job .done s).jobs,
      r.scheduledGeneration ≤ s.sessionGeneration := by
    intro r hr
    rcases mem_setStage hr with hr | ⟨r', hr', rfl⟩
    · exact h.jobs r (List.mem_of_mem_eraseIdx hr)
    · exact h.jobs r' (List.mem_of_getElem? hr')
  refine ⟨?_, hnodup, htorn, fun c hc hc' => congrArg some (halive c hc hc').symm,
    fun c hc hc' _ => halive c hc hc', ?_, ?_, ?_, fun r hr => Nat.le_succ_of_le (hjobs r hr), ?_,
    ?_⟩
  · intro c hc
    rcases mem_initializeClient hc with hc | rfl
    · exact Nat.le_succ_of_le (h.bounded c hc)
    · exact Nat.le_refl _
  · intro g hg
    have hg' : s.main.begun = some g := hg
    rw [hbegun] at hg'
    exact absurd hg' nofun
  · -- the main thread is not about to forget the controller of the new session
    intro hquiet
    rcases MainThread.begun_of_isQuiet hquiet with hsome | hmain | hmain
    · exact absurd hbegun hsome
    · exact absurd hmain hdisconnect
    · exact absurd hmain hdestroy
  · intro c hc hclosing
    rcases mem_initializeClient hc with hc | rfl
    · exact absurd hclosing (hcloses c hc)
    · exact absurd hclosing nofun
  · intro r hr hinitializing
    rcases mem_setStage hr with hr | ⟨r', hr', rfl⟩
    · exact absurd hinitializing (hother r hr)
    · exact absurd hinitializing nofun
  · intro r hr hpending
    have hbound := hjobs r hr
    have hsame : r.scheduledGeneration = s.sessionGeneration + 1 := hpending.2
    omega

theorem cancelAndJoin (h : ServiceOk s) {next : MainThread} (hbegun : next.begun = s.main.begun)
    (hquiet : next.isQuiet = false) : ServiceOk (cancelAndJoin next s) := by
  have hnext : next.isQuiet = true → AllKilled s := by
    rw [hquiet]
    exact nofun
  unfold Sstp.cancelAndJoin
  split
  · exact h.proceed hbegun hnext
  · split
    · exact h
    · exact (h.setStage_done _).proceed hbegun hnext

theorem mainStep (h : ServiceOk s) {count : ℕ} {isReconnectionEnabled : Bool}
    (ht : Timely s (.main isReconnectionEnabled)) :
    ServiceOk (mainStep count isReconnectionEnabled s) := by
  unfold Sstp.mainStep
  have hsame : (Sstp.killController s).main = s.main := by
    unfold Sstp.killController
    split <;> rfl
  obtain ⟨hkill, hkilled⟩ := h.killController
  split <;> rename_i hmain
  · exact h
  · exact h.cancelAndJoin (by rw [hmain]; rfl) rfl
  · have hnext : ServiceOk { s with main := .connectBegin } :=
      h.proceed (by rw [hmain]; rfl) (fun hquiet => absurd hquiet nofun)
    exact hnext.congr rfl rfl rfl rfl rfl
  · -- a generation begins
    obtain ⟨hcloses, hinitializing⟩ := ht hmain
    exact h.begin hcloses hinitializing
  · exact hkill.proceed (by rw [hsame, hmain]; rfl) (fun _ => hkilled)
  · have hnext : ServiceOk { s with main := .connectInitialize _ } :=
      h.proceed (by rw [hmain]; rfl) (fun _ => h.quiet (by rw [hmain]; rfl))
    exact hnext.congr rfl rfl rfl rfl rfl
  · -- and its session
    exact h.connect _ hmain
  · exact h.cancelAndJoin (by rw [hmain]; rfl) rfl
  · exact hkill.proceed (by rw [hsame, hmain]; rfl) (fun _ => hkilled)
  · have hall : AllKilled s := h.quiet (by rw [hmain]; rfl)
    exact (h.forget hall).proceed (by show none = s.main.begun; rw [hmain]; rfl)
      (fun hquiet => absurd hquiet nofun)
  · have hnext : ServiceOk { s with main := .idle } :=
      h.proceed (by rw [hmain]; rfl) (fun hquiet => absurd hquiet nofun)
    exact hnext.congr rfl rfl rfl rfl rfl
  · exact hkill.proceed (by rw [hsame, hmain]; rfl) (fun _ => hkilled)
  · have hall : AllKilled s := h.quiet (by rw [hmain]; rfl)
    exact (h.forget hall).proceed (by show none = s.main.begun; rw [hmain]; rfl)
      (fun hquiet => absurd hquiet nofun)
  · exact h

/-- A teardown comes to its end. -/
theorem finishTeardown (h : ServiceOk s) {c : SstpController} {isReconnectionRequested : Bool}
    (hc : c ∈ s.controllers) (hlocked : c.teardown ≠ none)
    (ht : isReconnectionRequested = true ∧ 0 < s.reconnectionLife →
      ∃ d ∈ s.controllers, d.generation = s.sessionGeneration ∧ d.isKilled = true) :
    ServiceOk (finishTeardown c isReconnectionRequested s) := by
  unfold Sstp.finishTeardown
  split_ifs with hschedules hcurrent
  · -- the new job is bound to the current session, which is torn down
    obtain ⟨d, hd, hdcurrent, hdkilled⟩ := ht hschedules
    obtain ⟨hbegun, hkilled⟩ := allKilled_of_current h hd hdcurrent hdkilled
    have hlaunch : ServiceOk (launchJobReconnect s) := by
      refine ⟨h.bounded, h.nodup, h.torn, h.known, h.current, h.begun, h.quiet, h.closing, ?_, ?_,
        ?_⟩
      · intro r hr
        rcases List.mem_append.mp hr with hr | hr
        · exact h.jobs r hr
        · rw [List.mem_singleton.mp hr]
          exact Nat.le_refl _
      · intro r hr hstage
        rcases List.mem_append.mp hr with hr | hr
        · exact h.initializing r hr hstage
        · rw [List.mem_singleton.mp hr]
          rfl
      · exact fun _ _ _ => ⟨hbegun, hkilled⟩
    exact (hlaunch.modify (keeps_finish _ _)).1
  · exact (h.modify (keeps_closing h hc hlocked hcurrent)).1
  · exact (h.modify (keeps_finish _ _)).1

/-- **A timely step keeps the invariant.** -/
theorem step (h : ServiceOk s) {count : ℕ} {e : ServiceEvent} (ht : Timely s e) :
    ServiceOk (serviceStep count s e) := by
  unfold serviceStep
  by_cases hdestroyed : s.main = .destroyed
  · rw [if_pos hdestroyed]
    exact h
  rw [if_neg hdestroyed]
  -- a request of the user is taken when the main thread is idle
  have hstart : ∀ next : MainThread, next.begun = none → next.isQuiet = false →
      ServiceOk (if s.main = .idle then { s with main := next } else s) := by
    intro next hbegun hquiet
    split_ifs with hidle
    · refine h.proceed (by rw [hidle, hbegun]; rfl) ?_
      rw [hquiet]
      exact nofun
    · exact h
  cases e with
  | onConnect => exact hstart .connectJoin rfl rfl
  | onDisconnect => exact hstart .disconnectJoin rfl rfl
  | onDestroy => exact hstart .destroyKill rfl rfl
  | main isReconnectionEnabled => exact h.mainStep ht
  | fail generation => exact (h.modify (keeps_kill h generation _)).1
  | connected generation =>
    dsimp only
    split
    · split_ifs
      · exact h.congr rfl rfl rfl rfl rfl
      · exact h
    · exact h
  | cleaned generation =>
    dsimp only
    split
    case h_2 => exact h
    case h_1 c hc =>
      split
      case h_2 => exact h
      case h_1 isReconnectionRequested hteardown =>
        refine h.finishTeardown (controllerOf_spec hc).1 (by rw [hteardown]; exact nofun) ?_
        rintro ⟨hrequested, hlife⟩
        refine ht ⟨?_, hlife⟩
        rw [hc, Option.any_some, hteardown, hrequested]
        rfl
  | cleaningThrows generation =>
    dsimp only
    split
    case h_2 => exact h
    case h_1 c hc =>
      split
      · exact (h.modify (keeps_finish _ _)).1
      · exact h
  | close generation =>
    dsimp only
    split
    case h_2 => exact h
    case h_1 c hc =>
      split
      · have hcount : ServiceOk { s with closes := s.closes + 1 } := h.congr rfl rfl rfl rfl rfl
        exact (hcount.modify (keeps_finish _ _)).1
      · exact h
  | startJob job =>
    dsimp only
    split
    case h_2 => exact h
    case h_1 scheduledGeneration hjob =>
      have hlife : ServiceOk { s with reconnectionLife := s.reconnectionLife - 1 } :=
        h.congr rfl rfl rfl rfl rfl
      exact hlife.setStage hjob (fun _ => nofun) nofun
  | delayOver job =>
    dsimp only
    split
    case h_2 => exact h
    case h_1 scheduledGeneration hjob =>
      split_ifs with hcurrent
      · exact h.setStage hjob (fun _ => nofun) (fun _ => hcurrent.symm)
      · exact h.setStage hjob (fun hdone => absurd rfl hdone) nofun
  | initializeClient job isReconnectionEnabled =>
    dsimp only
    split
    case h_2 => exact h
    case h_1 scheduledGeneration hjob =>
      obtain ⟨hcloses, hother, hdisconnect, hdestroy⟩ := ht
      exact h.reconnect _ hjob rfl hcloses hother hdisconnect hdestroy

end ServiceOk

theorem launchService_ok (reconnectionLife : ℤ) : ServiceOk (launchService reconnectionLife) where
  bounded := nofun
  nodup := List.nodup_nil
  torn := nofun
  known := nofun
  current := nofun
  begun := nofun
  quiet := nofun
  closing := nofun
  jobs := nofun
  initializing := nofun
  pending := nofun

theorem serviceRun_ok {count : ℕ} {reconnectionLife : ℤ} {events : List ServiceEvent}
    (ht : Along (serviceStep count) Timely (launchService reconnectionLife) events) :
    ServiceOk (serviceRun count reconnectionLife events) :=
  run_invariant_along (fun _ _ h ht => h.step ht) ht (launchService_ok reconnectionLife)

/-! ### One session at a time -/

/-- **There is one session at a time, and nobody acts on it behind its back**: in a run whose steps
    are timely, at most one session is not torn down, the service knows its controller, no teardown
    is about to close the service under it, and no job is about to begin another one. -/
theorem single_session (count : ℕ) (reconnectionLife : ℤ) (events : List ServiceEvent)
    (ht : Along (serviceStep count) Timely (launchService reconnectionLife) events) :
    let s := serviceRun count reconnectionLife events
    ∀ c ∈ s.controllers, c.isKilled = false →
      s.controller = some c.generation ∧ (∀ d ∈ s.controllers, d.isKilled = false → d = c) ∧
        NoneCloses s ∧ ∀ r ∈ s.jobs, r.stage ≠ .initializing := by
  intro s c hc halive
  have h : ServiceOk s := serviceRun_ok ht
  have hnot : ¬ AllKilled s := by
    intro hkilled
    rw [hkilled c hc] at halive
    exact absurd halive nofun
  refine ⟨h.known c hc halive, ?_, ?_, ?_⟩
  · intro d hd hdalive
    refine eq_of_generation h hd hc (Option.some.inj ?_)
    rw [← h.known d hd hdalive, ← h.known c hc halive]
  · exact fun d hd hclosing => hnot (allKilled_of_closing h hd hclosing)
  · intro r hr hstage
    exact hnot (h.pending r hr ⟨by rw [hstage]; decide, h.initializing r hr hstage⟩).2

/-- The user connects, the session fails, is torn down and is begun anew by a job. -/
def sampleReconnection : List ServiceEvent :=
  [.onConnect, .main true, .main true, .main true, .main true, .main true, .main true,
    .connected 1, .fail 1, .cleaned 1, .startJob 0, .delayOver 0, .initializeClient 0 true]

theorem single_session_sample :
    let s := serviceRun 3 0 sampleReconnection
    s.controller = some 2 ∧ ∀ d ∈ s.controllers, d.isKilled = false → d.generation = 2 := by
  obtain ⟨hknown, hsingle, -⟩ :=
    single_session 3 0 sampleReconnection (by decide +kernel) ⟨2, true, none, false⟩
      (by decide +kernel) rfl
  exact ⟨hknown, fun d hd halive => congrArg SstpController.generation (hsingle d hd halive)⟩

theorem getElem?_setStage {stage : ReconnectStage} {r : ReconnectJob} (hr : s.jobs[job]? = some r) :
    (setStage job stage s).jobs[job]? = some { r with stage := stage } := by
  unfold setStage
  rw [List.getElem?_modify, hr]
  show some (if job = job then _ else r) = _
  rw [if_pos rfl]

/-- A job that is bound to the current generation begins the next one, if nobody else does. -/
theorem run_job (count : ℕ) (isReconnectionEnabled : Bool) (hmain : s.main ≠ .destroyed)
    (hjob : s.jobs[job]? = some ⟨s.sessionGeneration, .launched⟩) :
    let t := run (serviceStep count) s
      [.startJob job, .delayOver job, .initializeClient job isReconnectionEnabled]
    t.controllers =
        s.controllers ++ [⟨s.sessionGeneration + 1, isReconnectionEnabled, none, false⟩] ∧
      t.controller = some (s.sessionGeneration + 1) := by
  have hstart : serviceStep count s (.startJob job) =
      setStage job .delaying { s with reconnectionLife := s.reconnectionLife - 1 } := by
    unfold serviceStep
    rw [if_neg hmain]
    dsimp only
    rw [hjob]
  generalize hs₁ : setStage job .delaying { s with reconnectionLife := s.reconnectionLife - 1 } =
    s₁ at hstart
  have hjob₁ : s₁.jobs[job]? = some ⟨s₁.sessionGeneration, .delaying⟩ := by
    rw [← hs₁]
    exact getElem?_setStage (s := { s with reconnectionLife := s.reconnectionLife - 1 }) hjob
  have hmain₁ : s₁.main ≠ .destroyed := by
    rw [← hs₁]
    exact hmain
  have hdelay : serviceStep count s₁ (.delayOver job) = setStage job .initializing s₁ := by
    unfold serviceStep
    rw [if_neg hmain₁]
    dsimp only
    rw [hjob₁]
    exact if_pos rfl
  have hjob₂ : (setStage job .initializing s₁).jobs[job]? =
      some ⟨s₁.sessionGeneration, .initializing⟩ := getElem?_setStage hjob₁
  have hbegin : serviceStep count (setStage job .initializing s₁)
      (.initializeClient job isReconnectionEnabled) =
        setStage job .done
          (initializeClient (s₁.sessionGeneration + 1) isReconnectionEnabled
            (beginSessionGeneration (setStage job .initializing s₁))) := by
    unfold serviceStep
    rw [if_neg (show (setStage job .initializing s₁).main ≠ .destroyed from hmain₁)]
    dsimp only
    rw [hjob₂]
    rfl
  rw [run_cons, run_cons, run_cons, hstart, hdelay, hbegin, ← hs₁]
  exact ⟨rfl, rfl⟩

/-- **A teardown that schedules for a later session replaces it**: where a session is up, and the
    teardown of an earlier one schedules a reconnection, its job is bound to the later session. It
    begins a third one, while the second one runs on without a controller that the service
    knows. -/
theorem stale_teardown_orphans (count : ℕ) (s : SstpService) (generation : ℕ) (c : SstpController)
    (isReconnectionEnabled : Bool) (hmain : s.main ≠ .destroyed)
    (hschedules : Schedules generation s) (hc : c ∈ s.controllers) (halive : c.isKilled = false)
    (hcurrent : c.generation = s.sessionGeneration) (hlater : generation ≠ s.sessionGeneration) :
    let t := run (serviceStep count) s
      [.cleaned generation, .startJob s.jobs.length, .delayOver s.jobs.length,
        .initializeClient s.jobs.length isReconnectionEnabled]
    (c ∈ t.controllers ∧ c.isKilled = false ∧ t.controller ≠ some c.generation) ∧
      ∃ d ∈ t.controllers, d.isKilled = false ∧ t.controller = some d.generation := by
  obtain ⟨hteardown, hlife⟩ := hschedules
  obtain ⟨d, hd, hrequested⟩ : ∃ d, controllerOf generation s = some d ∧
      d.teardown = some (.cleaning true) := by
    cases hfound : controllerOf generation s with
    | none =>
      rw [hfound] at hteardown
      exact absurd hteardown nofun
    | some d =>
      rw [hfound] at hteardown
      exact ⟨d, rfl, of_decide_eq_true hteardown⟩
  obtain ⟨-, hgeneration⟩ := controllerOf_spec hd
  have hcleaned : serviceStep count s (.cleaned generation) =
      modifyController generation SstpController.finish (launchJobReconnect s) := by
    unfold serviceStep
    rw [if_neg hmain]
    dsimp only
    rw [hd]
    dsimp only
    rw [hrequested]
    show finishTeardown d true s = _
    unfold finishTeardown
    rw [if_pos ⟨rfl, hlife⟩, hgeneration]
  obtain ⟨s₁, hs₁⟩ : ∃ s₁, modifyController generation SstpController.finish
      (launchJobReconnect s) = s₁ := ⟨_, rfl⟩
  rw [hs₁] at hcleaned
  have hjob : s₁.jobs[s.jobs.length]? = some ⟨s₁.sessionGeneration, .launched⟩ := by
    rw [← hs₁]
    exact List.getElem?_concat_length
  have hmain₁ : s₁.main ≠ .destroyed := by
    rw [← hs₁]
    exact hmain
  have hcurrent₁ : s₁.sessionGeneration = s.sessionGeneration := by
    rw [← hs₁]
    rfl
  have hc₁ : c ∈ s₁.controllers := by
    rw [← hs₁]
    refine mem_modifyController.mpr ⟨c, hc, if_neg ?_⟩
    rw [hcurrent]
    exact fun heq => hlater heq.symm
  -- the job is bound to the later session, so it finds its generation current
  obtain ⟨hcontrollers, hcontroller⟩ := run_job count isReconnectionEnabled hmain₁ hjob
  rw [run_cons, hcleaned]
  dsimp only
  rw [hcontrollers, hcontroller, hcurrent₁]
  refine ⟨⟨List.mem_append_left _ hc₁, halive, ?_⟩,
    ⟨_, List.mem_append_right _ List.mem_cons_self, rfl, rfl⟩⟩
  intro hsame
  have := Option.some.inj hsame
  omega

/-- The session fails, and the user connects again before its teardown has come to its end. -/
def sampleRace : List ServiceEvent :=
  [.onConnect, .main true, .main true, .main true, .main true, .main true, .main true, .fail 1,
    .onConnect, .main true, .main true, .main true, .main true, .main true, .main true]

theorem stale_teardown_orphans_sample :
    let t := run (serviceStep 3) (serviceRun 3 0 sampleRace)
      [.cleaned 1, .startJob 0, .delayOver 0, .initializeClient 0 true]
    ∃ c ∈ t.controllers, c.isKilled = false ∧ t.controller ≠ some c.generation := by
  obtain ⟨⟨hc, halive, hother⟩, -⟩ :=
    stale_teardown_orphans 3 (serviceRun 3 0 sampleRace) 1 ⟨2, true, none, false⟩ true
      (by decide +kernel) (by decide +kernel) (by decide +kernel) rfl (by decide +kernel)
      (by decide +kernel)
  exact ⟨_, hc, halive, hother⟩

end SoftEther.Sstp
