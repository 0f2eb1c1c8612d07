import SoftEther.Repository.Integrity
import SoftEther.Repository.Retention

namespace SoftEther.Repository

open Lib

/-!
# The two emergency rungs (`ServerListUpdates.kt`)

An emergency dataset comes into an update on one of two ways: `VpnServerRepository.refreshLocked`
returns it as the result of the refresh, or the updater asks its `emergencyFetch` for it. Both end
in the lambdas that `build` hands to the updater, and these share what the last fetch was.

* `CollectResult`, `Holders` — a result of the repository, and what the lambdas share;
* `fetchLambda`, `emergencyLambda`, `callbacks` — the wiring of `build`;
* `viaRefresh`, `viaHook` — an update that the one rung supplies, and one that the other does;
* `RungsAgree` — one outcome, one table, a supplement without a size gate;
* `rungsAgree_iff` — they agree when both refuse the dataset, and when its write fails.
-/

/-! ### The wiring -/

/-- `VpnServerRepository.CollectResult`, its list mapped to rows. -/
structure CollectResult where
  connectionList : List VPNGateItem
  fromCache : Bool
  capability : SourceCapability
  suppliedByEmergency : Bool

/-- `LastFetchCapability` and `LastFetchOrigin`: they live as long as the updater. -/
structure Holders where
  capability : SourceCapability
  origin : Bool

/-- What an update finds beside the dataset and the stored things: what the write reads, and what
    comes of the calls that only a fresh observation makes. -/
structure Environment where
  refreshMarker : Int
  manualRows : List VPNGateItem
  now : Int
  successCounts : JavaString → Option Int
  favourites : List JavaString
  capSetting : Option Int
  order : RowOrder
  /-- what the transaction throws, if it fails -/
  writeFails : Option Throwable
  currentOpenVpnConfigCount : Int
  replaceAllAndMarkSeen : List VPNGateItem → Int → CallResult Throwable (List VPNGateItem × Markers)
  recordAcceptedFreshSize : Int → CallResult Throwable Unit
  saveLastKnownGood : List VPNGateItem → CallResult Throwable Bool

/-- `ServerListParseException(e)`. -/
def ServerListParseException (e : Throwable) : Throwable :=
  ⟨.exception, true, JavaString.ofChars "ServerListParseException".toList :: e.names⟩

/-- The `fetch` lambda, over what the repository comes to. -/
def fetchLambda (acceptCacheFallback : Bool)
    (refresh : CallResult Throwable (Option CollectResult)) (h : Holders) :
    CallResult Throwable (Option (List VPNGateItem)) × Holders :=
  let h := { h with origin := false }
  match refresh with
  | .threw e => (.threw (if e.isException then ServerListParseException e else e), h)
  | .returned none => (.returned none, h)
  | .returned (some result) =>
    if result.fromCache && !acceptCacheFallback then (.returned none, h)
    else
      (.returned (some result.connectionList),
        { capability := result.capability
          origin := result.fromCache || result.suppliedByEmergency })

/-- The `emergencyFetch` lambda. -/
def emergencyLambda (emergencyDataset : CallResult Throwable (Option (List VPNGateItem)))
    (h : Holders) : CallResult Throwable (Option (List VPNGateItem)) × Holders :=
  (emergencyDataset, { h with origin := true })

/-- `daoStore.replaceAll`: a supplement is merged, and so is an observation. -/
def daoReplaceAll (env : Environment) (origin : Bool) (table items : List VPNGateItem) :
    CallResult Throwable (List VPNGateItem) :=
  match env.writeFails with
  | some e => .threw e
  | none =>
    .returned <| (if origin then mergeFallback env.now else mergeAll env.now)
      table (env.order.of table) items env.manualRows env.successCounts
      (ServerListCap.current env.capSetting) env.favourites

/-- `build`: what the calls of one update come to. -/
def callbacks (env : Environment) (acceptCacheFallback : Bool)
    (refresh : CallResult Throwable (Option CollectResult))
    (emergencyDataset : CallResult Throwable (Option (List VPNGateItem)))
    (h : Holders) (s : Persisted) : Callbacks :=
  let fetched := fetchLambda acceptCacheFallback refresh h
  let emergency := emergencyLambda emergencyDataset fetched.2
  -- the updater calls the second only after the first returned null
  let h := match fetched.1 with
    | .returned none => emergency.2
    | _ => fetched.2
  { fetch := fetched.1
    fetchedFromCache := .returned fetched.2.origin
    emergencyFetch := emergency.1
    fetchCapability := .returned h.capability
    currentCount := fun _ => .returned s.dataset.length
    currentOpenVpnConfigCount := .returned env.currentOpenVpnConfigCount
    currentDataset := .returned (env.order.of s.dataset)
    lastAcceptedFreshSize := .returned s.freshSize
    replaceAll := daoReplaceAll env h.origin s.dataset
    replaceAllAndMarkSeen := env.replaceAllAndMarkSeen
    recordAcceptedFreshSize := env.recordAcceptedFreshSize
    saveLastKnownGood := env.saveLastKnownGood }

/-- Whether `DatasetIntegrity.evaluate` accepts. -/
def accepts (candidate stored : List VPNGateItem) (capability : SourceCapability)
    (lastAcceptedSize : Int) (strictSizeBaseline : Bool) : Bool :=
  (evaluate candidate stored capability lastAcceptedSize strictSizeBaseline).accepted

/-- The same without a size gate. -/
def acceptsAnySize (candidate stored : List VPNGateItem) (capability : SourceCapability)
    (lastAcceptedSize : Int) (_strictSizeBaseline : Bool) : Bool :=
  (evaluate candidate stored capability lastAcceptedSize false).accepted

/-! ### The rungs -/

/-- What either rung supplies: `refreshLocked` and `emergencyDataset` pass no empty list on. -/
structure EmergencyDataset where
  rows : List VPNGateItem
  rows_ne : rows ≠ []

/-- The repository had nothing to say: null, or a fallback that this updater does not accept. -/
structure NoDownload where
  acceptCacheFallback : Bool
  refresh : Option CollectResult
  nothing : ∀ result ∈ refresh, result.fromCache = true ∧ acceptCacheFallback = false

/-- What one updater brings along: its holders, and for the run by the repository the capability
    of that run. -/
structure Updater where
  acceptCacheFallback : Bool
  holders : Holders
  capability : SourceCapability

section Rungs

variable
  (gate : List VPNGateItem → List VPNGateItem → SourceCapability → Int → Bool → Bool)
  (env : Environment) (dataset : EmergencyDataset) (s : Persisted)

/-- An update whose refresh returns the emergency dataset. -/
def viaRefresh (u : Updater) : CallResult Throwable Outcome × World :=
  update gate
    (callbacks env u.acceptCacheFallback
      (.returned (some ⟨dataset.rows, false, u.capability, true⟩)) (.returned none) u.holders s)
    env.refreshMarker ⟨s, false, false⟩

/-- An update that asks for the emergency dataset itself. -/
def viaHook (h : Holders) (silent : NoDownload) : CallResult Throwable Outcome × World :=
  update gate
    (callbacks env silent.acceptCacheFallback (.returned silent.refresh)
      (.returned (some dataset.rows)) h s)
    env.refreshMarker ⟨s, false, false⟩

end Rungs

/-- An update leaves a supplement: history, fresh size and snapshot are untouched, and what is
    stored is what was, or that and the dataset merged as a fallback. -/
structure Supplement (env : Environment) (dataset : EmergencyDataset) (before after : Persisted) :
    Prop where
  markers : after.markers = before.markers
  freshSize : after.freshSize = before.freshSize
  snapshot : after.snapshot = before.snapshot
  merged : after.dataset = before.dataset ∨
    after.dataset =
      mergeFallback env.now before.dataset (env.order.of before.dataset)
        (dedupeForStorage (dataset.rows.filter isUsable)) env.manualRows env.successCounts
        (ServerListCap.current env.capSetting) env.favourites

/-- **The two rungs agree**: on the outcome and on the table, and neither has a size gate. -/
structure RungsAgree (env : Environment) (dataset : EmergencyDataset) (s : Persisted) (u : Updater)
    (h : Holders) (silent : NoDownload) : Prop where
  outcome : (viaRefresh accepts env dataset s u).1 = (viaHook accepts env dataset s h silent).1
  table : (viaRefresh accepts env dataset s u).2 = (viaHook accepts env dataset s h silent).2
  refreshSupplement : Supplement env dataset s (viaRefresh accepts env dataset s u).2.persisted
  hookSupplement : Supplement env dataset s (viaHook accepts env dataset s h silent).2.persisted
  refreshUngated :
    viaRefresh accepts env dataset s u = viaRefresh acceptsAnySize env dataset s u
  hookUngated :
    viaHook accepts env dataset s h silent = viaHook acceptsAnySize env dataset s h silent

/-! ### What a run comes to -/

/-- What is judged of an emergency dataset. -/
def EmergencyDataset.candidate (dataset : EmergencyDataset) : List VPNGateItem :=
  dedupeForStorage (dataset.rows.filter isUsable)

/-- What an update comes to once its rows are judged; `fromCache` is what it says of them. -/
def settled (env : Environment) (dataset : EmergencyDataset) (s : Persisted)
    (accepted fromCache : Bool) : CallResult Throwable Outcome × World :=
  let count : Int := s.dataset.length
  if dataset.rows.filter isUsable = [] then
    (.returned (.Preserved .INVALID_DATASET count), ⟨s, false, false⟩)
  else if accepted = false then
    (.returned (.Preserved .DEGRADED_DATASET count), ⟨s, false, false⟩)
  else
    match daoReplaceAll env true s.dataset dataset.candidate with
    | .returned stored =>
      (.returned (.Updated dataset.candidate.length true fromCache),
        ⟨{ s with dataset := stored }, false, false⟩)
    | .threw e =>
      (if e.isException then
          .returned (.Preserved (if isKeyConflict e then .STORE_CONFLICT else .STORE_FAILURE) count)
        else .threw e, ⟨s, false, false⟩)

section Settled

variable
  {gate : List VPNGateItem → List VPNGateItem → SourceCapability → Int → Bool → Bool}
  {env : Environment} {dataset : EmergencyDataset} {s : Persisted} {u : Updater} {h : Holders}
  {silent : NoDownload}

/-- What the calls of an update come to, when a supplement is judged. -/
structure Serves (cb : Callbacks) (env : Environment) (s : Persisted)
    (capability : SourceCapability) : Prop where
  count : ∀ site, cb.currentCount site = .returned s.dataset.length
  profiles : cb.currentOpenVpnConfigCount = .returned env.currentOpenVpnConfigCount
  capability : cb.fetchCapability = .returned capability
  stored : cb.currentDataset = .returned (env.order.of s.dataset)
  replaceAll : cb.replaceAll = daoReplaceAll env true s.dataset

/-- The verdict: strict when the rows pass for a fallback. -/
theorem judge_eq {cb : Callbacks} {capability : SourceCapability} {fromCache : Bool}
    (hserves : Serves cb env s capability) :
    judge gate cb dataset.rows fromCache (!fromCache) =
      if dataset.rows.filter isUsable = [] then .exit .INVALID_DATASET
      else if gate dataset.candidate (env.order.of s.dataset) capability
          (if fromCache then s.dataset.length else 0) fromCache then
        .next ⟨dataset.candidate, fromCache, !fromCache⟩
      else .exit .DEGRADED_DATASET := by
  have hbaseline : (if fromCache = true then (cb.currentCount .baseline).flow
      else if (!fromCache) = true then .next 0 else cb.lastAcceptedFreshSize.flow) =
        (.next (if fromCache then (s.dataset.length : Int) else 0) :
          Flow Throwable Reason Int) := by
    cases fromCache with
    | true =>
      show (cb.currentCount .baseline).flow = _
      rw [hserves.count]
      rfl
    | false => rfl
  simp only [judge, dataset.rows_ne, hserves.profiles, hserves.capability, hserves.stored,
    hserves.count .log, hbaseline, CallResult.flow_returned, CallResult.attempt_returned,
    Flow.next_bind, if_false]
  rfl

/-- **A supplement is judged and merged**: with the strict gate when it passes for a fallback, with
    the other one when the updater knows where it comes from. -/
theorem update_settled {cb : Callbacks} {capability : SourceCapability} (fromCache : Bool)
    (hserves : Serves cb env s capability)
    (hprepare : prepare gate cb = judge gate cb dataset.rows fromCache (!fromCache)) :
    update gate cb env.refreshMarker ⟨s, false, false⟩ =
      settled env dataset s
        (gate dataset.candidate (env.order.of s.dataset) capability
          (if fromCache then s.dataset.length else 0) fromCache) fromCache := by
  have hsupplement : (fromCache || !fromCache) = true := by simp
  rw [judge_eq hserves] at hprepare
  generalize gate dataset.candidate (env.order.of s.dataset) capability
    (if fromCache then s.dataset.length else 0) fromCache = accepted at hprepare ⊢
  simp only [update, body, hprepare, settled]
  by_cases hnone : dataset.rows.filter isUsable = []
  · simp [hnone, preserved, hserves.count]
  · simp only [hnone, if_false]
    cases accepted with
    | false => simp [preserved, hserves.count]
    | true =>
      -- the dataset is merged, or its write fails
      simp only [commit, hserves.replaceAll, hsupplement, if_true]
      cases daoReplaceAll env true s.dataset dataset.candidate with
      | returned stored => rfl
      | threw e =>
        simp only [caught, preserved, hserves.count, Bool.false_eq_true, Bool.true_eq_false,
          if_false]
        by_cases hexc : e.isException
        · simp only [hexc, if_true]
        · simp only [hexc, if_false]

/-- The repository's rung: the updater takes the dataset for a fallback. -/
theorem viaRefresh_eq :
    viaRefresh gate env dataset s u =
      settled env dataset s
        (gate dataset.candidate (env.order.of s.dataset) u.capability s.dataset.length true)
        true := by
  have hserves : Serves
      (callbacks env u.acceptCacheFallback
        (.returned (some ⟨dataset.rows, false, u.capability, true⟩)) (.returned none) u.holders s)
      env s u.capability := by
    constructor <;> intros <;> rfl
  exact update_settled true hserves rfl

/-- The hook's rung. -/
theorem viaHook_eq :
    viaHook gate env dataset s h silent =
      settled env dataset s
        (gate dataset.candidate (env.order.of s.dataset) h.capability 0 false) false := by
  have hfetch : ∀ h', fetchLambda silent.acceptCacheFallback (.returned silent.refresh) h' =
      (.returned none, { h' with origin := false }) := by
    intro h'
    simp only [fetchLambda]
    cases hrefresh : silent.refresh with
    | none => rfl
    | some result =>
      obtain ⟨hcache, haccept⟩ := silent.nothing result hrefresh
      simp [hcache, haccept]
  have hserves : Serves
      (callbacks env silent.acceptCacheFallback (.returned silent.refresh)
        (.returned (some dataset.rows)) h s) env s h.capability := by
    constructor
    all_goals intros
    all_goals simp only [callbacks, hfetch, emergencyLambda]
  refine update_settled false hserves ?_
  obtain ⟨rows, hrows⟩ := dataset
  obtain ⟨x, rest, rfl⟩ := List.exists_cons_of_ne_nil hrows
  simp only [prepare, callbacks, hfetch, emergencyLambda, downloadOrEmergency,
    CallResult.attempt_returned, Flow.next_bind]
  rfl

/-! ### When they agree -/

/-- A run leaves a supplement, whatever the verdict and the write come to. -/
theorem settled_supplement {accepted fromCache : Bool} :
    Supplement env dataset s (settled env dataset s accepted fromCache).2.persisted := by
  have hsame : Supplement env dataset s s := ⟨rfl, rfl, rfl, Or.inl rfl⟩
  simp only [settled]
  split_ifs
  · exact hsame
  · exact hsame
  · rw [daoReplaceAll]
    cases env.writeFails with
    | some e => exact hsame
    | none => exact ⟨rfl, rfl, rfl, Or.inr rfl⟩

/-- **When two runs come to the same.** Their verdicts are the same, and either nothing is written
    or both say the same of where the rows come from. -/
theorem settled_eq_iff (husable : dataset.rows.filter isUsable ≠ []) {a b c d : Bool} :
    settled env dataset s a c = settled env dataset s b d ↔
      a = b ∧ (a = false ∨ env.writeFails.isSome = true ∨ c = d) := by
  simp only [settled, husable, if_false, daoReplaceAll]
  cases hfails : env.writeFails with
  | none => cases a <;> cases b <;> simp
  | some e =>
    by_cases hexc : e.isException
    · by_cases hconflict : isKeyConflict e
      · cases a <;> cases b <;> simp [hexc, hconflict]
      · cases a <;> cases b <;> simp [hexc, hconflict]
    · cases a <;> cases b <;> simp [hexc]

theorem length_order : (env.order.of s.dataset).length = s.dataset.length :=
  (env.order.perm s.dataset).length_eq

/-- **When the two emergency rungs agree.** Nothing of the dataset is usable; or both refuse it for
    its content; or both accept it, the first in spite of its size gate, and its write fails. -/
theorem rungsAgree_iff (env : Environment) (dataset : EmergencyDataset) (s : Persisted)
    (u : Updater) (h : Holders) (silent : NoDownload) :
    RungsAgree env dataset s u h silent ↔
      dataset.rows.filter isUsable = [] ∨
      ContentRefused dataset.candidate (env.order.of s.dataset) u.capability ∧
        ContentRefused dataset.candidate (env.order.of s.dataset) h.capability ∨
      env.writeFails.isSome = true ∧
        ¬ ContentRefused dataset.candidate (env.order.of s.dataset) u.capability ∧
        ¬ ContentRefused dataset.candidate (env.order.of s.dataset) h.capability ∧
        ¬ SizeRefused dataset.candidate (env.order.of s.dataset) s.dataset.length := by
  have hsupplement : ∀ accepted fromCache,
      Supplement env dataset s (settled env dataset s accepted fromCache).2.persisted :=
    fun _ _ => settled_supplement
  have hungated : ∀ candidate stored capability count,
      acceptsAnySize candidate stored capability count false =
        accepts candidate stored capability count false := fun _ _ _ _ => rfl
  have hagree : RungsAgree env dataset s u h silent ↔
      viaRefresh accepts env dataset s u = viaHook accepts env dataset s h silent ∧
        viaRefresh accepts env dataset s u = viaRefresh acceptsAnySize env dataset s u := by
    constructor
    · intro hagree
      exact ⟨Prod.ext hagree.outcome hagree.table, hagree.refreshUngated⟩
    · rintro ⟨hsame, hsize⟩
      refine ⟨congrArg Prod.fst hsame, congrArg Prod.snd hsame, ?_, ?_, hsize, ?_⟩
      · rw [viaRefresh_eq]
        exact hsupplement _ _
      · rw [viaHook_eq]
        exact hsupplement _ _
      · rw [viaHook_eq, viaHook_eq, hungated]
  rw [hagree, viaRefresh_eq, viaRefresh_eq, viaHook_eq]
  by_cases hnone : dataset.rows.filter isUsable = []
  · simp [settled, hnone]
  · rw [settled_eq_iff hnone, settled_eq_iff hnone]
    simp only [hnone, false_or]
    have hknown : MIN_ACCEPTABLE_DATASET_SIZE ≤ (baselineOf (env.order.of s.dataset)).length →
        0 < (s.dataset.length : Int) := by
      intro hbase
      have hle := length_baselineOf_le (env.order.of s.dataset)
      rw [length_order] at hle
      simp only [MIN_ACCEPTABLE_DATASET_SIZE] at hbase
      omega
    -- the three verdicts, by the grounds of a refusal
    have hstrict := evaluate_strict_accepted_iff dataset.candidate (env.order.of s.dataset)
      u.capability hknown
    have hloose := evaluate_loose_accepted_iff dataset.candidate (env.order.of s.dataset)
      u.capability s.dataset.length
    have hhook := evaluate_loose_accepted_iff dataset.candidate (env.order.of s.dataset)
      h.capability 0
    simp only [accepts, acceptsAnySize]
    generalize (evaluate dataset.candidate (env.order.of s.dataset) u.capability s.dataset.length
      true).accepted = strict at hstrict ⊢
    generalize (evaluate dataset.candidate (env.order.of s.dataset) u.capability s.dataset.length
      false).accepted = loose at hloose ⊢
    generalize (evaluate dataset.candidate (env.order.of s.dataset) h.capability 0
      false).accepted = hook at hhook ⊢
    have hsame : strict = hook ↔ (strict = true ↔ hook = true) := Bool.eq_iff_iff
    have hsize : strict = loose ↔ (strict = true ↔ loose = true) := Bool.eq_iff_iff
    rw [hsame, hsize, Bool.eq_false_iff, ne_eq, hstrict, hloose, hhook]
    by_cases hrefresh : ContentRefused dataset.candidate (env.order.of s.dataset) u.capability
    · simp [hrefresh]
    · by_cases hemergency : ContentRefused dataset.candidate (env.order.of s.dataset) h.capability
      · by_cases hgated : SizeRefused dataset.candidate (env.order.of s.dataset) s.dataset.length
        · simp [hrefresh, hemergency, hgated]
        · simp [hrefresh, hemergency, hgated]
      · by_cases hgated : SizeRefused dataset.candidate (env.order.of s.dataset) s.dataset.length
        · simp [hrefresh, hemergency, hgated]
        · simp [hrefresh, hemergency, hgated]

end Settled

/-! ### A dataset that only one rung takes -/

/-- Nothing beside the dataset: no manual rows, and a write that succeeds. -/
def quietEnvironment : Environment where
  refreshMarker := 2
  manualRows := []
  now := 2
  successCounts := fun _ => none
  favourites := []
  capSetting := none
  order := ⟨id, fun rows => List.Perm.refl rows⟩
  writeFails := none
  currentOpenVpnConfigCount := 0
  replaceAllAndMarkSeen := fun _ _ => .returned ([], [])
  recordAcceptedFreshSize := fun _ => .returned ()
  saveLastKnownGood := fun _ => .returned true

/-- Ten emergency rows against thirty stored ones: the repository's rung refuses them for their
    size, and the hook's rung stores them. -/
theorem rungs_disagree :
    ¬ RungsAgree quietEnvironment
      ⟨(List.range 10).map fun i => numberedRow i 0, by decide⟩
      ⟨(List.range 30).map fun i => numberedRow i 1, [], 0, []⟩
      ⟨false, ⟨.UNKNOWN, false⟩, .UNKNOWN⟩ ⟨.UNKNOWN, false⟩ ⟨false, none, nofun⟩ := by
  intro hagree
  exact absurd hagree.outcome (by decide +kernel)

end SoftEther.Repository
