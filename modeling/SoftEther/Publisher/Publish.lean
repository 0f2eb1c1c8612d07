import Mathlib.Data.List.ReduceOption
import SoftEther.Publisher.Budget

namespace SoftEther.Publisher

open Std SoftEther.Lib

/-!
# The published rows (`run`)

The healthy rows of a run are pruned, fitted into the budget, sorted by address and written.

* `probes` — the probes of a run, and what came of them;
* `prune`, `publish` — the stages behind the health check, up to the file;
* `mem_publish` — a published row is a healthy row up to its profile;
* `marked_merged` — a mark that survives the merge is that of a probe of the run;
* `firstSeen_merged` — the first observation of an address, as the merge has it;
* `Proven` — a row that was probed at the endpoint it publishes, and its times;
* `published_proven_iff` — it is proven unless the previous file has an older row of its address
  before the last one.
-/

/-! ### The probes of a run -/

/-- The probe that `health_check` makes for a row, and its outcome. -/
def probeOf (skipHealthCheck : Bool) (answers : Endpoint → Bool) (e : Entry) :
    Option (Endpoint × Bool) :=
  match tcpEndpoint e.row with
  | none => none
  | some ep =>
    if e.probed = some ep ∧ e.healthy.isSome then none
    else if skipHealthCheck then none
    else some (ep, answers ep)

/-! ### From the health check to the file -/

/-- The order of the `key` in `prune`. -/
def weakestFirst : Row → Row → Ordering :=
  compareLex (compareBy protocolCount) <|
  compareLex (compareBy lastSeen) <|
  compareLex (compareBy fun r => (r.int .Score).getD (-1)) (compareBy fun r => r.text .IP)

/-- `prune`. -/
def prune (rows : List Row) (cap : ℕ) : List Row :=
  if rows.length ≤ cap then rows else (sortedWith weakestFirst rows).drop (rows.length - cap)

/-- `ip_sort_key`. -/
def ipSortKey (ip : Text) : List ℕ := (ip.splitOn '.').map fun p => Nat.ofDigitChars 10 p 0

/-- The arguments that stages 5 and 6 read. -/
structure Limits where
  maxServers : ℕ
  minRows : ℤ
  maxBytes : ℤ

variable (py : Python)

/-- The self-check of stage 6; rows that pass are written. -/
def checkFile (kept : List Row) : Except Failure (List Row) :=
  match parseEmergencyCsv py (renderCsv kept) with
  | none => .error .csvError
  | some check =>
    if selfCheck py kept then .ok kept
    else
      .error (.publisherError
        ("Self-check failed: the generated CSV does not round-trip through the parser rules " ++
          "(reason=" ++ check.malformedReason.getD "None" ++ ", rejected=" ++
          toString check.rejected ++ ")."))

namespace Input

variable (input : Input)

/-- The rows that stage 4 health-checks. -/
def checked (previous : List Row) : List Entry :=
  (dedupeHostnames py (((input.merged previous).filter (·.isAccepted py)).map
    (·.prepare py))).filter (isPublicIpv4 ·.ip)

/-- The probes of stage 2. -/
def firstProbes (previous : List Row) : List (Option (Endpoint × Bool)) :=
  (previous.map (Entry.ofRow false)).mapIdx fun i e =>
    probeOf input.args.skipHealthCheck (fun _ => input.answersFirst i) e

/-- **The probes of a run**, those of stage 2 and those of stage 4. -/
def probes (previous : List Row) : List (Endpoint × Bool) :=
  (input.firstProbes previous ++ (input.checked py previous).map
    (probeOf input.args.skipHealthCheck input.answersSecond)).reduceOption

/-- `run`, up to the written file. -/
def publish (limits : Limits) : Except Failure (List Row) := do
  let healthy ← input.run py
  -- stage 5
  let kept := prune (healthy.map Entry.row) limits.maxServers
  if (kept.length : ℤ) < limits.minRows then
    .error (.publisherError ("Only " ++ toString kept.length ++ " healthy row(s) (< --min-rows " ++
      toString limits.minRows ++ "); refusing to publish."))
  else
    -- stage 6, on the rows as objects
    let fitted := fitBudget kept (List.range kept.length) limits.maxBytes
    let kept := fitted.heap.rowsAt fitted.rows
    if (kept.length : ℤ) < limits.minRows then
      .error (.publisherError ("Only " ++ toString kept.length ++ " row(s) fit in --max-bytes " ++
        toString limits.maxBytes ++ "; refusing to publish."))
    else
      let kept := sortedWith (compareBy fun r => ipSortKey (r.text .IP)) kept
      if limits.maxBytes < byteLength (renderCsv kept) then
        .error (.publisherError ("Generated file is " ++ toString (byteLength (renderCsv kept)) ++
          " bytes > --max-bytes " ++ toString limits.maxBytes ++ "."))
      else checkFile py kept

end Input

/-! ### A published row is a healthy one -/

variable {py}

variable {rows : List Row}

theorem mem_prune {cap : ℕ} {row : Row} (h : row ∈ prune rows cap) : row ∈ rows := by
  unfold prune at h
  split_ifs at h
  · exact h
  · exact (sortedWith_perm _ _).mem_iff.mp (List.mem_of_mem_drop h)

theorem checkFile_ok {kept : List Row} (h : checkFile py kept = .ok rows) : rows = kept := by
  unfold checkFile at h
  split at h
  · cases h
  · split_ifs at h
    exact (Except.ok.inj h).symm

namespace Input

variable {input : Input}

variable {previous : List Row} {e : Entry}

/-- **A published row** is a healthy row up to its profile. -/
theorem mem_publish {limits : Limits} {rows : List Row}
    (hprevious : loadPrevious py input.previousFile = .ok previous)
    (hpublish : input.publish py limits = .ok rows) :
    ∀ row ∈ rows, ∃ e ∈ input.handed py previous, ∃ cfg, row = e.row.withConfig cfg := by
  intro row hrow
  unfold publish at hpublish
  cases hrun : input.run py with
  | error failure =>
    rw [hrun] at hpublish
    cases hpublish
  | ok healthy =>
    rw [hrun] at hpublish
    simp only [bind, Except.bind] at hpublish
    split_ifs at hpublish
    obtain rfl := checkFile_ok hpublish
    rw [(sortedWith_perm _ _).mem_iff] at hrow
    obtain ⟨kept, hkept, cfg, rfl⟩ := mem_fitBudget hrow
    obtain ⟨r, -, hread⟩ := List.mem_filterMap.mp hkept
    obtain ⟨e, he, rfl⟩ := List.mem_map.mp (mem_prune (List.mem_of_getElem? hread))
    rw [run_ok hprevious hrun] at he
    exact ⟨e, he, cfg, rfl⟩

/-! ### The marks of a probe -/

/-- An entry whose marks say that an endpoint answered has them from stage 2. -/
def Marked (input : Input) (previous : List Row) (e : Entry) : Prop :=
  ∀ ep, e.probed = some ep → e.healthy = some true → some (ep, true) ∈ input.firstProbes previous

theorem marked_stamp (h : input.Marked previous e) :
    input.Marked previous (stamp input.started e) := by
  unfold stamp
  split_ifs
  · exact h
  · exact h

/-- The rows of stage 2 are marked by their own probes. -/
theorem marked_probed (hskip : input.args.skipHealthCheck = false) :
    ∀ e ∈ input.probed previous, input.Marked previous e := by
  intro e he ep hprobed hhealthy
  obtain ⟨i, hi, rfl⟩ := List.mem_mapIdx.mp he
  obtain ⟨row, hrow, heq⟩ := List.mem_map.mp (List.getElem_mem hi)
  refine List.mem_mapIdx.mpr ⟨i, hi, ?_⟩
  rw [← heq] at hprobed hhealthy ⊢
  rw [hskip] at hprobed hhealthy ⊢
  unfold checkEntry at hprobed hhealthy
  unfold probeOf
  cases hep : tcpEndpoint (Entry.ofRow false row).row with
  | none =>
    rw [hep] at hhealthy
    cases hhealthy
  | some own =>
    have hnew : ¬((Entry.ofRow false row).probed = some own ∧
        (Entry.ofRow false row).healthy.isSome = true) := fun hold => by cases hold.1
    simp only [hep, if_neg hnew, Bool.false_eq_true, if_false] at hprobed hhealthy ⊢
    rw [Option.some_inj] at hprobed hhealthy
    rw [← hprobed, hhealthy]

/-- What holds of rows holds of the rows of each address. -/
theorem byIp_forall {P : Entry → Prop} {rows : List Entry} (h : ∀ e ∈ rows, P e) :
    ∀ e ∈ byIp rows, P e.2 := by
  apply LinkedMap.collect_forall (P := fun _ e => P e)
  · exact fun e he => absurd he List.not_mem_nil
  · exact fun e he _ _ => h e he
  · exact fun _ _ _ _ hr => hr

/-- **The marks that survive the merge** are those of stage 2. -/
theorem marked_merged (hskip : input.args.skipHealthCheck = false) :
    ∀ e ∈ input.merged previous, input.Marked previous e := by
  have hprevious : ∀ e ∈ byIp ((input.probed previous).map (stamp input.started)),
      input.Marked previous e.2 := by
    refine byIp_forall fun e he => ?_
    obtain ⟨p, hp, rfl⟩ := List.mem_map.mp he
    exact marked_stamp (marked_probed hskip p hp)
  -- the rows of the sources have no marks, and a merged row has those of its base
  have hofRow : ∀ html, ∀ rows : List Row, ∀ e ∈ rows.map (Entry.ofRow html), e.healthy = none := by
    intro html rows e he
    obtain ⟨row, -, rfl⟩ := List.mem_map.mp he
    rfl
  have hfresh : ∀ e ∈ input.fresh, e.healthy = none := by
    intro e he
    obtain ⟨entry, hentry, rfl⟩ := List.mem_map.mp he
    refine LinkedMap.collect_forall (P := fun _ e => e.healthy = none) ?_ ?_ ?_ entry hentry
    · exact byIp_forall (hofRow false input.apiRows)
    · exact fun e he _ _ => hofRow true input.htmlRows e he
    · exact fun _ _ _ ha _ => ha
  intro e he
  obtain ⟨entry, hentry, rfl⟩ := List.mem_map.mp he
  refine LinkedMap.collect_forall (P := fun _ e => input.Marked previous e) hprevious ?_ ?_
    entry hentry
  · intro e he _ _ ep _ hhealthy
    rw [hfresh e he] at hhealthy
    cases hhealthy
  · exact fun _ _ _ ha _ => ha

theorem checked_prepare (h : e ∈ input.checked py previous) :
    ∃ m ∈ input.merged previous, e = m.prepare py := by
  obtain ⟨hkept, -⟩ := List.mem_filter.mp h
  obtain ⟨m, hm, rfl⟩ := List.mem_map.mp (dedupeHostnames_strongest hkept).1
  exact ⟨m, (List.mem_filter.mp hm).1, rfl⟩

/-- **A healthy row was probed at its endpoint.** -/
theorem probed_of_healthy (hskip : input.args.skipHealthCheck = false)
    (he : e ∈ input.checked py previous) (hhealthy : (input.check e).healthy = some true) :
    ∃ ep, tcpEndpoint e.row = some ep ∧ (ep, true) ∈ input.probes py previous := by
  obtain ⟨m, hm, hprepare⟩ := checked_prepare he
  unfold check checkEntry at hhealthy
  cases hep : tcpEndpoint e.row with
  | none =>
    rw [hep] at hhealthy
    cases hhealthy
  | some ep =>
    refine ⟨ep, rfl, ?_⟩
    rw [probes, List.reduceOption_mem_iff, List.mem_append]
    by_cases hcached : e.probed = some ep ∧ e.healthy.isSome = true
    · -- the outcome of stage 2 is of the same endpoint
      left
      simp only [hep, if_pos hcached] at hhealthy
      rw [hprepare] at hcached hhealthy
      exact marked_merged hskip m hm ep hcached.1 hhealthy
    · right
      refine List.mem_map.mpr ⟨e, he, ?_⟩
      simp only [hep, if_neg hcached, hskip, Bool.false_eq_true, if_false] at hhealthy
      rw [Option.some_inj] at hhealthy
      unfold probeOf
      simp only [hep, if_neg hcached, hskip, Bool.false_eq_true, if_false, hhealthy]

end Input

/-! ### The first observation of an address -/

/-- `row["FirstSeenAt"]`. -/
def Entry.firstSeen (e : Entry) : Option ℤ := e.row.int .FirstSeenAt

@[simp] theorem stamp_firstSeen (started : ℤ) (e : Entry) :
    (stamp started e).firstSeen = e.firstSeen := by
  unfold stamp
  split_ifs
  · simp [Entry.firstSeen]
  · rfl

/-- Over a map by address the last row of an address stands. -/
theorem mergeRows_last (rows : List Entry) :
    LinkedMap.mergeRows (fun _ r => r) none rows = rows.getLast? := by
  cases rows with
  | nil => rfl
  | cons r rows =>
    show some (rows.foldl (fun _ r => r) r) = _
    induction rows generalizing r with
    | nil => rfl
    | cons r' rows ih =>
      rw [List.foldl_cons, ih r', List.getLast?_cons_cons]

/-- Rows of one time are merged into a row. -/
theorem mergeRows_firstSeen {started : ℤ} (existing : Option Entry) {rows : List Entry}
    (h : ∀ e ∈ rows, e.firstSeen = some started) :
    (LinkedMap.mergeRows (mergeTwo true) existing rows).bind Entry.firstSeen =
      (existing.bind Entry.firstSeen).merge min (if rows = [] then none else some started) := by
  have hfold : ∀ rows : List Entry, (∀ e ∈ rows, e.firstSeen = some started) → ∀ base : Entry,
      (rows.foldl (mergeTwo true) base).firstSeen =
        base.firstSeen.merge min (if rows = [] then none else some started) := by
    intro rows
    induction rows with
    | nil =>
      intro _ base
      cases hseen : base.firstSeen <;> simp [hseen]
    | cons r rows ih =>
      intro hrows base
      obtain ⟨hr, hrest⟩ := List.forall_mem_cons.mp hrows
      have hmerge : (mergeTwo true base r).firstSeen = base.firstSeen.merge min (some started) := by
        rw [← hr]
        rfl
      rw [List.foldl_cons, ih hrest, hmerge, if_neg (List.cons_ne_nil r rows)]
      cases base.firstSeen <;> split_ifs <;> simp
  cases rows with
  | nil => cases existing with
    | none => rfl
    | some e => exact hfold [] (fun e he => absurd he List.not_mem_nil) e
  | cons r rows =>
    obtain ⟨hr, hrest⟩ := List.forall_mem_cons.mp h
    cases existing with
    | none =>
      have hfirst := hfold rows hrest r
      rw [hr] at hfirst
      show (rows.foldl (mergeTwo true) r).firstSeen = _
      rw [hfirst, if_neg (List.cons_ne_nil r rows)]
      split_ifs <;> simp
    | some e => exact hfold (r :: rows) h e

namespace Input

variable {input : Input}

variable (input py) in
/-- **The rows of the sources** are rows of `sanitize_row`, observed when the run started. -/
def Stamped : Prop :=
  ∀ row ∈ input.apiRows ++ input.htmlRows,
    ∃ raw, raw (.int .FirstSeenAt) = .int input.started ∧ sanitizeRow py raw = some row

theorem Stamped.sanitary (h : input.Stamped py) : input.Sanitary py := by
  constructor
  · intro row hrow
    obtain ⟨raw, -, hraw⟩ := h row (List.mem_append_left _ hrow)
    exact ⟨raw, hraw⟩
  · intro row hrow
    obtain ⟨raw, -, hraw⟩ := h row (List.mem_append_right _ hrow)
    exact ⟨raw, hraw⟩

theorem Stamped.firstSeen (h : input.Stamped py) :
    ∀ row ∈ input.apiRows ++ input.htmlRows, row.int .FirstSeenAt = some input.started := by
  intro row hrow
  obtain ⟨raw, hseen, hraw⟩ := h row hrow
  unfold sanitizeRow at hraw
  dsimp only at hraw
  rw [Option.ite_none_left_eq_some] at hraw
  rw [← Option.some.inj hraw.2]
  show py.toIntOrNone (raw (.int .FirstSeenAt)) = some input.started
  rw [hseen]
  exact Python.toIntOrNone_optInteger (some input.started)

variable (input) in
/-- The entry was observed by this run, at an address that a source has. -/
def Observed (e : Entry) : Prop :=
  e.firstSeen = some input.started ∧
    ∃ row ∈ input.apiRows ++ input.htmlRows, row.text .IP = e.ip

theorem Observed.mergeHtml {a r : Entry} (ha : input.Observed a) (hr : input.Observed r) :
    input.Observed (mergeHtml a r) := by
  have hseen : (Publisher.mergeHtml a r).firstSeen = a.firstSeen.merge min r.firstSeen := rfl
  have htext : (Publisher.mergeHtml a r).ip = a.ip ∨ (Publisher.mergeHtml a r).ip = r.ip := by
    rw [Entry.ip, mergeHtml_text a r (by decide)]
    exact mergeTwo_text false a r .IP
  constructor
  · rw [hseen, ha.1, hr.1]
    simp
  · rcases htext with htext | htext
    · rw [htext]
      exact ha.2
    · rw [htext]
      exact hr.2

/-- The fresh rows were observed by this run. -/
theorem observed_fresh (h : input.Stamped py) : ∀ e ∈ input.fresh, input.Observed e := by
  have hrows : ∀ rows : List Row, (∀ row ∈ rows, row ∈ input.apiRows ++ input.htmlRows) →
      ∀ html, ∀ e ∈ rows.map (Entry.ofRow html), input.Observed e := by
    intro rows hrows html e he
    obtain ⟨row, hrow, rfl⟩ := List.mem_map.mp he
    exact ⟨h.firstSeen row (hrows row hrow), row, hrows row hrow, rfl⟩
  intro e he
  obtain ⟨entry, hentry, rfl⟩ := List.mem_map.mp he
  refine LinkedMap.collect_forall (P := fun _ e => input.Observed e) ?_ ?_ ?_ entry hentry
  · exact byIp_forall (hrows _ (fun _ hrow => List.mem_append_left _ hrow) false)
  · exact fun e he _ _ => hrows _ (fun _ hrow => List.mem_append_right _ hrow) true e he
  · exact fun _ _ _ ha hr => ha.mergeHtml hr

end Input

/-- An entry of a map by address is what its address has. -/
theorem mem_iff_read {m : LinkedMap Text Entry} (hkeyed : m.Keyed)
    (hkept : ∀ e ∈ m, KeptUnder py e.1 e.2) {e : Entry} :
    e ∈ m.map Prod.snd ↔ m.read e.ip = some e := by
  constructor
  · intro he
    obtain ⟨⟨ip, e⟩, hentry, rfl⟩ := List.mem_map.mp he
    rw [(hkept (ip, e) hentry).1]
    exact hkeyed.mem_iff.mp hentry
  · intro hread
    exact List.mem_map.mpr ⟨(e.ip, e), LinkedMap.mem_of_read hread, rfl⟩

/-- An address stays in a map, and a row brings its own. -/
theorem mem_keys_collect {m : LinkedMap Text Entry} {merge : Entry → Entry → Entry}
    {rows : List Entry} {ip : Text} (h : ip ∈ m.map Prod.fst ∨ ∃ e ∈ rows, e.ip = ip) :
    ip ∈ (m.collect (fun e => some e.ip) merge rows).map Prod.fst := by
  by_contra hnone
  rw [← LinkedMap.read_eq_none, LinkedMap.read_collect] at hnone
  cases hread : m.read ip with
  | none =>
    rcases h with hkey | ⟨e, he, hip⟩
    · exact LinkedMap.read_eq_none.mp hread hkey
    · have hmem : e ∈ rows.filter fun r => some r.ip = some ip :=
        List.mem_filter.mpr ⟨he, by simp [hip]⟩
      obtain ⟨first, rest, hrows⟩ := List.exists_cons_of_ne_nil (List.ne_nil_of_mem hmem)
      rw [hread, hrows] at hnone
      cases hnone
  | some existing =>
    rw [hread] at hnone
    cases hrows : rows.filter fun r => some r.ip = some ip with
    | nil =>
      rw [hrows] at hnone
      cases hnone
    | cons first rest =>
      rw [hrows] at hnone
      cases hnone

theorem keyed_byIp (rows : List Entry) : (byIp rows).Keyed :=
  LinkedMap.Keyed.collect (show LinkedMap.Keyed [] from List.nodup_nil) rows

namespace Input

variable {input : Input}

/-- Every row of a source has its address among the fresh rows. -/
theorem exists_fresh (h : input.Stamped py) {row : Row}
    (hrow : row ∈ input.apiRows ++ input.htmlRows) : ∃ e ∈ input.fresh, e.ip = row.text .IP := by
  have hsource : ∀ rows : List Row, (∀ r ∈ rows, ∃ raw, sanitizeRow py raw = some r) →
      ∀ html, ∀ e ∈ rows.map (Entry.ofRow html), e.Named py := by
    intro rows hrows html e he
    obtain ⟨r, hr, rfl⟩ := List.mem_map.mp he
    obtain ⟨raw, hraw⟩ := hrows r hr
    exact named_of_sanitized (sanitizeRow_sanitized hraw) html
  have hkept := keptUnder_collect (keptUnder_byIp (hsource _ h.sanitary.1 false))
    (hsource _ h.sanitary.2 true) (fun _ _ _ ha hr => ha.mergeHtml hr)
  have hfound : row.text .IP ∈ ((byIp (input.apiRows.map (Entry.ofRow false))).collect
      (fun e => some e.ip) mergeHtml (input.htmlRows.map (Entry.ofRow true))).map Prod.fst := by
    rcases List.mem_append.mp hrow with hapi | hhtml
    · exact mem_keys_collect (Or.inl (mem_keys_collect (Or.inr
        ⟨_, List.mem_map_of_mem hapi, rfl⟩)))
    · exact mem_keys_collect (Or.inr ⟨_, List.mem_map_of_mem hhtml, rfl⟩)
  obtain ⟨entry, hentry, hip⟩ := List.mem_map.mp hfound
  exact ⟨entry.2, List.mem_map_of_mem hentry, (hkept entry hentry).1.trans hip⟩

/-- Stage 2 changes neither the addresses of the rows nor their first observations. -/
theorem last_probed (previous : List Row) (ip : Text) :
    ((((input.probed previous).map (stamp input.started)).filter fun e =>
        some e.ip = some ip).getLast?).bind Entry.firstSeen =
      ((previous.filter (·.text .IP = ip)).getLast?).bind (·.int .FirstSeenAt) := by
  have hsame : ((input.probed previous).map (stamp input.started)).map
      (fun e => (e.ip, e.firstSeen)) = previous.map fun r => (r.text .IP, r.int .FirstSeenAt) := by
    refine List.ext_getElem? fun i => ?_
    cases hrow : previous[i]? with
    | none => simp [probed, hrow]
    | some row =>
      have hseen : (checkEntry input.args.skipHealthCheck (fun _ => input.answersFirst i)
          (Entry.ofRow false row)).firstSeen = row.int .FirstSeenAt := by
        rw [Entry.firstSeen, checkEntry_row]
        rfl
      simp only [probed, List.getElem?_map, List.getElem?_mapIdx, hrow, Option.map_some,
        stamp_firstSeen, Entry.ip, stamp_text, checkEntry_row, hseen]
      rfl
  have hfilter : ∀ entries : List Entry,
      ((entries.filter fun e => some e.ip = some ip).getLast?).bind Entry.firstSeen =
        (((entries.map fun e => (e.ip, e.firstSeen)).filter
          (·.1 = ip)).getLast?).bind Prod.snd := by
    intro entries
    rw [List.filter_map, List.getLast?_map, Option.bind_map]
    simp [Function.comp_def]
  have hrows : ((previous.filter (·.text .IP = ip)).getLast?).bind (·.int .FirstSeenAt) =
      (((previous.map fun r => (r.text .IP, r.int .FirstSeenAt)).filter
        (·.1 = ip)).getLast?).bind Prod.snd := by
    rw [List.filter_map, List.getLast?_map, Option.bind_map]
    simp [Function.comp_def]
  rw [hfilter, hsame, hrows]

/-- **The first observation of an address, as the merge has it**: that of the last row of the
    previous file, or the start of the run where a source has the address, whichever is earlier. -/
theorem firstSeen_merged (h : input.Stamped py) {previous : List Row}
    (hprevious : ∀ row ∈ previous, Sanitized py row) {e : Entry}
    (he : e ∈ input.merged previous) :
    e.firstSeen =
      (((previous.filter (·.text .IP = e.ip)).getLast?).bind (·.int .FirstSeenAt)).merge min
        (if (input.fresh.filter fun f => some f.ip = some e.ip) = [] then none
          else some input.started) := by
  have hnamed : ∀ p ∈ (input.probed previous).map (stamp input.started), p.Named py :=
    probed_named hprevious
  have hkept := keptUnder_collect (keptUnder_byIp hnamed) (fresh_named h.sanitary)
    (fun _ _ _ ha hr => ha.mergeTwo hr true)
  have hread := (mem_iff_read ((keyed_byIp _).collect _) hkept).mp he
  rw [LinkedMap.read_collect, byIp, LinkedMap.read_collect, LinkedMap.read_nil, mergeRows_last]
    at hread
  have hfresh : ∀ f ∈ input.fresh.filter (fun f => some f.ip = some e.ip),
      f.firstSeen = some input.started :=
    fun f hf => (observed_fresh h f (List.mem_filter.mp hf).1).1
  have hseen := mergeRows_firstSeen (((((input.probed previous).map
    (stamp input.started)).filter fun r => some r.ip = some e.ip)).getLast?) hfresh
  rw [hread, last_probed] at hseen
  exact hseen

end Input

/-! ### Rows that are proven -/

theorem withConfig_text (row : Row) (cfg : Text) {c : TextColumn}
    (hc : c ≠ .OpenVPN_ConfigData_Base64) : (row.withConfig cfg).text c = row.text c :=
  Function.update_of_ne hc _ _

/-- An endpoint does not depend on the profile. -/
theorem tcpEndpoint_withConfig (row : Row) (cfg : Text) :
    tcpEndpoint (row.withConfig cfg) = tcpEndpoint row := by
  have hip : (row.withConfig cfg).text .IP = row.text .IP := withConfig_text row cfg (by decide)
  unfold tcpEndpoint
  rw [hip]
  rfl

theorem tcpEndpoint_stamp (started : ℤ) (e : Entry) :
    tcpEndpoint (stamp started e).row = tcpEndpoint e.row := by
  unfold stamp
  split_ifs
  · rfl
  · rfl

/-- The least of some times, or none if there are none. -/
structure IsEarliest (times : List ℤ) (seen : Option ℤ) : Prop where
  le : ∀ t ∈ times, ∃ s ∈ seen, s ≤ t
  mem : ∀ s ∈ seen, s ∈ times

namespace Input

variable (input : Input)

/-- The first observations of an address in the previous file and in the sources. -/
def observations (previous : List Row) (ip : Text) : List ℤ :=
  ((previous ++ (input.apiRows ++ input.htmlRows)).filter (·.text .IP = ip)).filterMap
    (·.int .FirstSeenAt)

variable (py) in
/-- **A row that is proven**: it was probed at its endpoint in this run, it was last seen now, and
    first seen when its address was first observed. -/
structure Proven (previous : List Row) (row : Row) : Prop where
  probed : ∃ ep, tcpEndpoint row = some ep ∧ (ep, true) ∈ input.probes py previous
  lastSeen : row.int .LastSeenAt = some input.started
  firstSeen : IsEarliest (input.observations previous (row.text .IP)) (row.int .FirstSeenAt)

/-- In the previous file no row of the address is older than the last one; it may be when a source
    has the address and it is not older than the run. -/
def LastIsEarliest (previous : List Row) (ip : Text) : Prop :=
  ∀ row ∈ previous, row.text .IP = ip → ∀ t ∈ row.int .FirstSeenAt,
    (∃ last ∈ (previous.filter (·.text .IP = ip)).getLast?,
      ∃ s ∈ last.int .FirstSeenAt, s ≤ t) ∨
    ((∃ r ∈ input.apiRows ++ input.htmlRows, r.text .IP = ip) ∧ input.started ≤ t)

variable {input}

theorem exists_mem_merge {a b : Option ℤ} {t : ℤ} :
    (∃ s ∈ a.merge min b, s ≤ t) ↔ (∃ s ∈ a, s ≤ t) ∨ ∃ s ∈ b, s ≤ t := by
  cases a <;> cases b <;> simp

theorem mem_merge {a b : Option ℤ} {s : ℤ} (h : s ∈ a.merge min b) : s ∈ a ∨ s ∈ b := by
  cases a with
  | none => exact Or.inr (by simpa using h)
  | some x =>
    cases b with
    | none => exact Or.inl (by simpa using h)
    | some y =>
      have hs : min x y = s := by simpa using h
      rcases min_choice x y with hmin | hmin
      · exact Or.inl (by simp [← hs, hmin])
      · exact Or.inr (by simp [← hs, hmin])

/-- A source has an address exactly when the fresh rows do. -/
theorem fresh_filter_eq_nil (h : input.Stamped py) (ip : Text) :
    (input.fresh.filter fun f => some f.ip = some ip) = [] ↔
      ¬ ∃ r ∈ input.apiRows ++ input.htmlRows, r.text .IP = ip := by
  rw [List.filter_eq_nil_iff]
  constructor
  · rintro hnone ⟨r, hr, hip⟩
    obtain ⟨f, hf, hfip⟩ := exists_fresh h hr
    exact hnone f hf (by simp [hfip, hip])
  · intro hnone f hf hip
    obtain ⟨-, r, hr, hrip⟩ := observed_fresh h f hf
    rw [decide_eq_true_eq, Option.some_inj] at hip
    exact hnone ⟨r, hr, hrip.trans hip⟩

variable {previous : List Row} {e : Entry}

/-- When the merge has an observation that is as early as `t`. -/
theorem exists_firstSeen_le (h : input.Stamped py) (hprevious : ∀ row ∈ previous, Sanitized py row)
    (he : e ∈ input.merged previous) {t : ℤ} : (∃ s ∈ e.firstSeen, s ≤ t) ↔
      (∃ last ∈ (previous.filter (·.text .IP = e.ip)).getLast?,
        ∃ s ∈ last.int .FirstSeenAt, s ≤ t) ∨
      ((∃ r ∈ input.apiRows ++ input.htmlRows, r.text .IP = e.ip) ∧ input.started ≤ t) := by
  rw [firstSeen_merged h hprevious he, exists_mem_merge]
  have hfresh := fresh_filter_eq_nil h e.ip
  apply or_congr
  · constructor
    · rintro ⟨s, hs, hle⟩
      obtain ⟨last, hlast, hseen⟩ := Option.bind_eq_some_iff.mp hs
      exact ⟨last, hlast, s, hseen, hle⟩
    · rintro ⟨last, hlast, s, hseen, hle⟩
      exact ⟨s, Option.bind_eq_some_iff.mpr ⟨last, hlast, hseen⟩, hle⟩
  · split_ifs with hnil
    · exact iff_of_false (by simp) fun hsource => hfresh.mp hnil hsource.1
    · rw [and_iff_right (not_not.mp (mt hfresh.mpr hnil))]
      simp

/-- What the merge has for an address was observed. -/
theorem firstSeen_mem_observations (h : input.Stamped py)
    (hprevious : ∀ row ∈ previous, Sanitized py row) (he : e ∈ input.merged previous) {s : ℤ}
    (hs : s ∈ e.firstSeen) : s ∈ input.observations previous e.ip := by
  rw [firstSeen_merged h hprevious he] at hs
  rcases mem_merge hs with hs | hs
  · obtain ⟨last, hlast, hseen⟩ := Option.bind_eq_some_iff.mp hs
    obtain ⟨hrow, hip⟩ := List.mem_filter.mp (List.mem_of_getLast? hlast)
    exact List.mem_filterMap.mpr
      ⟨last, List.mem_filter.mpr ⟨List.mem_append_left _ hrow, hip⟩, hseen⟩
  · split_ifs at hs with hnil
    · cases hs
    · obtain ⟨r, hr, hip⟩ := not_not.mp (mt (fresh_filter_eq_nil h e.ip).mpr hnil)
      refine List.mem_filterMap.mpr ⟨r, List.mem_filter.mpr
        ⟨List.mem_append_right _ hr, decide_eq_true hip⟩, ?_⟩
      rw [h.firstSeen r hr]
      exact hs

/-- What the merge has for an address is the earliest observation, unless a row of the previous
    file is older than the last one. -/
theorem isEarliest_iff (h : input.Stamped py) (hprevious : ∀ row ∈ previous, Sanitized py row)
    (he : e ∈ input.merged previous) : IsEarliest (input.observations previous e.ip) e.firstSeen ↔
      input.LastIsEarliest previous e.ip := by
  constructor
  · intro hearliest row hrow hip t ht
    have hobserved : t ∈ input.observations previous e.ip :=
      List.mem_filterMap.mpr ⟨row, List.mem_filter.mpr ⟨List.mem_append_left _ hrow,
        decide_eq_true hip⟩, ht⟩
    exact (exists_firstSeen_le h hprevious he).mp (hearliest.le t hobserved)
  · intro hlast
    refine ⟨?_, fun s hs => firstSeen_mem_observations h hprevious he hs⟩
    intro t ht
    rw [exists_firstSeen_le h hprevious he]
    obtain ⟨row, hrow, ht⟩ := List.mem_filterMap.mp ht
    obtain ⟨hrow, hip⟩ := List.mem_filter.mp hrow
    rw [decide_eq_true_eq] at hip
    rcases List.mem_append.mp hrow with hrow | hrow
    · exact hlast row hrow hip t ht
    · -- the sources observe an address when the run starts
      rw [h.firstSeen row hrow, Option.some_inj] at ht
      exact Or.inr ⟨⟨row, hrow, hip⟩, ht.le⟩

end Input

/-- **A published row is proven**, for a run with health checks, exactly if no row of its address
    in the previous file is older than the last one. -/
theorem published_proven_iff {input : Input} {limits : Limits} {previous rows : List Row}
    (hstamped : input.Stamped py) (hskip : input.args.skipHealthCheck = false)
    (hprevious : loadPrevious py input.previousFile = .ok previous)
    (hpublish : input.publish py limits = .ok rows) :
    ∀ row ∈ rows, input.Proven py previous row ↔
      input.LastIsEarliest previous (row.text .IP) := by
  intro row hrow
  obtain ⟨r, hr, cfg, rfl⟩ := Input.mem_publish hprevious hpublish row hrow
  obtain ⟨hr, hhealthy⟩ := List.mem_filter.mp hr
  obtain ⟨checked, hchecked, rfl⟩ := List.mem_map.mp hr
  obtain ⟨c, hc, rfl⟩ := List.mem_map.mp hchecked
  rw [stamp_healthy, decide_eq_true_eq] at hhealthy
  obtain ⟨m, hm, rfl⟩ := Input.checked_prepare hc
  have hsanitized := loadPrevious_sanitized hprevious
  have hip : ((stamp input.started (input.check (m.prepare py))).row.withConfig cfg).text .IP =
      m.ip := by
    rw [withConfig_text _ _ (by decide), stamp_text, Input.check, checkEntry_row]
    exact prepare_ip m
  have hseen : ((stamp input.started (input.check (m.prepare py))).row.withConfig cfg).int
      .FirstSeenAt = m.firstSeen := by
    show (stamp input.started (input.check (m.prepare py))).firstSeen = m.firstSeen
    rw [stamp_firstSeen, Entry.firstSeen, Input.check, checkEntry_row]
    rfl
  have hlast : ((stamp input.started (input.check (m.prepare py))).row.withConfig cfg).int
      .LastSeenAt = some input.started := by
    show (stamp input.started (input.check (m.prepare py))).row.int .LastSeenAt = _
    rw [stamp, if_pos hhealthy]
    simp
  have hendpoint : tcpEndpoint ((stamp input.started (input.check
      (m.prepare py))).row.withConfig cfg) = tcpEndpoint (m.prepare py).row := by
    rw [tcpEndpoint_withConfig, tcpEndpoint_stamp, Input.check, checkEntry_row]
  have hearliest := Input.isEarliest_iff hstamped hsanitized hm
  rw [hip]
  constructor
  · intro hproven
    have hfirst := hproven.firstSeen
    rw [hip, hseen] at hfirst
    exact hearliest.mp hfirst
  · intro hcondition
    refine ⟨?_, hlast, ?_⟩
    · rw [hendpoint]
      exact Input.probed_of_healthy hskip hc hhealthy
    · rw [hip, hseen]
      exact hearliest.mpr hcondition

/-! ### An address that the previous file has twice -/

/-- A server and when it was seen. -/
def seenServer (first : ℤ) (last : Option ℤ) : Row :=
  { vpn1 "5.5.5.5".toList false with
    int := fun
      | .FirstSeenAt => some first
      | .LastSeenAt => last
      | _ => none }

/-- The previous file has the server twice, the row that was seen first before the other one. -/
def twiceListed : Input where
  args := ⟨false, 20, fun _ _ => false, false⟩
  started := 10
  previousFile := some (renderCsv [seenServer 1 none, seenServer 2 none])
  apiRows := []
  htmlRows := []
  answersFirst _ := true
  answersSecond _ := true

theorem sanitized_seenServer (first : ℤ) (last : Option ℤ) :
    Sanitized Python.ascii (seenServer first last) :=
  have h := sanitized_vpn1 dottedQuad_samples.1 false
  ⟨h.cleaned, h.ip, h.host, h.country, h.base64, h.sstp, h.schema, h.tag⟩

/-- The server is read back from a file. -/
theorem parse_seenServer (hne : rows ≠ [])
    (hrows : ∀ row ∈ rows, ∃ first last, row = seenServer first last)
    (hshort : ∀ row ∈ rows, ∀ c ∈ COLUMNS, (row.cell c).length ≤ FIELD_LIMIT) :
    parseEmergencyCsv Python.ascii (renderCsv rows) = some ⟨rows, 0, none⟩ := by
  rw [parseEmergencyCsv_renderCsv hne, if_pos]
  · intro fields hfields w hw
    obtain ⟨row, hrow, rfl⟩ := List.mem_map.mp hfields
    obtain ⟨c, hc, rfl⟩ := List.mem_map.mp hw
    exact hshort row hrow c hc
  · intro row hrow
    obtain ⟨first, last, rfl⟩ := hrows row hrow
    exact sanitized_seenServer first last
  · intro row hrow c
    obtain ⟨first, last, rfl⟩ := hrows row hrow
    have hplain : ∀ c, '\uFFFD' ∉ (vpn1 "5.5.5.5".toList false).text c := by
      intro c
      cases c <;> decide
    exact hplain c

theorem twiceListed_previous : loadPrevious Python.ascii twiceListed.previousFile =
    .ok [seenServer 1 none, seenServer 2 none] := by
  have hparse : parseEmergencyCsv Python.ascii
      (renderCsv [seenServer 1 none, seenServer 2 none]) =
        some ⟨[seenServer 1 none, seenServer 2 none], 0, none⟩ :=
    parse_seenServer (by simp) (by simp) (by decide)
  show loadPrevious Python.ascii (some (renderCsv [seenServer 1 none, seenServer 2 none])) = _
  rw [loadPrevious, hparse]
  rfl

/-- The row that stands for the address. -/
def lastListed : Entry :=
  stamp 10 (twiceListed.check ((stamp 10 (checkEntry false (fun _ => true)
    (Entry.ofRow false (seenServer 2 none)))).prepare Python.ascii))

theorem twiceListed_handed :
    twiceListed.handed Python.ascii [seenServer 1 none, seenServer 2 none] = [lastListed] := by
  rfl

theorem lastListed_row : lastListed.row = seenServer 2 (some 10) := by
  refine Row.ext (funext fun c => ?_) (funext fun c => ?_) (funext fun c => ?_) rfl rfl rfl
  · cases c <;> decide
  · cases c <;> decide
  · cases c <;> decide

theorem twiceListed_run : twiceListed.run Python.ascii = .ok [lastListed] := by
  unfold Input.run
  rw [twiceListed_previous]
  simp only [bind, Except.bind]
  rw [if_neg (by decide), if_neg (by simp), twiceListed_handed]

/-- A budget for one row. -/
def oneRow : Limits := ⟨500, 1, 600⟩

set_option maxRecDepth 4000 in
/-- The row fits. -/
theorem fitBudget_seenServer :
    (fitBudget [seenServer 2 (some 10)] [0] 600).heap.rowsAt
      (fitBudget [seenServer 2 (some 10)] [0] 600).rows = [seenServer 2 (some 10)] := by
  have hsorted : sortedWith bestFirst (Heap.rowsAt [seenServer 2 (some 10)] [0]) =
      [seenServer 2 (some 10)] := List.mergeSort_singleton _
  have hheader : (byteLength (writeRow header) : ℤ) ≤ 600 := by decide
  have hbytes : strippedBytes [seenServer 2 (some 10)] 1 ≤ 600 := by decide
  obtain ⟨hle, -, hlast⟩ := keptCount_spec [seenServer 2 (some 10)] hheader
  have hone : keptCount [seenServer 2 (some 10)] 600 = 1 := by
    rcases Nat.lt_or_ge (keptCount [seenServer 2 (some 10)] 600) 1 with hlt | hge
    · have hover := hlast 1 hlt (by decide)
      omega
    · exact Nat.le_antisymm hle hge
  have hreturned : returned [seenServer 2 (some 10)] 600 = [seenServer 2 (some 10)] := by
    unfold returned
    rw [hone]
    have hplain : (seenServer 2 (some 10)).withConfig [] = seenServer 2 (some 10) :=
      withConfig_self (seenServer 2 (some 10))
    show [(seenServer 2 (some 10)).withConfig []] = _
    rw [hplain]
  rw [fitBudget_eq _ _ _ _ hsorted.symm hle, hone, hreturned]
  rfl

set_option maxRecDepth 4000 in
theorem twiceListed_publish :
    twiceListed.publish Python.ascii oneRow = .ok [seenServer 2 (some 10)] := by
  have hprune : prune ([lastListed].map Entry.row) 500 = [seenServer 2 (some 10)] := by
    rw [prune, if_pos (by simp), List.map_singleton, lastListed_row]
  have hrange : List.range [seenServer 2 (some 10)].length = [0] := rfl
  have hsorted : sortedWith (compareBy fun r : Row => ipSortKey (r.text .IP))
      [seenServer 2 (some 10)] = [seenServer 2 (some 10)] := List.mergeSort_singleton _
  have hparse : parseEmergencyCsv Python.ascii (renderCsv [seenServer 2 (some 10)]) =
      some ⟨[seenServer 2 (some 10)], 0, none⟩ :=
    parse_seenServer (by simp) (by simp) (by decide)
  have hfile : checkFile Python.ascii [seenServer 2 (some 10)] = .ok [seenServer 2 (some 10)] := by
    unfold checkFile
    rw [hparse]
    exact if_pos (selfCheck_of_parse hparse)
  unfold Input.publish
  rw [twiceListed_run]
  simp only [bind, Except.bind, oneRow, hprune, hrange, fitBudget_seenServer, hsorted, hfile]
  rw [if_neg (by decide), if_neg (by decide), if_neg (by decide)]

theorem twiceListed_stamped : twiceListed.Stamped Python.ascii :=
  fun _ hrow => absurd hrow List.not_mem_nil

/-- **The earlier observation is lost.** -/
theorem last_row_not_proven :
    twiceListed.publish Python.ascii oneRow = .ok [seenServer 2 (some 10)] ∧
      1 ∈ twiceListed.observations [seenServer 1 none, seenServer 2 none] "5.5.5.5".toList ∧
      ¬ twiceListed.Proven Python.ascii [seenServer 1 none, seenServer 2 none]
        (seenServer 2 (some 10)) := by
  have hobserved :
      1 ∈ twiceListed.observations [seenServer 1 none, seenServer 2 none] "5.5.5.5".toList := by
    decide
  refine ⟨twiceListed_publish, hobserved, ?_⟩
  intro hproven
  obtain ⟨s, hs, hle⟩ := hproven.firstSeen.le 1 hobserved
  obtain rfl : 2 = s := Option.some.inj hs
  omega

theorem published_proven_iff_twiceListed :
    twiceListed.Proven Python.ascii [seenServer 1 none, seenServer 2 none]
        (seenServer 2 (some 10)) ↔
      twiceListed.LastIsEarliest [seenServer 1 none, seenServer 2 none]
        ((seenServer 2 (some 10)).text .IP) :=
  published_proven_iff twiceListed_stamped rfl twiceListed_previous twiceListed_publish _
    (List.mem_singleton_self _)

end SoftEther.Publisher
