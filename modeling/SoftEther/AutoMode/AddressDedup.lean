import SoftEther.AutoMode.Candidate
import SoftEther.Lib.KeyedRows

namespace SoftEther.AutoMode

open Lib
open Std

/-!
# One candidate for each address (`AutoModeEngine.dedupeByIp`)

Of the candidates with one address the one that `preferred` names is kept, at the place of the
first of them; the candidates without an address follow behind.

* `addressOf`, `preferred`, `dedupeByIp` — the function;
* `survivorOrder` — the order that `preferred` asks for; `survivor_unique` — with different names
  there is one largest candidate;
* `DedupedByIp` — what is wanted of the result;
* `dedupedByIp_iff` — it is got exactly when the first occurrences with an address stand in front
  of the candidates without one;
* `unaddressed_moved` — two candidates that are swapped.
-/

/-! ### The function -/

/-- `c.ip?.trim().orEmpty()`, where it is not empty. -/
def addressOf (c : AutoModeCandidate) : Option JavaString :=
  if ((c.ip.map JavaString.trim).getD []).isEmpty then none
  else some ((c.ip.map JavaString.trim).getD [])

/-- `richness`. -/
def richness (c : AutoModeCandidate) : ℕ :=
  (if c.seTcpPort > 0 then 1 else 0) +
    (if decide (c.seUdpPort > 0) || c.seUdpSupported then 1 else 0) +
    (if c.sstpSupported then 1 else 0) + (if c.l2tpSupported then 1 else 0) +
    (if c.openVpnConfigAvailable then 1 else 0)

/-- `preferred`. -/
def preferred (a b : AutoModeCandidate) (openVpnEnabled : Bool) : Bool :=
  if openVpnEnabled && (a.openVpnConfigAvailable != b.openVpnConfigAvailable) then
    a.openVpnConfigAvailable
  else if richness a ≠ richness b then decide (richness a > richness b)
  else if a.score ≠ b.score then decide (a.score > b.score)
  else compare (a.hostname.getD []) (b.hostname.getD []) == .lt

/-- `dedupeByIp`. -/
def dedupeByIp (candidates : List AutoModeCandidate) (openVpnEnabled : Bool) :
    List AutoModeCandidate :=
  let byIp := LinkedMap.collect addressOf
    (fun kept c => if preferred c kept openVpnEnabled then c else kept) [] candidates
  let noIp := candidates.filter fun c => addressOf c = none
  byIp.map Prod.snd ++ noIp

/-! ### What is wanted -/

/-- The place that a candidate takes: that of its address, or its own. -/
def slotOf (c : AutoModeCandidate) : JavaString ⊕ AutoModeCandidate :=
  match addressOf c with
  | some ip => .inl ip
  | none => .inr c

/-- **One candidate for each address.** An address has one survivor, which every order of the
    candidates has; all candidates without an address stay; and what is left stands in the order of
    the first occurrences. -/
structure DedupedByIp (openVpnEnabled : Bool) (candidates : List AutoModeCandidate) : Prop where
  kept : ∀ c ∈ dedupeByIp candidates openVpnEnabled, c ∈ candidates
  one : ∀ ip ∈ candidates.filterMap addressOf, ∃ c,
    ((dedupeByIp candidates openVpnEnabled).filter fun c => addressOf c = some ip) = [c]
  others : ((dedupeByIp candidates openVpnEnabled).filter fun c => addressOf c = none) =
    candidates.filter fun c => addressOf c = none
  independent : ∀ candidates', candidates'.Perm candidates → ∀ ip,
    ((dedupeByIp candidates' openVpnEnabled).filter fun c => addressOf c = some ip) =
      (dedupeByIp candidates openVpnEnabled).filter fun c => addressOf c = some ip
  order : (dedupeByIp candidates openVpnEnabled).map slotOf =
    (distinctBy slotOf candidates).map slotOf

/-- Of the first occurrences, those with an address come first. -/
def AddressesFirst (candidates : List AutoModeCandidate) : Prop :=
  (distinctBy slotOf candidates).Pairwise fun c d => addressOf c = none → addressOf d = none

/-- The names of the candidates are different. -/
def DistinctNames (candidates : List AutoModeCandidate) : Prop :=
  UniqueBy (fun c : AutoModeCandidate => c.hostname.getD []) candidates

instance (candidates : List AutoModeCandidate) : Decidable (DistinctNames candidates) :=
  inferInstanceAs (Decidable (UniqueBy _ _))

/-! ### The survivor -/

/-- The order that `preferred` asks for, the better candidate being the larger one. -/
def survivorOrder (openVpnEnabled : Bool) : AutoModeCandidate → AutoModeCandidate → Ordering :=
  compareLex (compareBy fun c => openVpnEnabled && c.openVpnConfigAvailable) <|
  compareLex (compareBy richness) <|
  compareLex (compareBy AutoModeCandidate.score)
    (compareByDescending fun c => c.hostname.getD [])

instance (openVpnEnabled : Bool) : TransCmp (survivorOrder openVpnEnabled) := by
  unfold survivorOrder
  infer_instance

/-- **`preferred` asks for the larger candidate.** -/
theorem preferred_iff (a b : AutoModeCandidate) (openVpnEnabled : Bool) :
    preferred a b openVpnEnabled = true ↔ survivorOrder openVpnEnabled a b = .gt := by
  have hprofile : compareBy (fun c => openVpnEnabled && c.openVpnConfigAvailable) a b =
      if openVpnEnabled && (a.openVpnConfigAvailable != b.openVpnConfigAvailable) then
        if a.openVpnConfigAvailable then .gt else .lt
      else .eq := by
    show compare (openVpnEnabled && a.openVpnConfigAvailable)
      (openVpnEnabled && b.openVpnConfigAvailable) = _
    generalize a.openVpnConfigAvailable = x
    generalize b.openVpnConfigAvailable = y
    revert openVpnEnabled x y
    decide
  have hname : compareByDescending (fun c : AutoModeCandidate => c.hostname.getD []) a b = .gt ↔
      compare (a.hostname.getD []) (b.hostname.getD []) = .lt :=
    OrientedCmp.gt_iff_lt
  unfold preferred survivorOrder
  simp only [compareLex, Ordering.then_eq_gt, hprofile, hname]
  by_cases hopen : (openVpnEnabled && (a.openVpnConfigAvailable != b.openVpnConfigAvailable)) = true
  · -- only one of them has a profile
    simp only [if_pos hopen]
    cases a.openVpnConfigAvailable <;> simp
  · simp only [if_neg hopen]
    by_cases hrich : richness a = richness b
    · rw [if_neg (not_not.mpr hrich)]
      by_cases hscore : a.score = b.score
      · rw [if_neg (not_not.mpr hscore)]
        simp [compareBy, hrich, hscore]
      · rw [if_pos hscore]
        simp [compareBy, hrich, hscore, Int.compare_eq_gt]
    · rw [if_pos hrich]
      simp [compareBy, hrich, Nat.compare_eq_gt]

/-- Candidates as good as each other have one name. -/
theorem name_eq_of_survivorOrder {openVpnEnabled : Bool} {a b : AutoModeCandidate}
    (h : survivorOrder openVpnEnabled a b = .eq) : a.hostname.getD [] = b.hostname.getD [] := by
  simp only [survivorOrder, compareLex_eq_eq, compareByDescending] at h
  exact (LawfulEqOrd.compare_eq_iff_eq.mp h.2.2.2).symm

/-- What `dedupeByIp` puts together. -/
def survivors (candidates : List AutoModeCandidate) (openVpnEnabled : Bool) :
    LinkedMap JavaString AutoModeCandidate :=
  LinkedMap.collect addressOf (stronger (survivorOrder openVpnEnabled)) [] candidates

theorem dedupeByIp_eq (candidates : List AutoModeCandidate) (openVpnEnabled : Bool) :
    dedupeByIp candidates openVpnEnabled = (survivors candidates openVpnEnabled).map Prod.snd ++
      candidates.filter fun c => addressOf c = none := by
  have hmerge : (fun kept c => if preferred c kept openVpnEnabled then c else kept) =
      stronger (survivorOrder openVpnEnabled) := by
    funext kept c
    exact if_congr (preferred_iff c kept openVpnEnabled) rfl rfl
  rw [dedupeByIp, hmerge]
  rfl

variable {candidates : List AutoModeCandidate} {openVpnEnabled : Bool}

variable {c : AutoModeCandidate} {ip : JavaString}

/-- **A survivor** is the largest of the candidates with its address. -/
theorem mem_survivors (h : (ip, c) ∈ survivors candidates openVpnEnabled) :
    c ∈ candidates ∧ addressOf c = some ip ∧ ∀ d ∈ candidates, addressOf d = some ip →
      (survivorOrder openVpnEnabled d c).isLE = true := by
  obtain ⟨first, rest, hrows, hkept⟩ := LinkedMap.mem_collect.mp h
  obtain ⟨hmem, hbound⟩ := foldl_stronger (survivorOrder openVpnEnabled) first rest
  rw [← hkept, ← hrows] at hmem hbound
  obtain ⟨hin, hip⟩ := List.mem_filter.mp hmem
  exact ⟨hin, of_decide_eq_true hip, fun d hd haddress =>
    hbound d (List.mem_filter.mpr ⟨hd, decide_eq_true haddress⟩)⟩

/-- Every address has a survivor. -/
theorem exists_survivor (openVpnEnabled : Bool) (h : ip ∈ candidates.filterMap addressOf) :
    ∃ c, (ip, c) ∈ survivors candidates openVpnEnabled := by
  obtain ⟨d, hd, haddress⟩ := List.mem_filterMap.mp h
  have hmem : d ∈ candidates.filter fun c => addressOf c = some ip :=
    List.mem_filter.mpr ⟨hd, decide_eq_true haddress⟩
  obtain ⟨first, rest, hrows⟩ := List.exists_cons_of_ne_nil (List.ne_nil_of_mem hmem)
  exact ⟨_, LinkedMap.mem_collect.mpr ⟨first, rest, hrows, rfl⟩⟩

/-- **With different names there is one survivor**, whatever the order of the candidates. -/
theorem survivor_unique (hnames : DistinctNames candidates) {candidates' : List AutoModeCandidate}
    (hperm : candidates'.Perm candidates) {c' : AutoModeCandidate}
    (h : (ip, c) ∈ survivors candidates openVpnEnabled)
    (h' : (ip, c') ∈ survivors candidates' openVpnEnabled) : c' = c := by
  obtain ⟨hc, haddress, hlargest⟩ := mem_survivors h
  obtain ⟨hc', haddress', hlargest'⟩ := mem_survivors h'
  have hin : c' ∈ candidates := hperm.mem_iff.mp hc'
  have hle := hlargest c' hin haddress'
  have hge := hlargest' c (hperm.mem_iff.mpr hc) haddress
  have heq : survivorOrder openVpnEnabled c' c = .eq := OrientedCmp.isLE_antisymm hle hge
  exact hnames.eq hin hc (name_eq_of_survivorOrder heq)

/-! ### The order -/

theorem slotOf_of_some (h : addressOf c = some ip) : slotOf c = .inl ip := by
  unfold slotOf
  rw [h]

theorem slotOf_of_none (h : addressOf c = none) : slotOf c = .inr c := by
  unfold slotOf
  rw [h]

theorem isLeft_slotOf (c : AutoModeCandidate) : (slotOf c).isLeft = (addressOf c).isSome := by
  unfold slotOf
  cases addressOf c <;> rfl

/-- The addresses stand in the order of their first occurrences. -/
theorem addMissing_addresses (seen : List JavaString) (candidates : List AutoModeCandidate) :
    (addMissing seen (candidates.filterMap addressOf)).map Sum.inl =
      seen.map Sum.inl ++ ((distinctBy slotOf candidates).filter fun c =>
        (addressOf c).any (· ∉ seen)).map slotOf := by
  induction candidates generalizing seen with
  | nil => simp [distinctBy]
  | cons c rest ih =>
    rw [distinctBy]
    cases haddress : addressOf c with
    | none =>
      -- a place of its own says nothing about the addresses
      rw [List.filterMap_cons_none haddress, ih, List.filter_cons_of_neg (by simp [haddress]),
        List.filter_filter]
      congr 2
      refine List.filter_congr fun d _ => ?_
      cases hd : addressOf d with
      | none => rfl
      | some ip => simp [slotOf_of_none haddress, slotOf_of_some hd]
    | some ip =>
      have hslot := slotOf_of_some haddress
      have hne : ∀ d ip', addressOf d = some ip' → (slotOf d ≠ slotOf c ↔ ip' ≠ ip) := by
        intro d ip' hd
        rw [hslot, slotOf_of_some hd, Ne, Sum.inl.injEq]
      rw [List.filterMap_cons_some haddress, addMissing_cons]
      by_cases hseen : ip ∈ seen
      · rw [if_pos hseen, ih, List.filter_cons_of_neg (by simp [haddress, hseen]),
          List.filter_filter]
        congr 2
        refine List.filter_congr fun d _ => ?_
        cases hd : addressOf d with
        | none => rfl
        | some ip' =>
          by_cases hip : ip' = ip
          · simp [hip, hseen]
          · simp [(hne d ip' hd).mpr hip]
      · rw [if_neg hseen, ih, List.filter_cons_of_pos (by simp [haddress, hseen]),
          List.filter_filter, List.map_append, List.append_assoc, List.map_singleton,
          List.singleton_append, List.map_cons, hslot]
        congr 3
        refine List.filter_congr fun d _ => ?_
        cases hd : addressOf d with
        | none => rfl
        | some ip' =>
          by_cases hip : ip' = ip
          · simp [hip, slotOf_of_some hd]
          · simp [hip, slotOf_of_some hd]

/-- The first occurrences with an address are those of the survivors. -/
theorem map_slotOf_survivors :
    ((survivors candidates openVpnEnabled).map Prod.snd).map slotOf =
      ((distinctBy slotOf candidates).filter fun c => (addressOf c).isSome).map slotOf := by
  have hslots : ((survivors candidates openVpnEnabled).map Prod.snd).map slotOf =
      ((survivors candidates openVpnEnabled).map Prod.fst).map Sum.inl := by
    rw [List.map_map, List.map_map]
    refine List.map_congr_left fun entry hentry => ?_
    exact slotOf_of_some (mem_survivors hentry).2.1
  rw [hslots, survivors, LinkedMap.keys_collect, List.map_nil, addMissing_addresses]
  simp

/-- Each candidate without an address occurs once. -/
theorem filter_distinctBy (hnames : DistinctNames candidates) :
    ((distinctBy slotOf candidates).filter fun c => addressOf c = none) =
      candidates.filter fun c => addressOf c = none := by
  have hslot : (fun c => decide (addressOf c = none)) = fun c => !(slotOf c).isLeft := by
    funext c
    rw [isLeft_slotOf]
    cases addressOf c <;> rfl
  have hunique : UniqueBy slotOf (candidates.filter fun c => addressOf c = none) := by
    have hnodup := (UniqueBy.nodup hnames).filter fun c => addressOf c = none
    refine hnodup.map_on fun c hc d hd heq => ?_
    rw [slotOf_of_none (of_decide_eq_true (List.mem_filter.mp hc).2),
      slotOf_of_none (of_decide_eq_true (List.mem_filter.mp hd).2)] at heq
    exact Sum.inr.inj heq
  rw [← distinctBy_of_uniqueBy hunique, hslot]
  exact (distinctBy_filter slotOf (fun s => !s.isLeft) candidates).symm

theorem filter_append_filter {α : Type*} {p : α → Bool} {xs : List α}
    (h : xs.Pairwise fun a b => p a = false → p b = false) :
    xs.filter p ++ xs.filter (fun a => !p a) = xs := by
  induction xs with
  | nil => rfl
  | cons x xs ih =>
    obtain ⟨hx, hrest⟩ := List.pairwise_cons.mp h
    cases hp : p x with
    | true =>
      rw [List.filter_cons_of_pos hp, List.filter_cons_of_neg (by simp [hp]), List.cons_append,
        ih hrest]
    | false =>
      have hnone : xs.filter p = [] :=
        List.filter_eq_nil_iff.mpr fun y hy => by simp [hx y hy hp]
      have hrest' := ih hrest
      rw [hnone, List.nil_append] at hrest'
      rw [List.filter_cons_of_neg (by simp [hp]), hnone, List.nil_append,
        List.filter_cons_of_pos (by simp [hp]), hrest']

/-- **The order is kept** exactly when the first occurrences with an address come first. -/
theorem order_iff (hnames : DistinctNames candidates) :
    (dedupeByIp candidates openVpnEnabled).map slotOf =
        (distinctBy slotOf candidates).map slotOf ↔ AddressesFirst candidates := by
  have hnone : ∀ c, decide (addressOf c = none) = !(addressOf c).isSome := by
    intro c
    cases addressOf c <;> rfl
  rw [dedupeByIp_eq, List.map_append, map_slotOf_survivors, ← filter_distinctBy hnames,
    ← List.map_append]
  constructor
  · intro horder
    -- in the result no address stands behind a candidate without one
    have hparts : ((distinctBy slotOf candidates).map slotOf).Pairwise
        fun a b => a.isLeft = false → b.isLeft = false := by
      rw [← horder, List.map_append, List.pairwise_append]
      refine ⟨?_, ?_, ?_⟩
      · rw [List.pairwise_map]
        refine List.pairwise_of_forall_mem_list fun a ha _ _ hleft => ?_
        rw [isLeft_slotOf, (List.mem_filter.mp ha).2] at hleft
        cases hleft
      · rw [List.pairwise_map]
        refine List.pairwise_of_forall_mem_list fun _ _ b hb _ => ?_
        rw [isLeft_slotOf, of_decide_eq_true (List.mem_filter.mp hb).2]
        rfl
      · intro a ha b hb _
        obtain ⟨d, hd, rfl⟩ := List.mem_map.mp hb
        rw [isLeft_slotOf, of_decide_eq_true (List.mem_filter.mp hd).2]
        rfl
    rw [List.pairwise_map] at hparts
    refine hparts.imp fun {a b} hab ha => ?_
    rw [isLeft_slotOf, isLeft_slotOf, ha] at hab
    exact Option.isNone_iff_eq_none.mp (by simpa using hab rfl)
  · intro hfirst
    simp only [hnone]
    rw [filter_append_filter]
    refine hfirst.imp fun {a b} hab ha => ?_
    rw [hab (by simpa using ha)]
    rfl

/-! ### The result -/

/-- The survivors with one address. -/
theorem filter_dedupeByIp (h : (ip, c) ∈ survivors candidates openVpnEnabled) :
    ((dedupeByIp candidates openVpnEnabled).filter fun c => addressOf c = some ip) = [c] := by
  have hkeyed : (survivors candidates openVpnEnabled).Keyed :=
    LinkedMap.Keyed.collect (show LinkedMap.Keyed [] from List.nodup_nil) candidates
  have hothers : ((candidates.filter fun c => addressOf c = none).filter
      fun c => addressOf c = some ip) = [] := by
    rw [List.filter_eq_nil_iff]
    intro d hd
    simp [of_decide_eq_true (List.mem_filter.mp hd).2]
  have hkey : ∀ e ∈ survivors candidates openVpnEnabled,
      decide (addressOf e.2 = some ip) = decide (e.1 = ip) := by
    intro e he
    simp only [(mem_survivors he).2.1, Option.some.injEq]
  rw [dedupeByIp_eq, List.filter_append, hothers, List.append_nil, List.filter_map]
  show ((survivors candidates openVpnEnabled).filter
    fun e => decide (addressOf e.2 = some ip)).map Prod.snd = [c]
  rw [List.filter_congr hkey, hkeyed.filter_key, (hkeyed.mem_iff).mp h]
  rfl

/-- An address that no candidate has is not in the result. -/
theorem filter_dedupeByIp_of_absent (h : ip ∉ candidates.filterMap addressOf) :
    ((dedupeByIp candidates openVpnEnabled).filter fun c => addressOf c = some ip) = [] := by
  rw [List.filter_eq_nil_iff]
  intro c hc
  rw [decide_eq_true_eq]
  intro haddress
  rw [dedupeByIp_eq, List.mem_append] at hc
  rcases hc with hc | hc
  · obtain ⟨e, he, rfl⟩ := List.mem_map.mp hc
    exact h (List.mem_filterMap.mpr ⟨e.2, (mem_survivors he).1, haddress⟩)
  · exact h (List.mem_filterMap.mpr ⟨c, (List.mem_filter.mp hc).1, haddress⟩)

/-- **One candidate for each address, in the order of the first occurrences**: exactly when those
    with an address come first among the first occurrences. -/
theorem dedupedByIp_iff (hnames : DistinctNames candidates) :
    DedupedByIp openVpnEnabled candidates ↔ AddressesFirst candidates := by
  constructor
  · exact fun h => (order_iff hnames).mp h.order
  · intro hfirst
    refine ⟨?_, ?_, ?_, ?_, (order_iff hnames).mpr hfirst⟩
    · intro c hc
      rw [dedupeByIp_eq, List.mem_append] at hc
      rcases hc with hc | hc
      · obtain ⟨e, he, rfl⟩ := List.mem_map.mp hc
        exact (mem_survivors he).1
      · exact (List.mem_filter.mp hc).1
    · intro ip hip
      obtain ⟨c, hc⟩ := exists_survivor openVpnEnabled hip
      exact ⟨c, filter_dedupeByIp hc⟩
    · have hnone : (((survivors candidates openVpnEnabled).map Prod.snd).filter
          fun c => addressOf c = none) = [] := by
        rw [List.filter_eq_nil_iff]
        intro c hc
        obtain ⟨e, he, rfl⟩ := List.mem_map.mp hc
        simp [(mem_survivors he).2.1]
      rw [dedupeByIp_eq, List.filter_append, hnone, List.nil_append, List.filter_filter]
      simp
    · intro candidates' hperm ip
      by_cases hip : ip ∈ candidates.filterMap addressOf
      · obtain ⟨c, hc⟩ := exists_survivor openVpnEnabled hip
        have hip' : ip ∈ candidates'.filterMap addressOf := (hperm.filterMap _).mem_iff.mpr hip
        obtain ⟨c', hc'⟩ := exists_survivor openVpnEnabled hip'
        rw [filter_dedupeByIp hc, filter_dedupeByIp hc', survivor_unique hnames hperm hc hc']
      · have hip' : ip ∉ candidates'.filterMap addressOf :=
          fun h => hip ((hperm.filterMap _).mem_iff.mp h)
        rw [filter_dedupeByIp_of_absent hip, filter_dedupeByIp_of_absent hip']

/-- A candidate with a name and an address. -/
def namedCandidate (hostname : Char) (ip : Option Char) : AutoModeCandidate :=
  { hostname := some (JavaString.ofChars [hostname]), ip := ip.map fun c => JavaString.ofChars [c],
    speed := 0, ping := 0, sessions := 0, score := 0 }

theorem dedupedByIp_iff_shared :
    DedupedByIp true [namedCandidate 'b' (some '1'), namedCandidate 'a' (some '1'),
        namedCandidate 'c' none] ↔
      AddressesFirst [namedCandidate 'b' (some '1'), namedCandidate 'a' (some '1'),
        namedCandidate 'c' none] :=
  dedupedByIp_iff (by decide)

/-- **A candidate without an address loses its place** to one with an address behind it. -/
theorem unaddressed_moved :
    DistinctNames [namedCandidate 'a' none, namedCandidate 'b' (some '1')] ∧
      dedupeByIp [namedCandidate 'a' none, namedCandidate 'b' (some '1')] true =
        [namedCandidate 'b' (some '1'), namedCandidate 'a' none] ∧
      ¬ DedupedByIp true [namedCandidate 'a' none, namedCandidate 'b' (some '1')] := by
  refine ⟨by decide, by decide, fun h => ?_⟩
  exact absurd h.order (by decide)

end SoftEther.AutoMode
