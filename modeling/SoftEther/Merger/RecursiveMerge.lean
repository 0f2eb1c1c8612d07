import SoftEther.Merger.Record

namespace SoftEther.Merger

open Lib
open SoftEther.Security (trim lowercase)

/-!
# The merge of two records (`VpnServerMerger.kt`)

`recursiveMerge` goes through the entries of the incoming record, map by map. The provenance of
both records decides between two scalars, and is itself merged where its entry stands: the entries
behind it are merged under the provenance of both.

* `sourcePriority`, `mergeScalar`, `mergeValue`, `mergeFields` — the functions of the source;
* `recordConflict`, `mergeConflict` — the two places that write conflicts;
* `recursiveMerge`, `mergeRecords` — two records, and a list of them by identity;
* `valueAt_mergeFields`, `filter_disagreements` — what a merge does at one path.
-/

/-! ### The functions of the source -/

/-- `Provenance.sourceGroup`: the mirrors are one group. -/
def sourceGroup (source : String) : String :=
  let name := lowercase (trim source)
  let number := name.toList.drop "mirror_".length
  if "mirror_".toList <+: name.toList ∧ number ≠ [] ∧ number.all Char.isDigit then "mirror"
  else name

/-- `sourcePriority`: a lower number is a higher authority. -/
def sourcePriority (source : String) : ℕ :=
  if sourceGroup source = "api" then 0
  else if sourceGroup source = "html" then 10
  else if sourceGroup source = "manual" then 30
  else 20

/-- The last name of a provenance list, `fallback` when it has none. -/
def lastSource (fallback : String) (sources : List String) : String :=
  (sources.filter (· ≠ "")).getLast?.getD fallback

/-- The arguments of a call of `recordConflict`. -/
structure Disagreement where
  field : Path
  oldValue : Value
  newValue : Value
  oldOwner : String
  newOwner : String

/-- The provenance of the record that is merged into, and of the incoming one. -/
structure Provenance where
  root : Path → List String
  incoming : Path → List String

/-- The scalar leaf: the value that stays and the conflict that is recorded. -/
def mergeScalar (p : Provenance) (path : Path) (oldValue : Option Value) (newValue : Scalar) :
    Option Value × Option Disagreement :=
  if isFalsyScalar newValue then (oldValue, none)
  else
    match oldValue with
    | none => (some (.scalar newValue), none)
    | some old =>
      if !truthy (some old) then (some (.scalar newValue), none)
      else if old = .scalar newValue then (some old, none)
      else
        let oldOwner := lastSource "previous" (p.root path)
        let newOwner := lastSource "incoming" (p.incoming path)
        (some (if sourcePriority newOwner < sourcePriority oldOwner then .scalar newValue else old),
          some ⟨path, old, .scalar newValue, oldOwner, newOwner⟩)

/-- The keys that a merge passes over. -/
def unmergedKeys : List String := ["sourceCount", "_owners", "schemaVersion"]

/-- `target[key] = value`, when there is one. -/
def putSome (fields : Fields) (key : String) (value : Option Value) : Fields :=
  match value with
  | none => fields
  | some v => fields.put key v

mutual

/-- One entry: what stands under its key afterwards, and the conflicts to record, in order. -/
def mergeValue (p : Provenance) (path : Path) (old : Option Value) :
    Value → Option Value × List Disagreement
  | .map incoming =>
    let merged := mergeFields p path (childMap old) incoming
    (some (.map merged.1), merged.2)
  | .list incoming =>
    if incoming.isEmpty then (old, [])
    else (some (.list (addMissing (childList old) incoming)), [])
  | .scalar incoming =>
    let merged := mergeScalar p path old incoming
    (merged.1, merged.2.toList)

/-- `recursiveMerge` on the entries of one map. -/
def mergeFields (p : Provenance) (path : Path) (target : Fields) :
    List (String × Value) → Fields × List Disagreement
  | [] => (target, [])
  | (key, value) :: rest =>
    if key ∈ unmergedKeys then mergeFields p path target rest
    else
      let entry := mergeValue p (path ++ [key]) (target.read key) value
      let merged := mergeFields p path (putSome target key entry.1) rest
      (merged.1, entry.2 ++ merged.2)

end

/-- `recordConflict`: nothing is added when an entry of the field already has both values. -/
def recordConflict (conflicts : List Conflict) (d : Disagreement) : List Conflict :=
  if ∃ existing ∈ conflicts, existing.field = d.field ∧
      existing.values.read d.oldOwner = some d.oldValue ∧
      existing.values.read d.newOwner = some d.newValue then conflicts
  else
    conflicts ++ [⟨d.field, LinkedMap.put [(d.oldOwner, d.oldValue)] d.newOwner d.newValue⟩]

/-- One entry of an incoming `conflicts` list: the first entry of its field takes its values. -/
def mergeConflict (conflicts : List Conflict) (item : Conflict) : List Conflict :=
  match conflicts with
  | [] => [item]
  | existing :: rest =>
    if existing.field = item.field then
      { existing with
        values := item.values.foldl (fun values e => values.put e.1 e.2) existing.values } :: rest
    else existing :: mergeConflict rest item

/-- The provenance of both, path by path. -/
def mergeFieldSources (target incoming : Path → List String) : Path → List String :=
  fun path => addMissing (target path) (incoming path)

/-- `recursiveMerge` of two records. -/
def recursiveMerge (target incoming : VpnServerRecord) : VpnServerRecord :=
  let (fields, early) :=
    mergeFields ⟨target.fieldSources, incoming.fieldSources⟩ [] target.fields incoming.fields
  let sources := incoming.sources.foldl VpnRecords.sourceAdd target.sources
  let fieldSources := mergeFieldSources target.fieldSources incoming.fieldSources
  let (trailing, late) :=
    mergeFields ⟨fieldSources, incoming.fieldSources⟩ [] target.trailing incoming.trailing
  { fields := fields
    sources := sources
    sourceCount := sources.length
    -- merged once more at the end of the root
    fieldSources := mergeFieldSources fieldSources incoming.fieldSources
    trailing := trailing
    conflicts := incoming.conflicts.foldl mergeConflict <|
      (early ++ late).foldl recordConflict target.conflicts }

/-- The identity of a record: its address, or else its host name. -/
def identityKey (record : VpnServerRecord) : Option String :=
  let ip := VpnRecords.str (record.fields.valueAt ["identity", "ip"])
  let host := normalizeHost (VpnRecords.str (record.fields.valueAt ["identity", "hostname"]))
  let key := if validIp ip then ip else host
  if key = "" then none else some key

/-- The `database` of `mergeRecords`. -/
def database (records : List VpnServerRecord) : LinkedMap String VpnServerRecord :=
  LinkedMap.collect identityKey recursiveMerge [] records

/-- `mergeRecords`. -/
def mergeRecords (records : List VpnServerRecord) : List VpnServerRecord :=
  (database records).map Prod.snd

/-- The records that are merged into one. -/
def recordsOf (key : String) (records : List VpnServerRecord) : List VpnServerRecord :=
  records.filter fun r => identityKey r = some key

/-! ### One path of a merge -/

variable {target incoming : Fields} {key : String} {p : Provenance} {path : Path}

theorem mergeFields_cons_of_mem (h : key ∈ unmergedKeys) (value : Value)
    (rest : List (String × Value)) :
    mergeFields p path target ((key, value) :: rest) = mergeFields p path target rest := by
  rw [mergeFields, if_pos h]

theorem mergeFields_cons_of_notMem (h : key ∉ unmergedKeys) (value : Value)
    (rest : List (String × Value)) : mergeFields p path target ((key, value) :: rest) =
      ((mergeFields p path (putSome target key
          (mergeValue p (path ++ [key]) (target.read key) value).1) rest).1,
        (mergeValue p (path ++ [key]) (target.read key) value).2 ++
          (mergeFields p path (putSome target key
            (mergeValue p (path ++ [key]) (target.read key) value).1) rest).2) := by
  rw [mergeFields, if_neg h]

theorem read_putSome_self (fields : Fields) (key : String) (value : Option Value) :
    (putSome fields key value).read key = value.or (fields.read key) := by
  cases value with
  | none => rfl
  | some v => exact LinkedMap.read_put_self _ _ _

theorem read_putSome_of_ne {key' : String} (h : key' ≠ key) (fields : Fields)
    (value : Option Value) : (putSome fields key' value).read key = fields.read key := by
  cases value with
  | none => rfl
  | some v => exact LinkedMap.read_put_of_ne h _ _

theorem keyed_putSome {fields : Fields} (h : fields.Keyed) (key : String) (value : Option Value) :
    (putSome fields key value).Keyed := by
  cases value with
  | none => exact h
  | some v => exact h.put _ _

theorem keyed_mergeFields (p : Provenance) (path : Path) (h : target.Keyed)
    (incoming : List (String × Value)) : (mergeFields p path target incoming).1.Keyed := by
  induction incoming generalizing target with
  | nil => rwa [mergeFields]
  | cons e rest ih =>
    obtain ⟨key, value⟩ := e
    by_cases hkey : key ∈ unmergedKeys
    · rw [mergeFields_cons_of_mem hkey]
      exact ih h
    · rw [mergeFields_cons_of_notMem hkey]
      exact ih (keyed_putSome h _ _)

/-- A value that was there stays, or another takes its place: a merge removes nothing. -/
theorem mergeValue_or (p : Provenance) (path : Path) (old : Option Value) (value : Value) :
    (mergeValue p path old value).1.or old = (mergeValue p path old value).1 := by
  cases value with
  | map incoming => rfl
  | list incoming =>
    rw [mergeValue]
    split_ifs
    · cases old <;> rfl
    · rfl
  | scalar incoming =>
    cases old with
    | none => simp
    | some old =>
      simp only [mergeValue, mergeScalar]
      split_ifs <;> rfl

theorem read_mergeFields_of_notMem {incoming : List (String × Value)}
    (h : key ∉ incoming.map Prod.fst) :
    (mergeFields p path target incoming).1.read key = target.read key := by
  induction incoming generalizing target with
  | nil => rw [mergeFields]
  | cons e rest ih =>
    obtain ⟨key', value⟩ := e
    obtain ⟨hne, hrest⟩ := List.ne_and_not_mem_of_not_mem_cons h
    by_cases hkey : key' ∈ unmergedKeys
    · rw [mergeFields_cons_of_mem hkey, ih hrest]
    · rw [mergeFields_cons_of_notMem hkey, ih hrest, read_putSome_of_ne (Ne.symm hne)]

/-- **One key of a merge.** -/
theorem read_mergeFields (p : Provenance) (path : Path) (target : Fields)
    (hincoming : incoming.Keyed) (hkey : key ∉ unmergedKeys) :
    (mergeFields p path target incoming).1.read key =
      match incoming.read key with
      | none => target.read key
      | some value => (mergeValue p (path ++ [key]) (target.read key) value).1 := by
  induction incoming generalizing target with
  | nil =>
    rw [mergeFields]
    rfl
  | cons e rest ih =>
    obtain ⟨key', value⟩ := e
    obtain ⟨hnew, hrest⟩ := List.nodup_cons.mp hincoming
    by_cases hsame : key' = key
    · subst hsame
      rw [mergeFields_cons_of_notMem hkey, read_mergeFields_of_notMem hnew, read_putSome_self,
        LinkedMap.read_cons_self, mergeValue_or]
    · rw [LinkedMap.read_cons_of_ne hsame]
      by_cases hskip : key' ∈ unmergedKeys
      · rw [mergeFields_cons_of_mem hskip, ih _ hrest]
      · rw [mergeFields_cons_of_notMem hskip, ih _ hrest, read_putSome_of_ne hsame]

/-- **One path of a merge**: the value that stands there afterwards is the merge of the two. -/
theorem valueAt_mergeFields (p : Provenance) {ks : Path} (hks : ∀ key ∈ ks, key ∉ unmergedKeys)
    (path : Path) (htarget : target.Walkable ks) (hincoming : incoming.Walkable ks) :
    Fields.Walkable (mergeFields p path target incoming).1 ks ∧
      Fields.valueAt (mergeFields p path target incoming).1 ks =
        match incoming.valueAt ks with
        | none => target.valueAt ks
        | some value => (mergeValue p (path ++ ks) (target.valueAt ks) value).1 := by
  induction ks generalizing path target incoming with
  | nil => exact htarget.elim
  | cons key rest ih =>
    have hkey := hks key List.mem_cons_self
    have hread := read_mergeFields p path target hincoming.keyed hkey
    cases rest with
    | nil => exact ⟨keyed_mergeFields p path htarget incoming, hread⟩
    | cons next rest =>
      have hkeyed := keyed_mergeFields p path htarget.keyed incoming
      rcases hincoming.2 with hnone | ⟨child, hchild, hwalk⟩
      · -- the incoming record has nothing below the key
        rw [hnone] at hread
        rw [Fields.valueAt, Fields.valueAt, Fields.valueAt, hread, hnone]
        refine ⟨⟨hkeyed, ?_⟩, rfl⟩
        rw [hread]
        exact htarget.2
      · have hbelow := ih (fun k hk => hks k (List.mem_cons_of_mem key hk)) (path ++ [key])
          htarget.child hwalk
        rw [hchild] at hread
        refine ⟨⟨hkeyed, Or.inr ⟨_, hread, hbelow.1⟩⟩, ?_⟩
        rw [Fields.valueAt, hread, htarget.valueAt_cons, hincoming.valueAt_cons, Fields.child,
          hchild]
        rw [List.append_assoc] at hbelow
        exact hbelow.2

/-- The conflict of a scalar is at its path. -/
theorem field_of_mergeScalar {old : Option Value} {value : Scalar} {d : Disagreement}
    (h : (mergeScalar p path old value).2 = some d) : d.field = path := by
  unfold mergeScalar at h
  split at h
  · simp at h
  · split at h
    · simp at h
    · split at h
      · simp at h
      · split at h
        · simp at h
        · rw [← Option.some.inj h]

mutual

/-- The conflicts of an entry are at its path or below. -/
theorem prefix_mergeValue (p : Provenance) (path : Path) (old : Option Value) :
    (value : Value) → ∀ d ∈ (mergeValue p path old value).2, path <+: d.field
  | .map incoming => by
    rw [mergeValue]
    exact prefix_mergeFields p path (childMap old) incoming
  | .list incoming => by
    rw [mergeValue]
    split_ifs <;> simp
  | .scalar incoming => by
    intro d hd
    rw [mergeValue, Option.mem_toList] at hd
    have hfield : d.field = path := field_of_mergeScalar hd
    simp [hfield]

theorem prefix_mergeFields (p : Provenance) (path : Path) (target : Fields) :
    (incoming : List (String × Value)) →
      ∀ d ∈ (mergeFields p path target incoming).2, path <+: d.field
  | [] => by simp [mergeFields]
  | (key, value) :: rest => by
    intro d hd
    by_cases hkey : key ∈ unmergedKeys
    · rw [mergeFields_cons_of_mem hkey] at hd
      exact prefix_mergeFields p path target rest d hd
    · rw [mergeFields_cons_of_notMem hkey, List.mem_append] at hd
      rcases hd with hentry | hrest
      · exact (List.prefix_append path [key]).trans (prefix_mergeValue p _ _ value d hentry)
      · exact prefix_mergeFields p path _ rest d hrest

end

/-- The conflicts below a key come from the entry of that key. -/
theorem filter_mergeFields (p : Provenance) (target : Fields) (hincoming : incoming.Keyed)
    (hkey : key ∉ unmergedKeys) {field : Path} (hfield : path ++ [key] <+: field) :
    (mergeFields p path target incoming).2.filter (·.field = field) =
      match incoming.read key with
      | none => []
      | some value =>
        (mergeValue p (path ++ [key]) (target.read key) value).2.filter (·.field = field) := by
  -- another key's conflicts are at paths that part from `field` at that key
  have hother : ∀ {key' : String} {old : Option Value} {value : Value}, key' ≠ key →
      (mergeValue p (path ++ [key']) old value).2.filter (·.field = field) = [] := by
    intro key' old value hne
    rw [List.filter_eq_nil_iff]
    intro d hd
    have hprefix := prefix_mergeValue p _ old value d hd
    rw [decide_eq_true_iff]
    rintro rfl
    have hsame := List.IsPrefix.eq_of_length (List.prefix_of_prefix_length_le hprefix hfield
      (by simp)) (by simp)
    exact hne (by simpa using hsame)
  have hrest : ∀ (rest : List (String × Value)) (target : Fields), key ∉ rest.map Prod.fst →
      (mergeFields p path target rest).2.filter (·.field = field) = [] := by
    intro rest
    induction rest with
    | nil => simp [mergeFields]
    | cons e rest ih =>
      obtain ⟨key', value⟩ := e
      intro target hmem
      obtain ⟨hne, hmem⟩ := List.ne_and_not_mem_of_not_mem_cons hmem
      by_cases hskip : key' ∈ unmergedKeys
      · rw [mergeFields_cons_of_mem hskip]
        exact ih _ hmem
      · rw [mergeFields_cons_of_notMem hskip, List.filter_append, hother (Ne.symm hne), ih _ hmem,
          List.append_nil]
  induction incoming generalizing target with
  | nil => simp [mergeFields]
  | cons e rest ih =>
    obtain ⟨key', value⟩ := e
    obtain ⟨hnew, hkeyed⟩ := List.nodup_cons.mp hincoming
    by_cases hsame : key' = key
    · subst hsame
      rw [mergeFields_cons_of_notMem hkey, List.filter_append, hrest rest _ hnew, List.append_nil,
        LinkedMap.read_cons_self]
    · rw [LinkedMap.read_cons_of_ne hsame]
      by_cases hskip : key' ∈ unmergedKeys
      · rw [mergeFields_cons_of_mem hskip, ih _ hkeyed]
      · rw [mergeFields_cons_of_notMem hskip, List.filter_append, hother hsame, List.nil_append,
          ih _ hkeyed, read_putSome_of_ne hsame]

/-- **The conflicts of one path**: those of the merge of the two values there. -/
theorem filter_disagreements (p : Provenance) {ks : Path} (hks : ∀ key ∈ ks, key ∉ unmergedKeys)
    (path : Path) (htarget : target.Walkable ks) (hincoming : incoming.Walkable ks) :
    (mergeFields p path target incoming).2.filter (·.field = path ++ ks) =
      match incoming.valueAt ks with
      | none => []
      | some value =>
        (mergeValue p (path ++ ks) (target.valueAt ks) value).2.filter (·.field = path ++ ks) := by
  induction ks generalizing path target incoming with
  | nil => exact htarget.elim
  | cons key rest ih =>
    have hkey := hks key List.mem_cons_self
    have hfilter := filter_mergeFields p target hincoming.keyed hkey
      (show path ++ [key] <+: path ++ key :: rest by simp)
    cases rest with
    | nil => exact hfilter
    | cons next rest =>
      rw [hfilter]
      rcases hincoming.2 with hnone | ⟨child, hchild, hwalk⟩
      · rw [hnone, Fields.valueAt, hnone]
      · have hbelow := ih (fun k hk => hks k (List.mem_cons_of_mem key hk)) (path ++ [key])
          htarget.child hwalk
        rw [List.append_assoc] at hbelow
        rw [htarget.valueAt_cons, hincoming.valueAt_cons, Fields.child, hchild]
        exact hbelow

/-- A record that has nothing under a top-level key brings no conflict there. -/
theorem filter_disagreements_of_none {rest : Path} (h : incoming.read key = none)
    (hkey : key ∉ unmergedKeys) (hincoming : incoming.Keyed) :
    (mergeFields p [] target incoming).2.filter (·.field = key :: rest) = [] := by
  rw [filter_mergeFields p target hincoming hkey (List.prefix_append [key] rest), h]

end SoftEther.Merger
