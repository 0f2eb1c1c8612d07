import SoftEther.Merger.NewServer

namespace SoftEther.Merger

open Lib

/-!
# Well-formed server records

All scalar leaves of a server record are there, hold what their last key says, and the remotes of
its profiles are a list. A new record is so, and writes and merges keep it.

* `fits`, `WellFormed` — what a leaf may hold, and the records whose leaves do;
* `WellFormed.put`, `get_put` — a write to a leaf, and what is read after it;
* `WellFormed.putConfigs`, `WellFormed.setField`, `WellFormed.recursiveMerge` — what parsers and
  merges do.
-/

/-- What a leaf may hold, by its last key. -/
def fits (path : Path) (value : Scalar) : Bool :=
  match path.getLast? with
  | some "port" =>
    match value with
    | .null | .int _ => true
    | _ => false
  | some "portSource" =>
    value ∈ [VpnPortSource.EXPLICIT, VpnPortSource.DEFAULT, VpnPortSource.UNKNOWN]
  | some "supported" =>
    match value with
    | .boolean _ => true
    | _ => false
  | some "hostname" =>
    match value with
    | .string _ => true
    | _ => false
  | _ => true

namespace VpnServerRecord

/-- **A well-formed server record.** -/
structure WellFormed (r : VpnServerRecord) : Prop where
  leaves : r.HasLeaves
  fits : ∀ l ∈ serverLeaves, fits l.path (r.claimAt l).value = true
  walkable : r.fields.Walkable configsPath
  list : ∃ items, r.fields.valueAt configsPath = some (.list items)

theorem wellFormed_newServer : newServer.WellFormed where
  leaves := hasLeaf_newServer
  fits := by decide
  walkable := by decide
  list := ⟨[], by decide⟩

/-- The remotes are at no leaf, and no leaf is below or above them. -/
theorem serverLeaves_apart_configs : ∀ l ∈ serverLeaves,
    (¬ configsPath <+: l.path ∧ ¬ l.path <+: configsPath) ∧ ∀ key ∈ l.path, key ∉ unmergedKeys := by
  decide

theorem leafOf_configsPath : (leafOf configsPath).late = false := by decide

variable {r : VpnServerRecord} {path : Path}

theorem configs_of_list {items : List Value}
    (h : r.fields.valueAt configsPath = some (.list items)) :
    r.configs = items := by
  rw [configs, h]
  rfl

/-- A write to a leaf leaves the remotes. -/
theorem WellFormed.configs_put (h : r.WellFormed) (hpath : leafOf path ∈ serverLeaves)
    (value : Scalar) :
    (r.put path value).fields.Walkable configsPath ∧
      (r.put path value).fields.valueAt configsPath = r.fields.valueAt configsPath := by
  obtain ⟨⟨hbelow, habove⟩, -⟩ := serverLeaves_apart_configs _ hpath
  have hwalk := (h.leaves _ hpath).walkable
  unfold VpnServerRecord.put written
  dsimp only
  rw [part] at hwalk ⊢
  cases hlate : (leafOf path).late with
  | true => exact ⟨h.walkable, rfl⟩
  | false =>
    rw [hlate] at hwalk
    exact h.walkable.putAt_of_ne hwalk habove hbelow _

/-- **A write of what fits keeps a record well-formed.** -/
theorem WellFormed.put (h : r.WellFormed) (hpath : leafOf path ∈ serverLeaves) {value : Scalar}
    (hvalue : Merger.fits path value = true) : (r.put path value).WellFormed := by
  obtain ⟨hleaves, hclaim⟩ := h.leaves.put hpath value
  obtain ⟨hwalk, hconfigs⟩ := h.configs_put hpath value
  refine ⟨hleaves, ?_, hwalk, hconfigs ▸ h.list⟩
  intro l hl
  rw [hclaim l hl]
  split_ifs with hsame
  · rw [hsame]
    exact hvalue
  · exact h.fits l hl

/-- **`setField` of what fits keeps a record well-formed.** -/
theorem WellFormed.setField (h : r.WellFormed) (hpath : leafOf path ∈ serverLeaves) {value : Scalar}
    (hvalue : Merger.fits path value = true) (source : String) :
    (setField r path value source).WellFormed := by
  obtain ⟨hleaves, hclaim⟩ := h.leaves.setField hpath value source
  have hconfigs : (Merger.setField r path value source).fields.Walkable configsPath ∧
      (Merger.setField r path value source).fields.valueAt configsPath =
        r.fields.valueAt configsPath := by
    unfold Merger.setField
    dsimp only
    split_ifs
    · exact ⟨h.walkable, rfl⟩
    · exact h.configs_put hpath value
    · exact ⟨h.walkable, rfl⟩
  refine ⟨hleaves, ?_, hconfigs.1, hconfigs.2 ▸ h.list⟩
  intro l hl
  rw [hclaim l hl]
  split_ifs with hsame
  · have hold := h.fits l hl
    rw [hsame] at hold ⊢
    rw [Claim.set]
    split_ifs
    · exact hold
    · exact hvalue
    · exact hold
  · exact h.fits l hl

/-- **New remotes keep a record well-formed.** -/
theorem WellFormed.putConfigs (h : r.WellFormed) (items : List Value) :
    (r.written (leafOf configsPath) (r.fields.putAt configsPath (.list items))).WellFormed ∧
      (r.written (leafOf configsPath) (r.fields.putAt configsPath (.list items))).configs =
        items := by
  have hpart : r.part (leafOf configsPath) = r.fields := by
    rw [part, leafOf_configsPath]
    rfl
  have hfields : (r.written (leafOf configsPath)
      (r.fields.putAt configsPath (.list items))).fields =
        r.fields.putAt configsPath (.list items) := by
    unfold written
    rw [leafOf_configsPath]
    rfl
  have hread : (r.fields.putAt configsPath (.list items)).valueAt configsPath =
      some (.list items) :=
    Fields.valueAt_putAt_self (by decide) _ _
  have hone : ∀ l ∈ serverLeaves,
      (r.written (leafOf configsPath) (r.fields.putAt configsPath (.list items))).HasLeaf l ∧
        (r.written (leafOf configsPath) (r.fields.putAt configsPath (.list items))).claimAt l =
          r.claimAt l := by
    intro l hl
    have hwalk : (r.part (leafOf configsPath)).Walkable configsPath := hpart ▸ h.walkable
    have hmerge := (h.leaves l hl).written_of_ne hwalk (serverLeaves_leafOf l hl)
      (serverLeaves_apart_configs l hl).1 (.list items)
    rw [hpart] at hmerge
    exact hmerge
  refine ⟨⟨fun l hl => (hone l hl).1, ?_, ?_, ⟨items, ?_⟩⟩, ?_⟩
  · intro l hl
    rw [(hone l hl).2]
    exact h.fits l hl
  · rw [hfields]
    exact h.walkable.putAt_self _
  · rw [hfields]
    exact hread
  · rw [configs, hfields, hread]
    rfl

/-- What stands is what some claim says. -/
theorem merge_value_mem (late : Bool) (old new : Claim) :
    (old.merge late new).value = new.value ∨ (old.merge late new).value = old.value := by
  by_cases h : old.Takes late new
  · exact Or.inl (Claim.merge_value_of_takes h)
  · exact Or.inr (Claim.merge_value_of_not h)

/-- **A merge keeps records well-formed**, and puts their remotes together. -/
theorem WellFormed.recursiveMerge {target incoming : VpnServerRecord} (htarget : target.WellFormed)
    (hincoming : incoming.WellFormed) :
    (recursiveMerge target incoming).WellFormed ∧
      (recursiveMerge target incoming).configs = addMissing target.configs incoming.configs := by
  obtain ⟨items, hitems⟩ := htarget.list
  obtain ⟨items', hitems'⟩ := hincoming.list
  have hplain : ∀ key ∈ configsPath, key ∉ unmergedKeys := by decide
  obtain ⟨hwalk, hvalue⟩ := valueAt_mergeFields
    ⟨target.fieldSources, incoming.fieldSources⟩ hplain [] htarget.walkable hincoming.walkable
  rw [hitems', hitems] at hvalue
  have hlist : Fields.valueAt (Merger.recursiveMerge target incoming).fields configsPath =
      some (.list (addMissing items items')) := by
    refine hvalue.trans ?_
    dsimp only
    rw [mergeValue]
    cases items' with
    | nil => rfl
    | cons item items' => rfl
  refine ⟨⟨fun l hl => ((htarget.leaves l hl).recursiveMerge (hincoming.leaves l hl)).1, ?_, hwalk,
    ⟨_, hlist⟩⟩, ?_⟩
  · intro l hl
    rw [((htarget.leaves l hl).recursiveMerge (hincoming.leaves l hl)).2]
    rcases merge_value_mem l.late (target.claimAt l) (incoming.claimAt l) with hnew | hold
    · rw [hnew]
      exact hincoming.fits l hl
    · rw [hold]
      exact htarget.fits l hl
  · rw [configs_of_list hlist, configs_of_list hitems, configs_of_list hitems']

/-! ### Reading the described fields -/

/-- The paths of the scalar leaves ahead of the provenance. -/
def fieldPaths : List Path := (serverLeaves.filter fun l => !l.late).map fun l => l.path

theorem fieldPaths_leaf : ∀ path ∈ fieldPaths, leafOf path ∈ serverLeaves ∧
    (leafOf path).late = false := by
  decide

theorem claimAt_value (r : VpnServerRecord) {l : Leaf} (h : l.late = false) :
    (r.claimAt l).value = r.get l.path := by
  rw [claimAt, part, h]
  rfl

theorem WellFormed.fits_get (h : r.WellFormed) (hpath : path ∈ fieldPaths) :
    Merger.fits path (r.get path) = true := by
  obtain ⟨hleaf, hlate⟩ := fieldPaths_leaf path hpath
  have hfits := h.fits _ hleaf
  rw [r.claimAt_value hlate] at hfits
  exact hfits

/-- What the leaves of a well-formed record hold. -/
theorem WellFormed.kinds (h : r.WellFormed) (hpath : path ∈ fieldPaths) :
    (path.getLast? = some "port" → r.get path = .null ∨ ∃ n, r.get path = .int n) ∧
      (path.getLast? = some "portSource" → r.get path = VpnPortSource.EXPLICIT ∨
        r.get path = VpnPortSource.DEFAULT ∨ r.get path = VpnPortSource.UNKNOWN) ∧
      (path.getLast? = some "supported" → ∃ b, r.get path = .boolean b) ∧
      (path.getLast? = some "hostname" → ∃ s, r.get path = .string s) := by
  have hfits := h.fits_get hpath
  unfold Merger.fits at hfits
  refine ⟨?_, ?_, ?_, ?_⟩ <;>
  · intro hlast
    rw [hlast] at hfits
    revert hfits
    cases r.get path <;> simp

/-- **What is read after a write.** -/
theorem WellFormed.get_put (h : r.WellFormed) (hpath : path ∈ fieldPaths) {path' : Path}
    (hpath' : path' ∈ fieldPaths) (value : Scalar) :
    (r.put path value).get path' = if path' = path then value else r.get path' := by
  obtain ⟨hleaf, -⟩ := fieldPaths_leaf path hpath
  obtain ⟨hleaf', hlate⟩ := fieldPaths_leaf path' hpath'
  have hclaim := (h.leaves.put hleaf value).2 _ hleaf'
  have hget : ∀ r : VpnServerRecord, (r.claimAt (leafOf path')).value = r.get path' :=
    fun r => r.claimAt_value hlate
  rw [← hget, ← hget, hclaim]
  by_cases hsame : path' = path
  · rw [if_pos (show (leafOf path').path = path from hsame), if_pos hsame]
  · rw [if_neg (show (leafOf path').path ≠ path from hsame), if_neg hsame]

end VpnServerRecord

end SoftEther.Merger
