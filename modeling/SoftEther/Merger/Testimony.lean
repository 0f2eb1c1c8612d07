import SoftEther.Merger.Claims

namespace SoftEther.Merger

open Lib

/-!
# The conflict entries of one leaf

A merge records a disagreement at a leaf as an entry of the field of that leaf, and takes over the
entries that the newcomer brings for it. No other field plays a part, so what a merge does to the
entries of a leaf is a function of what both records testify there: their claim and their entries.

* `recordEntry`, `mergeEntry` — `recordConflict` and `mergeConflict` on the entries of one field;
* `Testimony`, `Testimony.merge` — a claim with its entries, and two of them together;
* `testimonyAt_recursiveMerge` — the merge of records is the merge of their testimonies;
* `exists_mem_foldl_mergeEntry`, `mem_of_mem_foldl_mergeEntry` — what becomes of the entries.
-/

/-- The values that an entry names, by source. -/
abbrev Entry := LinkedMap String Value

/-- The entry has both values, each under its source. -/
def Shows (e : Entry) (d : Disagreement) : Prop :=
  e.read d.oldOwner = some d.oldValue ∧ e.read d.newOwner = some d.newValue

instance (e : Entry) (d : Disagreement) : Decidable (Shows e d) := by
  unfold Shows
  infer_instance

/-- `recordConflict`, on the entries of its field. -/
def recordEntry (entries : List Entry) (d : Disagreement) : List Entry :=
  if ∃ e ∈ entries, Shows e d then entries
  else entries ++ [LinkedMap.put [(d.oldOwner, d.oldValue)] d.newOwner d.newValue]

/-- `mergeConflict`, on the entries of its field. -/
def mergeEntry (entries : List Entry) (values : Entry) : List Entry :=
  match entries with
  | [] => [values]
  | e :: rest => e.putAll values :: rest

/-- The entries that a list of conflicts has for a field. -/
def entriesOf (path : Path) (conflicts : List Conflict) : List Entry :=
  (conflicts.filter (·.field = path)).map (·.values)

/-- The source that a merge takes what stands to be from: the one that was named last. -/
def Claim.oldOwner (l : Leaf) (old new : Claim) : String :=
  lastSource "previous" (old.known l.late new)

/-- The disagreement that a merge records at a leaf. -/
def Claim.disagreement (l : Leaf) (old new : Claim) : Option Disagreement :=
  if isFalsyScalar new.value = false ∧ isFalsyScalar old.value = false ∧ old.value ≠ new.value then
    some ⟨l.path, .scalar old.value, .scalar new.value, old.oldOwner l new, new.source⟩
  else none

/-- What a record testifies at a leaf. -/
structure Testimony where
  claim : Claim
  entries : List Entry

namespace Testimony

/-- The entries after the disagreement of a merge is recorded. -/
def recorded (l : Leaf) (old new : Testimony) : List Entry :=
  (old.claim.disagreement l new.claim).elim old.entries (recordEntry old.entries)

/-- What two testify together. -/
def merge (l : Leaf) (old new : Testimony) : Testimony where
  claim := old.claim.merge l.late new.claim
  entries := new.entries.foldl mergeEntry (old.recorded l new)

end Testimony

/-- What a record testifies at a leaf. -/
def VpnServerRecord.testimonyAt (r : VpnServerRecord) (l : Leaf) : Testimony where
  claim := r.claimAt l
  entries := entriesOf l.path r.conflicts

/-! ### The merge of records is the merge of their testimonies -/

theorem entriesOf_recordConflict (path : Path) (conflicts : List Conflict) (d : Disagreement) :
    entriesOf path (recordConflict conflicts d) =
      if d.field = path then recordEntry (entriesOf path conflicts) d
      else entriesOf path conflicts := by
  have hexists : d.field = path → ((∃ existing ∈ conflicts, existing.field = d.field ∧
      existing.values.read d.oldOwner = some d.oldValue ∧
      existing.values.read d.newOwner = some d.newValue) ↔
        ∃ e ∈ entriesOf path conflicts, Shows e d) := by
    rintro rfl
    simp [entriesOf, Shows, and_assoc]
  by_cases hpath : d.field = path
  · rw [if_pos hpath, recordEntry, recordConflict]
    by_cases hfound : ∃ e ∈ entriesOf path conflicts, Shows e d
    · rw [if_pos hfound, if_pos ((hexists hpath).mpr hfound)]
    · rw [if_neg hfound, if_neg (mt (hexists hpath).mp hfound)]
      simp [entriesOf, hpath]
  · rw [if_neg hpath, recordConflict]
    split_ifs
    · rfl
    · simp [entriesOf, hpath]

theorem entriesOf_mergeConflict (path : Path) (conflicts : List Conflict) (item : Conflict) :
    entriesOf path (mergeConflict conflicts item) =
      if item.field = path then mergeEntry (entriesOf path conflicts) item.values
      else entriesOf path conflicts := by
  induction conflicts with
  | nil =>
    by_cases hpath : item.field = path
    · simp [mergeConflict, entriesOf, mergeEntry, hpath]
    · simp [mergeConflict, entriesOf, hpath]
  | cons existing rest ih =>
    rw [mergeConflict]
    by_cases hsame : existing.field = item.field
    · rw [if_pos hsame]
      by_cases hpath : item.field = path
      · simp [entriesOf, hsame, hpath, mergeEntry, LinkedMap.putAll]
      · simp [entriesOf, hsame, hpath]
    · rw [if_neg hsame]
      by_cases hexisting : existing.field = path
      · have hitem : item.field ≠ path := fun h => hsame (hexisting.trans h.symm)
        rw [if_neg hitem] at ih ⊢
        simpa [entriesOf, hexisting] using ih
      · have hcons : entriesOf path (existing :: rest) = entriesOf path rest := by
          simp [entriesOf, hexisting]
        rw [hcons, ← ih]
        simp [entriesOf, hexisting]

/-- Only the disagreements and the entries of a field change its entries. -/
theorem entriesOf_foldl (path : Path) (conflicts items : List Conflict) (ds : List Disagreement) :
    entriesOf path (items.foldl mergeConflict (ds.foldl recordConflict conflicts)) =
      (entriesOf path items).foldl mergeEntry
        ((ds.filter (·.field = path)).foldl recordEntry (entriesOf path conflicts)) := by
  have hrecord : entriesOf path (ds.foldl recordConflict conflicts) =
      (ds.filter (·.field = path)).foldl recordEntry (entriesOf path conflicts) := by
    induction ds generalizing conflicts with
    | nil => rfl
    | cons d ds ih =>
      rw [List.foldl_cons, ih, entriesOf_recordConflict]
      by_cases hpath : d.field = path
      · simp [hpath]
      · simp [hpath]
  rw [← hrecord]
  generalize ds.foldl recordConflict conflicts = before
  induction items generalizing before with
  | nil => rfl
  | cons item items ih =>
    rw [List.foldl_cons, ih, entriesOf_mergeConflict]
    by_cases hpath : item.field = path
    · simp [entriesOf, hpath]
    · simp [entriesOf, hpath]

/-- The disagreement of two scalars is that of their claims. -/
theorem mergeScalar_disagreement {p : Provenance} {l : Leaf} {old : Option Value} {new : Scalar}
    (hscalar : ∀ v, old = some v → ∃ s, v = .scalar s) {oldClaim newClaim : Claim}
    (hold : oldClaim.value = scalarOf old) (hnew : newClaim.value = new)
    (hroot : oldClaim.known l.late newClaim = p.root l.path)
    (howners : newClaim.owners = p.incoming l.path) :
    (mergeScalar p l.path old new).2 = oldClaim.disagreement l newClaim := by
  rw [Claim.disagreement, Claim.oldOwner, Claim.source, hold, hnew, hroot, howners]
  cases hfalsy : isFalsyScalar new with
  | true => simp [mergeScalar, hfalsy]
  | false =>
    cases old with
    | none => simp [mergeScalar, hfalsy]
    | some v =>
      obtain ⟨s, rfl⟩ := hscalar v rfl
      cases hgap : isFalsyScalar s with
      | true => simp [mergeScalar, hfalsy, hgap]
      | false =>
        by_cases hsame : s = new
        · simp [mergeScalar, hfalsy, hsame]
        · simp [mergeScalar, hfalsy, hgap, hsame]

/-- The disagreements of one part of a record at a leaf. -/
theorem filter_disagreements_claim {p : Provenance} {l : Leaf}
    (hpath : ∀ key ∈ l.path, key ∉ unmergedKeys) {target incoming : Fields}
    (htarget : target.Walkable l.path) (hincoming : incoming.Walkable l.path)
    (hscalar : ∀ v, target.valueAt l.path = some v → ∃ s, v = .scalar s)
    (hscalar' : ∀ v, incoming.valueAt l.path = some v → ∃ s, v = .scalar s)
    {old new : Claim} (hold : old.value = scalarOf (target.valueAt l.path))
    (hnew : new.value = scalarOf (incoming.valueAt l.path))
    (hroot : old.known l.late new = p.root l.path) (howners : new.owners = p.incoming l.path) :
    (mergeFields p [] target incoming).2.filter (·.field = l.path) =
      (old.disagreement l new).toList := by
  have hfilter := filter_disagreements p hpath [] htarget hincoming
  rw [List.nil_append] at hfilter
  rw [hfilter]
  cases hfound : incoming.valueAt l.path with
  | none =>
    rw [hfound] at hnew
    simp [Claim.disagreement, hnew]
  | some v =>
    obtain ⟨s, rfl⟩ := hscalar' v hfound
    rw [hfound, scalarOf_scalar] at hnew
    dsimp only
    rw [mergeValue, List.filter_eq_self.mpr,
      mergeScalar_disagreement hscalar hold hnew hroot howners]
    intro d hd
    rw [decide_eq_true_iff]
    exact field_of_mergeScalar (Option.mem_toList.mp hd)

namespace VpnServerRecord

variable {target incoming : VpnServerRecord} {l : Leaf}

/-- The disagreements of a merge, in the order in which they are recorded. -/
def disagreements (target incoming : VpnServerRecord) : List Disagreement :=
  (mergeFields ⟨target.fieldSources, incoming.fieldSources⟩ [] target.fields incoming.fields).2 ++
    (mergeFields ⟨mergeFieldSources target.fieldSources incoming.fieldSources,
      incoming.fieldSources⟩ [] target.trailing incoming.trailing).2

theorem conflicts_recursiveMerge (target incoming : VpnServerRecord) :
    (Merger.recursiveMerge target incoming).conflicts =
      incoming.conflicts.foldl mergeConflict
        ((target.disagreements incoming).foldl recordConflict target.conflicts) := rfl

/-- At a leaf the claims disagree, and nothing else does. -/
theorem HasLeaf.filter_disagreements (htarget : target.HasLeaf l) (hincoming : incoming.HasLeaf l) :
    (target.disagreements incoming).filter (·.field = l.path) =
      ((target.claimAt l).disagreement l (incoming.claimAt l)).toList := by
  obtain ⟨key, rest, hpath⟩ : ∃ key rest, l.path = key :: rest := by
    cases hl : l.path with
    | nil =>
      have hwalk := htarget.walkable
      rw [hl] at hwalk
      exact hwalk.elim
    | cons key rest => exact ⟨key, rest, rfl⟩
  have hplain : key ∉ unmergedKeys := htarget.merged key (by simp [hpath])
  have halone : (incoming.otherPart l).read key = none := hincoming.alone key (by simp [hpath])
  -- the part of the leaf
  have hpart : ∀ p : Provenance,
      (target.claimAt l).known l.late (incoming.claimAt l) = p.root l.path →
      (incoming.claimAt l).owners = p.incoming l.path →
      (mergeFields p [] (target.part l) (incoming.part l)).2.filter (·.field = l.path) =
        ((target.claimAt l).disagreement l (incoming.claimAt l)).toList := fun p hroot howners =>
    filter_disagreements_claim htarget.merged htarget.walkable hincoming.walkable htarget.scalar
      hincoming.scalar rfl rfl hroot howners
  -- the other part has nothing there
  have hother : ∀ p : Provenance, (mergeFields p [] (target.otherPart l)
      (incoming.otherPart l)).2.filter (·.field = l.path) = [] := by
    intro p
    rw [hpath]
    exact filter_disagreements_of_none halone hplain hincoming.keyed
  rw [disagreements, List.filter_append]
  cases hlate : l.late with
  | false =>
    simp only [part, otherPart, hlate, Bool.false_eq_true, if_false] at hpart hother
    rw [hpart _ rfl rfl, hother, List.append_nil]
  | true =>
    simp only [part, otherPart, hlate, if_true] at hpart hother
    rw [hpart _ rfl rfl, hother, List.nil_append]

/-- **The merge of records is the merge of their testimonies.** -/
theorem HasLeaf.testimonyAt_recursiveMerge (htarget : target.HasLeaf l)
    (hincoming : incoming.HasLeaf l) :
    (Merger.recursiveMerge target incoming).testimonyAt l =
      (target.testimonyAt l).merge l (incoming.testimonyAt l) := by
  have hentries : entriesOf l.path (Merger.recursiveMerge target incoming).conflicts =
      ((target.testimonyAt l).merge l (incoming.testimonyAt l)).entries := by
    rw [conflicts_recursiveMerge, entriesOf_foldl, htarget.filter_disagreements hincoming,
      Testimony.merge, Testimony.recorded, testimonyAt, testimonyAt]
    cases (target.claimAt l).disagreement l (incoming.claimAt l) <;> rfl
  rw [testimonyAt, hentries, (htarget.recursiveMerge hincoming).2]
  rfl

end VpnServerRecord

/-! ### What becomes of the entries -/

/-- **Where the entries that are brought agree with the first one, no entry loses a value.** -/
theorem exists_mem_foldl_mergeEntry {entries items : List Entry}
    (h : LinkedMap.Functional (entries.head?.toList ++ items).flatten) {e : Entry}
    (he : e ∈ entries) :
    ∃ e' ∈ items.foldl mergeEntry entries, (∀ p ∈ e, p ∈ e') ∧
      ∀ s v, e.read s = some v → e'.read s = some v := by
  induction items generalizing entries e with
  | nil => exact ⟨e, he, fun p hp => hp, fun s v hread => hread⟩
  | cons item items ih =>
    cases entries with
    | nil => simp at he
    | cons a rest =>
      have hhead : LinkedMap.Functional (a ++ item) := h.mono fun p hp => by
        rcases List.mem_append.mp hp with hp | hp <;> simp [hp]
      have hrest : LinkedMap.Functional
          ((mergeEntry (a :: rest) item).head?.toList ++ items).flatten := by
        apply h.mono
        intro p hp
        rw [mergeEntry, List.head?_cons, Option.toList_some, List.singleton_append,
          List.flatten_cons, List.mem_append] at hp
        rcases hp with hput | hitems
        · rcases LinkedMap.mem_of_mem_putAll hput with hp | hp <;> simp [hp]
        · have hitems' : ∃ e ∈ items, p ∈ e := List.mem_flatten.mp hitems
          simp [hitems']
      rcases List.mem_cons.mp he with rfl | he
      · obtain ⟨e', he', hsub, hread⟩ := ih hrest (List.mem_cons_self)
        refine ⟨e', he', ?_, ?_⟩
        · exact fun p hp => hsub p (LinkedMap.mem_putAll hhead (Or.inl hp))
        · exact fun s v hv => hread s v (LinkedMap.read_putAll hhead hv)
      · exact ih hrest (List.mem_cons_of_mem _ he)

/-- What an entry has was there or was brought. -/
theorem mem_of_mem_foldl_mergeEntry {entries items : List Entry} {e : Entry}
    (he : e ∈ items.foldl mergeEntry entries) {p : String × Value} (hp : p ∈ e) :
    (∃ a ∈ entries, p ∈ a) ∨ ∃ a ∈ items, p ∈ a := by
  induction items generalizing entries with
  | nil => exact Or.inl ⟨e, he, hp⟩
  | cons item items ih =>
    rcases ih he with ⟨a, ha, hpa⟩ | ⟨a, ha, hpa⟩
    · cases entries with
      | nil =>
        obtain rfl : a = item := by simpa [mergeEntry] using ha
        exact Or.inr ⟨a, List.mem_cons_self, hpa⟩
      | cons b rest =>
        rcases List.mem_cons.mp ha with rfl | ha
        · rcases LinkedMap.mem_of_mem_putAll hpa with hpb | hpi
          · exact Or.inl ⟨b, List.mem_cons_self, hpb⟩
          · exact Or.inr ⟨item, List.mem_cons_self, hpi⟩
        · exact Or.inl ⟨a, List.mem_cons_of_mem _ ha, hpa⟩
    · exact Or.inr ⟨a, List.mem_cons_of_mem _ ha, hpa⟩

/-- Entries that are brought make a new one only where there is none. -/
theorem length_foldl_mergeEntry (entries items : List Entry) :
    (items.foldl mergeEntry entries).length =
      if entries = [] ∧ items ≠ [] then 1 else entries.length := by
  induction items generalizing entries with
  | nil => simp
  | cons item items ih =>
    rw [List.foldl_cons, ih]
    cases entries with
    | nil => simp [mergeEntry]
    | cons a rest => simp [mergeEntry]

end SoftEther.Merger
