import SoftEther.Lib.Succession
import SoftEther.Merger.RecursiveMerge

namespace SoftEther.Merger

open Lib

/-!
# One leaf of a merge

What a record says at a scalar leaf is its value and the sources it names for it: a claim. A merge
of records merges their claims, leaf by leaf, so what stands at a leaf in the end depends on the
claims alone and on their order.

* `Leaf`, `HasLeaf` — a place of a scalar, and the records that have it;
* `Claim`, `Claim.merge` — what a record says there, and what two say together;
* `HasLeaf.recursiveMerge` — the merge of records is the merge of their claims;
* `TakesOver`, `standing_value` — the value that stands in the end is that of the last claim that
  took over;
* `Keeps`, `keeps_iff` — a value stands when a claim with it takes over and no later claim with
  another value outranks the source that is named last.
-/

/-- A scalar leaf: its path, and whether it stands behind the provenance. -/
structure Leaf where
  path : Path
  late : Bool
  deriving DecidableEq

/-- The scalar of an entry; an entry that is missing counts as `null`. -/
def scalarOf : Option Value → Scalar
  | some (.scalar s) => s
  | _ => .null

@[simp] theorem scalarOf_none : scalarOf none = .null := rfl

@[simp] theorem scalarOf_scalar (s : Scalar) : scalarOf (some (.scalar s)) = s := rfl

@[simp] theorem isFalsyScalar_null : isFalsyScalar .null = true := rfl

@[simp] theorem truthy_scalar (s : Scalar) : truthy (some (.scalar s)) = !isFalsyScalar s := rfl

namespace VpnServerRecord

/-- The part of a record that a leaf is in. -/
def part (r : VpnServerRecord) (l : Leaf) : Fields := if l.late then r.trailing else r.fields

/-- The other part. -/
def otherPart (r : VpnServerRecord) (l : Leaf) : Fields := if l.late then r.fields else r.trailing

/-- **The record has a scalar or nothing at the leaf**: the path leads through maps, a merge does
    not pass over it, and it does not begin in the other part of the record. -/
structure HasLeaf (r : VpnServerRecord) (l : Leaf) : Prop where
  merged : ∀ key ∈ l.path, key ∉ unmergedKeys
  walkable : (r.part l).Walkable l.path
  scalar : ∀ v, (r.part l).valueAt l.path = some v → ∃ s, v = .scalar s
  keyed : (r.otherPart l).Keyed
  alone : ∀ key ∈ l.path.head?, (r.otherPart l).read key = none

instance (r : VpnServerRecord) (l : Leaf) : Decidable (r.HasLeaf l) :=
  have : Decidable (∀ v, (r.part l).valueAt l.path = some v → ∃ s, v = .scalar s) :=
    match h : (r.part l).valueAt l.path with
    | none => isTrue (by simp)
    | some (.scalar s) => isTrue (by simp)
    | some (.list _) => isFalse (by simp)
    | some (.map _) => isFalse (by simp)
  decidable_of_iff
    ((∀ key ∈ l.path, key ∉ unmergedKeys) ∧ (r.part l).Walkable l.path ∧
      (∀ v, (r.part l).valueAt l.path = some v → ∃ s, v = .scalar s) ∧ (r.otherPart l).Keyed ∧
        ∀ key ∈ l.path.head?, (r.otherPart l).read key = none)
    ⟨fun ⟨h₁, h₂, h₃, h₄, h₅⟩ => ⟨h₁, h₂, h₃, h₄, h₅⟩,
      fun ⟨h₁, h₂, h₃, h₄, h₅⟩ => ⟨h₁, h₂, h₃, h₄, h₅⟩⟩

end VpnServerRecord

/-- What a record says at a leaf. -/
@[ext] structure Claim where
  value : Scalar
  owners : List String

namespace VpnServerRecord

/-- What the record says at a leaf. -/
def claimAt (r : VpnServerRecord) (l : Leaf) : Claim where
  value := scalarOf ((r.part l).valueAt l.path)
  owners := r.fieldSources l.path

end VpnServerRecord

namespace Claim

/-- The source of a newcomer: the one that it names last. -/
def source (c : Claim) : String := lastSource "incoming" c.owners

/-- The sources known for what stands: behind the provenance those of the newcomer are known
    already. -/
def known (late : Bool) (old new : Claim) : List String :=
  if late then addMissing old.owners new.owners else old.owners

/-- The newcomer fills a gap, or its source has the higher authority. -/
def Takes (late : Bool) (old new : Claim) : Prop :=
  isFalsyScalar new.value = false ∧
    (isFalsyScalar old.value = true ∨
      sourcePriority new.source < sourcePriority (lastSource "previous" (old.known late new)))

instance (late : Bool) (old new : Claim) : Decidable (old.Takes late new) := by
  unfold Takes
  infer_instance

/-- What two claims say together. -/
def merge (late : Bool) (old new : Claim) : Claim where
  value := if old.Takes late new then new.value else old.value
  owners := addMissing old.owners new.owners

variable {late : Bool} {old new : Claim}

theorem merge_value_of_takes (h : old.Takes late new) : (old.merge late new).value = new.value :=
  if_pos h

theorem merge_value_of_not (h : ¬ old.Takes late new) : (old.merge late new).value = old.value :=
  if_neg h

@[simp] theorem merge_owners :
    (old.merge late new).owners = addMissing old.owners new.owners := rfl

end Claim

/-! ### The merge of records is the merge of their claims -/

/-- The scalar that a merge leaves, under the provenance `p`. -/
theorem scalarOf_mergeScalar {p : Provenance} {path : Path} {old : Option Value} {new : Scalar}
    (hscalar : ∀ v, old = some v → ∃ s, v = .scalar s) {takes : Prop}
    (htakes : takes ↔ isFalsyScalar new = false ∧ (isFalsyScalar (scalarOf old) = true ∨
      sourcePriority (lastSource "incoming" (p.incoming path)) <
        sourcePriority (lastSource "previous" (p.root path)))) :
    (takes → scalarOf (mergeScalar p path old new).1 = new) ∧
      (¬ takes → scalarOf (mergeScalar p path old new).1 = scalarOf old) ∧
      ∀ v, (mergeScalar p path old new).1 = some v → ∃ s, v = .scalar s := by
  rw [htakes]
  cases hnew : isFalsyScalar new with
  | true => simpa [mergeScalar, hnew] using hscalar
  | false =>
    cases old with
    | none => simp [mergeScalar, hnew]
    | some v =>
      obtain ⟨s, rfl⟩ := hscalar v rfl
      cases hold : isFalsyScalar s with
      | true => simp [mergeScalar, hnew, hold]
      | false =>
        by_cases hsame : s = new
        · simp [mergeScalar, hnew, hsame]
        · by_cases hrank : sourcePriority (lastSource "incoming" (p.incoming path)) <
            sourcePriority (lastSource "previous" (p.root path))
          · simp [mergeScalar, hnew, hold, hsame, hrank]
          · simp [mergeScalar, hnew, hold, hsame, hrank]

/-- The value that a merge leaves in one part of a record. -/
theorem mergeFields_claim {p : Provenance} {path : Path} (hpath : ∀ key ∈ path, key ∉ unmergedKeys)
    {target incoming : Fields} (htarget : target.Walkable path) (hincoming : incoming.Walkable path)
    (hscalar : ∀ v, target.valueAt path = some v → ∃ s, v = .scalar s)
    (hscalar' : ∀ v, incoming.valueAt path = some v → ∃ s, v = .scalar s)
    {late : Bool} {old new : Claim} (hold : old.value = scalarOf (target.valueAt path))
    (hnew : new.value = scalarOf (incoming.valueAt path)) (hroot : old.known late new = p.root path)
    (howners : new.owners = p.incoming path) :
    Fields.Walkable (mergeFields p [] target incoming).1 path ∧
      (∀ v, Fields.valueAt (mergeFields p [] target incoming).1 path = some v →
        ∃ s, v = .scalar s) ∧
      scalarOf (Fields.valueAt (mergeFields p [] target incoming).1 path) =
        (old.merge late new).value := by
  obtain ⟨hwalk, hvalue⟩ := valueAt_mergeFields p hpath [] htarget hincoming
  rw [List.nil_append] at hvalue
  refine ⟨hwalk, ?_⟩
  rw [hvalue]
  cases hfound : incoming.valueAt path with
  | none =>
    refine ⟨hscalar, ?_⟩
    rw [Claim.merge_value_of_not, hold]
    simp [Claim.Takes, hnew, hfound]
  | some v =>
    obtain ⟨s, rfl⟩ := hscalar' v hfound
    rw [hfound, scalarOf_scalar] at hnew
    have htakes : old.Takes late new ↔
        isFalsyScalar s = false ∧ (isFalsyScalar (scalarOf (target.valueAt path)) = true ∨
          sourcePriority (lastSource "incoming" (p.incoming path)) <
            sourcePriority (lastSource "previous" (p.root path))) := by
      rw [Claim.Takes, Claim.source, hold, hnew, hroot, howners]
    obtain ⟨hnew', hold', hkind⟩ := scalarOf_mergeScalar hscalar htakes
    refine ⟨hkind, ?_⟩
    by_cases h : old.Takes late new
    · rw [Claim.merge_value_of_takes h, hnew]
      exact hnew' h
    · rw [Claim.merge_value_of_not h, hold]
      exact hold' h

namespace VpnServerRecord

variable {target incoming : VpnServerRecord} {l : Leaf}

/-- The parts of a merged record. -/
theorem part_recursiveMerge (target incoming : VpnServerRecord) (l : Leaf) :
    (recursiveMerge target incoming).part l =
      (mergeFields ⟨if l.late then
          mergeFieldSources target.fieldSources incoming.fieldSources else target.fieldSources,
        incoming.fieldSources⟩ [] (target.part l) (incoming.part l)).1 := by
  unfold part recursiveMerge
  cases l.late <;> rfl

theorem otherPart_recursiveMerge (target incoming : VpnServerRecord) (l : Leaf) :
    (recursiveMerge target incoming).otherPart l =
      (mergeFields ⟨if l.late then target.fieldSources else
          mergeFieldSources target.fieldSources incoming.fieldSources,
        incoming.fieldSources⟩ [] (target.otherPart l) (incoming.otherPart l)).1 := by
  unfold otherPart recursiveMerge
  cases l.late <;> rfl

@[simp] theorem fieldSources_recursiveMerge (target incoming : VpnServerRecord) (path : Path) :
    (recursiveMerge target incoming).fieldSources path =
      addMissing (target.fieldSources path) (incoming.fieldSources path) :=
  addMissing_self _ _

/-- **The merge of records is the merge of their claims**, and the leaf stays one. -/
theorem HasLeaf.recursiveMerge (htarget : target.HasLeaf l) (hincoming : incoming.HasLeaf l) :
    (recursiveMerge target incoming).HasLeaf l ∧
      (recursiveMerge target incoming).claimAt l =
        (target.claimAt l).merge l.late (incoming.claimAt l) := by
  have hknown : (target.claimAt l).known l.late (incoming.claimAt l) = (if l.late then
      mergeFieldSources target.fieldSources incoming.fieldSources else target.fieldSources)
        l.path := by
    unfold Claim.known claimAt
    cases l.late <;> rfl
  obtain ⟨hwalk, hscalar, hvalue⟩ := mergeFields_claim (p := ⟨if l.late then
      mergeFieldSources target.fieldSources incoming.fieldSources else target.fieldSources,
    incoming.fieldSources⟩) htarget.merged htarget.walkable hincoming.walkable htarget.scalar
    hincoming.scalar
    (show (target.claimAt l).value = _ from rfl) (show (incoming.claimAt l).value = _ from rfl)
    hknown rfl
  rw [← part_recursiveMerge] at hwalk hscalar hvalue
  refine ⟨⟨htarget.merged, hwalk, hscalar, ?_, ?_⟩, Claim.ext hvalue ?_⟩
  · rw [otherPart_recursiveMerge]
    exact keyed_mergeFields _ [] htarget.keyed _
  · intro key hkey
    rw [otherPart_recursiveMerge]
    have hplain : key ∉ unmergedKeys := htarget.merged key (List.mem_of_mem_head? hkey)
    rw [read_mergeFields _ [] _ hincoming.keyed hplain, hincoming.alone key hkey]
    exact htarget.alone key hkey
  · exact fieldSources_recursiveMerge target incoming l.path

end VpnServerRecord

/-! ### What stands in the end -/

/-- What stands after claims, the first of them first. -/
def standing (late : Bool) (first : Claim) (rest : List Claim) : Claim :=
  rest.foldl (Claim.merge late) first

/-- The sources that claims name, each where it was named first. -/
def named : List Claim → List String
  | [] => []
  | c :: cs => cs.foldl (fun owners c => addMissing owners c.owners) c.owners

/-- **A claim takes over** from those before it: none of them has a value, or its source has a
    higher authority than the source that was named last. -/
def TakesOver (late : Bool) (before : List Claim) (c : Claim) : Prop :=
  isFalsyScalar c.value = false ∧
    ((∀ b ∈ before, isFalsyScalar b.value = true) ∨
      sourcePriority c.source <
        sourcePriority (lastSource "previous" (named (if late then before ++ [c] else before))))

variable {late : Bool} {first : Claim} {rest : List Claim}

theorem standing_concat (late : Bool) (first : Claim) (rest : List Claim) (c : Claim) :
    standing late first (rest ++ [c]) = (standing late first rest).merge late c := by
  rw [standing, List.foldl_concat, standing]

theorem named_concat (first : Claim) (rest : List Claim) (c : Claim) :
    named (first :: (rest ++ [c])) = addMissing (named (first :: rest)) c.owners := by
  rw [named, List.foldl_concat, named]

theorem standing_owners : (standing late first rest).owners = named (first :: rest) := by
  induction rest using List.reverseRecOn with
  | nil => rfl
  | append_singleton rest c ih => rw [standing_concat, named_concat, Claim.merge_owners, ih]

/-- A gap stays a gap while no claim has a value. -/
theorem standing_isFalsy :
    isFalsyScalar (standing late first rest).value = true ↔
      ∀ b ∈ first :: rest, isFalsyScalar b.value = true := by
  induction rest using List.reverseRecOn with
  | nil => simp [standing]
  | append_singleton rest c ih =>
    rw [standing_concat, ← List.cons_append, List.forall_mem_append, ← ih]
    by_cases h : (standing late first rest).Takes late c
    · rw [Claim.merge_value_of_takes h]
      simp [h.1]
    · rw [Claim.merge_value_of_not h]
      constructor
      · intro hgap
        refine ⟨hgap, ?_⟩
        intro b hb
        obtain rfl : b = c := by simpa using hb
        by_contra hvalue
        exact h ⟨by simpa using hvalue, Or.inl hgap⟩
      · exact fun hall => hall.1

/-- What takes over from what stands takes over from the claims. -/
theorem takes_standing (c : Claim) :
    (standing late first rest).Takes late c ↔ TakesOver late (first :: rest) c := by
  have hknown : (standing late first rest).known late c =
      named (if late then (first :: rest) ++ [c] else first :: rest) := by
    rw [Claim.known, standing_owners]
    cases late with
    | false => rfl
    | true => exact (named_concat first rest c).symm
  rw [Claim.Takes, TakesOver, hknown, standing_isFalsy]

variable {c : Claim} {claims : List Claim} {records : List VpnServerRecord} {m : VpnServerRecord}
  {key : String} {l : Leaf}

/-- **The value that stands is that of the last claim that took over.** -/
theorem standing_value (h : Decides (TakesOver late) (first :: rest) c) :
    (standing late first rest).value = c.value := by
  induction rest using List.reverseRecOn generalizing c with
  | nil =>
    have hc : c = first := by simpa using h.mem
    rw [hc]
    rfl
  | append_singleton rest d ih =>
    rw [standing_concat]
    rw [← List.cons_append] at h
    by_cases htakes : TakesOver late (first :: rest) d
    · rw [(decides_concat_of_takes htakes).mp h,
        Claim.merge_value_of_takes ((takes_standing d).mpr htakes)]
    · rw [Claim.merge_value_of_not (mt (takes_standing d).mp htakes)]
      exact ih ((decides_concat_of_not htakes).mp h)

/-- When some claim has a value, some claim decides. -/
theorem exists_decides (late : Bool) (hc : c ∈ claims) (hvalue : isFalsyScalar c.value = false) :
    ∃ d, Decides (TakesOver late) claims d := by
  rw [exists_decides_iff]
  -- the first claim that has a value fills the gap
  obtain ⟨d, hd⟩ := Option.isSome_iff_exists.mp
    (show (claims.find? fun c => !isFalsyScalar c.value).isSome by
      rw [List.find?_isSome]
      exact ⟨c, hc, by simp [hvalue]⟩)
  obtain ⟨hdvalue, before, after, heq, hbefore⟩ := List.find?_eq_some_iff_append.mp hd
  refine ⟨before, d, after, heq, by simpa using hdvalue, Or.inl ?_⟩
  intro b hb
  simpa using hbefore b hb

/-- **A value is kept**: a claim with it takes over, and behind it no claim with another value has
    a source that outranks the one named last before it. -/
def Keeps (late : Bool) (claims : List Claim) (value : Scalar) : Prop :=
  ∃ before b after, claims = before ++ b :: after ∧ b.value = value ∧ TakesOver late before b ∧
    ∀ mid c rest, after = mid ++ c :: rest → isFalsyScalar c.value = false → c.value ≠ value →
      sourcePriority (lastSource "previous"
        (named (if late then before ++ b :: mid ++ [c] else before ++ b :: mid))) ≤
          sourcePriority c.source

/-- A value is kept exactly if the claim that decides has it. -/
theorem keeps_iff {value : Scalar} :
    Keeps late claims value ↔ ∃ c, Decides (TakesOver late) claims c ∧ c.value = value := by
  constructor
  · rintro ⟨before, b, after, rfl, hb, htakes, hafter⟩
    obtain ⟨c, hc⟩ := exists_decides_iff.mpr ⟨before, b, after, rfl, htakes⟩
    refine ⟨c, hc, hc.holds (P := fun c => c.value = value) htakes hb ?_⟩
    rintro mid d rest heq ⟨hvalue, hgap | hrank⟩
    · -- there is no gap behind a claim that took over
      have hfilled := hgap b (by simp)
      rw [htakes.1] at hfilled
      cases hfilled
    · by_contra hother
      exact Nat.not_lt.mpr (hafter mid d rest heq hvalue hother) hrank
  · rintro ⟨c, ⟨before, after, heq, htakes, hlast⟩, rfl⟩
    refine ⟨before, c, after, heq, rfl, htakes, fun mid d rest hafter hvalue _ => ?_⟩
    by_contra hrank
    exact hlast mid d rest hafter ⟨hvalue, .inr (Nat.not_le.mp hrank)⟩

/-- A claim that decides is one of them and has a value. -/
theorem value_of_decides (h : Decides (TakesOver late) claims c) :
    isFalsyScalar c.value = false := by
  obtain ⟨before, after, -, htakes, -⟩ := h
  exact htakes.1

/-! ### The records of a list -/

/-- A merged record, and the records it was merged from. -/
theorem mem_database : (key, m) ∈ database records ↔
      ∃ first rest, recordsOf key records = first :: rest ∧ m = rest.foldl recursiveMerge first :=
  LinkedMap.mem_collect

/-- **The leaf of merged records is the leaf of their claims.** -/
theorem claimAt_foldl {first : VpnServerRecord} {rest : List VpnServerRecord}
    (h : ∀ r ∈ first :: rest, r.HasLeaf l) : (rest.foldl recursiveMerge first).HasLeaf l ∧
      (rest.foldl recursiveMerge first).claimAt l =
        standing l.late (first.claimAt l) (rest.map fun r => r.claimAt l) := by
  induction rest using List.reverseRecOn with
  | nil => exact ⟨h first (by simp), rfl⟩
  | append_singleton rest r ih =>
    have hbefore := ih fun r' hr' => h r' (by
      rcases List.mem_cons.mp hr' with rfl | hrest
      · simp
      · simp [hrest])
    have hmerge := hbefore.1.recursiveMerge (h r (by simp))
    rw [List.foldl_concat, List.map_append, List.map_singleton, standing_concat, ← hbefore.2]
    exact hmerge

/-- What the records of a key say at a leaf, in their order. -/
def claimsOf (key : String) (l : Leaf) (records : List VpnServerRecord) : List Claim :=
  (recordsOf key records).map fun r => r.claimAt l

/-- What a merged record says at a leaf is what stands after the claims of its records. -/
theorem claimAt_of_mem_database (hleaf : ∀ r ∈ records, r.HasLeaf l)
    (hm : (key, m) ∈ database records) : ∃ first rest, claimsOf key l records = first :: rest ∧
      m.HasLeaf l ∧ m.claimAt l = standing l.late first rest := by
  obtain ⟨first, rest, hrecords, rfl⟩ := mem_database.mp hm
  have hleaf' : ∀ r ∈ first :: rest, r.HasLeaf l := by
    intro r hr
    rw [← hrecords] at hr
    exact hleaf r (List.mem_of_mem_filter hr)
  refine ⟨first.claimAt l, rest.map fun r => r.claimAt l, ?_, claimAt_foldl hleaf'⟩
  rw [claimsOf, hrecords, List.map_cons]

/-- **The value of a merged record is that of the record that decides.** -/
theorem claimAt_value_of_decides (hleaf : ∀ r ∈ records, r.HasLeaf l)
    (hm : (key, m) ∈ database records)
    (hc : Decides (TakesOver l.late) (claimsOf key l records) c) :
    (m.claimAt l).value = c.value := by
  obtain ⟨first, rest, hclaims, -, hstanding⟩ := claimAt_of_mem_database hleaf hm
  rw [hclaims] at hc
  rw [hstanding, standing_value hc]

/-- **The value of a merged record is the one that is kept.** -/
theorem claimAt_value_iff_keeps (hleaf : ∀ r ∈ records, r.HasLeaf l)
    (hm : (key, m) ∈ database records)
    (hvalue : ∃ c ∈ claimsOf key l records, isFalsyScalar c.value = false) {value : Scalar} :
    (m.claimAt l).value = value ↔ Keeps l.late (claimsOf key l records) value := by
  rw [keeps_iff]
  constructor
  · rintro rfl
    obtain ⟨c, hc, hfilled⟩ := hvalue
    obtain ⟨d, hd⟩ := exists_decides l.late hc hfilled
    exact ⟨d, hd, (claimAt_value_of_decides hleaf hm hd).symm⟩
  · rintro ⟨c, hc, rfl⟩
    exact claimAt_value_of_decides hleaf hm hc

theorem claimAt_isFalsy_iff (hleaf : ∀ r ∈ records, r.HasLeaf l)
    (hm : (key, m) ∈ database records) : isFalsyScalar (m.claimAt l).value = true ↔
      ∀ r ∈ recordsOf key records, isFalsyScalar (r.claimAt l).value = true := by
  obtain ⟨first, rest, hclaims, -, hstanding⟩ := claimAt_of_mem_database hleaf hm
  rw [hstanding, standing_isFalsy, ← hclaims]
  simp [claimsOf]

theorem hasLeaf_of_mem_database (hleaf : ∀ r ∈ records, r.HasLeaf l)
    (hm : (key, m) ∈ database records) : m.HasLeaf l := by
  obtain ⟨-, -, -, hm, -⟩ := claimAt_of_mem_database hleaf hm
  exact hm

/-- One more record of a key is merged into what the key has. -/
theorem mem_database_merge {r : VpnServerRecord} (hm : (key, m) ∈ database records)
    (hr : identityKey r = some key) :
    recordsOf key (records ++ [r]) = recordsOf key records ++ [r] ∧
      (key, recursiveMerge m r) ∈ database (records ++ [r]) := by
  have hrecords : recordsOf key (records ++ [r]) = recordsOf key records ++ [r] := by
    simp [recordsOf, hr]
  obtain ⟨first, rest, hbefore, rfl⟩ := mem_database.mp hm
  refine ⟨hrecords, mem_database.mpr ⟨first, rest ++ [r], ?_, ?_⟩⟩
  · rw [hrecords, hbefore, List.cons_append]
  · rw [List.foldl_concat]

/-- **What one more record does to a key**: nothing, when it has another key, or it is the first of
    its key, or it is merged into what the key has. -/
theorem mem_database_concat {r : VpnServerRecord} (h : (key, m) ∈ database (records ++ [r])) :
    (recordsOf key (records ++ [r]) = recordsOf key records ∧ (key, m) ∈ database records) ∨
      (recordsOf key (records ++ [r]) = [r] ∧ m = r) ∨
      (identityKey r = some key ∧ ∃ before, (key, before) ∈ database records ∧
        m = recursiveMerge before r) := by
  by_cases hr : identityKey r = some key
  · have hrecords : recordsOf key (records ++ [r]) = recordsOf key records ++ [r] := by
      simp [recordsOf, hr]
    obtain ⟨first, rest, hafter, rfl⟩ := mem_database.mp h
    rw [hrecords] at hafter
    cases hbefore : recordsOf key records with
    | nil =>
      rw [hbefore, List.nil_append, List.cons.injEq] at hafter
      obtain ⟨rfl, rfl⟩ := hafter
      exact Or.inr (Or.inl ⟨by rw [hrecords, hbefore]; rfl, rfl⟩)
    | cons first' rest' =>
      rw [hbefore, List.cons_append, List.cons.injEq] at hafter
      obtain ⟨rfl, rfl⟩ := hafter
      refine Or.inr (Or.inr ⟨hr, _, mem_database.mpr ⟨first', rest', hbefore, rfl⟩, ?_⟩)
      rw [List.foldl_concat]
  · have hrecords : recordsOf key (records ++ [r]) = recordsOf key records := by
      simp [recordsOf, hr]
    refine Or.inl ⟨hrecords, ?_⟩
    rw [mem_database, ← hrecords]
    exact mem_database.mp h

end SoftEther.Merger
