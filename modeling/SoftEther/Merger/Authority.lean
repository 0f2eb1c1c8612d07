import SoftEther.Merger.NewServer

namespace SoftEther.Merger

open Lib

/-!
# Whose value stands

`recursiveMerge` compares a newcomer with the source that was named last for the leaf. A source is
named there when its record is merged, also when its value lost. So a record may take over from a
value of a higher authority than its own: only the last name counts.

* `SingleSource` — a record that names one source for whatever it holds;
* `HasBestValue` — a value of a record of the best authority;
* `hasBestValue_iff` — when the value of the best authority stands.
-/

/-- For every scalar that the record holds it names one source, which is the same throughout. -/
def VpnServerRecord.SingleSource (r : VpnServerRecord) (source : String) : Prop :=
  source ≠ "" ∧ ∀ l ∈ serverLeaves, isFalsyScalar (r.claimAt l).value = false →
    (r.claimAt l).owners = [source]

instance (r : VpnServerRecord) (source : String) : Decidable (r.SingleSource source) := by
  unfold VpnServerRecord.SingleSource
  infer_instance

/-- **The value comes from a claim of the best authority** among those that have a value. -/
def HasBestValue (claims : List Claim) (value : Scalar) : Prop :=
  isFalsyScalar value = false ∧ ∃ c ∈ claims, c.value = value ∧
    ∀ d ∈ claims, isFalsyScalar d.value = false → sourcePriority c.source ≤ sourcePriority d.source

instance (claims : List Claim) (value : Scalar) : Decidable (HasBestValue claims value) := by
  unfold HasBestValue
  infer_instance

/-- **A record of the best authority keeps its value**, against the order and the sources of the
    others: it, or a record with the same value, fills the gap or outranks the source that was
    named last, and no record with another value does so behind it. -/
def BestKept (late : Bool) (claims : List Claim) : Prop :=
  ∃ best ∈ claims, isFalsyScalar best.value = false ∧
    (∀ d ∈ claims, isFalsyScalar d.value = false →
      sourcePriority best.source ≤ sourcePriority d.source) ∧
    Keeps late claims best.value

/-- **When the best authority is heard**: at a leaf that some record has a value for, the merged
    record holds a value of the best authority exactly if a record of that authority keeps its
    value. -/
theorem hasBestValue_iff {records : List VpnServerRecord} {key : String} {m : VpnServerRecord}
    {l : Leaf} (hleaf : ∀ r ∈ records, r.HasLeaf l) (hm : (key, m) ∈ database records)
    (hvalue : ∃ c ∈ claimsOf key l records, isFalsyScalar c.value = false) :
    HasBestValue (claimsOf key l records) (m.claimAt l).value ↔
      BestKept l.late (claimsOf key l records) := by
  have hkeeps : ∀ value,
      (m.claimAt l).value = value ↔ Keeps l.late (claimsOf key l records) value :=
    fun _ => claimAt_value_iff_keeps hleaf hm hvalue
  constructor
  · rintro ⟨hfilled, best, hbest, hsame, hrank⟩
    refine ⟨best, hbest, by rw [hsame]; exact hfilled, hrank, ?_⟩
    exact (hkeeps _).mp hsame.symm
  · rintro ⟨best, hbest, hfilled, hrank, hkept⟩
    have hstands := (hkeeps _).mpr hkept
    rw [hstands]
    exact ⟨hfilled, best, hbest, rfl, hrank⟩

/-! ### Three sources -/

/-- A record of one source that has an address and a score, and names its source for all it has. -/
def scored (source : String) (score : ℤ) : VpnServerRecord :=
  let r := setField newServer ["identity", "ip"] (.string "1.2.3.4") source
  let r := setField r ["performance", "score"] (.int score) source
  { r with
    sources := [source]
    sourceCount := 1
    fieldSources := fun path =>
      if isFalsyScalar (r.claimAt (leafOf path)).value then [] else [source] }

/-- The score of a record. -/
def scoreLeaf : Leaf := leafOf ["performance", "score"]

/-- A manual entry says one, the API two, the page three and a mirror four. -/
def apiSecond : List VpnServerRecord :=
  [scored "manual" 1, scored "api" 2, scored "html" 3, scored "mirror" 4]

theorem claimsOf_apiSecond : claimsOf "1.2.3.4" scoreLeaf apiSecond =
    [⟨.int 1, ["manual"]⟩, ⟨.int 2, ["api"]⟩, ⟨.int 3, ["html"]⟩, ⟨.int 4, ["mirror"]⟩] := by
  have hall : recordsOf "1.2.3.4" apiSecond = apiSecond := List.filter_eq_self.mpr (by decide)
  rw [claimsOf, hall]
  rfl

/-- The API outranks the manual entry, and neither the page nor the mirror the one before it. -/
theorem hasBestValue_iff_sample :
    HasBestValue (claimsOf "1.2.3.4" scoreLeaf apiSecond)
      ((apiSecond.tail.foldl recursiveMerge (scored "manual" 1)).claimAt scoreLeaf).value := by
  have hleaf : ∀ r ∈ apiSecond, r.HasLeaf scoreLeaf := by decide
  refine (hasBestValue_iff hleaf (mem_database.mpr ⟨scored "manual" 1, apiSecond.tail,
    List.filter_eq_self.mpr (by decide), rfl⟩) ?_).mpr ?_
  · rw [claimsOf_apiSecond]
    decide
  · rw [claimsOf_apiSecond]
    refine ⟨⟨.int 2, ["api"]⟩, by simp, by decide, by decide,
      [⟨.int 1, ["manual"]⟩], ⟨.int 2, ["api"]⟩, [⟨.int 3, ["html"]⟩, ⟨.int 4, ["mirror"]⟩],
      rfl, rfl, by unfold TakesOver; decide, ?_⟩
    intro mid c rest heq _ _
    match mid, heq with
    | [], heq =>
      cases heq
      decide
    | [_], heq =>
      cases heq
      decide
    | _ :: _ :: mid, heq => simp at heq

/-- The API says one, a manual entry two and then the page says three: the page outranks the manual
    entry, whose value never stood, and so takes over from the API. -/
theorem best_authority_lost :
    (∀ r ∈ [(scored "api" 1, "api"), (scored "manual" 2, "manual"), (scored "html" 3, "html")],
        r.1.SingleSource r.2 ∧ ∀ l ∈ serverLeaves, r.1.HasLeaf l) ∧
      ∃ m ∈ mergeRecords [scored "api" 1, scored "manual" 2, scored "html" 3],
        (m.claimAt scoreLeaf).value = .int 3 ∧
          ¬ HasBestValue (claimsOf "1.2.3.4" scoreLeaf
            [scored "api" 1, scored "manual" 2, scored "html" 3]) (m.claimAt scoreLeaf).value := by
  refine ⟨by decide, ?_⟩
  refine ⟨recursiveMerge (recursiveMerge (scored "api" 1) (scored "manual" 2)) (scored "html" 3),
    ?_, by decide, by decide⟩
  rw [mergeRecords, List.mem_map]
  exact ⟨("1.2.3.4", _), mem_database.mpr ⟨scored "api" 1, [scored "manual" 2, scored "html" 3],
    List.filter_eq_self.mpr (by decide), rfl⟩, rfl⟩

end SoftEther.Merger
