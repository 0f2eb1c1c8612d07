import SoftEther.Repository.Updater

namespace SoftEther.Repository

open Lib

/-!
# Dataset integrity (`DatasetIntegrity.kt`)

Whether a candidate dataset may be stored over what is stored already.

* `coverage` — how many rows of a dataset have which capability;
* `baselineOf` — the stored rows that a candidate is compared with;
* `evaluate` — the verdict;
* `ContentRefused`, `SizeRefused` — the two grounds on which a candidate is refused;
* `evaluate_loose_accepted_iff`, `evaluate_strict_accepted_iff` — there is no third.

The text of a verdict goes into the log alone and is left out. Two shares are compared by
multiplying out; for lists of fewer than `2^26` rows this is what the floating-point comparison of
the source comes to.
-/

/-! ### The source -/

/-- `MIN_ACCEPTABLE_DATASET_SIZE`. -/
def MIN_ACCEPTABLE_DATASET_SIZE : ℕ := 10

/-- `MIN_PROTOCOL_COVERAGE_BASELINE`. -/
def MIN_PROTOCOL_COVERAGE_BASELINE : ℕ := 20

/-- `MIN_PROFILE_COVERAGE_BASELINE`. -/
def MIN_PROFILE_COVERAGE_BASELINE : ℕ := 20

/-- `DatasetDefect`, as far as `evaluate` gives it. -/
inductive DatasetDefect
  | TOO_SMALL
  | SIZE_COLLAPSE
  | PROTOCOL_COLLAPSE
  | PROFILE_COLLAPSE
  deriving DecidableEq

/-- `DatasetVerdict`. -/
structure DatasetVerdict where
  accepted : Bool
  defect : Option DatasetDefect
  deriving DecidableEq

/-- `DatasetCoverage`. -/
structure DatasetCoverage where
  total : ℕ
  softEtherTcp : ℕ
  softEtherUdp : ℕ
  sstp : ℕ
  openVpnTcp : ℕ
  openVpnUdp : ℕ
  l2tp : ℕ
  openVpnProfiles : ℕ

/-- `coverage`. -/
def coverage (items : List VPNGateItem) : DatasetCoverage where
  total := items.length
  softEtherTcp := items.countP fun item => item.seTcpPort > 0
  softEtherUdp := items.countP fun item => item.seUdpSupported || item.seUdpPort > 0
  sstp := items.countP fun item => item.isSSTPSupport
  openVpnTcp := items.countP fun item => item.tcpPort > 0
  openVpnUdp := items.countP fun item => item.udpPort > 0
  l2tp := items.countP fun item => item.isL2TPSupport
  openVpnProfiles := items.countP fun item => !JavaString.isNullOrBlank item.openVpnConfigData

/-- `PROTOCOLS`. -/
def PROTOCOLS : List (DatasetCoverage → ℕ) :=
  [DatasetCoverage.softEtherTcp, DatasetCoverage.softEtherUdp, DatasetCoverage.sstp,
    DatasetCoverage.openVpnTcp, DatasetCoverage.openVpnUdp, DatasetCoverage.l2tp]

/-- The stored rows with the newest `lastSeenAt`, or all of them when none has one. -/
def baselineOf (stored : List VPNGateItem) : List VPNGateItem :=
  let previousSeenAt := (stored.map VPNGateItem.lastSeenAt).max?.getD 0
  if previousSeenAt > 0 then stored.filter fun item => item.lastSeenAt = previousSeenAt
  else stored

/-- `hasComparableBaseline`. -/
def hasComparableBaseline (stored : List VPNGateItem) : Bool :=
  MIN_ACCEPTABLE_DATASET_SIZE ≤ stored.length

/-- `candidateShare < storedShare * 0.5`, of one count. -/
def shareHalved (count : DatasetCoverage → ℕ) (candidate baseline : DatasetCoverage) : Bool :=
  2 * count candidate * baseline.total < count baseline * candidate.total

/-- The check of the protocols. -/
def protocolCollapse (candidate baseline : DatasetCoverage) : Bool :=
  PROTOCOLS.any fun count =>
    MIN_PROTOCOL_COVERAGE_BASELINE ≤ count baseline && shareHalved count candidate baseline

/-- The check of the OpenVPN profiles. -/
def profileCollapse (candidate baseline : DatasetCoverage) : Bool :=
  MIN_PROFILE_COVERAGE_BASELINE ≤ baseline.openVpnProfiles && 0 < candidate.openVpnProfiles &&
    shareHalved DatasetCoverage.openVpnProfiles candidate baseline

/-- `evaluate`. -/
def evaluate (candidate stored : List VPNGateItem) (capability : SourceCapability)
    (lastAcceptedSize : Int) (strictSizeBaseline : Bool) : DatasetVerdict :=
  let baseline := baselineOf stored
  let refused (defect : DatasetDefect) : DatasetVerdict := ⟨false, some defect⟩
  if candidate.length < MIN_ACCEPTABLE_DATASET_SIZE then refused .TOO_SMALL
  else if !hasComparableBaseline baseline then ⟨true, none⟩
  else if strictSizeBaseline && decide (lastAcceptedSize ≤ 0) then ⟨true, none⟩
  else if strictSizeBaseline && decide (2 * (candidate.length : Int) < lastAcceptedSize) then
    refused .SIZE_COLLAPSE
  else if capability.providesProtocolColumns &&
      protocolCollapse (coverage candidate) (coverage baseline) then refused .PROTOCOL_COLLAPSE
  else if capability.providesOpenVpnProfiles &&
      profileCollapse (coverage candidate) (coverage baseline) then refused .PROFILE_COLLAPSE
  else ⟨true, none⟩

/-! ### The baseline -/

theorem length_baselineOf_le (stored : List VPNGateItem) :
    (baselineOf stored).length ≤ stored.length := by
  rw [baselineOf]
  split_ifs
  · exact List.length_filter_le _ _
  · exact Nat.le_refl _

/-- A row that was seen, and no stored one later, is of the baseline exactly when it is stored. -/
theorem mem_baselineOf_iff {stored : List VPNGateItem} {newest : Int} (hpos : 0 < newest)
    (hle : ∀ x ∈ stored, x.lastSeenAt ≤ newest) (hsome : ∃ x ∈ stored, x.lastSeenAt = newest)
    {x : VPNGateItem} : x ∈ baselineOf stored ↔ x ∈ stored ∧ x.lastSeenAt = newest := by
  have hmax : (stored.map VPNGateItem.lastSeenAt).max? = some newest := by
    rw [List.max?_eq_some_iff]
    simpa using And.intro hsome hle
  rw [baselineOf, hmax]
  simp [hpos]

/-! ### The verdict -/

/-- A candidate is refused for its content, whatever its size is compared with: it is below the
    floor, or a capability of the baseline collapses that its sources could have given. -/
def ContentRefused (candidate stored : List VPNGateItem) (capability : SourceCapability) : Prop :=
  candidate.length < MIN_ACCEPTABLE_DATASET_SIZE ∨
    MIN_ACCEPTABLE_DATASET_SIZE ≤ (baselineOf stored).length ∧
      (capability.providesProtocolColumns = true ∧
          protocolCollapse (coverage candidate) (coverage (baselineOf stored)) = true ∨
        capability.providesOpenVpnProfiles = true ∧
          profileCollapse (coverage candidate) (coverage (baselineOf stored)) = true)

/-- A candidate is refused for its size: there is a baseline, and it has less than half of the
    rows that it is compared with. -/
def SizeRefused (candidate stored : List VPNGateItem) (lastAcceptedSize : Int) : Prop :=
  MIN_ACCEPTABLE_DATASET_SIZE ≤ (baselineOf stored).length ∧
    2 * (candidate.length : Int) < lastAcceptedSize

instance (candidate stored : List VPNGateItem) (capability : SourceCapability) :
    Decidable (ContentRefused candidate stored capability) :=
  inferInstanceAs (Decidable (_ ∨ _))

instance (candidate stored : List VPNGateItem) (lastAcceptedSize : Int) :
    Decidable (SizeRefused candidate stored lastAcceptedSize) :=
  inferInstanceAs (Decidable (_ ∧ _))

variable (candidate stored : List VPNGateItem) (capability : SourceCapability)

/-- Without the strict mode only the content counts. -/
theorem evaluate_loose_accepted_iff (lastAcceptedSize : Int) :
    (evaluate candidate stored capability lastAcceptedSize false).accepted = true ↔
      ¬ ContentRefused candidate stored capability := by
  simp only [evaluate, hasComparableBaseline, ContentRefused, Bool.false_and]
  by_cases hsmall : candidate.length < MIN_ACCEPTABLE_DATASET_SIZE
  · simp [hsmall]
  · by_cases hbase : MIN_ACCEPTABLE_DATASET_SIZE ≤ (baselineOf stored).length
    · simp only [hsmall, hbase]
      split_ifs <;> simp_all
    · simp [hsmall, hbase]

/-- **The strict mode** adds the size, when the size it is compared with is known wherever there
    is a baseline. -/
theorem evaluate_strict_accepted_iff {lastAcceptedSize : Int}
    (hknown : MIN_ACCEPTABLE_DATASET_SIZE ≤ (baselineOf stored).length → 0 < lastAcceptedSize) :
    (evaluate candidate stored capability lastAcceptedSize true).accepted = true ↔
      ¬ ContentRefused candidate stored capability ∧
        ¬ SizeRefused candidate stored lastAcceptedSize := by
  rw [← evaluate_loose_accepted_iff candidate stored capability lastAcceptedSize]
  simp only [evaluate, hasComparableBaseline, SizeRefused, Bool.false_and, Bool.true_and]
  by_cases hsmall : candidate.length < MIN_ACCEPTABLE_DATASET_SIZE
  · simp [hsmall]
  · by_cases hbase : MIN_ACCEPTABLE_DATASET_SIZE ≤ (baselineOf stored).length
    · have hpos : ¬ lastAcceptedSize ≤ 0 := by
        have := hknown hbase
        omega
      by_cases hsize : 2 * (candidate.length : Int) < lastAcceptedSize
      · simp [hsmall, hbase, hpos, hsize]
      · simp [hsmall, hbase, hpos, hsize]
    · simp [hsmall, hbase]

end SoftEther.Repository
