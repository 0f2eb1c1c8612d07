import SoftEther.Lib.Winners
import SoftEther.Repository.ServerRow

namespace SoftEther.Repository

open Lib

/-!
# The order of the rows that are collapsed (`VPNGateItem.dedupeForStorage`)

Of the rows with one host name the most connectable one is stored. Rows that differ in none of the
things compared are level, and then the one that came first is stored. Manual servers of one host
that differ in their port are such rows.

* `Better` — a row is preferred to another;
* `ManualServer`, `toItem` — the row of a manual server;
* `StoredOnce` — one row a host, a best one, whatever the order of the rows;
* `better_iff` — the comparator is this preference;
* `dedupeForStorage_orderless_iff` — it is kept exactly when no two rows of a host are best and
  differ;
* `not_storedOnce_manual` — two manual servers for which it is not.
-/

/-! ### Manual servers -/

/-- `VpnProtocolNames`. -/
inductive ManualProtocol
  | SOFTETHER
  | OPENVPN
  | L2TP_IPSEC
  | SSTP
  deriving DecidableEq

/-- What is read of a `ManualServer`: the address as `normalizeHost` leaves it, and the protocol as
    one of `VpnProtocolNames`, if it is any. -/
structure ManualServer where
  host : JavaString
  port : Int
  protocol : Option ManualProtocol
  label : Option JavaString

/-- `toItem`: each protocol writes the columns that it owns. -/
def toItem (server : ManualServer) : VPNGateItem :=
  let base : VPNGateItem :=
    { hostName := server.host
      ip := some server.host
      score := 0
      ping := 0
      speed := 0
      countryLong := none
      countryShort := none
      numVpnSession := 0
      uptime := 0
      totalUser := 0
      totalTraffic := 0
      logType := none
      operator := server.label.filter fun label => !label.isBlank
      message := none
      openVpnConfigData := none
      tcpPort := 0
      udpPort := 0
      isL2TPSupport := false
      isSSTPSupport := false
      sstpPort := 0
      sstpPortSource := JavaString.ofChars ['U', 'N', 'K', 'N', 'O', 'W', 'N']
      seTcpPort := 0
      seUdpPort := 0
      seUdpSupported := false
      firstSeenAt := 0
      lastSeenAt := 0
      healthScore := 0 }
  match server.protocol with
  | some .SOFTETHER => { base with seTcpPort := server.port }
  | some .SSTP =>
    { base with
      isSSTPSupport := true
      sstpPort := server.port
      sstpPortSource := JavaString.ofChars ['E', 'X', 'P', 'L', 'I', 'C', 'I', 'T'] }
  | some .L2TP_IPSEC => { base with isL2TPSupport := true }
  | some .OPENVPN => { base with tcpPort := server.port }
  | none => base

/-! ### Preference -/

/-- **More connect options**, then the higher score, the faster link, the higher ping and the
    smaller address; addresses are compared as texts. -/
def Better (x y : VPNGateItem) : Prop :=
  y.connectOptions < x.connectOptions ∨ y.connectOptions = x.connectOptions ∧
    (y.score < x.score ∨ y.score = x.score ∧
      (y.speed < x.speed ∨ y.speed = x.speed ∧
        (y.ping < x.ping ∨ y.ping = x.ping ∧ compare (x.ip.getD []) (y.ip.getD []) = .lt)))

/-- One of the best rows of a host. -/
structure BestOfHost (items : List VPNGateItem) (x : VPNGateItem) : Prop where
  mem : x ∈ items
  best : ∀ y ∈ items, y.host = x.host → ¬ Better y x

/-- **What is stored**: one row a host, a best one, and the same rows in whatever order the rows
    came. -/
structure StoredOnce (items : List VPNGateItem) : Prop where
  unique : UniqueBy VPNGateItem.host (dedupeForStorage items)
  present : ∀ x ∈ items, ∃ y ∈ dedupeForStorage items, y.host = x.host
  best : ∀ x ∈ dedupeForStorage items, BestOfHost items x
  orderless : ∀ items', items'.Perm items →
    ∀ x, x ∈ dedupeForStorage items' ↔ x ∈ dedupeForStorage items

/-! ### The comparator -/

instance : Std.TransCmp WINNER_FIRST := by
  unfold WINNER_FIRST
  infer_instance

/-- **The comparator** puts a row first that is preferred. -/
theorem better_iff {x y : VPNGateItem} : WINNER_FIRST x y = .lt ↔ Better x y := by
  have hnat : ∀ a b : ℕ, compare a b = .lt ↔ a < b := fun a b => Nat.compare_eq_lt
  have hint : ∀ a b : ℤ, compare a b = .lt ↔ a < b := fun a b => Int.compare_eq_lt
  simp only [WINNER_FIRST, compareLex, Ordering.then_eq_lt, compareByDescending, compareBy, hnat,
    hint, Std.compare_eq_iff_eq, Better]

theorem unbeaten_iff {items : List VPNGateItem} {x : VPNGateItem} :
    Unbeaten VPNGateItem.host WINNER_FIRST items x ↔ BestOfHost items x := by
  constructor
  · exact fun h => ⟨h.mem, fun y hy hhost hbetter => h.first y hy hhost (better_iff.mpr hbetter)⟩
  · exact fun h => ⟨h.mem, fun y hy hhost hlt => h.best y hy hhost (better_iff.mp hlt)⟩

/-- The short cut for a list without two rows of a host stores the same rows. -/
theorem mem_dedupeForStorage {items : List VPNGateItem} {x : VPNGateItem} :
    x ∈ dedupeForStorage items ↔ x ∈ winners VPNGateItem.host WINNER_FIRST items := by
  by_cases hunique : UniqueBy VPNGateItem.host items
  · rw [dedupeForStorage_of_unique hunique, mem_winners_of_unique hunique]
  · have hlong : ¬ items.length < 2 := by
      intro hshort
      apply hunique
      obtain rfl | ⟨item, rfl⟩ : items = [] ∨ ∃ item, items = [item] := by
        rw [← List.length_eq_zero_iff, ← List.length_eq_one_iff]
        omega
      · exact List.nodup_nil
      · exact List.nodup_singleton _
    rw [dedupeForStorage, if_neg hlong, if_neg hunique]
    rfl

/-- The order of the rows is immaterial when the best row of each host is one. -/
theorem orderless_iff (items : List VPNGateItem) :
    (∀ items', items'.Perm items → ∀ x, x ∈ dedupeForStorage items' ↔ x ∈ dedupeForStorage items) ↔
      ∀ x y, BestOfHost items x → BestOfHost items y → x.host = y.host → x = y := by
  have horder := winners_orderless_iff VPNGateItem.host WINNER_FIRST items
  simp only [unbeaten_iff, ← mem_dedupeForStorage] at horder
  exact horder

/-- **Storage does not depend on the order of the rows**, and stores one best row a host, exactly
    when in each group of a host the rows that no other row of the group is preferred to are one and
    the same row. -/
theorem dedupeForStorage_orderless_iff (items : List VPNGateItem) :
    StoredOnce items ↔
      ∀ x y, BestOfHost items x → BestOfHost items y → x.host = y.host → x = y := by
  constructor
  · exact fun h => (orderless_iff items).mp h.orderless
  · exact fun h =>
      { unique := dedupeForStorage_unique items
        present := fun x hx => exists_mem_dedupeForStorage hx
        best := fun x hx => unbeaten_iff.mp (unbeaten_of_mem_winners (mem_dedupeForStorage.mp hx))
        orderless := (orderless_iff items).mpr h }

/-! ### Rows that are level -/

/-- Two SoftEther servers that the user added for one host, on two ports. -/
theorem not_storedOnce_manual (host : JavaString) {port port' : Int} (hport : 0 < port)
    (hport' : 0 < port') (hne : port ≠ port') :
    ¬ StoredOnce [toItem ⟨host, port, some .SOFTETHER, none⟩,
      toItem ⟨host, port', some .SOFTETHER, none⟩] := by
  have hoptions : ∀ p, 0 < p →
      (toItem ⟨host, p, some .SOFTETHER, none⟩).connectOptions = 1 := by
    intro p hp
    simp [VPNGateItem.connectOptions, toItem, JavaString.isNullOrBlank, hp]
  -- neither is preferred to any of the two
  have hlevel : ∀ p q, 0 < p → 0 < q → ¬ Better (toItem ⟨host, p, some .SOFTETHER, none⟩)
      (toItem ⟨host, q, some .SOFTETHER, none⟩) := by
    intro p q hp hq hbetter
    simp only [Better, hoptions p hp, hoptions q hq, lt_irrefl, true_and, false_or] at hbetter
    simp [toItem] at hbetter
  have hbest : ∀ p, 0 < p → (p = port ∨ p = port') →
      BestOfHost [toItem ⟨host, port, some .SOFTETHER, none⟩,
        toItem ⟨host, port', some .SOFTETHER, none⟩] (toItem ⟨host, p, some .SOFTETHER, none⟩) := by
    intro p hp hone
    refine ⟨by rcases hone with rfl | rfl <;> simp, fun y hy _ => ?_⟩
    simp only [List.mem_cons, List.not_mem_nil, or_false] at hy
    rcases hy with rfl | rfl
    · exact hlevel port p hport hp
    · exact hlevel port' p hport' hp
  intro h
  have hsame := (orderless_iff _).mp h.orderless _ _ (hbest port hport (Or.inl rfl))
    (hbest port' hport' (Or.inr rfl)) rfl
  exact hne (congrArg VPNGateItem.seTcpPort hsame)

/-- **The order decides** which port of `1.2.3.4` is stored, 443 or 992. -/
theorem dedupeForStorage_order_decides : ¬ ∀ items : List VPNGateItem, StoredOnce items :=
  fun hall => not_storedOnce_manual (JavaString.ofChars ['1', '.', '2', '.', '3', '.', '4'])
    (show (0 : Int) < 443 by decide) (show (0 : Int) < 992 by decide) (by decide) (hall _)

end SoftEther.Repository
