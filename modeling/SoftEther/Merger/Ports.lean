import SoftEther.Merger.Authority
import SoftEther.Merger.Normalize

namespace SoftEther.Merger

open Lib VpnServerRecord

/-!
# Ports and their provenance

A port and its `portSource` are two leaves, and a merge decides each of them by itself: a port that
fills a gap may come to stand beside the provenance of another record. `UNKNOWN` is a value like
any other to the merge, and one that no source is named for.

* `merged_of_wellFormed` — a merged record is well-formed, with the remotes of all its records;
* `StandsAt` — the value that is kept at a leaf, said of the records;
* `Coherent` — the port of a server and its provenance belong together;
* `OneRecord`, `PortsAgree` — both leaves are kept from one record;
* `coherent_iff` — the first is the case exactly if the second is.
-/

/-! ### What a list of records is merged to -/

/-- The remotes of a list of records, in their order. -/
def remotesOf (records : List VpnServerRecord) : List Value := records.flatMap fun r => r.configs

/-- **A merged record** is well-formed, and what is found among its remotes is found among those of
    its records. -/
theorem merged_of_wellFormed {first : VpnServerRecord} {rest : List VpnServerRecord}
    (h : ∀ r ∈ first :: rest, r.WellFormed) :
    (rest.foldl recursiveMerge first).WellFormed ∧ ∀ f : Value → Option ℤ,
      (rest.foldl recursiveMerge first).configs.findSome? f =
        (remotesOf (first :: rest)).findSome? f := by
  induction rest using List.reverseRecOn with
  | nil => exact ⟨h first (by simp), fun f => by simp [remotesOf]⟩
  | append_singleton rest r ih =>
    obtain ⟨hbefore, hports⟩ := ih fun r' hr' => h r' (by
      rcases List.mem_cons.mp hr' with rfl | hrest
      · simp
      · simp [hrest])
    obtain ⟨hmerged, hconfigs⟩ := hbefore.recursiveMerge (h r (by simp))
    rw [List.foldl_concat]
    refine ⟨hmerged, fun f => ?_⟩
    have hremotes :
        remotesOf (first :: (rest ++ [r])) = remotesOf (first :: rest) ++ r.configs := by
      simp [remotesOf]
    rw [hconfigs, hremotes, findSome?_addMissing, List.findSome?_append, List.findSome?_append,
      hports f]

theorem wellFormed_of_mem_database {records : List VpnServerRecord} {key : String}
    {m : VpnServerRecord} (h : ∀ r ∈ records, r.WellFormed) (hm : (key, m) ∈ database records) :
    m.WellFormed ∧ ∀ f : Value → Option ℤ,
      m.configs.findSome? f = (remotesOf (recordsOf key records)).findSome? f := by
  obtain ⟨first, rest, hrecords, rfl⟩ := mem_database.mp hm
  rw [hrecords]
  refine merged_of_wellFormed fun r hr => ?_
  rw [← hrecords] at hr
  exact h r (List.mem_of_mem_filter hr)

/-! ### What stands at a leaf -/

theorem validPort_iff {port : ℤ} : validPort port = true ↔ 1 ≤ port ∧ port ≤ 65535 := by
  simp [validPort]

/-- The value stands at a leaf: it is kept from a record that has it. -/
def StandsAt (key : String) (path : Path) (records : List VpnServerRecord) (value : Scalar) :
    Prop :=
  Keeps false (claimsOf key (leafOf path) records) value

section Merged

variable {records : List VpnServerRecord} {key : String} {m : VpnServerRecord} {path : Path}
  (h : ∀ r ∈ records, r.WellFormed) (hm : (key, m) ∈ database records)

include h hm

theorem standsAt_iff (hpath : path ∈ fieldPaths) (hvalue : isFalsyScalar (m.get path) = false)
    {value : Scalar} : StandsAt key path records value ↔ value = m.get path := by
  obtain ⟨hleaf, hlate⟩ := fieldPaths_leaf path hpath
  have hall : ∀ r ∈ records, r.HasLeaf (leafOf path) := fun r hr => (h r hr).leaves _ hleaf
  have hsome : ∃ c ∈ claimsOf key (leafOf path) records, isFalsyScalar c.value = false := by
    -- a value stands, so some record has one
    by_contra hnone
    push Not at hnone
    have hgap := (claimAt_isFalsy_iff hall hm).mpr fun r hr => by
      simpa using hnone _ (List.mem_map_of_mem (f := fun r => r.claimAt (leafOf path)) hr)
    rw [m.claimAt_value hlate] at hgap
    exact absurd hgap (ne_true_of_eq_false hvalue)
  have hiff : (m.claimAt (leafOf path)).value = value ↔
      Keeps (leafOf path).late (claimsOf key (leafOf path) records) value :=
    claimAt_value_iff_keeps hall hm hsome
  rw [hlate, m.claimAt_value hlate] at hiff
  exact hiff.symm.trans eq_comm

theorem not_standsAt (hpath : path ∈ fieldPaths) (hvalue : isFalsyScalar (m.get path) = true)
    (value : Scalar) : ¬ StandsAt key path records value := by
  obtain ⟨hleaf, hlate⟩ := fieldPaths_leaf path hpath
  have hall : ∀ r ∈ records, r.HasLeaf (leafOf path) := fun r hr => (h r hr).leaves _ hleaf
  intro hkept
  obtain ⟨c, hc, -⟩ := keeps_iff.mp hkept
  have hfilled := value_of_decides hc
  rw [← hlate] at hc
  have hget := claimAt_value_of_decides hall hm hc
  rw [m.claimAt_value hlate] at hget
  change m.get path = c.value at hget
  rw [← hget, hvalue] at hfilled
  simp at hfilled

theorem get_of_standsAt (hpath : path ∈ fieldPaths) {value : Scalar}
    (hvalue : StandsAt key path records value) : value = m.get path := by
  cases hgap : isFalsyScalar (m.get path) with
  | true => exact absurd hvalue (not_standsAt h hm hpath hgap value)
  | false => exact (standsAt_iff h hm hpath hgap).mp hvalue

/-- A valid port stands. -/
theorem standsAt_of_validPort {e : Endpoint}
    (hvalid : validPort (VpnRecords.int (m.get e.port)) = true) :
    m.get e.port ≠ .null ∧ StandsAt key e.port records (m.get e.port) := by
  rw [validPort_iff] at hvalid
  rcases ((wellFormed_of_mem_database h hm).1.kinds e.leaves.1).1 (by simp [Endpoint.port])
    with hnone | ⟨n, hn⟩
  · rw [hnone] at hvalid
    simp [VpnRecords.int] at hvalid
  · rw [hn] at hvalid
    have hn0 : n ≠ 0 := by
      have hpos : 1 ≤ n := hvalid.1
      omega
    refine ⟨by simp [hn], (standsAt_iff h hm e.leaves.1 ?_).mpr rfl⟩
    rw [hn]
    simp [isFalsyScalar, hn0]

/-- A merged record offers SSTP when one of its records does. -/
theorem offersSstp_merged : offersSstp m = (recordsOf key records).any offersSstp := by
  have hmerged := (wellFormed_of_mem_database h hm).1
  have hfalsy : ∀ path ∈ fieldPaths, (isFalsyScalar (m.get path) = true ↔
      ∀ r ∈ recordsOf key records, isFalsyScalar (r.get path) = true) := by
    intro path hpath
    obtain ⟨hleaf, hlate⟩ := fieldPaths_leaf path hpath
    have hall : ∀ r ∈ records, r.HasLeaf (leafOf path) := fun r hr => (h r hr).leaves _ hleaf
    have hiff := claimAt_isFalsy_iff hall hm
    simp only [claimAt_value _ hlate] at hiff
    exact hiff
  -- of a flag and of a text falsy is what says nothing
  have hoffers : ∀ {r : VpnServerRecord}, r.WellFormed → (offersSstp r = false ↔
      isFalsyScalar (r.get Endpoint.sstp.supported) = true ∧
        isFalsyScalar (r.get ["protocols", "sstp", "hostname"]) = true) := by
    intro r hr
    obtain ⟨b, hb⟩ := (hr.kinds Endpoint.sstp.leaves.2.2).2.2.1 rfl
    obtain ⟨s, hs⟩ := (hr.kinds (show ["protocols", "sstp", "hostname"] ∈ fieldPaths by
      decide)).2.2.2 rfl
    rw [offersSstp, hb, hs]
    by_cases hempty : s = "" <;> simp [VpnRecords.bool, text, isFalsyScalar, hempty]
  have hfields : Endpoint.sstp.supported ∈ fieldPaths ∧
      ["protocols", "sstp", "hostname"] ∈ fieldPaths := by decide
  rw [Bool.eq_iff_iff, ← not_iff_not]
  simp only [Bool.not_eq_true, List.any_eq_false]
  rw [hoffers hmerged, hfalsy _ hfields.1, hfalsy _ hfields.2]
  constructor
  · rintro ⟨hflag, hhost⟩ r hr
    rw [hoffers (h r (List.mem_of_mem_filter hr))]
    exact ⟨hflag r hr, hhost r hr⟩
  · intro hnone
    have hboth := fun r hr => (hoffers (h r (List.mem_of_mem_filter hr))).mp
      (by simpa using hnone r hr)
    exact ⟨fun r hr => (hboth r hr).1, fun r hr => (hboth r hr).2⟩

end Merged

/-! ### Ports that belong to their provenance -/

/-- **A provenance that belongs to a port**: it is known, some record gave it to this port, and it
    is no default when some record published the port. -/
def Attached (records : List VpnServerRecord) (e : Endpoint) (at' : Scalar × Scalar) : Prop :=
  at'.2 ≠ VpnPortSource.UNKNOWN ∧ (∃ r ∈ records, endpointAt r e = at') ∧
    ((∃ r ∈ records, endpointAt r e = (at'.1, VpnPortSource.EXPLICIT)) →
      at'.2 ≠ VpnPortSource.DEFAULT)

/-- **The port of a server and its provenance belong together**, against the records that the
    server was merged from. -/
def Coherent (records : List VpnServerRecord) (e : Endpoint) (server : VpnServerRecord) : Prop :=
  server.get e.port ≠ .null → Attached records e (endpointAt server e)

/-- The port that the profiles of some records name for an endpoint. -/
def namedFor (e : Endpoint) (configs : List Value) : Option ℤ :=
  match e with
  | .openvpn t => configPort t configs
  | _ => none

theorem enforced_eq (configs : List Value) (e : Endpoint) (at' : Scalar × Scalar) :
    enforced configs e at' =
      match namedFor e configs with
      | none => at'
      | some port =>
        if VpnRecords.int at'.1 = port then at' else (.int port, VpnPortSource.EXPLICIT) := by
  cases e <;> rfl

/-- **Both leaves come from the record**: the port is its own, and its provenance, which is known,
    is kept; for SSTP it may also be the default in the place of an unknown one. If it is a
    default, no record published the port. -/
structure OneRecord (key : String) (e : Endpoint) (records : List VpnServerRecord) (port : Scalar)
    (r : VpnServerRecord) : Prop where
  same : r.get e.port = port
  known : r.get e.portSource ≠ VpnPortSource.UNKNOWN
  source : StandsAt key e.portSource records (r.get e.portSource) ∨
    e = .sstp ∧ (recordsOf key records).any offersSstp = true ∧
      r.get e.portSource = VpnPortSource.DEFAULT ∧
      StandsAt key e.portSource records VpnPortSource.UNKNOWN
  published : r.get e.portSource = VpnPortSource.DEFAULT →
    ∀ r' ∈ recordsOf key records, endpointAt r' e ≠ (port, VpnPortSource.EXPLICIT)

/-- **The records agree on the port and its provenance.** Where the profiles name no other port
    than the one that is kept, that port and its provenance are kept from one record. Where they
    name another port, some record published that. -/
structure PortsAgree (key : String) (e : Endpoint) (records : List VpnServerRecord) : Prop where
  kept : ∀ port, StandsAt key e.port records port → validPort (VpnRecords.int port) = true →
    (∀ named ∈ namedFor e (remotesOf (recordsOf key records)), VpnRecords.int port = named) →
    ∃ r ∈ recordsOf key records, OneRecord key e records port r
  named : ∀ named ∈ namedFor e (remotesOf (recordsOf key records)),
    (∀ port, StandsAt key e.port records port → VpnRecords.int port ≠ named) →
    ∃ r ∈ recordsOf key records, endpointAt r e = (.int named, VpnPortSource.EXPLICIT)

@[simp] theorem defaulted_fst (offered : Bool) (e : Endpoint) (at' : Scalar × Scalar) :
    (defaulted offered e at').1 = at'.1 := by
  unfold defaulted
  split_ifs <;> rfl

theorem validPort_of_configPort {t : Transport} {configs : List Value} {port : ℤ}
    (h : configPort t configs = some port) : validPort port = true := by
  obtain ⟨before, remote, after, -, hremote, -⟩ := List.findSome?_eq_some_iff.mp h
  unfold namedPort at hremote
  dsimp only at hremote
  split_ifs at hremote with hnamed
  rw [Bool.and_eq_true] at hnamed
  rw [← Option.some.inj hremote]
  exact hnamed.2

theorem validPort_of_namedFor {e : Endpoint} {configs : List Value} {port : ℤ}
    (h : namedFor e configs = some port) : validPort port = true := by
  cases e with
  | openvpn t => exact validPort_of_configPort h
  | softether t => simp [namedFor] at h
  | l2tpIpsec => simp [namedFor] at h
  | sstp => simp [namedFor] at h

/-! ### The port of a validated server -/

section Server

variable {records : List VpnServerRecord} {key : String} {m server : VpnServerRecord}
  {e : Endpoint} (h : ∀ r ∈ records, r.WellFormed) (hm : (key, m) ∈ database records)
  (hserver : normalizeServer m = some server) (he : e ≠ .l2tpIpsec)

include h hm

/-- The merged profiles name the port that those of the records name. -/
theorem namedFor_merged (e : Endpoint) :
    namedFor e m.configs = namedFor e (remotesOf (recordsOf key records)) := by
  have hconfigs := (wellFormed_of_mem_database h hm).2
  cases e with
  | openvpn t => exact hconfigs (namedPort t)
  | softether t => rfl
  | l2tpIpsec => rfl
  | sstp => rfl

/-- The provenance is never empty, so that of some record stands. -/
theorem standsAt_portSource_iff {value : Scalar} :
    StandsAt key e.portSource records value ↔ value = m.get e.portSource := by
  refine standsAt_iff h hm e.leaves.2.1 ?_
  have hmerged := (wellFormed_of_mem_database h hm).1
  rcases (hmerged.kinds e.leaves.2.1).2.1 (by simp [Endpoint.portSource]) with hs | hs | hs <;>
    rw [hs] <;> rfl

/-- A port belongs to the provenance that the validation leaves beside it exactly if both come from
    one record. -/
theorem attached_iff (port : Scalar) :
    Attached (recordsOf key records) e
        (defaulted ((recordsOf key records).any offersSstp) e (port, m.get e.portSource)) ↔
      ∃ r ∈ recordsOf key records, OneRecord key e records port r := by
  have hstands := fun value => @standsAt_portSource_iff records key m e h hm value
  have hkinds := ((wellFormed_of_mem_database h hm).1.kinds e.leaves.2.1).2.1
    (by simp [Endpoint.portSource])
  -- the validation writes DEFAULT in one case only
  by_cases hdefault : e = .sstp ∧ (recordsOf key records).any offersSstp = true ∧
      normalizedPortSource (m.get e.portSource) = VpnPortSource.UNKNOWN
  · obtain ⟨hsstp, hoffered, hnormal⟩ := hdefault
    have hunknown : m.get e.portSource = VpnPortSource.UNKNOWN := by
      rcases hkinds with hs | hs | hs
      · rw [hs] at hnormal
        exact absurd hnormal (by decide)
      · rw [hs] at hnormal
        exact absurd hnormal (by decide)
      · exact hs
    rw [defaulted, if_pos ⟨hsstp, hoffered, hnormal⟩]
    constructor
    · rintro ⟨-, ⟨r, hr, hat⟩, hpublished⟩
      obtain ⟨hport, hsource⟩ := Prod.mk.inj hat
      refine ⟨r, hr, hport, by rw [hsource]; decide, .inr ⟨hsstp, hoffered, hsource, ?_⟩, ?_⟩
      · exact (hstands _).mpr hunknown.symm
      · exact fun _ r' hr' hat' => hpublished ⟨r', hr', hat'⟩ rfl
    · rintro ⟨r, hr, hone⟩
      have hsource : r.get e.portSource = VpnPortSource.DEFAULT := by
        rcases hone.source with hkept | ⟨-, -, hsource, -⟩
        · exact absurd (((hstands _).mp hkept).trans hunknown) hone.known
        · exact hsource
      refine ⟨show VpnPortSource.DEFAULT ≠ VpnPortSource.UNKNOWN by decide,
        ⟨r, hr, Prod.ext hone.same hsource⟩, ?_⟩
      rintro ⟨r', hr', hat'⟩
      exact absurd hat' (hone.published hsource r' hr')
  · rw [defaulted, if_neg hdefault]
    constructor
    · rintro ⟨hknown, ⟨r, hr, hat⟩, hpublished⟩
      obtain ⟨hport, hsource⟩ := Prod.mk.inj hat
      refine ⟨r, hr, hport, by rw [hsource]; exact hknown, .inl ((hstands _).mpr hsource), ?_⟩
      exact fun hd r' hr' hat' => hpublished ⟨r', hr', hat'⟩ (hsource.symm.trans hd)
    · rintro ⟨r, hr, hone⟩
      have hsource : r.get e.portSource = m.get e.portSource := by
        rcases hone.source with hkept | ⟨hsstp, hoffered, -, hkept⟩
        · exact (hstands _).mp hkept
        · refine absurd ⟨hsstp, hoffered, ?_⟩ hdefault
          rw [← (hstands _).mp hkept]
          rfl
      refine ⟨by rw [← hsource]; exact hone.known, ⟨r, hr, Prod.ext hone.same hsource⟩, ?_⟩
      rintro ⟨r', hr', hat'⟩ hd
      exact hone.published (hsource.trans hd) r' hr' hat'

include hserver he

/-- The profiles name no other port: the port and the provenance are those of the merge. -/
theorem endpointAt_kept (hsame : ∀ named ∈ namedFor e (remotesOf (recordsOf key records)),
      VpnRecords.int (m.get e.port) = named) :
    endpointAt server e = defaulted ((recordsOf key records).any offersSstp) e
      (validated (endpointAt m e)) := by
  have hend :=
    (endpointAt_normalizeServer (wellFormed_of_mem_database h hm).1 hserver he).2
  rw [enforced_eq, namedFor_merged h hm, offersSstp_merged h hm] at hend
  cases hname : namedFor e (remotesOf (recordsOf key records)) with
  | none =>
    rw [hname] at hend
    exact hend
  | some named =>
    have hcurrent : VpnRecords.int (endpointAt m e).1 = named := hsame named hname
    rw [hname] at hend
    dsimp only at hend
    rw [if_pos hcurrent] at hend
    exact hend

/-- The profiles name another port: it takes the place of the one of the merge. -/
theorem endpointAt_named {named : ℤ}
    (hname : namedFor e (remotesOf (recordsOf key records)) = some named)
    (hother : VpnRecords.int (m.get e.port) ≠ named) :
    endpointAt server e = (.int named, VpnPortSource.EXPLICIT) := by
  have hend :=
    (endpointAt_normalizeServer (wellFormed_of_mem_database h hm).1 hserver he).2
  rw [enforced_eq, namedFor_merged h hm, hname] at hend
  dsimp only at hend
  have hcurrent : VpnRecords.int (endpointAt m e).1 ≠ named := hother
  have hvalid : validPort (VpnRecords.int (.int named)) = true := validPort_of_namedFor hname
  rw [hend, if_neg hcurrent, validated_of_valid hvalid, defaulted, if_neg]
  rintro ⟨rfl, -⟩
  simp [namedFor] at hname

/-- Where the profiles name no other port, both ways to say that ports agree are one. -/
theorem coherent_iff_of_kept (hsame : ∀ named ∈ namedFor e (remotesOf (recordsOf key records)),
      VpnRecords.int (m.get e.port) = named) :
    Coherent (recordsOf key records) e server ↔ PortsAgree key e records := by
  have hend := endpointAt_kept h hm hserver he hsame
  have hport := fun value => @get_of_standsAt records key m e.port h hm e.leaves.1 value
  have hfirst : server.get e.port = (validated (endpointAt m e)).1 := by
    rw [show server.get e.port = (endpointAt server e).1 from rfl, hend, defaulted_fst]
  by_cases hp : validPort (VpnRecords.int (m.get e.port))
  · obtain ⟨hne, hstands⟩ := standsAt_of_validPort h hm hp
    have hat : validated (endpointAt m e) = endpointAt m e := validated_of_valid hp
    rw [hat] at hend hfirst
    rw [Coherent, hend, hfirst]
    constructor
    · intro hattached
      refine ⟨?_, ?_⟩
      · intro port hports _ _
        rw [hport port hports]
        exact (attached_iff h hm _).mp (hattached hne)
      · intro named hnamed hother
        exact absurd (hsame named hnamed) (hother _ hstands)
    · intro hagree _
      exact (attached_iff h hm _).mpr (hagree.kept _ hstands hp hsame)
  · -- without a port there is nothing to agree on
    have hnone : validated (endpointAt m e) = (.null, VpnPortSource.UNKNOWN) := validated_of_not hp
    rw [hnone] at hfirst
    refine iff_of_true (fun hne => absurd hfirst hne) ⟨?_, ?_⟩
    · intro port hports hpv _
      rw [hport port hports] at hpv
      exact absurd hpv hp
    · intro named hnamed _
      refine absurd ?_ hp
      rw [hsame named hnamed]
      exact validPort_of_namedFor hnamed

/-- Where they name another one, some record is to have published it. -/
theorem coherent_iff_of_named {named : ℤ}
    (hname : namedFor e (remotesOf (recordsOf key records)) = some named)
    (hother : VpnRecords.int (m.get e.port) ≠ named) :
    Coherent (recordsOf key records) e server ↔ PortsAgree key e records := by
  have hend := endpointAt_named h hm hserver he hname hother
  have hport := fun value => @get_of_standsAt records key m e.port h hm e.leaves.1 value
  have hfirst : server.get e.port = .int named := congrArg Prod.fst hend
  rw [Coherent, hend, hfirst]
  constructor
  · intro hattached
    refine ⟨?_, ?_⟩
    · intro port hports _ hsame
      rw [hport port hports] at hsame
      exact absurd (hsame named hname) hother
    · intro named' hname' _
      obtain rfl : named = named' := Option.some.inj (hname.symm.trans hname')
      exact (hattached (by simp)).2.1
  · intro hagree _
    refine ⟨show VpnPortSource.EXPLICIT ≠ VpnPortSource.UNKNOWN by decide,
      hagree.named named hname ?_,
      fun _ => show VpnPortSource.EXPLICIT ≠ VpnPortSource.DEFAULT by decide⟩
    intro port hports
    rw [hport port hports]
    exact hother

/-- The port of the server is the one that the profiles name. -/
theorem port_of_named {named : ℤ}
    (hname : namedFor e (remotesOf (recordsOf key records)) = some named) :
    VpnRecords.int (server.get e.port) = named := by
  by_cases hcurrent : VpnRecords.int (m.get e.port) = named
  · have hend := endpointAt_kept h hm hserver he (by simp [hname, hcurrent])
    have hvalid : validPort (VpnRecords.int (endpointAt m e).1) = true := by
      rw [show VpnRecords.int (endpointAt m e).1 = named from hcurrent]
      exact validPort_of_namedFor hname
    rw [validated_of_valid hvalid] at hend
    rw [show server.get e.port = (endpointAt server e).1 from rfl, hend, defaulted_fst]
    exact hcurrent
  · have hend := endpointAt_named h hm hserver he hname hcurrent
    have hport : server.get e.port = .int named := congrArg Prod.fst hend
    rw [hport]
    rfl

end Server

/-- A valid port has a provenance that is known. -/
def Labelled (r : VpnServerRecord) : Prop :=
  ∀ e ∈ endpoints, validPort (VpnRecords.int (r.get e.port)) = true →
    r.get e.portSource ≠ VpnPortSource.UNKNOWN

instance (r : VpnServerRecord) : Decidable (Labelled r) := by
  unfold Labelled
  infer_instance

/-- A record with the identity that every parser writes first. -/
def identified (source : String) : VpnServerRecord :=
  setField (setField newServer ["identity", "hostname"] (.string "vpn1.opengw.net") source)
    ["identity", "ip"] (.string "1.2.3.4") source

theorem built_identified (source : String) : Built (identified source) [] :=
  (Built.newServer.setField (by decide) rfl source).setField (by decide) rfl source

/-- An API row without a profile. -/
def apiRow : VpnServerRecord := openVpnOfRow (identified "api") none "api"

/-- A row of the emergency file with a port of OpenVPN and no profile. -/
def emergencyRow : VpnServerRecord :=
  EmergencyCsvParser.applyOpenVpnColumnPort (identified "emergency") .tcp "1194"

theorem built_emergencyRow : Built emergencyRow [] :=
  (built_identified "emergency").applyOpenVpnColumnPort .tcp "1194"

end SoftEther.Merger
