import SoftEther.Merger.Claims

namespace SoftEther.Merger

open Lib

/-!
# How the parsers build a record (`VpnRecords`)

Every parser starts with `newServer` and writes through `setField`, which names its source for what
it writes. Nothing else puts a scalar into a record, but for `emergency`.

* `newServer`, `isUnset`, `setField`, `markSupported` — the functions of the source;
* `serverLeaves` — the scalar leaves of a server record;
* `hasLeaf_newServer`, `HasLeaves.setField` — a record that is built so has them all.
-/

/-! ### The functions of the source -/

namespace VpnPortSource

def EXPLICIT : Scalar := .string "EXPLICIT"

def DEFAULT : Scalar := .string "DEFAULT"

def UNKNOWN : Scalar := .string "UNKNOWN"

end VpnPortSource

/-- The transports of OpenVPN and SoftEther. -/
inductive Transport
  | tcp
  | udp
  deriving DecidableEq

/-- The name of a transport. -/
def Transport.name : Transport → String
  | tcp => "tcp"
  | udp => "udp"

/-- Where a record has a port. -/
inductive Endpoint
  | softether (t : Transport)
  | openvpn (t : Transport)
  | l2tpIpsec
  | sstp
  deriving DecidableEq

namespace Endpoint

/-- The path of an endpoint. -/
def path : Endpoint → Path
  | softether t => ["protocols", "softether", t.name]
  | openvpn t => ["protocols", "openvpn", t.name]
  | l2tpIpsec => ["protocols", "l2tpIpsec"]
  | sstp => ["protocols", "sstp"]

/-- The leaf that says whether it is there. -/
def supported (e : Endpoint) : Path := e.path ++ ["supported"]

/-- The leaf of its port. -/
def port (e : Endpoint) : Path := e.path ++ ["port"]

/-- The leaf that says where the port is from. -/
def portSource (e : Endpoint) : Path := e.path ++ ["portSource"]

end Endpoint

/-- The entries of a transport of a new record. -/
def newTransport : Fields :=
  [("supported", .scalar (.boolean false)), ("port", .scalar .null),
    ("portSource", .scalar VpnPortSource.UNKNOWN)]

/-- The `fields` of a new record. -/
def newServerFields : Fields :=
  let text : Value := .scalar (.string "")
  let number : Value := .scalar (.int 0)
  let real : Value := .scalar (.double 0)
  [("schemaVersion", .scalar (.string "4.0")),
    ("identity", .map [("hostname", text), ("ip", text), ("ispHostname", text), ("country", text),
      ("countryLong", text)]),
    ("performance", .map [("score", number), ("pingMs", real), ("speedMbps", real),
      ("sessions", number), ("uptimeDays", real), ("totalUsers", number),
      ("totalTrafficGB", real)]),
    ("logging", .map [("policy", text)]),
    ("operator", .map [("name", text), ("message", text)]),
    ("protocols", .map [
      ("softether", .map [("supported", .scalar (.boolean false)), ("tcp", .map newTransport),
        ("udp", .map (newTransport ++ [("dynamicPort", .scalar (.boolean false))]))]),
      ("openvpn", .map [("supported", .scalar (.boolean false)), ("tcp", .map newTransport),
        ("udp", .map newTransport), ("configAvailable", .scalar (.boolean false)),
        ("configs", .list [])]),
      ("l2tpIpsec", .map newTransport),
      ("sstp", .map [("supported", .scalar (.boolean false)), ("hostname", text),
        ("port", .scalar .null), ("portSource", .scalar VpnPortSource.UNKNOWN)])])]

/-- `newServer`. -/
def newServer : VpnServerRecord where
  fields := newServerFields
  sources := []
  sourceCount := 0
  fieldSources := fun _ => []
  trailing :=
    [("quality", .map [("overall", .scalar (.int 0)), ("softether", .scalar (.int 0)),
      ("openvpn", .scalar (.int 0)), ("sstp", .scalar (.int 0)), ("l2tp", .scalar (.int 0))]),
      ("valid", .scalar (.boolean true))]
  conflicts := []

/-- `isUnset` of a scalar: in a `portSource` leaf `UNKNOWN` is nothing, too. -/
def isUnset (path : Path) : Scalar → Bool
  | .string s => s = "" || (1 < path.length && path.getLast? = some "portSource" &&
      .string s = VpnPortSource.UNKNOWN)
  | s => isFalsyScalar s

/-- `isUnset` of what stands at a path. -/
def isUnsetAt (path : Path) : Option Value → Bool
  | none => true
  | some (.scalar s) => isUnset path s
  | some (.list items) => items.isEmpty
  | some (.map _) => false

/-- The entries that `newServer` creates ahead of the provenance. -/
def describedKeys : List String :=
  ["schemaVersion", "identity", "performance", "logging", "operator", "protocols"]

/-- The leaf of a path: what does not begin with a described key stands behind the provenance. -/
def leafOf (path : Path) : Leaf where
  path := path
  late := path.head?.all (· ∉ describedKeys)

/-- The record with a part of it replaced. -/
def VpnServerRecord.written (r : VpnServerRecord) (l : Leaf) (fields : Fields) : VpnServerRecord :=
  { r with
    fields := if l.late then r.fields else fields
    trailing := if l.late then fields else r.trailing }

/-- `record["a"]["b"]… = value`. -/
def VpnServerRecord.put (r : VpnServerRecord) (path : Path) (value : Scalar) : VpnServerRecord :=
  r.written (leafOf path) ((r.part (leafOf path)).putAt path (.scalar value))

/-- `setField` of a scalar; no caller asks it to overwrite. -/
def setField (r : VpnServerRecord) (path : Path) (value : Scalar) (source : String) :
    VpnServerRecord :=
  if isUnset path value then r
  else
    let l := leafOf path
    { if isUnsetAt path ((r.part l).valueAt path) then r.put path value else r with
      fieldSources := fun p =>
        if p = path then addMissing (r.fieldSources p) [source] else r.fieldSources p }

/-- `markSupported`. -/
def markSupported (r : VpnServerRecord) (protocol source : String) : VpnServerRecord :=
  setField r ["protocols", protocol, "supported"] (.boolean true) source

/-! ### The leaves of a record -/

/-- The scalar at a path of the described fields. -/
def VpnServerRecord.get (r : VpnServerRecord) (path : Path) : Scalar :=
  scalarOf (r.fields.valueAt path)

/-- Where the remotes of the profiles are. -/
def configsPath : Path := ["protocols", "openvpn", "configs"]

/-- The remotes of the profiles. -/
def VpnServerRecord.configs (r : VpnServerRecord) : List Value :=
  childList (r.fields.valueAt configsPath)

/-- The scalar leaves of a server record. -/
def serverLeaves : List Leaf :=
  let transport (e : Endpoint) : List Path := [e.supported, e.port, e.portSource]
  let paths : List Path :=
    ["hostname", "ip", "ispHostname", "country", "countryLong"].map (["identity", ·]) ++
    ["score", "pingMs", "speedMbps", "sessions", "uptimeDays", "totalUsers",
      "totalTrafficGB"].map (["performance", ·]) ++
    [["logging", "policy"], ["operator", "name"], ["operator", "message"],
      ["protocols", "softether", "supported"], ["protocols", "softether", "udp", "dynamicPort"],
      ["protocols", "openvpn", "supported"], ["protocols", "openvpn", "configAvailable"],
      ["protocols", "openvpn", "rawConfig"], ["protocols", "sstp", "hostname"]] ++
    transport (.softether .tcp) ++ transport (.softether .udp) ++ transport (.openvpn .tcp) ++
    transport (.openvpn .udp) ++ transport .l2tpIpsec ++ transport .sstp ++
    ["overall", "softether", "openvpn", "sstp", "l2tp"].map (["quality", ·]) ++
    [["valid"], ["emergency", "sourceTag"], ["emergency", "csvSourceTag"]]
  paths.map leafOf

/-- **A new record has every leaf.** -/
theorem hasLeaf_newServer : ∀ l ∈ serverLeaves, newServer.HasLeaf l := by
  decide

/-- No leaf is a part of the path to another. -/
theorem serverLeaves_apart : ∀ l ∈ serverLeaves, ∀ l' ∈ serverLeaves,
    l.path <+: l'.path → l = l' := by
  decide

theorem serverLeaves_leafOf : ∀ l ∈ serverLeaves, l = leafOf l.path := by
  decide

/-! ### Writing a leaf -/

/-- What `setField` makes of a claim at its path. -/
def Claim.set (c : Claim) (path : Path) (value : Scalar) (source : String) : Claim :=
  if isUnset path value then c
  else
    { value := if isUnset path c.value then value else c.value
      owners := addMissing c.owners [source] }

theorem isUnsetAt_eq {path : Path} {old : Option Value}
    (h : ∀ v, old = some v → ∃ s, v = .scalar s) :
    isUnsetAt path old = isUnset path (scalarOf old) := by
  cases old with
  | none => rfl
  | some v =>
    obtain ⟨s, rfl⟩ := h v rfl
    rfl

namespace VpnServerRecord

variable {r : VpnServerRecord} {l : Leaf} {path : Path}

/-- **A write to a path leaves the other leaves.** -/
theorem HasLeaf.written_of_ne (h : r.HasLeaf l) (hpath : (r.part (leafOf path)).Walkable path)
    (hl : l = leafOf l.path) (hapart : ¬ path <+: l.path ∧ ¬ l.path <+: path) (value : Value) :
    (r.written (leafOf path) ((r.part (leafOf path)).putAt path value)).HasLeaf l ∧
      (r.written (leafOf path) ((r.part (leafOf path)).putAt path value)).claimAt l =
        r.claimAt l := by
  by_cases hlate : l.late = (leafOf path).late
  · -- the same part
    have hpart : r.part (leafOf path) = r.part l := by rw [part, part, hlate]
    have hpartWritten : ∀ fields, (r.written (leafOf path) fields).part l = fields := by
      intro fields
      unfold part VpnServerRecord.written
      rw [hlate]
      split_ifs <;> rfl
    have hother : ∀ fields, (r.written (leafOf path) fields).otherPart l = r.otherPart l := by
      intro fields
      unfold otherPart VpnServerRecord.written
      rw [hlate]
      split_ifs <;> rfl
    have hwalk : (r.part l).Walkable path := hpart ▸ hpath
    obtain ⟨hwalk', hvalue⟩ := h.walkable.putAt_of_ne hwalk hapart.1 hapart.2 value
    rw [hpart]
    refine ⟨⟨h.merged, ?_, ?_, ?_, ?_⟩, ?_⟩
    · rw [hpartWritten]
      exact hwalk'
    · rw [hpartWritten, hvalue]
      exact h.scalar
    · rw [hother]
      exact h.keyed
    · rw [hother]
      exact h.alone
    · rw [claimAt, claimAt, hpartWritten, hvalue]
      rfl
  · -- the other part, and another key there
    have hflip : (leafOf path).late = !l.late := Bool.eq_not.mpr (Ne.symm hlate)
    have hpartWritten : ∀ fields, (r.written (leafOf path) fields).part l = r.part l := by
      intro fields
      unfold part VpnServerRecord.written
      rw [hflip]
      cases l.late <;> rfl
    have hother : ∀ fields, (r.written (leafOf path) fields).otherPart l = fields := by
      intro fields
      unfold otherPart VpnServerRecord.written
      rw [hflip]
      cases l.late <;> rfl
    have hotherPart : r.part (leafOf path) = r.otherPart l := by
      unfold part otherPart
      rw [hflip]
      cases l.late <;> rfl
    refine ⟨⟨h.merged, ?_, ?_, ?_, ?_⟩, ?_⟩
    · rw [hpartWritten]
      exact h.walkable
    · rw [hpartWritten]
      exact h.scalar
    · rw [hother, hotherPart]
      exact Fields.keyed_putAt h.keyed _ _
    · intro key hkey
      rw [hother, hotherPart, Fields.read_putAt_of_ne]
      · exact h.alone key hkey
      · -- the two begin with keys of different parts
        intro hhead
        apply hlate
        have hsame : l.path.head? = path.head? := by rw [hhead, Option.mem_def.mp hkey]
        rw [hl]
        unfold leafOf
        rw [hsame]
    · rw [claimAt, claimAt, hpartWritten]
      rfl

/-- **A write to a leaf is read there.** -/
theorem HasLeaf.put_self (h : r.HasLeaf (leafOf path)) (value : Scalar) :
    (r.put path value).HasLeaf (leafOf path) ∧
      (r.put path value).claimAt (leafOf path) =
        { r.claimAt (leafOf path) with value := value } := by
  unfold VpnServerRecord.put
  have hpart : ∀ fields, (r.written (leafOf path) fields).part (leafOf path) = fields := by
    intro fields
    unfold part VpnServerRecord.written
    split_ifs <;> rfl
  have hother : ∀ fields, (r.written (leafOf path) fields).otherPart (leafOf path) =
      r.otherPart (leafOf path) := by
    intro fields
    unfold otherPart VpnServerRecord.written
    split_ifs <;> rfl
  have hne : path ≠ [] := by
    intro hnil
    have hwalk := h.walkable
    rw [hnil] at hwalk
    exact hwalk.elim
  have hvalue : ((r.part (leafOf path)).putAt path (.scalar value)).valueAt path =
      some (.scalar value) := Fields.valueAt_putAt_self hne _ _
  refine ⟨⟨h.merged, ?_, ?_, ?_, ?_⟩, ?_⟩
  · rw [hpart]
    exact h.walkable.putAt_self _
  · rw [hpart]
    intro v hv
    change ((r.part (leafOf path)).putAt path (.scalar value)).valueAt path = some v at hv
    rw [hvalue] at hv
    exact ⟨value, (Option.some.inj hv).symm⟩
  · rw [hother]
    exact h.keyed
  · rw [hother]
    exact h.alone
  · rw [claimAt, hpart]
    change Claim.mk
      (scalarOf (((r.part (leafOf path)).putAt path (.scalar value)).valueAt path)) _ = _
    rw [hvalue]
    rfl

/-- A record with all scalar leaves. -/
def HasLeaves (r : VpnServerRecord) : Prop := ∀ l ∈ serverLeaves, r.HasLeaf l

/-- **A write changes one leaf.** -/
theorem HasLeaves.put (h : r.HasLeaves) (hpath : leafOf path ∈ serverLeaves) (value : Scalar) :
    (r.put path value).HasLeaves ∧ ∀ l ∈ serverLeaves, (r.put path value).claimAt l =
      if l.path = path then { r.claimAt l with value := value } else r.claimAt l := by
  have hone : ∀ l ∈ serverLeaves, (r.put path value).HasLeaf l ∧ (r.put path value).claimAt l =
      if l.path = path then { r.claimAt l with value := value } else r.claimAt l := by
    intro l hl
    have hself := serverLeaves_leafOf l hl
    by_cases hsame : l.path = path
    · rw [if_pos hsame]
      rw [hsame] at hself
      rw [hself]
      exact (h _ hpath).put_self value
    · rw [if_neg hsame]
      refine (h l hl).written_of_ne (h _ hpath).walkable hself ⟨?_, ?_⟩ (.scalar value)
      · intro hprefix
        have heq := serverLeaves_apart _ hpath l hl hprefix
        exact hsame (by rw [← heq]; rfl)
      · intro hprefix
        have heq := serverLeaves_apart l hl _ hpath hprefix
        exact hsame (by rw [heq]; rfl)
  exact ⟨fun l hl => (hone l hl).1, fun l hl => (hone l hl).2⟩

/-- **`setField` changes one leaf.** -/
theorem HasLeaves.setField (h : r.HasLeaves) (hpath : leafOf path ∈ serverLeaves) (value : Scalar)
    (source : String) :
    (setField r path value source).HasLeaves ∧
      ∀ l ∈ serverLeaves, (setField r path value source).claimAt l =
        if l.path = path then (r.claimAt l).set path value source else r.claimAt l := by
  unfold Merger.setField
  by_cases hvalue : isUnset path value
  · rw [if_pos hvalue]
    refine ⟨h, fun l hl => ?_⟩
    rw [Claim.set, if_pos hvalue, ite_self]
  · rw [if_neg hvalue]
    obtain ⟨hput, hclaim⟩ := h.put hpath value
    have hunset : isUnsetAt path ((r.part (leafOf path)).valueAt path) =
        isUnset path (r.claimAt (leafOf path)).value := isUnsetAt_eq (h _ hpath).scalar
    have howners : ∀ l : Leaf, (if l.path = path then addMissing (r.fieldSources l.path) [source]
        else r.fieldSources l.path) = (if l.path = path then (r.claimAt l).set path value source
          else r.claimAt l).owners := by
      intro l
      split_ifs
      · rw [Claim.set, if_neg hvalue]
        rfl
      · rfl
    dsimp only
    rw [hunset]
    by_cases hold : isUnset path (r.claimAt (leafOf path)).value
    · rw [if_pos hold]
      refine ⟨fun l hl => ⟨(hput l hl).merged, (hput l hl).walkable, (hput l hl).scalar,
        (hput l hl).keyed, (hput l hl).alone⟩, fun l hl => Claim.ext ?_ ?_⟩
      · change ((r.put path value).claimAt l).value = _
        rw [hclaim l hl]
        by_cases hsame : l.path = path
        · have hself := serverLeaves_leafOf l hl
          rw [hsame] at hself
          rw [if_pos hsame, if_pos hsame, Claim.set, if_neg hvalue, hself, if_pos hold]
        · rw [if_neg hsame, if_neg hsame]
      · exact howners l
    · rw [if_neg hold]
      refine ⟨fun l hl => ⟨(h l hl).merged, (h l hl).walkable, (h l hl).scalar,
        (h l hl).keyed, (h l hl).alone⟩, fun l hl => Claim.ext ?_ ?_⟩
      · change (r.claimAt l).value = _
        by_cases hsame : l.path = path
        · have hself := serverLeaves_leafOf l hl
          rw [hsame] at hself
          rw [if_pos hsame, Claim.set, if_neg hvalue, hself, if_neg hold]
        · rw [if_neg hsame]
      · exact howners l

end VpnServerRecord

end SoftEther.Merger
