import Mathlib.Data.List.DropRight
import Mathlib.Data.List.Nodup
import SoftEther.Persistence.Gson

namespace SoftEther.Persistence

open Lib

/-!
# The layouts in which a connection is stored

A class that Gson reads and writes is a table of keys: each member is stored under the name of its
`SerializedName`. What such a class does follows from its table.

* `VPNGateConnection` — a connection, by its 24 fields;
* `Layout` — a table of keys, with `Layout.write` and `Layout.fromJson`;
* `CollectorServerDto`, `LegacyR8Server22Dto`, … — the tables of the source;
* `Layout.fromJson_of_get` — **an object is read as it was written**, whatever else it holds.
-/

/-! ### Connections -/

/-- The backing fields of a connection. -/
inductive Field
  | hostName | ip | score | ping | speed | countryLong | countryShort | numVpnSession | uptime
  | totalUser | totalTraffic | logType | operator | message | openVpnConfigData | tcpPort | udpPort
  | isL2TPSupport | isSSTPSupport | sstpPort | sstpPortSource | seTcpPort | seUdpPort
  | seUdpSupported
  deriving DecidableEq

namespace Field

/-- The types of the fields. -/
abbrev kind : Field → Kind
  | hostName | ip | countryLong | countryShort | logType | operator | message
  | openVpnConfigData => .text
  | totalTraffic => .long
  | sstpPortSource => .source
  | seUdpSupported => .flag
  | _ => .int

/-- In the order of the source. -/
def all : List Field :=
  [hostName, ip, score, ping, speed, countryLong, countryShort, numVpnSession, uptime, totalUser,
    totalTraffic, logType, operator, message, openVpnConfigData, tcpPort, udpPort, isL2TPSupport,
    isSSTPSupport, sstpPort, sstpPortSource, seTcpPort, seUdpPort, seUdpSupported]

theorem mem_all (f : Field) : f ∈ all := by
  cases f <;> decide

end Field

namespace VpnPortSource

def EXPLICIT : Text := "EXPLICIT".toList

def DEFAULT : Text := "DEFAULT".toList

def UNKNOWN : Text := "UNKNOWN".toList

variable (jvm : Jvm)

/-- `trim`. -/
def trim (s : Text) : Text := (s.dropWhile jvm.isWhitespace).rdropWhile jvm.isWhitespace

/-- `VpnPortSource.normalized`. -/
def normalized (value : Option Text) : Text :=
  let name := value.map fun s => jvm.uppercase (trim jvm s)
  if name = some EXPLICIT then EXPLICIT
  else if name = some DEFAULT then DEFAULT
  else UNKNOWN

/-- The three names are themselves. -/
theorem normalized_name {s : Text} (h : s ∈ [EXPLICIT, DEFAULT, UNKNOWN]) :
    normalized jvm (some s) = s := by
  have hupper : ∀ c ∈ s, 65 ≤ c.toNat ∧ c.toNat ≤ 90 := by
    have hnames : [EXPLICIT, DEFAULT, UNKNOWN].all (fun s =>
        s.all fun c => decide (65 ≤ c.toNat ∧ c.toNat ≤ 90)) = true := by decide
    have hname := List.all_eq_true.mp hnames s h
    exact fun c hc => of_decide_eq_true (List.all_eq_true.mp hname c hc)
  have hblank : ∀ c ∈ s, ¬ jvm.isWhitespace c = true := fun c hc => by
    rw [jvm.isWhitespace_upper c (hupper c hc).1 (hupper c hc).2]
    decide
  have htrim : trim jvm s = s := by
    have hfront : s.dropWhile jvm.isWhitespace = s :=
      List.dropWhile_eq_self_iff.mpr fun hl => hblank _ (List.getElem_mem hl)
    rw [trim, hfront]
    exact List.rdropWhile_eq_self_iff.mpr fun hne => hblank _ (List.getLast_mem hne)
  unfold normalized
  simp only [Option.map_some, htrim, jvm.uppercase_upper s hupper, Option.some_inj]
  simp only [List.mem_cons, List.not_mem_nil, or_false] at h
  rcases h with rfl | rfl | rfl
  · rfl
  · rfl
  · rfl

theorem normalized_mem (value : Option Text) :
    normalized jvm value ∈ [EXPLICIT, DEFAULT, UNKNOWN] := by
  unfold normalized
  dsimp only
  split_ifs
  · exact List.mem_cons_self
  · exact List.mem_cons_of_mem _ List.mem_cons_self
  · exact List.mem_cons_of_mem _ (List.mem_cons_of_mem _ List.mem_cons_self)

end VpnPortSource

namespace Kind

/-- The value of a property that nothing has set. -/
def unset : (k : Kind) → k.Value
  | int => 0
  | long => 0
  | text => none
  | source => VpnPortSource.UNKNOWN
  | flag => false

/-- The default of a member. -/
def default : (k : Kind) → k.Stored
  | int => 0
  | long => 0
  | text => none
  | source => some VpnPortSource.UNKNOWN
  | flag => false

variable (jvm : Jvm)

/-- A member as a property: the source of a port is normalized. -/
def toValue : (k : Kind) → k.Stored → k.Value
  | int, v => v
  | long, v => v
  | text, v => v
  | source, v => VpnPortSource.normalized jvm v
  | flag, v => v

/-- A property as a member. -/
def ofValue : (k : Kind) → k.Value → k.Stored
  | int, v => v
  | long, v => v
  | text, v => v
  | source, v => some (VpnPortSource.normalized jvm (some v))
  | flag, v => v

/-- A text that may not be missing is. -/
def Lost : (k : Kind) → k.Stored → Prop
  | source, v => v = none
  | _, _ => False

theorem toValue_ofValue {k : Kind} (h : k ≠ .source) (v : k.Value) :
    k.toValue jvm (k.ofValue jvm v) = v := by
  cases k with
  | source => exact absurd rfl h
  | _ => rfl

theorem not_lost_ofValue (k : Kind) (v : k.Value) : ¬ k.Lost (k.ofValue jvm v) := by
  cases k with
  | source => exact nofun
  | _ => exact id

/-- What is omitted is the default. -/
theorem eq_default_of_write {k : Kind} {v : k.Stored} (h : k.write v = none)
    (hlost : ¬ k.Lost v) : v = k.default := by
  cases k with
  | int => exact absurd h nofun
  | long => exact absurd h nofun
  | text => exact Option.map_eq_none_iff.mp h
  | source => exact absurd (Option.map_eq_none_iff.mp h) hlost
  | flag => exact absurd h nofun

end Kind

/-- **A connection.** -/
abbrev VPNGateConnection := (f : Field) → f.kind.Value

namespace VPNGateConnection

/-- `VPNGateConnection()`. -/
def unset : VPNGateConnection := fun f => f.kind.unset

/-- The connection up to the provenance of its port, which is one of three names. -/
def normalizeSource (jvm : Jvm) (c : VPNGateConnection) : VPNGateConnection :=
  Function.update c .sstpPortSource (VpnPortSource.normalized jvm (some (c .sstpPortSource)))

end VPNGateConnection

/-! ### Tables of keys -/

/-- The members of a class that Gson builds. -/
abbrev Dto := (f : Field) → f.kind.Stored

/-- `from`. -/
def Dto.from (jvm : Jvm) (connection : VPNGateConnection) : Dto :=
  fun f => f.kind.ofValue jvm (connection f)

/-- **A table of keys**: no key stands for two fields, and no field has two keys. -/
structure Layout where
  members : List (Text × Field)
  keys_nodup : (members.map Prod.fst).Nodup
  fields_nodup : (members.map Prod.snd).Nodup

namespace Layout

variable (jvm : Jvm) (gson : Gson) (l : Layout)

/-- The key of a field. -/
def keyOf (f : Field) : Option Text := (l.members.find? fun m => m.2 = f).map Prod.fst

/-- The members that Gson writes. -/
def write (d : Dto) : List (Text × Json) :=
  l.members.filterMap fun m => (m.2.kind.write (d m.2)).map fun e => (m.1, e)

/-- The member of a field as it is read; none is an exception. -/
def member (obj : List (Text × Json)) (f : Field) : Option f.kind.Stored :=
  match (l.keyOf f).bind (Json.get obj) with
  | none => some f.kind.default
  | some e => (f.kind.read jvm e).map fun v => v.getD f.kind.default

/-- `fromJson`. -/
def fromJson (obj : List (Text × Json)) : Except RuntimeException Dto :=
  if Field.all.all fun f => (l.member jvm obj f).isSome then
    .ok fun f => (l.member jvm obj f).getD f.kind.default
  else .error (.jsonParse (gson.rejected (.object obj)))

/-- The assignments of `toConnection`; a field that has no key is not set. -/
def toConnection (d : Dto) : VPNGateConnection :=
  fun f => if (l.keyOf f).isSome then f.kind.toValue jvm (d f) else f.kind.unset

end Layout

/-- `LegacyVpnLastConnectionDto`, whose keys are those of `LegacyR8Server22Dto`. -/
def LegacyR8Server22Dto : Layout where
  members :=
    [("A".toList, .numVpnSession), ("B".toList, .uptime), ("C".toList, .totalUser),
      ("D".toList, .totalTraffic), ("E".toList, .logType), ("F".toList, .operator),
      ("G".toList, .message), ("H".toList, .openVpnConfigData), ("I".toList, .tcpPort),
      ("J".toList, .udpPort), ("K".toList, .isL2TPSupport), ("L".toList, .isSSTPSupport),
      ("M".toList, .seTcpPort), ("N".toList, .seUdpPort), ("O".toList, .seUdpSupported),
      ("t".toList, .hostName), ("u".toList, .ip), ("v".toList, .score), ("w".toList, .ping),
      ("x".toList, .speed), ("y".toList, .countryLong), ("z".toList, .countryShort)]
  keys_nodup := by decide
  fields_nodup := by decide

def LegacyR8Server23Dto : Layout where
  members :=
    [("A".toList, .uptime), ("B".toList, .totalUser), ("C".toList, .totalTraffic),
      ("D".toList, .logType), ("E".toList, .operator), ("F".toList, .message),
      ("G".toList, .openVpnConfigData), ("H".toList, .tcpPort), ("I".toList, .udpPort),
      ("J".toList, .isL2TPSupport), ("K".toList, .isSSTPSupport), ("L".toList, .seTcpPort),
      ("M".toList, .seUdpPort), ("N".toList, .sstpPort), ("O".toList, .seUdpSupported),
      ("s".toList, .hostName), ("t".toList, .ip), ("u".toList, .score), ("v".toList, .ping),
      ("w".toList, .speed), ("x".toList, .countryLong), ("y".toList, .countryShort),
      ("z".toList, .numVpnSession)]
  keys_nodup := by decide
  fields_nodup := by decide

def LegacyR8Server24Dto : Layout where
  members :=
    [("A".toList, .numVpnSession), ("B".toList, .uptime), ("C".toList, .totalUser),
      ("D".toList, .totalTraffic), ("E".toList, .logType), ("F".toList, .operator),
      ("G".toList, .message), ("H".toList, .openVpnConfigData), ("I".toList, .tcpPort),
      ("J".toList, .udpPort), ("K".toList, .isL2TPSupport), ("L".toList, .isSSTPSupport),
      ("M".toList, .sstpPort), ("N".toList, .sstpPortSource), ("O".toList, .seTcpPort),
      ("P".toList, .seUdpPort), ("Q".toList, .seUdpSupported), ("t".toList, .hostName),
      ("u".toList, .ip), ("v".toList, .score), ("w".toList, .ping), ("x".toList, .speed),
      ("y".toList, .countryLong), ("z".toList, .countryShort)]
  keys_nodup := by decide
  fields_nodup := by decide

/-- The members of `CollectorServerDto`, and of `VpnLastConnectionDto` behind its first: the names
of the fields. -/
def CollectorServerDto : Layout where
  members :=
    [("hostName".toList, .hostName), ("ip".toList, .ip), ("score".toList, .score),
      ("ping".toList, .ping), ("speed".toList, .speed), ("countryLong".toList, .countryLong),
      ("countryShort".toList, .countryShort), ("numVpnSession".toList, .numVpnSession),
      ("uptime".toList, .uptime), ("totalUser".toList, .totalUser),
      ("totalTraffic".toList, .totalTraffic), ("logType".toList, .logType),
      ("operator".toList, .operator), ("message".toList, .message),
      ("openVpnConfigData".toList, .openVpnConfigData), ("tcpPort".toList, .tcpPort),
      ("udpPort".toList, .udpPort), ("isL2TPSupport".toList, .isL2TPSupport),
      ("isSSTPSupport".toList, .isSSTPSupport), ("sstpPort".toList, .sstpPort),
      ("sstpPortSource".toList, .sstpPortSource), ("seTcpPort".toList, .seTcpPort),
      ("seUdpPort".toList, .seUdpPort), ("seUdpSupported".toList, .seUdpSupported)]
  keys_nodup := by decide
  fields_nodup := by decide

/-- **A connection goes through its members** up to the provenance of its port. -/
theorem toConnection_from (jvm : Jvm) {l : Layout} (hall : ∀ f, (l.keyOf f).isSome)
    (c : VPNGateConnection) : l.toConnection jvm (.from jvm c) = c.normalizeSource jvm := by
  funext f
  rw [Layout.toConnection, if_pos (hall f)]
  by_cases hf : f = .sstpPortSource
  · subst hf
    rw [VPNGateConnection.normalizeSource, Function.update_self]
    exact VpnPortSource.normalized_name jvm (VpnPortSource.normalized_mem jvm _)
  · rw [VPNGateConnection.normalizeSource, Function.update_of_ne hf]
    refine Kind.toValue_ofValue jvm (fun hkind => hf ?_) _
    cases f <;> first | rfl | exact absurd hkind nofun

namespace Layout

/-! ### Reading -/

variable {jvm : Jvm} {gson : Gson} {l : Layout}

variable {obj : List (Text × Json)} {d : Dto} {f : Field} {key : Text}

/-- **What is read of an object.** -/
theorem fromJson_eq_ok :
    l.fromJson jvm gson obj = .ok d ↔ ∀ f, l.member jvm obj f = some (d f) := by
  unfold fromJson
  split_ifs with hall
  · have hsome : ∀ f, ∃ v, l.member jvm obj f = some v := fun f =>
      Option.isSome_iff_exists.mp (List.all_eq_true.mp hall f (Field.mem_all f))
    rw [Except.ok.injEq]
    constructor
    · rintro rfl f
      obtain ⟨v, hv⟩ := hsome f
      simp only [hv, Option.getD_some]
    · intro h
      funext f
      rw [h f]
      rfl
  · refine iff_of_false nofun fun h => hall (List.all_eq_true.mpr fun f _ => ?_)
    rw [h f]
    rfl

theorem keyOf_eq_some : l.keyOf f = some key ↔ (key, f) ∈ l.members := by
  unfold keyOf
  constructor
  · intro h
    obtain ⟨m, hm, rfl⟩ := Option.map_eq_some_iff.mp h
    have hf := List.find?_some hm
    rw [← of_decide_eq_true hf]
    exact List.mem_of_find?_eq_some hm
  · intro h
    obtain ⟨m, hm⟩ : ∃ m, l.members.find? (fun m => m.2 = f) = some m :=
      Option.isSome_iff_exists.mp (List.find?_isSome.mpr ⟨_, h, by simp⟩)
    have hf := List.find?_some hm
    have hmem := List.mem_of_find?_eq_some hm
    have heq : m = (key, f) :=
      List.inj_on_of_nodup_map l.fields_nodup hmem h (of_decide_eq_true hf)
    rw [hm, heq]
    rfl

/-- A key stands for one field. -/
theorem field_unique {f' : Field} (h : (key, f) ∈ l.members) (h' : (key, f') ∈ l.members) :
    f = f' := by
  have heq : (key, f) = (key, f') := List.inj_on_of_nodup_map l.keys_nodup h h' rfl
  exact congrArg Prod.snd heq

/-- **No member is of a wrong type.** -/
def Readable (jvm : Jvm) (l : Layout) (obj : List (Text × Json)) : Prop :=
  ∀ key f, (key, f) ∈ l.members → ∀ e, Json.get obj key = some e → (f.kind.read jvm e).isSome

variable (gson) in
/-- An object is read when no member is of a wrong type. -/
theorem exists_fromJson : (∃ d, l.fromJson jvm gson obj = .ok d) ↔ l.Readable jvm obj := by
  constructor
  · rintro ⟨d, hd⟩ key f hmem e he
    have hf := fromJson_eq_ok.mp hd f
    rw [member, keyOf_eq_some.mpr hmem, Option.bind_some, he] at hf
    obtain ⟨v, hv, -⟩ := Option.map_eq_some_iff.mp hf
    rw [hv]
    rfl
  · intro h
    have hmember : ∀ f, ∃ v, l.member jvm obj f = some v := by
      intro f
      unfold member
      cases hget : (l.keyOf f).bind (Json.get obj) with
      | none => exact ⟨_, rfl⟩
      | some e =>
        obtain ⟨key, hkey, he⟩ := Option.bind_eq_some_iff.mp hget
        obtain ⟨v, hv⟩ := Option.isSome_iff_exists.mp (h key f (keyOf_eq_some.mp hkey) e he)
        exact ⟨v.getD f.kind.default, congrArg (Option.map fun v => v.getD f.kind.default) hv⟩
    choose d hd using hmember
    exact ⟨d, fromJson_eq_ok.mpr hd⟩

variable (jvm gson) in
/-- **An object of members of the right types** is read as what they stand for. -/
theorem fromJson_of_holds (h : ∀ key f, (key, f) ∈ l.members → ∀ e, Json.get obj key = some e →
      ∃ v : f.kind.Stored, f.kind.Holds e v) :
    ∃ d, l.fromJson jvm gson obj = .ok d ∧ ∀ key f, (key, f) ∈ l.members →
      (Json.get obj key = none → d f = f.kind.default) ∧
        ∀ e v, Json.get obj key = some e → f.kind.Holds e v → d f = v := by
  have hread : l.Readable jvm obj := fun key f hmem e he => by
    obtain ⟨v, hv⟩ := h key f hmem e he
    rw [Kind.read_of_holds hv]
    rfl
  obtain ⟨d, hd⟩ := (exists_fromJson gson).mpr hread
  refine ⟨d, hd, fun key f hmem => ?_⟩
  have hf := fromJson_eq_ok.mp hd f
  rw [member, keyOf_eq_some.mpr hmem, Option.bind_some] at hf
  constructor
  · intro hnone
    rw [hnone] at hf
    exact (Option.some.inj hf).symm
  · intro e v he hv
    rw [he] at hf
    have hvalue : (f.kind.read jvm e).map (fun v => v.getD f.kind.default) = some (d f) := hf
    rw [Kind.read_of_holds hv] at hvalue
    exact (Option.some.inj hvalue).symm

variable (jvm gson) in
/-- **An object is read as it was written**, whatever else it holds. -/
theorem fromJson_of_get
    (hget : ∀ key f, (key, f) ∈ l.members → Json.get obj key = f.kind.write (d f))
    (hlost : ∀ f : Field, ¬ f.kind.Lost (d f)) :
    ∃ d', l.fromJson jvm gson obj = .ok d' ∧ ∀ f, (l.keyOf f).isSome → d' f = d f := by
  obtain ⟨d', hd', hvalue⟩ := fromJson_of_holds jvm gson (l := l)
    fun key f hmem e he => ⟨d f, Kind.holds_of_write ((hget key f hmem).symm.trans he)⟩
  refine ⟨d', hd', fun f hf => ?_⟩
  obtain ⟨key, hkey⟩ := Option.isSome_iff_exists.mp hf
  have hmem := keyOf_eq_some.mp hkey
  cases hwrite : f.kind.write (d f) with
  | none =>
    rw [(hvalue key f hmem).1 ((hget key f hmem).trans hwrite)]
    exact (Kind.eq_default_of_write hwrite (hlost f)).symm
  | some e =>
    exact (hvalue key f hmem).2 e (d f) ((hget key f hmem).trans hwrite)
      (Kind.holds_of_write hwrite)

/-! ### Writing -/

theorem get_filterMap {members : List (Text × Field)} (hkeys : (members.map Prod.fst).Nodup)
    (w : Field → Option Json) (h : (key, f) ∈ members) :
    Json.get (members.filterMap fun m => (w m.2).map fun e => (m.1, e)) key = w f := by
  induction members with
  | nil => exact absurd h List.not_mem_nil
  | cons m ms ih =>
    rw [List.map_cons, List.nodup_cons] at hkeys
    rcases List.mem_cons.mp h with rfl | h
    · cases hw : w f with
      | none =>
        rw [List.filterMap_cons_none (by rw [hw]; rfl)]
        apply Json.get_eq_none
        rintro m' hm' rfl
        obtain ⟨m, hm, hmap⟩ := List.mem_filterMap.mp hm'
        obtain ⟨e, -, rfl⟩ := Option.map_eq_some_iff.mp hmap
        exact hkeys.1 (List.mem_map.mpr ⟨m, hm, rfl⟩)
      | some e =>
        rw [List.filterMap_cons_some (b := (key, e)) (by rw [hw]; rfl), Json.get_cons_self]
    · have hne : m.1 ≠ key := by
        rintro rfl
        exact hkeys.1 (List.mem_map.mpr ⟨_, h, rfl⟩)
      cases hw : w m.2 with
      | none => rw [List.filterMap_cons_none (by rw [hw]; rfl), ih hkeys.2 h]
      | some e =>
        rw [List.filterMap_cons_some (b := (m.1, e)) (by rw [hw]; rfl),
          Json.get_cons_of_ne hne, ih hkeys.2 h]

/-- What is found of what was written. -/
theorem get_write (d : Dto) (h : (key, f) ∈ l.members) :
    Json.get (l.write d) key = f.kind.write (d f) :=
  get_filterMap l.keys_nodup (fun f => f.kind.write (d f)) h

/-- The keys that are written are keys of the table. -/
theorem mem_of_mem_write {m : Text × Json} (h : m ∈ l.write d) :
    ∃ f, (m.1, f) ∈ l.members ∧ f.kind.write (d f) = some m.2 := by
  obtain ⟨⟨key, f⟩, hmem, hmap⟩ := List.mem_filterMap.mp h
  obtain ⟨e, he, rfl⟩ := Option.map_eq_some_iff.mp hmap
  exact ⟨f, hmem, he⟩

theorem keys_write_sublist (d : Dto) :
    ((l.write d).map Prod.fst).Sublist (l.members.map Prod.fst) := by
  unfold write
  induction l.members with
  | nil => exact List.Sublist.refl _
  | cons m ms ih =>
    cases hw : m.2.kind.write (d m.2) with
    | none =>
      rw [List.filterMap_cons_none (by rw [hw]; rfl)]
      exact ih.cons _
    | some e =>
      rw [List.filterMap_cons_some (b := (m.1, e)) (by rw [hw]; rfl)]
      exact ih.cons_cons _

/-- An object that was written is flat. -/
theorem within_write (d : Dto) (n : ℕ) : Json.Within (n + 1) (.object (l.write d)) := by
  refine ⟨l.keys_nodup.sublist (keys_write_sublist d), fun m hm => ?_⟩
  obtain ⟨f, -, hwrite⟩ := mem_of_mem_write hm
  exact Kind.within_of_write hwrite n

end Layout

end SoftEther.Persistence
