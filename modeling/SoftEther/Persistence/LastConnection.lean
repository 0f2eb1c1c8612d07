import SoftEther.Persistence.Layout

namespace SoftEther.Persistence

open Lib

/-!
# The last connection (`VpnLastConnectionStore`)

* `encode`, `decode` — the functions of the source;
* `decode_encode` — a connection is read as it was stored;
* `decode_of_legacyTyped` — an object of the old layout is read as one;
* `decodeCanonical_cases` — a payload that carries a version is accepted when the version is
  narrowed to the one of this store, every member is of its type, and there is a host name;
* `decode_sound_iff` — what holds of the store.
-/

/-- The version of both stores. -/
def SCHEMA_VERSION : Int32 := 1

/-- The key of the version. -/
def KEY_SCHEMA_VERSION : Text := "schemaVersion".toList

/-- `isBlank`. -/
def isBlank (jvm : Jvm) (s : Text) : Bool := s.all jvm.isWhitespace

/-- The host name, unless it is blank. -/
def identity (jvm : Jvm) (d : Dto) : Option Text := (d .hostName).filter (!isBlank jvm ·)

/-- `isNumber` is assumed: `asInt` of a number. -/
def asInt (literal : Text) : Except RuntimeException Int32 :=
  match intValue literal with
  | some v => .ok v
  | none => .error (.numberFormat literal)

/-- The decimal text of an `Int` in a message. -/
def intText (v : Int32) : Text := Decimal.text v.toInt

/-! ### The classes -/

namespace VpnLastConnectionDto

variable (jvm : Jvm) (gson : Gson)

/-- What is written: the version first. -/
def write (d : Dto) : List (Text × Json) :=
  (KEY_SCHEMA_VERSION, .number (intText SCHEMA_VERSION)) :: CollectorServerDto.write d

/-- `fromJson`, whose first member is the version, an `Int`. -/
def fromJson (obj : List (Text × Json)) : Except RuntimeException Dto :=
  if (Json.get obj KEY_SCHEMA_VERSION).all fun e => (Kind.int.read jvm e).isSome then
    CollectorServerDto.fromJson jvm gson obj
  else .error (.jsonParse (gson.rejected (.object obj)))

/-- `toConnection`. -/
def toConnection (d : Dto) : Option VPNGateConnection :=
  (identity jvm d).map fun _ => CollectorServerDto.toConnection jvm d

end VpnLastConnectionDto

/-- `LegacyVpnLastConnectionDto.toConnection`. -/
def LegacyVpnLastConnectionDto.toConnection (jvm : Jvm) (d : Dto) : Option VPNGateConnection :=
  let sstpSupported : Bool := (d .isSSTPSupport : Int32) = 1
  (identity jvm d).map fun _ =>
    Function.update
      (Function.update (LegacyR8Server22Dto.toConnection jvm d) .sstpPort (0 : Int32))
      .sstpPortSource (if sstpSupported then VpnPortSource.DEFAULT else VpnPortSource.UNKNOWN)

/-! ### The store -/

namespace VpnLastConnectionStore

inductive Format
  | CANONICAL | LEGACY_R8
  deriving DecidableEq

inductive DecodeResult
  | Decoded (connection : VPNGateConnection) (format : Format)
  | Invalid (reason : Text)

/-- The keys of the older layout. -/
def LEGACY_KEYS : Text := "ABCDEFGHIJKLMNOPtuvwxyz".toList

variable (jvm : Jvm) (gson : Gson)

def encode (connection : VPNGateConnection) : Text :=
  gson.toJson (.object (VpnLastConnectionDto.write (.from jvm connection)))

def decodeCanonical (obj : List (Text × Json)) (schema : Json) :
    Except RuntimeException DecodeResult :=
  match schema with
  | .number literal =>
    match asInt literal with
    | .error (.numberFormat m) =>
      .ok (.Invalid ("'schemaVersion' is not an int: ".toList ++ m))
    | .error e => .error e
    | .ok version =>
      if version ≠ SCHEMA_VERSION then
        .ok (.Invalid ("unsupported schemaVersion ".toList ++ intText version))
      else
        match VpnLastConnectionDto.fromJson jvm gson obj with
        | .error e => .ok (.Invalid ("canonical payload rejected: ".toList ++ e.message))
        | .ok dto =>
          match VpnLastConnectionDto.toConnection jvm dto with
          | none => .ok (.Invalid "canonical payload has no hostName".toList)
          | some connection => .ok (.Decoded connection .CANONICAL)
  | _ => .ok (.Invalid "'schemaVersion' is not a number".toList)

def decodeLegacy (obj : List (Text × Json)) : Except RuntimeException DecodeResult :=
  match LegacyR8Server22Dto.fromJson jvm gson obj with
  | .error e => .ok (.Invalid ("legacy payload rejected: ".toList ++ e.message))
  | .ok dto =>
    match LegacyVpnLastConnectionDto.toConnection jvm dto with
    | none => .ok (.Invalid "legacy payload has no hostName".toList)
    | some connection => .ok (.Decoded connection .LEGACY_R8)

def decode (json : Text) : Except RuntimeException DecodeResult :=
  match gson.parseString json with
  | .error (.jsonParse m) => .ok (.Invalid ("malformed json: ".toList ++ m))
  | .error e => .ok (.Invalid ("unreadable json: ".toList ++ e.message))
  | .ok (.object obj) =>
    let legacyKeyCount := LEGACY_KEYS.countP fun c => (Json.get obj [c]).isSome
    match Json.get obj KEY_SCHEMA_VERSION with
    | none | some .null =>
      if legacyKeyCount = 0 then
        .ok (.Invalid
          "no 'schemaVersion' and no legacy R8 keys (0 found)".toList)
      else decodeLegacy jvm gson obj
    | some schema => decodeCanonical jvm gson obj schema
  | .ok _ => .ok (.Invalid "payload is not a json object".toList)

variable {jvm gson}

/-! ### A connection is read as it was stored -/

theorem keyOf_CollectorServerDto (f : Field) : (CollectorServerDto.keyOf f).isSome := by
  cases f <;> decide

/-- The version is no key of a field. -/
theorem key_ne {key : Text} {f : Field} (h : (key, f) ∈ CollectorServerDto.members) :
    KEY_SCHEMA_VERSION ≠ key := by
  have hall : CollectorServerDto.members.all (fun m => decide (KEY_SCHEMA_VERSION ≠ m.1)) = true :=
    by decide
  exact of_decide_eq_true (List.all_eq_true.mp hall _ h)

theorem intValue_intText (v : Int32) : intValue (intText v) = some v :=
  intValue_of_integer (Decimal.integer_text _)

theorem within_write (d : Dto) (n : ℕ) :
    Json.Within (n + 1) (.object (VpnLastConnectionDto.write d)) := by
  obtain ⟨hkeys, hmembers⟩ := Layout.within_write (l := CollectorServerDto) d n
  refine ⟨?_, fun m hm => ?_⟩
  · rw [VpnLastConnectionDto.write, List.map_cons, List.nodup_cons]
    refine ⟨fun hmem => ?_, hkeys⟩
    obtain ⟨m, hm, hkey⟩ := List.mem_map.mp hmem
    obtain ⟨f, hf, -⟩ := Layout.mem_of_mem_write hm
    exact key_ne hf hkey.symm
  · rcases List.mem_cons.mp hm with rfl | hm
    · exact Kind.within_of_write (k := .int) (v := SCHEMA_VERSION) rfl n
    · exact hmembers m hm

/-- What is read of the members that were written. -/
theorem fromJson_write (connection : VPNGateConnection) :
    VpnLastConnectionDto.fromJson jvm gson (VpnLastConnectionDto.write (.from jvm connection)) =
      .ok (.from jvm connection) := by
  have hversion : ((Json.get (VpnLastConnectionDto.write (.from jvm connection))
      KEY_SCHEMA_VERSION).all fun e => (Kind.int.read jvm e).isSome) = true := by
    rw [VpnLastConnectionDto.write, Json.get_cons_self, Option.all_some]
    show ((intValue (intText SCHEMA_VERSION)).map some).isSome = true
    rw [intValue_intText]
    rfl
  have hget : ∀ key f, (key, f) ∈ CollectorServerDto.members →
      Json.get (VpnLastConnectionDto.write (.from jvm connection)) key =
        f.kind.write (f.kind.ofValue jvm (connection f)) := fun key f hmem => by
    rw [VpnLastConnectionDto.write, Json.get_cons_of_ne (key_ne hmem), Layout.get_write _ hmem]
    rfl
  obtain ⟨d, hd, hfields⟩ := Layout.fromJson_of_get jvm gson hget fun f =>
    Kind.not_lost_ofValue jvm f.kind _
  rw [VpnLastConnectionDto.fromJson, if_pos hversion, hd]
  exact congrArg Except.ok (funext fun f => hfields f (keyOf_CollectorServerDto f))

/-- **A connection is read as it was stored**, up to the provenance of its port. -/
theorem decode_encode {connection : VPNGateConnection} {name : Text}
    (hname : connection .hostName = some name) (hblank : isBlank jvm name = false) :
    decode jvm gson (encode jvm gson connection) =
      .ok (.Decoded (connection.normalizeSource jvm) .CANONICAL) := by
  have hparse := gson.parse_toJson _ (within_write (.from jvm connection) 254)
  have hidentity : identity jvm (.from jvm connection) = some name := by
    show (connection .hostName).filter _ = _
    rw [hname, Option.filter_some, hblank]
    rfl
  unfold decode encode
  rw [hparse]
  dsimp only
  rw [VpnLastConnectionDto.write, Json.get_cons_self, ← VpnLastConnectionDto.write]
  dsimp only
  rw [decodeCanonical, asInt, intValue_intText]
  dsimp only
  rw [if_neg (not_not.mpr rfl), fromJson_write]
  dsimp only
  rw [VpnLastConnectionDto.toConnection, hidentity, Option.map_some,
    toConnection_from jvm keyOf_CollectorServerDto]

/-! ### A payload with a version -/

/-- **An object of the current layout**: no member is of a wrong type, and there is a host name. -/
structure Named (jvm : Jvm) (obj : List (Text × Json)) : Prop where
  readable : CollectorServerDto.Readable jvm obj
  name : ∃ name, CollectorServerDto.member jvm obj .hostName = some (some name) ∧
    isBlank jvm name = false

theorem identity_isSome {d : Dto} :
    (identity jvm d).isSome ↔ ∃ name, (d .hostName : Option Text) = some name ∧
      isBlank jvm name = false := by
  unfold identity
  rw [Option.isSome_filter]
  cases (d .hostName : Option Text) with
  | none => simp
  | some name => simp

variable {obj : List (Text × Json)} {schema : Json} {json : Text}

variable (gson) in
theorem named_iff : Named jvm obj ↔
      ∃ d, CollectorServerDto.fromJson jvm gson obj = .ok d ∧ (identity jvm d).isSome := by
  constructor
  · rintro ⟨hreadable, name, hname, hblank⟩
    obtain ⟨d, hd⟩ := (Layout.exists_fromJson gson).mpr hreadable
    have hmember := Layout.fromJson_eq_ok.mp hd .hostName
    rw [hname] at hmember
    exact ⟨d, hd, identity_isSome.mpr ⟨name, (Option.some.inj hmember).symm, hblank⟩⟩
  · rintro ⟨d, hd, hidentity⟩
    obtain ⟨name, hname, hblank⟩ := identity_isSome.mp hidentity
    refine ⟨(Layout.exists_fromJson gson).mp ⟨d, hd⟩, name, ?_, hblank⟩
    rw [Layout.fromJson_eq_ok.mp hd .hostName]
    exact congrArg some hname

/-- A version that can be narrowed is no obstacle to the members. -/
theorem fromJson_of_intValue {literal : Text} {version : Int32}
    (hschema : Json.get obj KEY_SCHEMA_VERSION = some (.number literal))
    (hversion : intValue literal = some version) :
    VpnLastConnectionDto.fromJson jvm gson obj = CollectorServerDto.fromJson jvm gson obj := by
  have hread : ((Json.get obj KEY_SCHEMA_VERSION).all fun e =>
      (Kind.int.read jvm e).isSome) = true := by
    rw [hschema, Option.all_some]
    show ((intValue literal).map some).isSome = true
    rw [hversion]
    rfl
  rw [VpnLastConnectionDto.fromJson, if_pos hread]

/-- A number that is narrowed to the version, in an object of the current layout. -/
def Accepted (jvm : Jvm) (obj : List (Text × Json)) (schema : Json) : Prop :=
  ∃ literal, schema = .number literal ∧ intValue literal = some SCHEMA_VERSION ∧ Named jvm obj

variable (jvm gson) in
/-- **What becomes of a payload with a version.** -/
theorem decodeCanonical_cases (hschema : Json.get obj KEY_SCHEMA_VERSION = some schema) :
    (Accepted jvm obj schema ∧ ∃ connection,
      decodeCanonical jvm gson obj schema = .ok (.Decoded connection .CANONICAL)) ∨
    (¬ Accepted jvm obj schema ∧ ∃ reason,
      decodeCanonical jvm gson obj schema = .ok (.Invalid reason)) := by
  cases schema with
  | number literal =>
    unfold decodeCanonical asInt
    dsimp only
    cases hint : intValue literal with
    | none =>
      refine Or.inr ⟨?_, _, rfl⟩
      rintro ⟨_, hnumber, hone, -⟩
      rw [← Json.number.inj hnumber, hint] at hone
      exact absurd hone nofun
    | some version =>
      dsimp only
      split_ifs with hversion
      · refine Or.inr ⟨?_, _, rfl⟩
        rintro ⟨_, hnumber, hone, -⟩
        rw [← Json.number.inj hnumber, hint] at hone
        exact hversion (Option.some.inj hone)
      · rw [fromJson_of_intValue hschema hint]
        have hone := not_not.mp hversion
        by_cases hnamed : Named jvm obj
        · obtain ⟨d, hd, hidentity⟩ := (named_iff gson).mp hnamed
          obtain ⟨name, hname⟩ := Option.isSome_iff_exists.mp hidentity
          refine Or.inl ⟨⟨literal, rfl, hint.trans (congrArg some hone), hnamed⟩, ?_⟩
          rw [hd]
          dsimp only
          rw [VpnLastConnectionDto.toConnection, hname]
          exact ⟨_, rfl⟩
        · refine Or.inr ⟨fun h => hnamed h.choose_spec.2.2, ?_⟩
          cases hd : CollectorServerDto.fromJson jvm gson obj with
          | error e => exact ⟨_, rfl⟩
          | ok d =>
            have hnone : identity jvm d = none := by
              rw [← Option.not_isSome_iff_eq_none]
              exact fun hsome => hnamed ((named_iff gson).mpr ⟨d, hd, hsome⟩)
            dsimp only
            rw [VpnLastConnectionDto.toConnection, hnone]
            exact ⟨_, rfl⟩
  | _ =>
    refine Or.inr ⟨?_, _, rfl⟩
    rintro ⟨_, h, -⟩
    exact absurd h nofun

theorem decode_of_schema (hparse : gson.parseString json = .ok (.object obj))
    (hschema : Json.get obj KEY_SCHEMA_VERSION = some schema) (hnull : schema ≠ .null) :
    decode jvm gson json = decodeCanonical jvm gson obj schema := by
  unfold decode
  rw [hparse]
  dsimp only
  rw [hschema]
  cases schema with
  | null => exact absurd rfl hnull
  | _ => rfl

/-! ### A payload without a version -/

theorem decodeLegacy_returns (obj : List (Text × Json)) :
    ∃ result, decodeLegacy jvm gson obj = .ok result := by
  unfold decodeLegacy
  cases LegacyR8Server22Dto.fromJson jvm gson obj with
  | error e => exact ⟨_, rfl⟩
  | ok d =>
    dsimp only
    cases LegacyVpnLastConnectionDto.toConnection jvm d with
    | none => exact ⟨_, rfl⟩
    | some connection => exact ⟨_, rfl⟩

/-- **The store never throws.** -/
theorem decode_returns (json : Text) : ∃ result, decode jvm gson json = .ok result := by
  cases hparse : gson.parseString json with
  | error e =>
    unfold decode
    rw [hparse]
    cases e <;> exact ⟨_, rfl⟩
  | ok root =>
    cases root with
    | object obj =>
      by_cases hversion : ∃ schema, Json.get obj KEY_SCHEMA_VERSION = some schema ∧ schema ≠ .null
      · obtain ⟨schema, hschema, hnull⟩ := hversion
        rw [decode_of_schema hparse hschema hnull]
        rcases decodeCanonical_cases jvm gson hschema with
          ⟨-, connection, h⟩ | ⟨-, reason, h⟩
        · exact ⟨_, h⟩
        · exact ⟨_, h⟩
      · unfold decode
        rw [hparse]
        dsimp only
        cases hschema : Json.get obj KEY_SCHEMA_VERSION with
        | none => split_ifs; exacts [⟨_, rfl⟩, decodeLegacy_returns obj]
        | some schema =>
          cases schema with
          | null => split_ifs; exacts [⟨_, rfl⟩, decodeLegacy_returns obj]
          | _ => exact absurd ⟨_, hschema, nofun⟩ hversion
    | _ =>
      unfold decode
      rw [hparse]
      exact ⟨_, rfl⟩

/-- **An object of the old layout**: its members are those of the table, of the right types, and
there is a host name. -/
structure LegacyTyped (jvm : Jvm) (obj : List (Text × Json)) : Prop where
  members : ∀ m ∈ obj, ∃ f, (m.1, f) ∈ LegacyR8Server22Dto.members ∧
    ∃ v : f.kind.Stored, f.kind.Holds m.2 v
  name : ∃ name, Json.get obj "t".toList = some (.string name) ∧ isBlank jvm name = false

/-- A key of the old layout is not the version, and its field is none of the newer ones. -/
theorem of_mem_legacy {key : Text} {f : Field} (h : (key, f) ∈ LegacyR8Server22Dto.members) :
    key ≠ KEY_SCHEMA_VERSION ∧ f ≠ .sstpPort ∧ f ≠ .sstpPortSource := by
  have hall : LegacyR8Server22Dto.members.all (fun m => decide (m.1 ≠ KEY_SCHEMA_VERSION ∧
      m.2 ≠ .sstpPort ∧ m.2 ≠ .sstpPortSource)) = true := by
    decide
  exact of_decide_eq_true (List.all_eq_true.mp hall _ h)

/-- The fields that an old object holds. -/
theorem exists_legacyConnection {d : Dto} {name : Text} (h : identity jvm d = some name) :
    ∃ connection, LegacyVpnLastConnectionDto.toConnection jvm d = some connection ∧
      ∀ key f, (key, f) ∈ LegacyR8Server22Dto.members →
        connection f = f.kind.toValue jvm (d f) := by
  unfold LegacyVpnLastConnectionDto.toConnection
  rw [h]
  refine ⟨_, rfl, fun key f hmem => ?_⟩
  obtain ⟨-, hport, hsource⟩ := of_mem_legacy hmem
  dsimp only
  rw [Function.update_of_ne hsource, Function.update_of_ne hport, Layout.toConnection,
    Layout.keyOf_eq_some.mpr hmem, Option.isSome_some, if_pos rfl]

/-- **An object of the old layout is read as one**, each field as what is stored under its key. -/
theorem decode_of_legacyTyped (hparse : gson.parseString json = .ok (.object obj))
    (h : LegacyTyped jvm obj) :
    ∃ connection, decode jvm gson json = .ok (.Decoded connection .LEGACY_R8) ∧
      ∀ key f, (key, f) ∈ LegacyR8Server22Dto.members → ∀ e (v : f.kind.Stored),
        Json.get obj key = some e → f.kind.Holds e v → connection f = f.kind.toValue jvm v := by
  obtain ⟨hmembers, name, hname, hblank⟩ := h
  have hversion : Json.get obj KEY_SCHEMA_VERSION = none := by
    apply Json.get_eq_none
    intro m hm
    obtain ⟨f, hf, -⟩ := hmembers m hm
    exact (of_mem_legacy hf).1
  have hholds : ∀ key f, (key, f) ∈ LegacyR8Server22Dto.members → ∀ e, Json.get obj key = some e →
      ∃ v : f.kind.Stored, f.kind.Holds e v := by
    intro key f hmem e he
    obtain ⟨f', hmem', v, hv⟩ := hmembers _ (Json.mem_of_get he)
    obtain rfl := Layout.field_unique hmem hmem'
    exact ⟨v, hv⟩
  obtain ⟨d, hd, hvalue⟩ := Layout.fromJson_of_holds jvm gson hholds
  have hhost : d .hostName = some name :=
    (hvalue "t".toList .hostName (by decide)).2 _ _ hname rfl
  have hidentity : identity jvm d = some name := by
    rw [identity, hhost, Option.filter_some, hblank]
    rfl
  have hcount : (LEGACY_KEYS.countP fun c => (Json.get obj [c]).isSome) ≠ 0 := by
    have hpos : 0 < LEGACY_KEYS.countP fun c => (Json.get obj [c]).isSome := by
      refine List.countP_pos_iff.mpr ⟨'t', by decide, ?_⟩
      show (Json.get obj "t".toList).isSome = true
      rw [hname]
      rfl
    exact Nat.pos_iff_ne_zero.mp hpos
  obtain ⟨connection, hconnection, hfields⟩ := exists_legacyConnection hidentity
  refine ⟨connection, ?_, fun key f hmem e v he hv => ?_⟩
  · unfold decode
    rw [hparse]
    dsimp only
    rw [hversion]
    dsimp only
    rw [if_neg hcount, decodeLegacy, hd]
    dsimp only
    rw [hconnection]
  · rw [hfields key f hmem, (hvalue key f hmem).2 e v he hv]

/-! ### The store as a whole -/

/-- **What a payload is decoded to**: something in any case, and a connection of the current layout
only where the version is exactly the one of this store. -/
def Sound (jvm : Jvm) (gson : Gson) (json : Text) : Prop :=
  (∃ result, decode jvm gson json = .ok result) ∧
    ∀ obj schema, gson.parseString json = .ok (.object obj) →
      Json.get obj KEY_SCHEMA_VERSION = some schema → schema ≠ .null →
        ∀ connection format, decode jvm gson json = .ok (.Decoded connection format) →
          format = .CANONICAL ∧ ∃ literal, schema = .number literal ∧
            Exactly literal SCHEMA_VERSION.toInt

/-- A payload with a version is never taken for one of the old layout. -/
theorem format_of_schema (hparse : gson.parseString json = .ok (.object obj))
    (hschema : Json.get obj KEY_SCHEMA_VERSION = some schema) (hnull : schema ≠ .null)
    {connection : VPNGateConnection} {format : Format}
    (h : decode jvm gson json = .ok (.Decoded connection format)) :
    format = .CANONICAL ∧ Accepted jvm obj schema := by
  rw [decode_of_schema hparse hschema hnull] at h
  rcases decodeCanonical_cases jvm gson hschema with
    ⟨haccepted, connection', hcanonical⟩ | ⟨-, reason, hinvalid⟩
  · rw [hcanonical] at h
    obtain ⟨-, rfl⟩ := DecodeResult.Decoded.inj (Except.ok.inj h)
    exact ⟨rfl, haccepted⟩
  · rw [hinvalid] at h
    exact absurd (Except.ok.inj h) nofun

theorem sound_iff (json : Text) :
    Sound jvm gson json ↔
      ¬ ∃ obj literal, gson.parseString json = .ok (.object obj) ∧
        Json.get obj KEY_SCHEMA_VERSION = some (.number literal) ∧
          intValue literal = some SCHEMA_VERSION ∧ ¬ Exactly literal SCHEMA_VERSION.toInt ∧
            Named jvm obj := by
  constructor
  · rintro ⟨-, h⟩ ⟨obj, literal, hparse, hschema, hint, hexact, hnamed⟩
    have haccepted : Accepted jvm obj (.number literal) := ⟨literal, rfl, hint, hnamed⟩
    rcases decodeCanonical_cases jvm gson hschema with
      ⟨-, connection, hdecode⟩ | ⟨hnot, -⟩
    · rw [← decode_of_schema hparse hschema nofun] at hdecode
      obtain ⟨-, literal', hnumber, hone⟩ := h obj _ hparse hschema nofun _ _ hdecode
      rw [Json.number.inj hnumber] at hexact
      exact hexact hone
    · exact hnot haccepted
  · intro h
    refine ⟨decode_returns json,
      fun obj schema hparse hschema hnull connection format hdecode => ?_⟩
    obtain ⟨hformat, literal, rfl, hint, hnamed⟩ := format_of_schema hparse hschema hnull hdecode
    refine ⟨hformat, literal, rfl, ?_⟩
    by_contra hexact
    exact h ⟨obj, literal, hparse, hschema, hint, hexact, hnamed⟩

/-- **What holds of the store.** A connection is read as it was stored, and an object of the old
layout as one; nothing throws, and a payload with a version is never taken for an old one. A payload
is decoded soundly unless its version is narrowed to the one of this store without being it, in an
object of the current layout. -/
theorem decode_sound_iff (jvm : Jvm) (gson : Gson) :
    (∀ (connection : VPNGateConnection) name, connection .hostName = some name →
      isBlank jvm name = false → decode jvm gson (encode jvm gson connection) =
        .ok (.Decoded (connection.normalizeSource jvm) .CANONICAL)) ∧
    (∀ json obj, gson.parseString json = .ok (.object obj) → LegacyTyped jvm obj →
      ∃ connection, decode jvm gson json = .ok (.Decoded connection .LEGACY_R8) ∧
        ∀ key f, (key, f) ∈ LegacyR8Server22Dto.members → ∀ e (v : f.kind.Stored),
          Json.get obj key = some e → f.kind.Holds e v →
            connection f = f.kind.toValue jvm v) ∧
    (∀ json, ∃ result, decode jvm gson json = .ok result) ∧
    (∀ json obj schema, gson.parseString json = .ok (.object obj) →
      Json.get obj KEY_SCHEMA_VERSION = some schema → schema ≠ .null →
        ∀ connection, decode jvm gson json ≠ .ok (.Decoded connection .LEGACY_R8)) ∧
    ∀ json, Sound jvm gson json ↔
      ¬ ∃ obj literal, gson.parseString json = .ok (.object obj) ∧
        Json.get obj KEY_SCHEMA_VERSION = some (.number literal) ∧
          intValue literal = some SCHEMA_VERSION ∧ ¬ Exactly literal SCHEMA_VERSION.toInt ∧
            Named jvm obj := by
  refine ⟨fun _ _ hname hblank => decode_encode hname hblank,
    fun _ _ hparse h => decode_of_legacyTyped hparse h, decode_returns, ?_, sound_iff⟩
  intro json obj schema hparse hschema hnull connection h
  exact absurd (format_of_schema hparse hschema hnull h).1 nofun

/-- A payload of the current layout, whose version is narrowed. -/
def narrowedPayload : Text := "\x7b\"schemaVersion\":4294967297,\"hostName\":\"vpn1\"\x7d".toList

/-- A version that narrows to 1. -/
def narrowedMembers : List (Text × Json) :=
  [("schemaVersion".toList, .number "4294967297".toList),
    ("hostName".toList, .string "vpn1".toList)]

theorem parse_narrowedPayload :
    Gson.compact.parseString narrowedPayload = .ok (.object narrowedMembers) := by
  have hprint : (Json.object narrowedMembers).print = narrowedPayload := by
    simp only [narrowedMembers, Json.print, List.map_cons, List.map_nil]
    decide
  have hwithin : Json.Within 255 (.object narrowedMembers) := by
    refine ⟨by decide, fun m hm => ?_⟩
    rcases List.mem_cons.mp hm with rfl | hm
    · exact ⟨4294967297, by decide⟩
    · obtain rfl := List.mem_singleton.mp hm
      trivial
  rw [← hprint]
  exact Gson.compact.parse_toJson _ hwithin

/-- **A version that is not one** is taken for one. -/
theorem decode_narrowed : ¬ ∀ json, Sound Jvm.ascii Gson.compact json := by
  intro h
  refine (sound_iff narrowedPayload).mp (h narrowedPayload) ⟨narrowedMembers, "4294967297".toList,
    parse_narrowedPayload, rfl, by decide, ?_, ?_⟩
  · rintro ⟨d, hd, hone⟩
    have hvalue : Decimal.parse "4294967297".toList = some ⟨4294967297, 0⟩ := by decide
    obtain rfl := Option.some.inj (hvalue.symm.trans hd)
    exact absurd hone (by decide)
  · have hread : (Field.all.all fun f =>
        (CollectorServerDto.member Jvm.ascii narrowedMembers f).isSome) = true := by decide
    exact (named_iff Gson.compact).mpr ⟨_, if_pos hread, by decide⟩

end VpnLastConnectionStore

end SoftEther.Persistence
