import SoftEther.Lib.Throwing
import SoftEther.Persistence.LastConnection

namespace SoftEther.Persistence

open Lib

/-!
# The snapshot of the collector (`CollectorSnapshotStore`)

* `encode`, `decode` — the functions of the source, `decode` with the exceptions that it does not
  catch;
* `detectLegacyFormat` — which of the old layouts the first server is in;
* `fromJsonList_returns`, `toConnections_returns` — what is read of an array, and where a null in it
  throws.
-/

/-- `isNullOrBlank`. -/
def isNullOrBlank (jvm : Jvm) (s : Option Text) : Bool := s.all (isBlank jvm ·)

/-- A number in a message. -/
def sizeText (n : ℕ) : Text := Decimal.text n

/-! ### The classes -/

/-- A port of SSTP that was not published is that of the protocol. -/
def sstpDefault (c : VPNGateConnection) : VPNGateConnection :=
  if (c .isSSTPSupport : Int32) = 1 ∧ (c .sstpPort : Int32) ≤ 0 then
    Function.update c .sstpPortSource VpnPortSource.DEFAULT
  else c

namespace CollectorSnapshotStore

def KEY_SAVED_AT : Text := "savedAt".toList

def KEY_COUNT : Text := "count".toList

def KEY_SERVERS : Text := "servers".toList

inductive Format
  | CANONICAL | LEGACY_SOURCE_NAMES | LEGACY_R8_22 | LEGACY_R8_23 | LEGACY_R8_24
  deriving DecidableEq

inductive Reason
  | INVALID_JSON | UNSUPPORTED_SCHEMA | INVALID_CANONICAL_SHAPE | UNKNOWN_LEGACY_FORMAT
  | LEGACY_DECODE_FAILURE | INVALID_IDENTITY | COUNT_MISMATCH | WRITE_FAILURE | RENAME_FAILURE
  deriving DecidableEq

inductive ReadResult
  | Loaded (savedAt : Int64) (servers : List VPNGateConnection) (format : Format)
  | Invalid (reason : Reason) (detail : Text)
  | Absent

namespace Format

/-- `name`. -/
def name : Format → Text
  | CANONICAL => "CANONICAL".toList
  | LEGACY_SOURCE_NAMES => "LEGACY_SOURCE_NAMES".toList
  | LEGACY_R8_22 => "LEGACY_R8_22".toList
  | LEGACY_R8_23 => "LEGACY_R8_23".toList
  | LEGACY_R8_24 => "LEGACY_R8_24".toList

/-- The class of the servers. -/
def layout : Format → Layout
  | CANONICAL | LEGACY_SOURCE_NAMES => CollectorServerDto
  | LEGACY_R8_22 => LegacyR8Server22Dto
  | LEGACY_R8_23 => LegacyR8Server23Dto
  | LEGACY_R8_24 => LegacyR8Server24Dto

/-- Its `toConnection`. -/
def toConnection (jvm : Jvm) (format : Format) (d : Dto) : VPNGateConnection :=
  let connection := format.layout.toConnection jvm d
  match format with
  | CANONICAL | LEGACY_SOURCE_NAMES | LEGACY_R8_24 => connection
  | LEGACY_R8_22 => sstpDefault (Function.update connection .sstpPort (0 : Int32))
  | LEGACY_R8_23 => sstpDefault connection

end Format

variable (jvm : Jvm) (gson : Gson)

/-! ### Writing -/

/-- The envelope: the version, in a canonical one, then the time, the number of servers and the
servers. -/
def envelope (version : Option Int32) (savedAt : Int64) (servers : List Json) :
    List (Text × Json) :=
  (version.toList.map fun v => (KEY_SCHEMA_VERSION, .number (intText v))) ++
    [(KEY_SAVED_AT, .number (Decimal.text savedAt.toInt)),
      (KEY_COUNT, .number (sizeText servers.length)), (KEY_SERVERS, .array servers)]

def encode (savedAt : Int64) (servers : List VPNGateConnection) : Text :=
  gson.toJson (.object (envelope (some SCHEMA_VERSION) savedAt
    (servers.map fun c => .object (CollectorServerDto.write (.from jvm c)))))

/-! ### Reading -/

/-- `fromJson` of one item of the array; a null is one. -/
def fromJsonItem (l : Layout) : Json → Except RuntimeException (Option Dto)
  | .null => .ok none
  | .object members =>
    match l.fromJson jvm gson members with
    | .ok d => .ok (some d)
    | .error e => .error e
  | e => .error (.jsonParse (gson.rejected e))

/-- `fromJson` of the array. -/
def fromJsonList (l : Layout) (array : List Json) : Except RuntimeException (List (Option Dto)) :=
  array.mapM (fromJsonItem jvm gson l)

/-- `toConnection`, which throws at a null. -/
def toConnectionItem (format : Format) : Option Dto → Except RuntimeException VPNGateConnection
  | some d => .ok (format.toConnection jvm d)
  | none => .error .nullPointer

/-- The servers of a list of another build. -/
def toConnections (format : Format) (dtos : List (Option Dto)) :
    Except RuntimeException (List VPNGateConnection) :=
  dtos.mapM (toConnectionItem jvm format)

def checkIdentity (servers : List VPNGateConnection) : Bool :=
  servers.any (fun c => !isNullOrBlank jvm (c .hostName)) &&
    servers.any fun c => !isNullOrBlank jvm (c .ip)

def identityFailure (servers : List VPNGateConnection) : ReadResult :=
  .Invalid .INVALID_IDENTITY
    ("no server carries both a hostName and an ip (hostName on ".toList ++
      sizeText (servers.countP fun c => !isNullOrBlank jvm (c .hostName)) ++ ", ip on ".toList ++
        sizeText (servers.countP fun c => !isNullOrBlank jvm (c .ip)) ++ ")".toList)

def optLong : Option Json → Option Int64
  | some (.number literal) => longValue literal
  | _ => none

def isNumber : Option Json → Bool
  | some (.number _) => true
  | _ => false

def isBoolean : Option Json → Bool
  | some (.boolean _) => true
  | _ => false

/-- `detectLegacyFormat`, by the keys of the first server. -/
def detectLegacyFormat (first : List (Text × Json)) : Option Format :=
  let has (key : Text) : Bool := (Json.get first key).isSome
  if has "hostName".toList && has "ip".toList then some .LEGACY_SOURCE_NAMES
  else if !has "A".toList || !has "O".toList then none
  else if has "Q".toList then some .LEGACY_R8_24
  else if isNumber (Json.get first "z".toList) then some .LEGACY_R8_23
  else if isBoolean (Json.get first "O".toList) then some .LEGACY_R8_22
  else none

/-- The end of both decoders. -/
def loaded (savedAt : Int64) (servers : List VPNGateConnection) (format : Format) : ReadResult :=
  if !checkIdentity jvm servers then identityFailure jvm servers
  else .Loaded savedAt servers format

/-- `decodeCanonical` behind the number of servers. -/
def decodeArray (obj : List (Text × Json)) (array : List Json) :
    Except RuntimeException ReadResult :=
  match fromJsonList jvm gson CollectorServerDto array with
  | .error e => .ok (.Invalid .INVALID_CANONICAL_SHAPE ("server rejected: ".toList ++ e.message))
  | .ok dtos =>
    if dtos.length ≠ array.length then
      .ok (.Invalid .INVALID_CANONICAL_SHAPE ("decoded ".toList ++ sizeText dtos.length ++
        " of ".toList ++ sizeText array.length ++ " server(s)".toList))
    else
      let savedAt := (optLong (Json.get obj KEY_SAVED_AT)).getD 0
      match toConnections jvm .CANONICAL dtos with
      | .error e => .error e
      | .ok servers => .ok (loaded jvm savedAt servers .CANONICAL)

/-- `decodeCanonical` behind the version. -/
def decodeServers (obj : List (Text × Json)) : Except RuntimeException ReadResult :=
  match Json.get obj KEY_SERVERS with
  | none => .ok (.Invalid .INVALID_CANONICAL_SHAPE "'servers' is absent".toList)
  | some (.array array) =>
    if array.isEmpty then .ok (.Invalid .INVALID_CANONICAL_SHAPE "'servers' is empty".toList)
    else
      match Json.get obj KEY_COUNT with
      | none => .ok (.Invalid .COUNT_MISMATCH "'count' is absent".toList)
      | some (.number literal) =>
        match asInt literal with
        | .error e => .error e
        | .ok count =>
          if count.toInt ≠ array.length then
            .ok (.Invalid .COUNT_MISMATCH ("'count' is ".toList ++ intText count ++
              " but 'servers' holds ".toList ++ sizeText array.length))
          else decodeArray jvm gson obj array
      | some _ => .ok (.Invalid .COUNT_MISMATCH "'count' is not a number".toList)
  | some _ => .ok (.Invalid .INVALID_CANONICAL_SHAPE "'servers' is not an array".toList)

def decodeCanonical (obj : List (Text × Json)) (schema : Json) :
    Except RuntimeException ReadResult :=
  match schema with
  | .number literal =>
    match asInt literal with
    | .error (.numberFormat _) =>
      .ok (.Invalid .UNSUPPORTED_SCHEMA "'schemaVersion' is not an int".toList)
    | .error e => .error e
    | .ok version =>
      if version ≠ SCHEMA_VERSION then
        .ok (.Invalid .UNSUPPORTED_SCHEMA
          ("unsupported schemaVersion ".toList ++ intText version))
      else decodeServers jvm gson obj
  | _ => .ok (.Invalid .UNSUPPORTED_SCHEMA "'schemaVersion' is not a number".toList)

/-- The servers of an old layout; all that is thrown is caught. -/
def legacyServers (format : Format) (array : List Json) :
    Except RuntimeException (List VPNGateConnection) :=
  match fromJsonList jvm gson format.layout array with
  | .error e => .error e
  | .ok dtos => toConnections jvm format dtos

def decodeLegacy (obj : List (Text × Json)) : Except RuntimeException ReadResult :=
  match Json.get obj KEY_SERVERS with
  | none =>
    .ok (.Invalid .UNKNOWN_LEGACY_FORMAT "no 'schemaVersion' and no 'servers'".toList)
  | some (.array []) => .ok (.Invalid .INVALID_CANONICAL_SHAPE "'servers' is empty".toList)
  | some (.array (.object first :: others)) =>
    match detectLegacyFormat first with
    | none =>
      .ok (.Invalid .UNKNOWN_LEGACY_FORMAT
        "server keys do not match any proven snapshot format".toList)
    | some format =>
      let savedAt := (optLong (Json.get obj KEY_SAVED_AT)).getD 0
      match legacyServers jvm gson format (.object first :: others) with
      | .error e =>
        .ok (.Invalid .LEGACY_DECODE_FAILURE (format.name ++ ": ".toList ++ e.message))
      | .ok servers => .ok (loaded jvm savedAt servers format)
  | some (.array _) =>
    .ok (.Invalid .UNKNOWN_LEGACY_FORMAT "first 'servers' entry is not an object".toList)
  | some _ => .ok (.Invalid .INVALID_JSON "'servers' is not an array".toList)

def decode (json : Text) : Except RuntimeException ReadResult :=
  match gson.parseString json with
  | .error (.jsonParse m) => .ok (.Invalid .INVALID_JSON ("malformed json: ".toList ++ m))
  | .error e => .ok (.Invalid .INVALID_JSON ("unreadable json: ".toList ++ e.message))
  | .ok (.object obj) =>
    match Json.get obj KEY_SCHEMA_VERSION with
    | none | some .null => decodeLegacy jvm gson obj
    | some schema => decodeCanonical jvm gson obj schema
  | .ok _ => .ok (.Invalid .INVALID_JSON "payload is not a json object".toList)

/-! ### What is read of an array -/

variable {jvm gson}

/-- An item that is a server of the layout, or a null. -/
def ReadableItem (jvm : Jvm) (l : Layout) (e : Json) : Prop :=
  e = .null ∨ ∃ members, e = .object members ∧ l.Readable jvm members

/-- What such an item is read as. -/
def readItem (jvm : Jvm) (l : Layout) : Json → Option Dto
  | .object members => some fun f => (l.member jvm members f).getD f.kind.default
  | _ => none

theorem fromJsonItem_returns (jvm : Jvm) (gson : Gson) (l : Layout) (e : Json) :
    Returns (fromJsonItem jvm gson l e) (¬ ReadableItem jvm l e) (readItem jvm l e) := by
  unfold ReadableItem
  cases e with
  | null => exact (Returns.ok none).mono (by simp)
  | object members =>
    by_cases hreadable : l.Readable jvm members
    · obtain ⟨d, hd⟩ := (Layout.exists_fromJson gson).mpr hreadable
      have hvalue : readItem jvm l (.object members) = some d := by
        refine congrArg some (funext fun f => ?_)
        rw [Layout.fromJson_eq_ok.mp hd f]
        rfl
      have hok : fromJsonItem jvm gson l (.object members) = .ok (some d) := by
        rw [fromJsonItem, hd]
      rw [hvalue, hok]
      exact (Returns.ok (some d)).mono (by simpa using hreadable)
    · have herror : ∃ e, fromJsonItem jvm gson l (.object members) = .error e := by
        cases hd : l.fromJson jvm gson members with
        | ok d => exact absurd ((Layout.exists_fromJson gson).mp ⟨d, hd⟩) hreadable
        | error e => exact ⟨e, by rw [fromJsonItem, hd]⟩
      obtain ⟨e, he⟩ := herror
      rw [he]
      exact (Returns.error e _).mono (by simpa using hreadable)
  | _ => exact (Returns.error _ _).mono (by simp)

/-- **What is read of an array**: nothing where an item is of a wrong type. -/
theorem fromJsonList_returns (jvm : Jvm) (gson : Gson) (l : Layout) (array : List Json) :
    Returns (fromJsonList jvm gson l array) (∃ e ∈ array, ¬ ReadableItem jvm l e)
      (array.map (readItem jvm l)) :=
  Returns.mapM array fun e _ => fromJsonItem_returns jvm gson l e

/-- The connection of an item that is no null. -/
def itemConnection (jvm : Jvm) (format : Format) (o : Option Dto) : VPNGateConnection :=
  (o.map (format.toConnection jvm)).getD .unset

theorem toConnections_returns (jvm : Jvm) (format : Format) (dtos : List (Option Dto)) :
    Returns (toConnections jvm format dtos) (∃ o ∈ dtos, o = none)
      (dtos.map (itemConnection jvm format)) := by
  refine Returns.mapM dtos fun o _ => ?_
  cases o with
  | none => exact (Returns.error _ _).mono (by simp)
  | some d => exact (Returns.ok _).mono (by simp)

/-- A readable item that is read as none is a null. -/
theorem readItem_eq_none {l : Layout} {e : Json} (h : ReadableItem jvm l e) :
    readItem jvm l e = none ↔ e = .null := by
  rcases h with rfl | ⟨members, rfl, -⟩
  · exact iff_of_true rfl rfl
  · exact iff_of_false nofun nofun

end CollectorSnapshotStore

end SoftEther.Persistence
