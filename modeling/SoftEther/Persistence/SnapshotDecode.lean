import SoftEther.Persistence.Snapshot

namespace SoftEther.Persistence.CollectorSnapshotStore

open Lib

/-!
# What a snapshot is decoded to

The functions of Gson that read the servers are guarded, what is done before and behind is not: the
number of servers is narrowed before it is compared, and a null among the servers of a canonical
payload is found when it is made a connection.

* `Parts`, `Throws`, `Loads` — a canonical payload, and what decides on it;
* `decodeServers_throws`, `decodeServers_loads`, `decodeServers_invalid` — the three outcomes;
* `decodeLegacy_returns` — an old payload throws nothing;
* `snapshot_sound_iff` — when a payload is decoded as it should be.
-/

variable {jvm : Jvm} {gson : Gson}

/-! ### A canonical payload -/

/-- **A payload with servers and their number.** -/
structure Parts (obj : List (Text × Json)) (array : List Json) (count : Text) : Prop where
  servers : Json.get obj KEY_SERVERS = some (.array array)
  nonempty : array ≠ []
  count : Json.get obj KEY_COUNT = some (.number count)

/-- The number is narrowed to that of the servers, and every server is one or a null. -/
structure Counted (jvm : Jvm) (array : List Json) (count : Text) : Prop where
  narrowed : ∃ n, intValue count = some n ∧ n.toInt = array.length
  readable : ∀ e ∈ array, ReadableItem jvm CollectorServerDto e

/-- **What the decoder throws at**: a number that is not narrowed, or a null among the servers. -/
def Throws (jvm : Jvm) (array : List Json) (count : Text) : Prop :=
  intValue count = none ∨ Counted jvm array count ∧ Json.null ∈ array

/-- **What the decoder makes servers of.** -/
def Loads (jvm : Jvm) (array : List Json) (count : Text) : Prop :=
  Counted jvm array count ∧ Json.null ∉ array

/-- The servers of the items. -/
def connections (jvm : Jvm) (array : List Json) : List VPNGateConnection :=
  (array.map (readItem jvm CollectorServerDto)).map (itemConnection jvm .CANONICAL)

variable {obj : List (Text × Json)} {array : List Json} {count json : Text}

theorem Parts.eq_decodeArray (h : Parts obj array count) {n : Int32} (hn : intValue count = some n)
    (hlength : n.toInt = array.length) :
    decodeServers jvm gson obj = decodeArray jvm gson obj array := by
  have hempty : ¬ array.isEmpty = true := by simpa using h.nonempty
  unfold decodeServers
  rw [h.servers]
  dsimp only
  rw [if_neg hempty, h.count]
  dsimp only
  rw [asInt, hn]
  dsimp only
  rw [if_neg (not_not.mpr hlength)]

/-- A number that is not narrowed is not caught. -/
theorem Parts.eq_overflow (h : Parts obj array count) (hnone : intValue count = none) :
    decodeServers jvm gson obj = .error (.numberFormat count) := by
  have hempty : ¬ array.isEmpty = true := by simpa using h.nonempty
  unfold decodeServers
  rw [h.servers]
  dsimp only
  rw [if_neg hempty, h.count]
  dsimp only
  rw [asInt, hnone]

/-- The items of a payload that is counted right, as they are read. -/
theorem Counted.eq_fromJsonList (h : Counted jvm array count) :
    fromJsonList jvm gson CollectorServerDto array =
      .ok (array.map (readItem jvm CollectorServerDto)) :=
  (fromJsonList_returns jvm gson CollectorServerDto array).returns fun ⟨e, he, hnot⟩ =>
    hnot (h.readable e he)

theorem Counted.none_mem_iff (h : Counted jvm array count) :
    (∃ o ∈ array.map (readItem jvm CollectorServerDto), o = none) ↔ Json.null ∈ array := by
  constructor
  · rintro ⟨o, ho, rfl⟩
    obtain ⟨e, he, hnone⟩ := List.mem_map.mp ho
    rwa [← (readItem_eq_none (h.readable e he)).mp hnone]
  · exact fun hnull => ⟨none, List.mem_map.mpr ⟨.null, hnull, rfl⟩, rfl⟩

variable (gson) in
/-- **What is thrown** is not caught. -/
theorem decodeServers_throws (h : Parts obj array count) (hthrows : Throws jvm array count) :
    ∃ e, decodeServers jvm gson obj = .error e := by
  rcases hthrows with hnone | ⟨hcounted, hnull⟩
  · exact ⟨_, h.eq_overflow hnone⟩
  · obtain ⟨n, hn, hlength⟩ := hcounted.narrowed
    obtain ⟨e, he⟩ := (toConnections_returns jvm .CANONICAL
      (array.map (readItem jvm CollectorServerDto))).throws (hcounted.none_mem_iff.mpr hnull)
    refine ⟨e, ?_⟩
    rw [h.eq_decodeArray hn hlength, decodeArray, hcounted.eq_fromJsonList]
    dsimp only
    rw [if_neg (not_not.mpr (List.length_map ..)), he]

variable (gson) in
/-- **What is loaded.** -/
theorem decodeServers_loads (h : Parts obj array count) (hloads : Loads jvm array count) :
    decodeServers jvm gson obj = .ok (loaded jvm ((optLong (Json.get obj KEY_SAVED_AT)).getD 0)
      (connections jvm array) .CANONICAL) := by
  obtain ⟨hcounted, hnull⟩ := hloads
  obtain ⟨n, hn, hlength⟩ := hcounted.narrowed
  have hservers := (toConnections_returns jvm .CANONICAL
    (array.map (readItem jvm CollectorServerDto))).returns fun h =>
      hnull (hcounted.none_mem_iff.mp h)
  rw [h.eq_decodeArray hn hlength, decodeArray, hcounted.eq_fromJsonList]
  dsimp only
  rw [if_neg (not_not.mpr (List.length_map ..)), hservers]
  rfl

/-- **What is refused**: everything else. -/
theorem decodeServers_invalid (h : ∀ array count, Parts obj array count →
      ¬ Throws jvm array count ∧ ¬ Loads jvm array count) :
    ∃ reason detail, decodeServers jvm gson obj = .ok (.Invalid reason detail) := by
  -- a list and a number, of which one is wrong, or not even these
  by_cases hparts : ∃ array count, Parts obj array count
  · obtain ⟨array, count, hparts⟩ := hparts
    obtain ⟨hthrows, hloads⟩ := h array count hparts
    obtain ⟨n, hn⟩ : ∃ n, intValue count = some n :=
      Option.ne_none_iff_exists'.mp fun hnone => hthrows (Or.inl hnone)
    by_cases hlength : n.toInt = array.length
    · rw [hparts.eq_decodeArray hn hlength, decodeArray]
      by_cases hreadable : ∀ e ∈ array, ReadableItem jvm CollectorServerDto e
      · have hcounted : Counted jvm array count := ⟨⟨n, hn, hlength⟩, hreadable⟩
        by_cases hnull : Json.null ∈ array
        · exact absurd (Or.inr ⟨hcounted, hnull⟩) hthrows
        · exact absurd ⟨hcounted, hnull⟩ hloads
      · have hbad : ∃ e ∈ array, ¬ ReadableItem jvm CollectorServerDto e := by
          simpa using hreadable
        obtain ⟨e, he⟩ := (fromJsonList_returns jvm gson CollectorServerDto array).throws hbad
        rw [he]
        exact ⟨_, _, rfl⟩
    · have hempty : ¬ array.isEmpty = true := by simpa using hparts.nonempty
      unfold decodeServers
      rw [hparts.servers]
      dsimp only
      rw [if_neg hempty, hparts.count]
      dsimp only
      rw [asInt, hn]
      dsimp only
      rw [if_pos hlength]
      exact ⟨_, _, rfl⟩
  · unfold decodeServers
    cases hservers : Json.get obj KEY_SERVERS with
    | none => exact ⟨_, _, rfl⟩
    | some servers =>
      cases servers with
      | array array =>
        dsimp only
        split_ifs with hempty
        · exact ⟨_, _, rfl⟩
        · cases hcount : Json.get obj KEY_COUNT with
          | none => exact ⟨_, _, rfl⟩
          | some count =>
            cases count with
            | number literal =>
              exact absurd ⟨array, literal, hservers, by simpa using hempty, hcount⟩ hparts
            | _ => exact ⟨_, _, rfl⟩
      | _ => exact ⟨_, _, rfl⟩

/-! ### The identity of the servers -/

/-- A server has a text that is not blank, as its member is read. -/
def HasText (jvm : Jvm) (array : List Json)
    (text : List (Text × Json) → Option (Option Text)) : Prop :=
  ∃ members, .object members ∈ array ∧
    ∃ s, text members = some (some s) ∧ isBlank jvm s = false

/-- **Some server has a host name, and some has an address.** -/
structure Identified (jvm : Jvm) (array : List Json) : Prop where
  hostName : HasText jvm array fun members => CollectorServerDto.member jvm members .hostName
  ip : HasText jvm array fun members => CollectorServerDto.member jvm members .ip

/-- A text of a connection is that of the member. -/
theorem any_connections (hread : ∀ e ∈ array, ReadableItem jvm CollectorServerDto e)
    (hnull : Json.null ∉ array) (text : VPNGateConnection → Option Text)
    (member : List (Text × Json) → Option (Option Text))
    (hmember : ∀ members, CollectorServerDto.Readable jvm members → member members =
      some (text (itemConnection jvm .CANONICAL
        (readItem jvm CollectorServerDto (.object members))))) :
    ((connections jvm array).any fun c => !isNullOrBlank jvm (text c)) = true ↔
      HasText jvm array member := by
  have hvalue : ∀ o : Option Text, (!isNullOrBlank jvm o) = true ↔
      ∃ s, o = some s ∧ isBlank jvm s = false := by
    intro o
    cases o with
    | none => simp [isNullOrBlank]
    | some s => simp [isNullOrBlank]
  unfold connections
  rw [List.map_map, List.any_map, List.any_eq_true]
  constructor
  · rintro ⟨e, he, hany⟩
    obtain ⟨s, hs, hblank⟩ := (hvalue _).mp hany
    rcases hread e he with rfl | ⟨members, rfl, hreadable⟩
    · exact absurd he hnull
    · exact ⟨members, he, s, (hmember members hreadable).trans (congrArg some hs), hblank⟩
  · rintro ⟨members, he, s, hs, hblank⟩
    have hreadable : CollectorServerDto.Readable jvm members := by
      rcases hread _ he with h | ⟨members', h, hreadable⟩
      · exact absurd h nofun
      · rwa [Json.object.inj h]
    rw [hmember members hreadable] at hs
    exact ⟨_, he, (hvalue _).mpr ⟨s, Option.some.inj hs, hblank⟩⟩

theorem checkIdentity_iff (hread : ∀ e ∈ array, ReadableItem jvm CollectorServerDto e)
    (hnull : Json.null ∉ array) :
    checkIdentity jvm (connections jvm array) = true ↔ Identified jvm array := by
  have hmember : ∀ (members : List (Text × Json)), CollectorServerDto.Readable jvm members →
      ∀ f, CollectorServerDto.member jvm members f =
        some ((CollectorServerDto.member jvm members f).getD f.kind.default) := by
    intro members hreadable f
    obtain ⟨d, hd⟩ := (Layout.exists_fromJson Gson.compact).mpr hreadable
    rw [Layout.fromJson_eq_ok.mp hd f]
    rfl
  have hhost := any_connections hread hnull (fun c => c .hostName)
    (fun members => CollectorServerDto.member jvm members .hostName)
    fun members hreadable => hmember members hreadable .hostName
  have hip := any_connections hread hnull (fun c => c .ip)
    (fun members => CollectorServerDto.member jvm members .ip)
    fun members hreadable => hmember members hreadable .ip
  rw [checkIdentity, Bool.and_eq_true]
  constructor
  · exact fun h => ⟨hhost.mp h.1, hip.mp h.2⟩
  · exact fun h => ⟨hhost.mpr h.hostName, hip.mpr h.ip⟩

/-! ### An old payload -/

variable (jvm) in
/-- What is loaded has been checked. -/
theorem loaded_cases (savedAt : Int64) (servers : List VPNGateConnection) (format : Format) :
    (checkIdentity jvm servers = true ∧
      loaded jvm savedAt servers format = .Loaded savedAt servers format) ∨
    ∃ reason detail, loaded jvm savedAt servers format = .Invalid reason detail := by
  unfold loaded
  split_ifs with h
  · exact Or.inr ⟨_, _, rfl⟩
  · refine Or.inl ⟨?_, rfl⟩
    rwa [Bool.not_eq_true', Bool.not_eq_false] at h

/-- A list of servers that is read is as long as the array. -/
theorem length_of_legacyServers {format : Format} {servers : List VPNGateConnection}
    (h : legacyServers jvm gson format array = .ok servers) : servers.length = array.length := by
  unfold legacyServers at h
  cases hdtos : fromJsonList jvm gson format.layout array with
  | error e =>
    rw [hdtos] at h
    exact absurd h nofun
  | ok dtos =>
    rw [hdtos] at h
    rw [(toConnections_returns jvm format dtos).eq_of_ok h,
      (fromJsonList_returns jvm gson format.layout array).eq_of_ok hdtos, List.length_map,
      List.length_map]

/-- No format that is detected is the current one. -/
theorem detectLegacyFormat_ne (first : List (Text × Json)) :
    detectLegacyFormat first ≠ some .CANONICAL := by
  unfold detectLegacyFormat
  dsimp only
  split_ifs <;> exact nofun

variable (jvm gson) in
/-- **An old payload throws nothing**, and what is loaded of it is as long as the array. -/
theorem decodeLegacy_cases (obj : List (Text × Json)) :
    (∃ reason detail, decodeLegacy jvm gson obj = .ok (.Invalid reason detail)) ∨
    ∃ savedAt servers format array,
      decodeLegacy jvm gson obj = .ok (.Loaded savedAt servers format) ∧ format ≠ .CANONICAL ∧
        Json.get obj KEY_SERVERS = some (.array array) ∧ array ≠ [] ∧
          servers.length = array.length := by
  unfold decodeLegacy
  split
  · exact Or.inl ⟨_, _, rfl⟩
  · exact Or.inl ⟨_, _, rfl⟩
  · rename_i first others hservers
    cases hformat : detectLegacyFormat first with
    | none => exact Or.inl ⟨_, _, rfl⟩
    | some format =>
      dsimp only
      cases hread : legacyServers jvm gson format (.object first :: others) with
      | error e => exact Or.inl ⟨_, _, rfl⟩
      | ok servers =>
        dsimp only
        rcases loaded_cases jvm ((optLong (Json.get obj KEY_SAVED_AT)).getD 0) servers format with
          ⟨-, hloaded⟩ | ⟨reason, detail, hinvalid⟩
        · refine Or.inr ⟨_, servers, format, _, congrArg Except.ok hloaded, ?_, hservers,
            List.cons_ne_nil _ _, length_of_legacyServers hread⟩
          rintro rfl
          exact detectLegacyFormat_ne first hformat
        · exact Or.inl ⟨reason, detail, congrArg Except.ok hinvalid⟩
  · exact Or.inl ⟨_, _, rfl⟩
  · exact Or.inl ⟨_, _, rfl⟩

/-! ### A payload -/

/-- The version of a canonical payload. -/
def HasVersion (obj : List (Text × Json)) : Prop :=
  ∃ literal, Json.get obj KEY_SCHEMA_VERSION = some (.number literal) ∧
    intValue literal = some SCHEMA_VERSION

variable (jvm) in
theorem decode_of_hasVersion (hparse : gson.parseString json = .ok (.object obj))
    (h : HasVersion obj) : decode jvm gson json = decodeServers jvm gson obj := by
  obtain ⟨literal, hschema, hint⟩ := h
  unfold decode
  rw [hparse]
  dsimp only
  rw [hschema]
  dsimp only
  unfold decodeCanonical asInt
  dsimp only
  rw [hint]
  dsimp only
  rw [if_neg (not_not.mpr rfl)]

/-- A payload that carries another version is refused. -/
theorem decode_of_schema {schema : Json} (hparse : gson.parseString json = .ok (.object obj))
    (hschema : Json.get obj KEY_SCHEMA_VERSION = some schema) (hnull : schema ≠ .null)
    (hversion : ¬ HasVersion obj) :
    ∃ reason detail, decode jvm gson json = .ok (.Invalid reason detail) := by
  have hcanonical : decode jvm gson json = decodeCanonical jvm gson obj schema := by
    unfold decode
    rw [hparse]
    dsimp only
    rw [hschema]
    cases schema with
    | null => exact absurd rfl hnull
    | _ => rfl
  rw [hcanonical]
  cases schema with
  | number literal =>
    unfold decodeCanonical asInt
    dsimp only
    cases hint : intValue literal with
    | none => exact ⟨_, _, rfl⟩
    | some version =>
      dsimp only
      split_ifs with hother
      · exact ⟨_, _, rfl⟩
      · exact absurd ⟨literal, hschema, hint.trans (congrArg some (not_not.mp hother))⟩ hversion
  | _ => exact ⟨_, _, rfl⟩

/-- **A payload that is decoded as it should be**: something is returned, and what is loaded is not
empty and as long as the array, and for a canonical payload as the number that it declares; a
payload that carries a version is canonical. -/
def Sound (jvm : Jvm) (gson : Gson) (json : Text) : Prop :=
  ∃ result, decode jvm gson json = .ok result ∧ result ≠ .Absent ∧
    ∀ savedAt servers format, result = .Loaded savedAt servers format →
      servers ≠ [] ∧ ∃ obj array, gson.parseString json = .ok (.object obj) ∧
        Json.get obj KEY_SERVERS = some (.array array) ∧ servers.length = array.length ∧
          (format = .CANONICAL → ∃ count, Json.get obj KEY_COUNT = some (.number count) ∧
            Exactly count array.length) ∧
          ∀ schema, Json.get obj KEY_SCHEMA_VERSION = some schema → schema ≠ .null →
            format = .CANONICAL

/-- **What goes wrong**: the decoder throws, or it takes a number for that of the servers that is
not. -/
def Damaged (jvm : Jvm) (gson : Gson) (json : Text) : Prop :=
  ∃ obj array count, gson.parseString json = .ok (.object obj) ∧ HasVersion obj ∧
    Parts obj array count ∧ (Throws jvm array count ∨
      Loads jvm array count ∧ Identified jvm array ∧ ¬ Exactly count array.length)

theorem Sound.of_invalid
    (h : ∃ reason detail, decode jvm gson json = .ok (.Invalid reason detail)) :
    Sound jvm gson json := by
  obtain ⟨reason, detail, h⟩ := h
  exact ⟨_, h, nofun, nofun⟩

/-- **A canonical payload** is decoded as it should be unless it is damaged. -/
theorem sound_of_hasVersion (hparse : gson.parseString json = .ok (.object obj))
    (hversion : HasVersion obj) (h : ¬ Damaged jvm gson json) : Sound jvm gson json := by
  by_cases hloads : ∃ array count, Parts obj array count ∧ Loads jvm array count
  · obtain ⟨array, count, hparts, hloads⟩ := hloads
    have hdecode := (decode_of_hasVersion jvm hparse hversion).trans
      (decodeServers_loads gson hparts hloads)
    rcases loaded_cases jvm ((optLong (Json.get obj KEY_SAVED_AT)).getD 0) (connections jvm array)
      .CANONICAL with ⟨hidentity, hloaded⟩ | ⟨reason, detail, hinvalid⟩
    · rw [hloaded] at hdecode
      have hidentified := (checkIdentity_iff hloads.1.readable hloads.2).mp hidentity
      have hlength : (connections jvm array).length = array.length := by
        rw [connections, List.length_map, List.length_map]
      refine ⟨_, hdecode, nofun, fun savedAt servers format hresult => ?_⟩
      obtain ⟨-, rfl, rfl⟩ := ReadResult.Loaded.inj hresult
      refine ⟨?_, obj, array, hparse, hparts.servers, hlength, fun _ => ⟨count, hparts.count, ?_⟩,
        fun _ _ _ => rfl⟩
      · rw [← List.length_pos_iff, hlength]
        exact List.length_pos_iff.mpr hparts.nonempty
      · by_contra hexact
        exact h ⟨obj, array, count, hparse, hversion, hparts,
          Or.inr ⟨hloads, hidentified, hexact⟩⟩
    · rw [hinvalid] at hdecode
      exact Sound.of_invalid ⟨reason, detail, hdecode⟩
  · apply Sound.of_invalid
    rw [decode_of_hasVersion jvm hparse hversion]
    refine decodeServers_invalid fun array count hparts => ⟨fun hthrows => ?_, fun hl => ?_⟩
    · exact h ⟨obj, array, count, hparse, hversion, hparts, Or.inl hthrows⟩
    · exact hloads ⟨array, count, hparts, hl⟩

/-- A payload without a version is decoded as it should be. -/
theorem sound_of_legacy (hparse : gson.parseString json = .ok (.object obj))
    (hversion : ∀ schema, Json.get obj KEY_SCHEMA_VERSION = some schema → schema = .null) :
    Sound jvm gson json := by
  have hdecode : decode jvm gson json = decodeLegacy jvm gson obj := by
    unfold decode
    rw [hparse]
    dsimp only
    cases hschema : Json.get obj KEY_SCHEMA_VERSION with
    | none => rfl
    | some schema =>
      rw [hversion schema hschema]
  rcases decodeLegacy_cases jvm gson obj with
    ⟨reason, detail, hinvalid⟩ | ⟨savedAt, servers, format, array, hloaded, hformat, hservers, hne,
      hlength⟩
  · exact Sound.of_invalid ⟨reason, detail, hdecode.trans hinvalid⟩
  · refine ⟨_, hdecode.trans hloaded, nofun, fun savedAt' servers' format' hresult => ?_⟩
    obtain ⟨-, rfl, rfl⟩ := ReadResult.Loaded.inj hresult
    refine ⟨?_, obj, array, hparse, hservers, hlength, fun h => absurd h hformat,
      fun schema hschema hnull => absurd (hversion schema hschema) hnull⟩
    rw [← List.length_pos_iff, hlength]
    exact List.length_pos_iff.mpr hne

/-- A damaged payload is not decoded as it should be. -/
theorem Sound.not_damaged (h : Sound jvm gson json) : ¬ Damaged jvm gson json := by
  obtain ⟨result, hresult, -, hsound⟩ := h
  rintro ⟨obj, array, count, hparse, hversion, hparts, hdamage⟩
  rw [decode_of_hasVersion jvm hparse hversion] at hresult
  rcases hdamage with hthrows | ⟨hloads, hidentified, hexact⟩
  · obtain ⟨e, he⟩ := decodeServers_throws gson hparts hthrows
    rw [he] at hresult
    exact absurd hresult nofun
  · have hidentity := (checkIdentity_iff hloads.1.readable hloads.2).mpr hidentified
    rw [decodeServers_loads gson hparts hloads, loaded, hidentity] at hresult
    obtain ⟨-, obj', array', hparse', hservers, -, hcount, -⟩ :=
      hsound _ _ _ (Except.ok.inj hresult).symm
    obtain rfl := Json.object.inj (Except.ok.inj (hparse.symm.trans hparse'))
    obtain ⟨count', hcount', hexact'⟩ := hcount rfl
    obtain rfl := Json.array.inj (Option.some.inj (hparts.servers.symm.trans hservers))
    rw [Json.number.inj (Option.some.inj (hparts.count.symm.trans hcount'))] at hexact
    exact hexact hexact'

theorem sound_of_not_damaged (h : ¬ Damaged jvm gson json) : Sound jvm gson json := by
  cases hparse : gson.parseString json with
  | error e =>
    apply Sound.of_invalid
    unfold decode
    rw [hparse]
    cases e <;> exact ⟨_, _, rfl⟩
  | ok root =>
    cases root with
    | object obj =>
      by_cases hversion : HasVersion obj
      · exact sound_of_hasVersion hparse hversion h
      by_cases hschema : ∃ schema, Json.get obj KEY_SCHEMA_VERSION = some schema ∧ schema ≠ .null
      · obtain ⟨schema, hschema, hnull⟩ := hschema
        exact Sound.of_invalid (decode_of_schema hparse hschema hnull hversion)
      · refine sound_of_legacy hparse fun schema hget => ?_
        by_contra hnull
        exact hschema ⟨schema, hget, hnull⟩
    | _ =>
      apply Sound.of_invalid
      unfold decode
      rw [hparse]
      exact ⟨_, _, rfl⟩

/-- **When a payload is decoded as it should be.** -/
theorem snapshot_sound_iff (jvm : Jvm) (gson : Gson) (json : Text) :
    Sound jvm gson json ↔ ¬ Damaged jvm gson json :=
  ⟨Sound.not_damaged, sound_of_not_damaged⟩

/-- A canonical payload whose only server is a null. -/
def nullPayload : Text := "\x7b\"schemaVersion\":1,\"count\":1,\"servers\":[null]\x7d".toList

/-- A snapshot of one server that is null. -/
def nullMembers : List (Text × Json) :=
  [(KEY_SCHEMA_VERSION, .number ['1']), (KEY_COUNT, .number ['1']), (KEY_SERVERS, .array [.null])]

theorem parse_nullPayload : Gson.compact.parseString nullPayload = .ok (.object nullMembers) := by
  have hprint : (Json.object nullMembers).print = nullPayload := by
    simp only [nullMembers, Json.print, List.map_cons, List.map_nil]
    decide
  have hwithin : Json.Within 255 (.object nullMembers) := by
    refine ⟨by decide, fun m hm => ?_⟩
    simp only [nullMembers, List.mem_cons, List.not_mem_nil, or_false] at hm
    rcases hm with rfl | rfl | rfl
    · exact ⟨1, by decide⟩
    · exact ⟨1, by decide⟩
    · intro e he
      rw [List.mem_singleton.mp he]
      trivial
  rw [← hprint]
  exact Gson.compact.parse_toJson _ hwithin

/-- **A null among the servers** is not refused. -/
theorem decode_null_server : ¬ ∀ json, Sound Jvm.ascii Gson.compact json := by
  intro h
  have hparts : Parts nullMembers [.null] ['1'] := ⟨rfl, List.cons_ne_nil _ _, rfl⟩
  have hcounted : Counted Jvm.ascii [.null] ['1'] := by
    refine ⟨⟨1, by decide, by decide⟩, fun e he => Or.inl (List.mem_singleton.mp he)⟩
  exact (h nullPayload).not_damaged ⟨nullMembers, [.null], ['1'], parse_nullPayload,
    ⟨['1'], rfl, by decide⟩, hparts, Or.inl (Or.inr ⟨hcounted, List.mem_singleton.mpr rfl⟩)⟩

end SoftEther.Persistence.CollectorSnapshotStore
