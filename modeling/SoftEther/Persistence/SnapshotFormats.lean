import SoftEther.Persistence.SnapshotDecode

namespace SoftEther.Persistence

open Lib

/-!
# The five formats of a snapshot

A snapshot is in one of five formats: the current one, and four that other builds have written. The
letters of the minified ones stand for different fields, so that a format has to be told from the
members of the first server alone.

* `Format.encode` — the text of a snapshot in a format; `Format.carried` — what it carries of a
  server;
* `toConnection_written` — a server is made of its members as it was carried;
* `detectLegacyFormat_written` — **a format is told from the first server**;
* `decode_written` — a snapshot is read in the format in which it was written.
-/

/-- A list, whose size is an `Int`. -/
abbrev KotlinList (α : Type) := { xs : List α // xs.length ≤ 2147483647 }

/-- What Gson writes of a connection itself: its fields as they are. -/
def Kind.ofField : (k : Kind) → k.Value → k.Stored
  | .int, v => v
  | .long, v => v
  | .text, v => v
  | .source, v => some v
  | .flag, v => v

/-- The members under the names of the source. -/
def Dto.ofFields (c : VPNGateConnection) : Dto := fun f => f.kind.ofField (c f)

namespace CollectorSnapshotStore

variable (jvm : Jvm) (gson : Gson)

namespace Format

/-- The members of a server. -/
def dto (format : Format) (c : VPNGateConnection) : Dto :=
  match format with
  | CANONICAL => .from jvm c
  | _ => .ofFields c

/-- The members that are written. -/
def written (format : Format) (c : VPNGateConnection) : List (Text × Json) :=
  format.layout.write (format.dto jvm c)

/-- The text of a snapshot: that of `encode`, or what another build has written. -/
def encode (format : Format) (savedAt : Int64) (servers : List VPNGateConnection) : Text :=
  match format with
  | CANONICAL => CollectorSnapshotStore.encode jvm gson savedAt servers
  | _ =>
    gson.toJson (.object (envelope none savedAt
      (servers.map fun c => .object (format.written jvm c))))

/-- **What a format carries of a server.** Where it has no provenance of the port of SSTP, a server
of SSTP without a port has that of the protocol. -/
def carried (format : Format) (c : VPNGateConnection) : VPNGateConnection :=
  match format with
  | CANONICAL | LEGACY_SOURCE_NAMES | LEGACY_R8_24 => c.normalizeSource jvm
  | LEGACY_R8_23 =>
    Function.update c .sstpPortSource
      (if (c .isSSTPSupport : Int32) = 1 ∧ (c .sstpPort : Int32) ≤ 0 then VpnPortSource.DEFAULT
        else VpnPortSource.UNKNOWN)
  | LEGACY_R8_22 =>
    Function.update (Function.update c .sstpPort (0 : Int32)) .sstpPortSource
      (if (c .isSSTPSupport : Int32) = 1 then VpnPortSource.DEFAULT else VpnPortSource.UNKNOWN)

end Format

variable {jvm gson}

/-! ### The members of a server -/

variable {f : Field} {c : VPNGateConnection} {format : Format}

theorem toValue_ofField (h : f ≠ .sstpPortSource) (v : f.kind.Value) :
    f.kind.toValue jvm (f.kind.ofField v) = v := by
  cases f <;> first | rfl | exact absurd rfl h

/-- The fields of a layout, and what becomes of those that it does not have. -/
theorem toConnection_ofFields {l : Layout} {c' : VPNGateConnection}
    (hkeys : ∀ f, f ≠ .sstpPortSource → (l.keyOf f).isSome → c' f = c f)
    (hunset : ∀ f, l.keyOf f = none → c' f = f.kind.unset)
    (hsource : (l.keyOf .sstpPortSource).isSome →
      c' .sstpPortSource = VpnPortSource.normalized jvm (some (c .sstpPortSource))) :
    l.toConnection jvm (.ofFields c) = c' := by
  funext f
  unfold Layout.toConnection
  split_ifs with hkey
  · by_cases hf : f = .sstpPortSource
    · subst hf
      exact (hsource hkey).symm
    · rw [hkeys f hf hkey]
      exact toValue_ofField hf _
  · exact (hunset f (Option.not_isSome_iff_eq_none.mp hkey)).symm

/-- The fields that a layout does not have. -/
theorem keyOf_eq_none (format : Format) : format.layout.keyOf f = none ↔
      (format = .LEGACY_R8_22 ∧ f = .sstpPort) ∨
        ((format = .LEGACY_R8_22 ∨ format = .LEGACY_R8_23) ∧ f = .sstpPortSource) := by
  cases format <;> cases f <;> decide

/-- The fields of a layout that has all of them. -/
theorem toConnection_full (format : Format)
    (hfull : ∀ f, format.layout.keyOf f ≠ none) (c : VPNGateConnection) :
    format.layout.toConnection jvm (.ofFields c) = c.normalizeSource jvm := by
  apply toConnection_ofFields
  · exact fun f hf _ => Function.update_of_ne hf _ _
  · exact fun f hnone => absurd hnone (hfull f)
  · exact fun _ => Function.update_self _ _ _

theorem toConnection_23 (c : VPNGateConnection) :
    LegacyR8Server23Dto.toConnection jvm (.ofFields c) =
      Function.update c .sstpPortSource VpnPortSource.UNKNOWN := by
  have hsource : LegacyR8Server23Dto.keyOf .sstpPortSource = none := by decide
  apply toConnection_ofFields
  · exact fun f hf _ => Function.update_of_ne hf _ _
  · intro f hnone
    rcases (keyOf_eq_none .LEGACY_R8_23).mp hnone with ⟨h, -⟩ | ⟨-, rfl⟩
    · exact absurd h (by decide)
    · exact Function.update_self _ _ _
  · intro h
    rw [hsource] at h
    exact absurd h (by decide)

theorem toConnection_22 (c : VPNGateConnection) :
    LegacyR8Server22Dto.toConnection jvm (.ofFields c) =
      Function.update (Function.update c .sstpPort (0 : Int32)) .sstpPortSource
        VpnPortSource.UNKNOWN := by
  have hsource : LegacyR8Server22Dto.keyOf .sstpPortSource = none := by decide
  have hport : LegacyR8Server22Dto.keyOf .sstpPort = none := by decide
  apply toConnection_ofFields
  · intro f hf hkey
    rw [Function.update_of_ne hf, Function.update_of_ne]
    rintro rfl
    rw [hport] at hkey
    exact absurd hkey (by decide)
  · intro f hnone
    rcases (keyOf_eq_none .LEGACY_R8_22).mp hnone with ⟨-, rfl⟩ | ⟨-, rfl⟩
    · rw [Function.update_of_ne (by decide), Function.update_self]
      rfl
    · exact Function.update_self _ _ _
  · intro h
    rw [hsource] at h
    exact absurd h (by decide)

/-- The provenance that an old layout did not have. -/
theorem sstpDefault_update (c : VPNGateConnection) :
    sstpDefault (Function.update c .sstpPortSource VpnPortSource.UNKNOWN) =
      Function.update c .sstpPortSource
        (if (c .isSSTPSupport : Int32) = 1 ∧ (c .sstpPort : Int32) ≤ 0 then VpnPortSource.DEFAULT
          else VpnPortSource.UNKNOWN) := by
  unfold sstpDefault
  rw [Function.update_of_ne (by decide), Function.update_of_ne (by decide)]
  split_ifs
  · exact Function.update_idem ..
  · rfl

/-- **A server is made of its members as it was carried.** -/
theorem toConnection_written (format : Format) (c : VPNGateConnection) :
    format.toConnection jvm (format.dto jvm c) = format.carried jvm c := by
  cases format with
  | CANONICAL => exact toConnection_from jvm VpnLastConnectionStore.keyOf_CollectorServerDto c
  | LEGACY_SOURCE_NAMES =>
    exact toConnection_full .LEGACY_SOURCE_NAMES (fun f h => by simp [keyOf_eq_none] at h) c
  | LEGACY_R8_24 =>
    exact toConnection_full .LEGACY_R8_24 (fun f h => by simp [keyOf_eq_none] at h) c
  | LEGACY_R8_23 =>
    show sstpDefault (LegacyR8Server23Dto.toConnection jvm (.ofFields c)) = _
    rw [toConnection_23, sstpDefault_update]
    rfl
  | LEGACY_R8_22 =>
    show sstpDefault (Function.update (LegacyR8Server22Dto.toConnection jvm (.ofFields c)) .sstpPort
      (0 : Int32)) = _
    have hzero : (0 : Int32) ≤ 0 := by decide
    rw [toConnection_22, Function.update_comm (by decide), Function.update_idem, sstpDefault_update,
      Function.update_of_ne (by decide), Function.update_self]
    simp only [hzero, and_true]
    rfl

theorem not_lost (format : Format) (c : VPNGateConnection) (f : Field) :
    ¬ f.kind.Lost (format.dto jvm c f) := by
  cases format with
  | CANONICAL => exact Kind.not_lost_ofValue jvm f.kind _
  | _ => cases f <;> first | exact id | exact nofun

variable (jvm gson) in
/-- What is read of a server that was written. -/
theorem exists_fromJson_written (format : Format) (c : VPNGateConnection) :
    ∃ d, format.layout.fromJson jvm gson (format.written jvm c) = .ok d ∧
      format.toConnection jvm d = format.carried jvm c := by
  obtain ⟨d, hd, hfields⟩ := Layout.fromJson_of_get jvm gson (l := format.layout)
    (d := format.dto jvm c) (fun key f hmem => Layout.get_write _ hmem) (not_lost format c)
  refine ⟨d, hd, ?_⟩
  have hsame : format.layout.toConnection jvm d =
      format.layout.toConnection jvm (format.dto jvm c) := by
    funext f
    unfold Layout.toConnection
    split_ifs with hkey
    · rw [hfields f hkey]
    · rfl
  rw [← toConnection_written]
  unfold Format.toConnection
  rw [hsame]

theorem readableItem_written (format : Format) (c : VPNGateConnection) :
    ReadableItem jvm format.layout (.object (format.written jvm c)) := by
  obtain ⟨d, hd, -⟩ := exists_fromJson_written jvm Gson.compact format c
  exact Or.inr ⟨_, rfl, (Layout.exists_fromJson Gson.compact).mp ⟨d, hd⟩⟩

theorem itemConnection_written (format : Format) (c : VPNGateConnection) :
    itemConnection jvm format (readItem jvm format.layout (.object (format.written jvm c))) =
      format.carried jvm c := by
  obtain ⟨d, hd, hconnection⟩ := exists_fromJson_written jvm Gson.compact format c
  have hread : readItem jvm format.layout (.object (format.written jvm c)) = some d := by
    refine congrArg some (funext fun f => ?_)
    rw [Layout.fromJson_eq_ok.mp hd f]
    rfl
  rw [hread]
  exact hconnection

/-! ### The format is told from the first server -/

/-- A key that the layout does not have is not written. -/
theorem get_written_eq_none {key : Text}
    (h : format.layout.members.all (fun m => decide (m.1 ≠ key)) = true) :
    Json.get (format.written jvm c) key = none := by
  apply Json.get_eq_none
  intro m hm
  obtain ⟨f, hf, -⟩ := Layout.mem_of_mem_write hm
  exact of_decide_eq_true (List.all_eq_true.mp h _ hf)

theorem get_written (jvm : Jvm) (format : Format) (c : VPNGateConnection) {key : Text}
    (h : (key, f) ∈ format.layout.members) :
    Json.get (format.written jvm c) key = f.kind.write (format.dto jvm c f) :=
  Layout.get_write _ h

variable (jvm) in
/-- **The format of a server is told from its members**, for that of the names when both of its
texts are there. -/
theorem detectLegacyFormat_written (hformat : format ≠ .CANONICAL)
    (hnames : format = .LEGACY_SOURCE_NAMES →
      (c .hostName : Option Text).isSome ∧ (c .ip : Option Text).isSome) :
    detectLegacyFormat (format.written jvm c) = some format := by
  unfold detectLegacyFormat
  cases format with
  | CANONICAL => exact absurd rfl hformat
  | LEGACY_SOURCE_NAMES =>
    obtain ⟨hhost, hip⟩ := hnames rfl
    obtain ⟨host, hhost⟩ := Option.isSome_iff_exists.mp hhost
    obtain ⟨ip, hip⟩ := Option.isSome_iff_exists.mp hip
    have hhostName : Json.get (Format.LEGACY_SOURCE_NAMES.written jvm c) "hostName".toList =
        some (.string host) := by
      rw [get_written jvm .LEGACY_SOURCE_NAMES c (f := .hostName) (by decide)]
      exact congrArg (Option.map Json.string) hhost
    have hipText : Json.get (Format.LEGACY_SOURCE_NAMES.written jvm c) "ip".toList =
        some (.string ip) := by
      rw [get_written jvm .LEGACY_SOURCE_NAMES c (f := .ip) (by decide)]
      exact congrArg (Option.map Json.string) hip
    simp only [hhostName, hipText]
    rfl
  | LEGACY_R8_24 =>
    -- a flag under the last letter
    have hhost : Json.get (Format.LEGACY_R8_24.written jvm c) "hostName".toList = none :=
      get_written_eq_none (by decide)
    have hA := get_written jvm .LEGACY_R8_24 c
      (by decide : ("A".toList, .numVpnSession) ∈ LegacyR8Server24Dto.members)
    have hO := get_written jvm .LEGACY_R8_24 c
      (by decide : ("O".toList, .seTcpPort) ∈ LegacyR8Server24Dto.members)
    have hQ := get_written jvm .LEGACY_R8_24 c
      (by decide : ("Q".toList, .seUdpSupported) ∈ LegacyR8Server24Dto.members)
    simp only [hhost, hA, hO, hQ]
    rfl
  | LEGACY_R8_23 =>
    -- no such flag, and a number under the letter that is a text in the others
    have hhost : Json.get (Format.LEGACY_R8_23.written jvm c) "hostName".toList = none :=
      get_written_eq_none (by decide)
    have hA := get_written jvm .LEGACY_R8_23 c
      (by decide : ("A".toList, .uptime) ∈ LegacyR8Server23Dto.members)
    have hO := get_written jvm .LEGACY_R8_23 c
      (by decide : ("O".toList, .seUdpSupported) ∈ LegacyR8Server23Dto.members)
    have hQ : Json.get (Format.LEGACY_R8_23.written jvm c) "Q".toList = none :=
      get_written_eq_none (by decide)
    have hz := get_written jvm .LEGACY_R8_23 c
      (by decide : ("z".toList, .numVpnSession) ∈ LegacyR8Server23Dto.members)
    simp only [hhost, hA, hO, hQ, hz]
    rfl
  | LEGACY_R8_22 =>
    -- a text under that letter or nothing, and a flag
    have hhost : Json.get (Format.LEGACY_R8_22.written jvm c) "hostName".toList = none :=
      get_written_eq_none (by decide)
    have hA := get_written jvm .LEGACY_R8_22 c
      (by decide : ("A".toList, .numVpnSession) ∈ LegacyR8Server22Dto.members)
    have hO := get_written jvm .LEGACY_R8_22 c
      (by decide : ("O".toList, .seUdpSupported) ∈ LegacyR8Server22Dto.members)
    have hQ : Json.get (Format.LEGACY_R8_22.written jvm c) "Q".toList = none :=
      get_written_eq_none (by decide)
    have hz := get_written jvm .LEGACY_R8_22 c
      (by decide : ("z".toList, .countryShort) ∈ LegacyR8Server22Dto.members)
    have hnumber : isNumber (Json.get (Format.LEGACY_R8_22.written jvm c) "z".toList) = false := by
      rw [hz]
      show isNumber (Option.map Json.string (c .countryShort : Option Text)) = false
      cases (c .countryShort : Option Text) <;> rfl
    simp only [hhost, hA, hO, hQ, hnumber]
    rfl

/-! ### A snapshot is read in the format in which it was written -/

variable (jvm) in
theorem identity_carried (format : Format) (c : VPNGateConnection) :
    format.carried jvm c .hostName = c .hostName ∧ format.carried jvm c .ip = c .ip := by
  cases format <;> exact ⟨rfl, rfl⟩

/-- A server with a host name and an address. -/
structure HasIdentity (jvm : Jvm) (c : VPNGateConnection) : Prop where
  hostName : isNullOrBlank jvm (c .hostName) = false
  ip : isNullOrBlank jvm (c .ip) = false

theorem checkIdentity_carried {servers : List VPNGateConnection}
    (h : ∃ c ∈ servers, HasIdentity jvm c) :
    checkIdentity jvm (servers.map (format.carried jvm)) = true := by
  obtain ⟨c, hc, hhost, hip⟩ := h
  have hmem : format.carried jvm c ∈ servers.map (format.carried jvm) := List.mem_map_of_mem hc
  obtain ⟨hcarriedHost, hcarriedIp⟩ := identity_carried jvm format c
  rw [checkIdentity, Bool.and_eq_true, List.any_eq_true, List.any_eq_true]
  refine ⟨⟨_, hmem, ?_⟩, ⟨_, hmem, ?_⟩⟩
  · rw [hcarriedHost, hhost]
    rfl
  · rw [hcarriedIp, hip]
    rfl

/-- The servers of an array that was written. -/
theorem array_written (format : Format) (servers : List VPNGateConnection) :
    ((servers.map fun c => Json.object (format.written jvm c)).map
      (readItem jvm format.layout)).map (itemConnection jvm format) =
        servers.map (format.carried jvm) := by
  rw [List.map_map, List.map_map]
  exact List.map_congr_left fun c _ => itemConnection_written format c

theorem number_size {n : ℕ} (h : n ≤ 2147483647) :
    ∃ z : Int64, sizeText n = Decimal.text z.toInt := by
  have hvalue : (Int64.ofInt n).toInt = n := Int64.toInt_ofInt_of_le (by omega) (by omega)
  exact ⟨Int64.ofInt n, by rw [hvalue]; rfl⟩

variable (jvm) in
/-- A snapshot is nested three times. -/
theorem within_envelope (format : Format) (version : Option Int32) (savedAt : Int64)
    (servers : KotlinList VPNGateConnection) :
    Json.Within 255 (.object (envelope version savedAt
      (servers.val.map fun c => .object (format.written jvm c)))) := by
  have hservers : Json.Within 254 (.array (servers.val.map fun c =>
      .object (format.written jvm c))) := by
    intro e he
    obtain ⟨c, -, rfl⟩ := List.mem_map.mp he
    exact Layout.within_write _ 252
  have hcount : Json.Within 254 (.number (sizeText (servers.val.map fun c =>
      Json.object (format.written jvm c)).length)) := by
    rw [List.length_map]
    exact number_size servers.property
  constructor
  · cases version with
    | none =>
      show [KEY_SAVED_AT, KEY_COUNT, KEY_SERVERS].Nodup
      decide
    | some v =>
      show [KEY_SCHEMA_VERSION, KEY_SAVED_AT, KEY_COUNT, KEY_SERVERS].Nodup
      decide
  · intro m hm
    rcases List.mem_append.mp hm with hm | hm
    · obtain ⟨v, -, rfl⟩ := List.mem_map.mp hm
      exact Kind.within_of_write (k := .int) (v := v) rfl 254
    · simp only [List.mem_cons, List.not_mem_nil, or_false] at hm
      rcases hm with rfl | rfl | rfl
      · exact ⟨savedAt, rfl⟩
      · exact hcount
      · exact hservers

theorem savedAt_envelope (version : Option Int32) (savedAt : Int64) (servers : List Json) :
    optLong (Json.get (envelope version savedAt servers) KEY_SAVED_AT) = some savedAt := by
  have hvalue : longValue (Decimal.text savedAt.toInt) = some savedAt :=
    longValue_of_integer (Decimal.integer_text _)
  cases version <;> exact hvalue

/-- The snapshot of this build. -/
theorem decode_canonical (savedAt : Int64) (servers : KotlinList VPNGateConnection)
    (hidentity : ∃ c ∈ servers.val, HasIdentity jvm c) :
    decode jvm gson (encode jvm gson savedAt servers.val) =
      .ok (.Loaded savedAt (servers.val.map (Format.CANONICAL.carried jvm)) .CANONICAL) := by
  set array := servers.val.map fun c => Json.object (Format.CANONICAL.written jvm c) with harray
  have hparse := gson.parse_toJson _
    (within_envelope jvm .CANONICAL (some SCHEMA_VERSION) savedAt servers)
  have hversion : HasVersion (envelope (some SCHEMA_VERSION) savedAt array) :=
    ⟨_, rfl, VpnLastConnectionStore.intValue_intText _⟩
  have hparts : Parts (envelope (some SCHEMA_VERSION) savedAt array) array
      (sizeText array.length) := by
    refine ⟨rfl, ?_, rfl⟩
    obtain ⟨c, hc, -⟩ := hidentity
    exact List.ne_nil_of_mem (List.mem_map_of_mem hc)
  have hlength : array.length ≤ 2147483647 := by
    rw [harray, List.length_map]
    exact servers.property
  have hloads : Loads jvm array (sizeText array.length) := by
    have hvalue : (Int32.ofInt array.length).toInt = array.length :=
      Int32.toInt_ofInt_of_le (by omega) (by omega)
    have hcount : intValue (sizeText array.length) = some (Int32.ofInt array.length) :=
      intValue_of_integer ((Decimal.integer_text _).trans (congrArg some hvalue.symm))
    refine ⟨⟨⟨_, hcount, hvalue⟩, fun e he => ?_⟩, fun hnull => ?_⟩
    · obtain ⟨c, -, rfl⟩ := List.mem_map.mp he
      exact readableItem_written .CANONICAL c
    · obtain ⟨c, -, h⟩ := List.mem_map.mp hnull
      exact absurd h nofun
  have hservers : connections jvm array = servers.val.map (Format.CANONICAL.carried jvm) :=
    array_written .CANONICAL servers.val
  have hdecode := (decode_of_hasVersion jvm hparse hversion).trans
    (decodeServers_loads gson hparts hloads)
  rw [savedAt_envelope, hservers, loaded, checkIdentity_carried hidentity] at hdecode
  exact hdecode

variable (jvm gson) in
/-- The servers of another build. -/
theorem legacyServers_written (format : Format) (servers : List VPNGateConnection) :
    legacyServers jvm gson format (servers.map fun c => .object (format.written jvm c)) =
      .ok (servers.map (format.carried jvm)) := by
  have hdtos := (fromJsonList_returns jvm gson format.layout
    (servers.map fun c => .object (format.written jvm c))).returns (by
      rintro ⟨e, he, hbad⟩
      obtain ⟨c, -, rfl⟩ := List.mem_map.mp he
      exact hbad (readableItem_written format c))
  have hconnections := (toConnections_returns jvm format ((servers.map fun c =>
    Json.object (format.written jvm c)).map (readItem jvm format.layout))).returns (by
      rintro ⟨o, ho, rfl⟩
      obtain ⟨e, he, hnone⟩ := List.mem_map.mp ho
      obtain ⟨c, -, rfl⟩ := List.mem_map.mp he
      exact absurd hnone nofun)
  rw [array_written] at hconnections
  unfold legacyServers
  rw [hdtos]
  exact hconnections

/-- A snapshot of another build. -/
theorem decode_legacy (hformat : format ≠ .CANONICAL) (savedAt : Int64)
    (servers : KotlinList VPNGateConnection) (hidentity : ∃ c ∈ servers.val, HasIdentity jvm c)
    (hfirst : format = .LEGACY_SOURCE_NAMES → ∀ c ∈ servers.val.head?,
      (c .hostName : Option Text).isSome ∧ (c .ip : Option Text).isSome) :
    decode jvm gson (gson.toJson (.object (envelope none savedAt
      (servers.val.map fun c => .object (format.written jvm c))))) =
      .ok (.Loaded savedAt (servers.val.map (format.carried jvm)) format) := by
  have hparse := gson.parse_toJson _ (within_envelope jvm format none savedAt servers)
  have hlegacy := legacyServers_written jvm gson format servers.val
  obtain ⟨servers, hsize⟩ := servers
  dsimp only at hparse hlegacy hidentity hfirst ⊢
  cases servers with
  | nil =>
    obtain ⟨c, hc, -⟩ := hidentity
    exact absurd hc List.not_mem_nil
  | cons c cs =>
    have hdetect := detectLegacyFormat_written jvm hformat fun h => hfirst h c rfl
    have hdecode : decode jvm gson (gson.toJson (.object (envelope none savedAt
        ((c :: cs).map fun c => .object (format.written jvm c))))) =
        decodeLegacy jvm gson (envelope none savedAt
          ((c :: cs).map fun c => .object (format.written jvm c))) := by
      unfold decode
      rw [hparse]
      rfl
    have hservers : Json.get (envelope none savedAt
        ((c :: cs).map fun c => Json.object (format.written jvm c))) KEY_SERVERS =
          some (.array (.object (format.written jvm c) ::
            cs.map fun c => .object (format.written jvm c))) := rfl
    rw [hdecode]
    unfold decodeLegacy
    rw [hservers]
    dsimp only
    rw [hdetect]
    dsimp only
    rw [← List.map_cons (f := fun c => Json.object (format.written jvm c)), hlegacy]
    dsimp only
    rw [savedAt_envelope, loaded, checkIdentity_carried hidentity]
    rfl

/-- **A snapshot is read in the format in which it was written**, and its servers as the format has
carried them. -/
theorem decode_written (jvm : Jvm) (gson : Gson) (format : Format) (savedAt : Int64)
    (servers : KotlinList VPNGateConnection) (hidentity : ∃ c ∈ servers.val, HasIdentity jvm c)
    (hfirst : format = .LEGACY_SOURCE_NAMES → ∀ c ∈ servers.val.head?,
      (c .hostName : Option Text).isSome ∧ (c .ip : Option Text).isSome) :
    decode jvm gson (format.encode jvm gson savedAt servers.val) =
      .ok (.Loaded savedAt (servers.val.map (format.carried jvm)) format) := by
  cases format with
  | CANONICAL => exact decode_canonical savedAt servers hidentity
  | LEGACY_SOURCE_NAMES => exact decode_legacy (by decide) savedAt servers hidentity hfirst
  | LEGACY_R8_22 => exact decode_legacy (by decide) savedAt servers hidentity hfirst
  | LEGACY_R8_23 => exact decode_legacy (by decide) savedAt servers hidentity hfirst
  | LEGACY_R8_24 => exact decode_legacy (by decide) savedAt servers hidentity hfirst

/-- A server with a host name and an address, and nothing else. -/
def plainServer : VPNGateConnection :=
  Function.update (Function.update VPNGateConnection.unset .hostName (some "vpn1".toList)) .ip
    (some "10.0.0.1".toList)

/-- A server of OpenVPN and of SSTP, the latter without a port. -/
def sstpServer : VPNGateConnection :=
  Function.update (Function.update (Function.update plainServer .tcpPort (1194 : Int32))
    .isSSTPSupport (1 : Int32)) .sstpPortSource VpnPortSource.EXPLICIT

/-- In a minified layout the ports are kept, and the server without a port of SSTP is given the one
of the protocol. -/
theorem decode_written_sample :
    decode Jvm.ascii Gson.compact
        (Format.LEGACY_R8_23.encode Jvm.ascii Gson.compact 5 [plainServer, sstpServer]) =
      .ok (.Loaded 5 ([plainServer, sstpServer].map (Format.LEGACY_R8_23.carried Jvm.ascii))
        .LEGACY_R8_23) ∧
      Format.LEGACY_R8_23.carried Jvm.ascii sstpServer .tcpPort = (1194 : Int32) ∧
      Format.LEGACY_R8_23.carried Jvm.ascii sstpServer .sstpPortSource = VpnPortSource.DEFAULT := by
  have hidentity : HasIdentity Jvm.ascii plainServer := ⟨by decide, by decide⟩
  refine ⟨?_, rfl, rfl⟩
  exact decode_written Jvm.ascii Gson.compact .LEGACY_R8_23 5 ⟨[plainServer, sstpServer], by decide⟩
    ⟨plainServer, List.mem_cons_self, hidentity⟩ nofun

end CollectorSnapshotStore

end SoftEther.Persistence
