import SoftEther.Pack.Reader

namespace SoftEther.Pack.Login

open Lib

/-!
# The login PACK (`build_login_pack`)

The login PACK is built in two passes over the same fields: the first one counts the elements
and adds up their sizes, the second one writes them.  `softether_protocol.c` has its own element
writers for this, without the growable buffer; its readers are those of `softether_pack.c`
written out in place.

* `LoginConn`, `LoginRudp`, `LoginEnv`, `LoginArgs` — what the function reads;
* `loginNumElems`, `loginSizes` — the first pass;
* `loginCalls` — the second pass, call by call;
* `Consistent` — count, size and buffer agree with what was written, and every field is read
  back;
* `login_consistent_iff` — this is so exactly when the encoded fields and the margin of 64
  bytes fit a `uint32_t`.
-/

/-! ### What the function reads -/

/-- `char s[size]`, with a terminating NUL inside. -/
abbrev CharArray (size : ℕ) := { s : CStr // s.strlen < size }

/-- `uint8_t b[size]`. -/
abbrev Bytes (size : ℕ) := { b : List UInt8 // b.length = size }

abbrev SHA1_SIZE : ℕ := 20
abbrev RUDP_COMMON_KEY_SIZE_V1 : ℕ := 20
abbrev RUDP_COMMON_KEY_SIZE_V2 : ℕ := 128

/-- The client information of `softether_connection_t`. -/
structure LoginConn where
  clientProductName : CharArray 128
  clientProductVersion : CharArray 32
  clientProductBuild : ℤ
  clientOsName : CharArray 128
  clientOsVersion : CharArray 64
  clientOsProductId : CharArray 128
  clientHostName : CharArray 128
  clientIpAddress : CharArray 64
  clientPort : ℤ
  serverHostName : CharArray 128
  serverIpAddress : CharArray 64
  serverPortReported : ℤ
  clientIpV6 : CharArray 128
  maxConnection : ℤ
  halfConnection : ℤ
  socketFd : ℤ

/-- What the login needs of `rudp_context_t`. -/
structure LoginRudp where
  myKey : Bytes RUDP_COMMON_KEY_SIZE_V1
  myKeyV2 : Bytes RUDP_COMMON_KEY_SIZE_V2
  myCookie : UInt32
  myPort : UInt16

/-- The C library: `sscanf` with `"%d.%d.%d"` on zeroed variables, `inet_addr`, `getsockname`,
    the hash, the random bytes with their number below 1000, and the answers of `malloc` and
    `calloc`. -/
structure LoginEnv where
  sscanf : CStr → ℤ × ℤ × ℤ
  inetAddr : CStr → UInt32
  getsockname : Option UInt16
  sha1Hash : CStr → Bytes SHA1_SIZE
  pencore : { b : List UInt8 // b.length < 1000 }
  malloc : Bool
  calloc : Bool

/-- The arguments; a missing pointer is `none`. -/
structure LoginArgs where
  hubName : CStr
  username : CStr
  authType : ℤ
  securePassword : Option (Bytes SHA1_SIZE)
  plainPassword : Option CStr
  rudp : Option LoginRudp

/-- A string literal. -/
def lit (s : String) : CStr where
  bytes := (s.toList.map fun c => UInt8.ofNat c.toNat).filter (· ≠ 0)
  nulFree := fun h => absurd (List.of_mem_filter h) (by decide)

/-- `if (s[0])`. -/
def nonEmpty (s : CStr) : Bool := s.bytes ≠ []

/-- `softether_endian32`. -/
def softetherEndian32 (x : UInt32) : UInt32 := UInt32.ofNat (beVal (beBytes 4 x.toNat).reverse)

/-! ### The element writers -/

/-- What a call of a writer passes. -/
inductive Arg
  | int (val : UInt32)
  | str (val : CStr)
  | data (data : List UInt8) (dlen : data.length ≤ UINT32_MAX)

/-- A call of `pack_add_int`, `pack_add_str` or `pack_add_data`. -/
structure Call where
  name : CStr
  arg : Arg

/-- `pack_add_int` of the login. -/
def packAddInt (buf : List UInt8) (name : CStr) (val : UInt32) : List UInt8 :=
  packWriteUint32 (packWriteUint32 (packWriteUint32 (packWriteElemName buf name) PACK_TYPE_INT) 1)
    val.toNat

/-- `pack_add_str` of the login. -/
def packAddStr (buf : List UInt8) (name val : CStr) : List UInt8 :=
  packWriteStrVal (packWriteUint32 (packWriteUint32 (packWriteElemName buf name) PACK_TYPE_STR) 1)
    val

/-- `pack_add_data` of the login. -/
def packAddData (buf : List UInt8) (name : CStr) (data : List UInt8) : List UInt8 :=
  packWriteDataVal
    (packWriteUint32 (packWriteUint32 (packWriteElemName buf name) PACK_TYPE_DATA) 1) data

/-- The call writes behind `buf`. -/
def Call.write (buf : List UInt8) (c : Call) : List UInt8 :=
  match c.arg with
  | .int val => packAddInt buf c.name val
  | .str val => packAddStr buf c.name val
  | .data data _ => packAddData buf c.name data

/-! ### The size macros, on `uint32_t` -/

/-- `PACK_INT_SZ`. -/
def packIntSz (name : CStr) : ℕ := (packElemHdrSz name + 4) % 2 ^ 32

/-- `PACK_STR_SZ`. -/
def packStrSz (name val : CStr) : ℕ := (packElemHdrSz name + 4 + val.strlen % 2 ^ 32) % 2 ^ 32

/-- `PACK_DATA_SZ`. -/
def packDataSz (name : CStr) (dlen : ℕ) : ℕ := (packElemHdrSz name + 4 + dlen) % 2 ^ 32

/-! ### The two passes -/

/-- The name of the client. -/
def clientHello : CStr := lit "SoftEther VPN Client"

/-- The version as a number. -/
def clientProductVerInt (env : LoginEnv) (conn : LoginConn) : UInt32 :=
  if nonEmpty conn.clientProductVersion.val then
    let (major, minor, patch) := env.sscanf conn.clientProductVersion.val
    UInt32.ofInt (major * 100 + minor * 10 + patch)
  else 0

/-- The address as a number, 0 without one. -/
def ipUint (env : LoginEnv) (address : CStr) : UInt32 :=
  if nonEmpty address then env.inetAddr address else 0

/-- The port of the client, that of its socket when none is set. -/
def clientPort (env : LoginEnv) (conn : LoginConn) : UInt32 :=
  let port := UInt32.ofInt conn.clientPort
  if port = 0 ∧ conn.socketFd ≥ 0 then
    match env.getsockname with
    | some p => p.toUInt32
    | none => port
  else port

/-- What `pack_add_data` writes for `pencore`: without memory for the random bytes the buffer
    stays as `calloc` left it. -/
def pencoreData (env : LoginEnv) : List UInt8 :=
  if env.malloc then env.pencore.val else List.replicate env.pencore.val.length 0

/-- The password goes as a hash. -/
def hasSecurePassword (args : LoginArgs) : Bool :=
  args.authType = 1 && args.securePassword.isSome

/-- The password goes as a text. -/
def hasPlainPassword (args : LoginArgs) : Bool :=
  args.authType = 2 && args.plainPassword.isSome

/-- The first pass: `num_elems`. -/
def loginNumElems (conn : LoginConn) (args : LoginArgs) : ℕ :=
  20 + 12 + (if nonEmpty conn.clientIpV6.val then 1 else 0) +
    (if args.rudp.isSome then 5 else 0) + (if args.rudp.isSome then 8 else 0) +
    (if hasSecurePassword args then 1 else 0) + (if hasPlainPassword args then 1 else 0)

/-- The first pass: what is added to `size`, in this order. -/
def loginSizes (env : LoginEnv) (conn : LoginConn) (args : LoginArgs) : List ℕ :=
  [packStrSz (lit "method") (lit "login"),
    packStrSz (lit "hubname") args.hubName,
    packStrSz (lit "username") args.username,
    packIntSz (lit "authtype"),
    packStrSz (lit "hello") clientHello,
    packIntSz (lit "version"),
    packIntSz (lit "build"),
    packStrSz (lit "client_str") clientHello,
    packIntSz (lit "client_ver"),
    packIntSz (lit "client_build"),
    packIntSz (lit "client_id"),
    packIntSz (lit "protocol"),
    packIntSz (lit "max_connection"),
    packIntSz (lit "use_encrypt"),
    packIntSz (lit "use_compress"),
    packIntSz (lit "half_connection"),
    packIntSz (lit "require_bridge_routing_mode"),
    packIntSz (lit "require_monitor_mode"),
    packIntSz (lit "qos"),
    packDataSz (lit "pencore") env.pencore.val.length,
    packStrSz (lit "ClientProductName") conn.clientProductName.val,
    packIntSz (lit "ClientProductVer"),
    packIntSz (lit "ClientProductBuild"),
    packStrSz (lit "ClientOsName") conn.clientOsName.val,
    packStrSz (lit "ClientOsVer") conn.clientOsVersion.val,
    packStrSz (lit "ClientOsProductId") conn.clientOsProductId.val,
    packStrSz (lit "ClientHostName") conn.clientHostName.val,
    packIntSz (lit "ClientIpAddress"),
    packIntSz (lit "ClientPort"),
    packStrSz (lit "ServerHostName") conn.serverHostName.val,
    packIntSz (lit "ServerIpAddress"),
    packIntSz (lit "ServerPort2")] ++
  (if nonEmpty conn.clientIpV6.val then
    [packStrSz (lit "ClientIpv6Address") conn.clientIpV6.val] else []) ++
  (if args.rudp.isSome then
    [packIntSz (lit "support_bulk_on_rudp"),
      packIntSz (lit "support_hmac_on_bulk_of_rudp"),
      packIntSz (lit "support_udp_recovery"),
      packDataSz (lit "unique_id") SHA1_SIZE,
      packIntSz (lit "rudp_bulk_max_version")] else []) ++
  (if args.rudp.isSome then
    [packIntSz (lit "use_udp_acceleration"),
      packDataSz (lit "udp_acceleration_client_key") RUDP_COMMON_KEY_SIZE_V1,
      packDataSz (lit "udp_acceleration_client_key_v2") RUDP_COMMON_KEY_SIZE_V2,
      packIntSz (lit "udp_acceleration_client_cookie"),
      packIntSz (lit "udp_acceleration_max_version"),
      packIntSz (lit "support_hmac_on_udp_acceleration"),
      packIntSz (lit "udp_acceleration_client_ip"),
      packIntSz (lit "udp_acceleration_client_port")] else []) ++
  (if hasSecurePassword args then [packDataSz (lit "secure_password") SHA1_SIZE] else []) ++
  (match args.plainPassword with
    | some plain => if args.authType = 2 then [packStrSz (lit "plain_password") plain] else []
    | none => [])

/-- The first pass: `size`. -/
def loginSize (env : LoginEnv) (conn : LoginConn) (args : LoginArgs) : ℕ :=
  (loginSizes env conn args).foldl (fun size s => (size + s) % 2 ^ 32) 4

theorem keySize_le {n : ℕ} (b : Bytes n) (h : n ≤ UINT32_MAX) : b.val.length ≤ UINT32_MAX := by
  rw [b.property]
  exact h

theorem pencoreData_length (env : LoginEnv) :
    (pencoreData env).length = env.pencore.val.length := by
  unfold pencoreData
  split
  · rfl
  · rw [List.length_replicate]

theorem pencoreData_le (env : LoginEnv) : (pencoreData env).length ≤ UINT32_MAX := by
  rw [pencoreData_length]
  have hlt := env.pencore.property
  have hmax : 1000 ≤ UINT32_MAX := by decide
  omega

/-- The second pass: the calls of the element writers, in this order. -/
def loginCalls (env : LoginEnv) (conn : LoginConn) (args : LoginArgs) : List Call :=
  let sha1 := env.sha1Hash (lit "SoftEtherVPN_Android_Client")
  [⟨lit "method", .str (lit "login")⟩,
    ⟨lit "hubname", .str args.hubName⟩,
    ⟨lit "username", .str args.username⟩,
    ⟨lit "authtype", .int (UInt32.ofInt args.authType)⟩,
    ⟨lit "hello", .str clientHello⟩,
    ⟨lit "version", .int 420⟩,
    ⟨lit "build", .int 9699⟩,
    ⟨lit "client_str", .str clientHello⟩,
    ⟨lit "client_ver", .int 420⟩,
    ⟨lit "client_build", .int 9699⟩,
    ⟨lit "client_id", .int 0⟩,
    ⟨lit "protocol", .int (if args.rudp.isSome then 1 else 0)⟩,
    ⟨lit "max_connection", .int (UInt32.ofInt conn.maxConnection)⟩,
    ⟨lit "use_encrypt", .int 1⟩,
    ⟨lit "use_compress", .int 0⟩,
    ⟨lit "half_connection", .int (if conn.halfConnection ≠ 0 then 1 else 0)⟩,
    ⟨lit "require_bridge_routing_mode", .int 0⟩,
    ⟨lit "require_monitor_mode", .int 0⟩,
    ⟨lit "qos", .int 1⟩,
    ⟨lit "pencore", .data (pencoreData env) (pencoreData_le env)⟩,
    ⟨lit "ClientProductName", .str conn.clientProductName.val⟩,
    ⟨lit "ClientProductVer", .int (softetherEndian32 (clientProductVerInt env conn))⟩,
    ⟨lit "ClientProductBuild", .int (softetherEndian32 (UInt32.ofInt conn.clientProductBuild))⟩,
    ⟨lit "ClientOsName", .str conn.clientOsName.val⟩,
    ⟨lit "ClientOsVer", .str conn.clientOsVersion.val⟩,
    ⟨lit "ClientOsProductId", .str conn.clientOsProductId.val⟩,
    ⟨lit "ClientHostName", .str conn.clientHostName.val⟩,
    ⟨lit "ClientIpAddress", .int (ipUint env conn.clientIpAddress.val)⟩,
    ⟨lit "ClientPort", .int (softetherEndian32 (clientPort env conn))⟩,
    ⟨lit "ServerHostName", .str conn.serverHostName.val⟩,
    ⟨lit "ServerIpAddress", .int (ipUint env conn.serverIpAddress.val)⟩,
    ⟨lit "ServerPort2", .int (softetherEndian32 (UInt32.ofInt conn.serverPortReported))⟩] ++
  (if nonEmpty conn.clientIpV6.val then
    [⟨lit "ClientIpv6Address", .str conn.clientIpV6.val⟩] else []) ++
  (match args.rudp with
    | some _ =>
      [⟨lit "support_bulk_on_rudp", .int 1⟩,
        ⟨lit "support_hmac_on_bulk_of_rudp", .int 1⟩,
        ⟨lit "support_udp_recovery", .int 1⟩,
        ⟨lit "unique_id", .data sha1.val (keySize_le sha1 (by decide))⟩,
        ⟨lit "rudp_bulk_max_version", .int 2⟩]
    | none => []) ++
  (match args.rudp with
    | some rudp =>
      [⟨lit "use_udp_acceleration", .int 1⟩,
        ⟨lit "udp_acceleration_client_key",
          .data rudp.myKey.val (keySize_le rudp.myKey (by decide))⟩,
        ⟨lit "udp_acceleration_client_key_v2",
          .data rudp.myKeyV2.val (keySize_le rudp.myKeyV2 (by decide))⟩,
        ⟨lit "udp_acceleration_client_cookie", .int rudp.myCookie⟩,
        ⟨lit "udp_acceleration_max_version", .int 2⟩,
        ⟨lit "support_hmac_on_udp_acceleration", .int 1⟩,
        ⟨lit "udp_acceleration_client_ip", .int 0⟩,
        ⟨lit "udp_acceleration_client_port", .int rudp.myPort.toUInt32⟩]
    | none => []) ++
  (match args.securePassword with
    | some secure =>
      if args.authType = 1 then
        [⟨lit "secure_password", .data secure.val (keySize_le secure (by decide))⟩] else []
    | none => []) ++
  (match args.plainPassword with
    | some plain =>
      if args.authType = 2 then [⟨lit "plain_password", .str plain⟩] else []
    | none => [])

/-- What the function leaves in `buf`, from its start: the count of the first pass, then the
    elements. -/
def loginBytes (env : LoginEnv) (conn : LoginConn) (args : LoginArgs) : List UInt8 :=
  (loginCalls env conn args).foldl Call.write
    (packWriteUint32 [] (loginNumElems conn args))

/-- The size of the buffer: `calloc(1, size + 64)`. -/
def loginCapacity (env : LoginEnv) (conn : LoginConn) (args : LoginArgs) : ℕ :=
  (loginSize env conn args + 64) % 2 ^ 32

/-- `build_login_pack` on arguments that are not `NULL`: the buffer and `*out_len`. -/
def buildLoginPack (env : LoginEnv) (conn : LoginConn) (args : LoginArgs) :
    Option (List UInt8 × ℕ) :=
  if env.calloc then
    some (loginBytes env conn args, (loginBytes env conn args).length % 2 ^ 32)
  else none

/-! ### Self-consistency -/

/-- The field of a call is read back with its value. -/
def ReadsBack (bytes : List UInt8) (c : Call) : Prop :=
  match c.arg with
  | .int val => packGetInt bytes c.name = some val.toNat
  | .str val => ∀ outSize, val.strlen < outSize → packGetStr bytes c.name outSize = some val.bytes
  | .data data _ => ∀ outSize, 0 < outSize → data.length ≤ outSize →
      packGetData bytes c.name outSize = some data

/-- **The login PACK is self-consistent.** -/
structure Consistent (env : LoginEnv) (conn : LoginConn) (args : LoginArgs) : Prop where
  count : loginNumElems conn args = (loginCalls env conn args).length
  size : loginSize env conn args = (loginBytes env conn args).length
  fits : (loginBytes env conn args).length ≤ loginCapacity env conn args
  outLen : ∀ buf outLen, buildLoginPack env conn args = some (buf, outLen) → outLen = buf.length
  readsBack : ∀ c ∈ loginCalls env conn args, ReadsBack (loginBytes env conn args) c

/-! ### The two passes agree -/

/-- The size macro of a call. -/
def Call.macroSz (c : Call) : ℕ :=
  match c.arg with
  | .int _ => packIntSz c.name
  | .str val => packStrSz c.name val
  | .data data _ => packDataSz c.name data.length

/-- **Both passes list the same fields.** -/
theorem loginSizes_eq (env : LoginEnv) (conn : LoginConn) (args : LoginArgs) :
    loginSizes env conn args = (loginCalls env conn args).map Call.macroSz := by
  obtain ⟨hubName, username, authType, secure, plain, rudp⟩ := args
  have hsha1 := (env.sha1Hash (lit "SoftEtherVPN_Android_Client")).property
  simp only [loginSizes, loginCalls, hasSecurePassword, List.map_append]
  refine congrArg₂ _ (congrArg₂ _ (congrArg₂ _ (congrArg₂ _ (congrArg₂ _ ?_ ?_) ?_) ?_) ?_) ?_
  · simp only [List.map_cons, List.map_nil, Call.macroSz, pencoreData_length]
  · split <;> rfl
  · cases rudp with
    | none => rfl
    | some rudp => simp only [Option.isSome_some, if_true, List.map_cons, List.map_nil,
        Call.macroSz, hsha1]
  · cases rudp with
    | none => rfl
    | some rudp =>
      simp only [Option.isSome_some, if_true, List.map_cons, List.map_nil, Call.macroSz,
        rudp.myKey.property, rudp.myKeyV2.property]
  · cases secure with
    | none => simp
    | some secure =>
      by_cases h : authType = 1 <;> simp [h, Call.macroSz, secure.property]
  · cases plain with
    | none => rfl
    | some plain => by_cases h : authType = 2 <;> simp [h, Call.macroSz]

/-- **The count is the number of calls.** -/
theorem loginNumElems_eq (env : LoginEnv) (conn : LoginConn) (args : LoginArgs) :
    loginNumElems conn args = (loginCalls env conn args).length := by
  have hlen := congrArg List.length (loginSizes_eq env conn args)
  rw [List.length_map] at hlen
  rw [← hlen]
  simp only [loginNumElems, loginSizes, List.length_append]
  refine congrArg₂ _ (congrArg₂ _ (congrArg₂ _ (congrArg₂ _ (congrArg₂ _ rfl ?_) ?_) ?_) ?_) ?_
  · split <;> rfl
  · split <;> rfl
  · split <;> rfl
  · split <;> rfl
  · obtain ⟨hubName, username, authType, secure, plain, rudp⟩ := args
    cases plain with
    | none => simp [hasPlainPassword]
    | some plain => by_cases h : authType = 2 <;> simp [h, hasPlainPassword]

/-! ### What is written -/

/-- The element of a call. -/
def Arg.value : Arg → Value
  | .int val => .int val
  | .str val => .str val
  | .data bytes dlen => .data bytes dlen

/-- What a call adds. -/
def Call.add (c : Call) : Add := ⟨c.name, c.arg.value⟩

/-- The number of bytes a call writes: of a string, as many as its length on `uint32_t`
    says. -/
def Call.written (c : Call) : ℕ :=
  match c.arg with
  | .int _ => 12 + c.name.strlen + 4
  | .str val => 12 + c.name.strlen + (4 + val.strlen % 2 ^ 32)
  | .data data _ => 12 + c.name.strlen + (4 + data.length)

theorem take_strlen (s : CStr) : s.bytes.take s.strlen = s.bytes := by
  rw [CStr.strlen, List.take_length]

theorem packWriteElemName_length (buf : List UInt8) {name : CStr} (h : name.strlen ≤ 63) :
    (packWriteElemName buf name).length = buf.length + 4 + name.strlen := by
  have hname : name.strlen % 2 ^ 32 = name.strlen := Nat.mod_eq_of_lt (by omega)
  have htake : (name.bytes.take name.strlen).length = name.strlen := by
    rw [take_strlen, CStr.strlen]
  simp only [packWriteElemName, packWriteUint32, List.length_append, beBytes_length, hname, htake]

variable {c : Call} {calls : List Call} {conn : LoginConn} {args : LoginArgs} {env : LoginEnv}

theorem Call.write_length (buf : List UInt8) (h : c.name.strlen ≤ 63) :
    (c.write buf).length = buf.length + c.written := by
  obtain ⟨name, arg⟩ := c
  have hname := packWriteElemName_length buf h
  cases arg with
  | int val =>
    simp only [Call.write, packAddInt, Call.written, packWriteUint32, List.length_append,
      beBytes_length, hname]
    omega
  | str val =>
    have hval : (val.bytes.take (val.strlen % 2 ^ 32)).length = val.strlen % 2 ^ 32 := by
      rw [List.length_take, ← CStr.strlen]
      exact Nat.min_eq_left (Nat.mod_le _ _)
    simp only [Call.write, packAddStr, Call.written, packWriteStrVal, packWriteUint32,
      List.length_append, beBytes_length, hname, hval]
    omega
  | data data dlen =>
    simp only [Call.write, packAddData, Call.written, packWriteDataVal, packWriteUint32,
      List.length_append, beBytes_length, hname]
    omega

/-- **The macro is the size of what is written**, on `uint32_t`. -/
theorem Call.macroSz_eq (h : c.name.strlen ≤ 63) : c.macroSz = c.written % 2 ^ 32 := by
  obtain ⟨name, arg⟩ := c
  have hhdr := packElemHdrSz_eq h
  cases arg with
  | int val => simp only [Call.macroSz, Call.written, packIntSz, hhdr]
  | str val => simp only [Call.macroSz, Call.written, packStrSz, hhdr, Nat.add_assoc]
  | data data dlen => simp only [Call.macroSz, Call.written, packDataSz, hhdr, Nat.add_assoc]

/-- Short strings are written as they are. -/
theorem Call.write_eq (buf : List UInt8) (hname : c.name.strlen ≤ 63)
    (hstr : ∀ val, c.arg = .str val → val.strlen < 2 ^ 32) :
    c.write buf = buf ++ encodeElem c.add := by
  obtain ⟨name, arg⟩ := c
  have hlen : name.strlen % 2 ^ 32 = name.strlen := Nat.mod_eq_of_lt (by
    have : name.strlen ≤ 63 := hname
    omega)
  have helem : packWriteElemName buf name = buf ++ beBytes 4 (name.strlen + 1) ++ name.bytes := by
    rw [packWriteElemName, hlen, packWriteUint32, take_strlen]
  cases arg with
  | int val =>
    simp only [Call.write, packAddInt, helem, packWriteUint32, encodeElem, Call.add, Arg.value,
      Value.type, encodeValue, List.append_assoc]
  | str val =>
    have hval : val.strlen % 2 ^ 32 = val.strlen := Nat.mod_eq_of_lt (hstr val rfl)
    simp only [Call.write, packAddStr, helem, packWriteStrVal, packWriteUint32, encodeElem,
      Call.add, Arg.value, Value.type, encodeValue, List.append_assoc, hval, take_strlen]
  | data data dlen =>
    simp only [Call.write, packAddData, helem, packWriteDataVal, packWriteUint32, encodeElem,
      Call.add, Arg.value, Value.type, encodeValue, List.append_assoc]

/-! ### All calls -/

theorem writes_length (h : ∀ c ∈ calls, c.name.strlen ≤ 63) (buf : List UInt8) :
    (calls.foldl Call.write buf).length = buf.length + (calls.map Call.written).sum := by
  induction calls generalizing buf with
  | nil => rfl
  | cons c calls ih =>
    rw [List.foldl_cons, ih fun d hd => h d (List.mem_cons_of_mem _ hd),
      Call.write_length buf (h c List.mem_cons_self), List.map_cons, List.sum_cons, Nat.add_assoc]

theorem sizes_foldl (h : ∀ c ∈ calls, c.name.strlen ≤ 63) (size : ℕ) :
    (calls.map Call.macroSz).foldl (fun size s => (size + s) % 2 ^ 32) (size % 2 ^ 32) =
      (size + (calls.map Call.written).sum) % 2 ^ 32 := by
  induction calls generalizing size with
  | nil => rfl
  | cons c calls ih =>
    have hstep : (size % 2 ^ 32 + c.macroSz) % 2 ^ 32 = (size + c.written) % 2 ^ 32 := by
      rw [Call.macroSz_eq (h c List.mem_cons_self), ← Nat.add_mod]
    rw [List.map_cons, List.foldl_cons, hstep, ih fun d hd => h d (List.mem_cons_of_mem _ hd),
      List.map_cons, List.sum_cons, Nat.add_assoc]

theorem writes_eq (hname : ∀ c ∈ calls, c.name.strlen ≤ 63)
    (hstr : ∀ c ∈ calls, ∀ val, c.arg = .str val → val.strlen < 2 ^ 32) (buf : List UInt8) :
    calls.foldl Call.write buf = buf ++ (calls.map Call.add).flatMap encodeElem := by
  induction calls generalizing buf with
  | nil => exact (List.append_nil buf).symm
  | cons c calls ih =>
    rw [List.foldl_cons, ih (fun d hd => hname d (List.mem_cons_of_mem _ hd))
        (fun d hd => hstr d (List.mem_cons_of_mem _ hd)),
      Call.write_eq buf (hname c List.mem_cons_self) (hstr c List.mem_cons_self),
      List.map_cons, List.flatMap_cons, List.append_assoc]

/-! ### The field names -/

/-- All names, in the order of the calls. -/
def fieldNames : List CStr :=
  ["method", "hubname", "username", "authtype", "hello", "version", "build", "client_str",
    "client_ver", "client_build", "client_id", "protocol", "max_connection", "use_encrypt",
    "use_compress", "half_connection", "require_bridge_routing_mode", "require_monitor_mode",
    "qos", "pencore", "ClientProductName", "ClientProductVer", "ClientProductBuild",
    "ClientOsName", "ClientOsVer", "ClientOsProductId", "ClientHostName", "ClientIpAddress",
    "ClientPort", "ServerHostName", "ServerIpAddress", "ServerPort2", "ClientIpv6Address",
    "support_bulk_on_rudp", "support_hmac_on_bulk_of_rudp", "support_udp_recovery", "unique_id",
    "rudp_bulk_max_version", "use_udp_acceleration", "udp_acceleration_client_key",
    "udp_acceleration_client_key_v2", "udp_acceleration_client_cookie",
    "udp_acceleration_max_version", "support_hmac_on_udp_acceleration",
    "udp_acceleration_client_ip", "udp_acceleration_client_port", "secure_password",
    "plain_password"].map lit

/-- The names differ, and fit the 63 bytes that the readers compare. -/
theorem fieldNames_distinct : fieldNames.Nodup ∧ ∀ n ∈ fieldNames, n.strlen ≤ 63 := by decide

/-- The calls use the names in their order, some left out. -/
theorem loginCalls_names (env : LoginEnv) (conn : LoginConn) (args : LoginArgs) :
    List.Sublist ((loginCalls env conn args).map Call.name) fieldNames := by
  obtain ⟨hubName, username, authType, secure, plain, rudp⟩ := args
  have hsplit : fieldNames = fieldNames.take 32 ++ [lit "ClientIpv6Address"] ++
      (fieldNames.drop 33).take 5 ++ (fieldNames.drop 38).take 8 ++ [lit "secure_password"] ++
      [lit "plain_password"] := rfl
  rw [hsplit]
  simp only [loginCalls, List.map_append]
  refine (((((?_ : List.Sublist _ _).append ?_).append ?_).append ?_).append ?_).append ?_
  · exact List.Sublist.refl _
  · split
    · exact List.Sublist.refl _
    · exact List.nil_sublist _
  · cases rudp with
    | none => exact List.nil_sublist _
    | some rudp => exact List.Sublist.refl _
  · cases rudp with
    | none => exact List.nil_sublist _
    | some rudp => exact List.Sublist.refl _
  · cases secure with
    | none => exact List.nil_sublist _
    | some secure =>
      dsimp only
      split
      · exact List.Sublist.refl _
      · exact List.nil_sublist _
  · cases plain with
    | none => exact List.nil_sublist _
    | some plain =>
      dsimp only
      split
      · exact List.Sublist.refl _
      · exact List.nil_sublist _

theorem loginCalls_short (env : LoginEnv) (conn : LoginConn) (args : LoginArgs) :
    ∀ c ∈ loginCalls env conn args, c.name.strlen ≤ 63 := fun _ hc =>
  fieldNames_distinct.2 _ ((loginCalls_names env conn args).subset (List.mem_map_of_mem hc))

/-! ### Reading back -/

/-- Under distinct names a lookup finds the element that was added under the name. -/
theorem firstAdded_of_mem {α : Type*} (sel : Value → Option α)
    (hnames : (calls.map Call.name).Nodup) (hc : c ∈ calls) :
    firstAdded sel (calls.map Call.add) c.name = sel c.arg.value := by
  induction calls with
  | nil => cases hc
  | cons d calls ih =>
    rw [List.map_cons, List.nodup_cons] at hnames
    rw [List.map_cons, firstAdded, List.findSome?_cons]
    rcases List.mem_cons.mp hc with rfl | hmem
    · -- no other element has this name
      have hnone : firstAdded sel (calls.map Call.add) c.name = none := by
        rw [firstAdded, List.findSome?_eq_none_iff]
        intro a ha
        obtain ⟨d, hd, rfl⟩ := List.mem_map.mp ha
        rw [if_neg]
        intro hname
        exact hnames.1 (List.mem_map.mpr ⟨d, hd, hname⟩)
      rw [firstAdded] at hnone
      simp only [Call.add, hnone]
      cases sel c.arg.value <;> rfl
    · have hne : ¬ d.add.name = c.name := by
        intro hname
        exact hnames.1 (List.mem_map.mpr ⟨c, hmem, hname.symm⟩)
      rw [if_neg hne]
      exact ih hnames.2 hmem

/-- **Every field of the encoded calls is read back.** -/
theorem calls_readBack (hnames : (calls.map Call.name).Nodup)
    (hcount : calls.length ≤ PACK_MAX_ELEMENTS) (hfits : ∀ c ∈ calls, c.add.Fits) (hc : c ∈ calls) :
    ReadsBack (beBytes 4 calls.length ++ (calls.map Call.add).flatMap encodeElem) c := by
  set bytes := beBytes 4 calls.length ++ (calls.map Call.add).flatMap encodeElem with hbytes
  have hp : Holds ⟨bytes, bytes.length, bytes.length, calls.length⟩ (calls.map Call.add) := by
    have hfour := beBytes_length 4 calls.length
    refine ⟨rfl, ?_, ?_, (List.length_map _).symm, ?_⟩
    · show 4 ≤ bytes.length
      rw [hbytes, List.length_append, hfour]
      exact Nat.le_add_right 4 _
    · exact List.drop_left' hfour
    · intro _
      rw [List.length_map]
      exact List.take_left' hfour
  have hall : ∀ a ∈ calls.map Call.add, a.Fits := by
    intro a ha
    obtain ⟨d, hd, rfl⟩ := List.mem_map.mp ha
    exact hfits d hd
  have hlen : (calls.map Call.add).length ≤ PACK_MAX_ELEMENTS := by
    rw [List.length_map]
    exact hcount
  have hfound : ∀ {α : Type} {read : Cursor → Option α} {sel : Value → Option α} {type : ℕ},
      Reads read sel type → packGet read bytes c.name type = sel c.arg.value := by
    intro α read sel type hreads
    have hget := packGet_holds hreads hp hlen hall c.name
    rw [firstAdded_of_mem sel hnames hc] at hget
    rw [← hget]
    congr 1
    exact (List.take_length).symm
  unfold ReadsBack
  obtain ⟨name, arg⟩ := c
  cases arg with
  | int val => exact hfound reads_int
  | str val =>
    intro outSize hout
    rw [packGetStr, if_neg (by omega), hfound (reads_str outSize)]
    have hcut : val.bytes.take (outSize - 1) = val.bytes :=
      List.take_of_length_le (by rw [← CStr.strlen]; omega)
    simp only [Arg.value, Value.str?, Option.map_some, hcut]
  | data data dlen =>
    intro outSize hpos hout
    rw [packGetData, if_neg (by omega), hfound (reads_data outSize)]
    simp only [Arg.value, Value.data?, Option.map_some, List.take_of_length_le hout]

/-! ### Long strings -/

/-- What a lookup returns was read somewhere. -/
theorem packGetLoop_read {α : Type} {read : Cursor → Option α} {fieldName : CStr} {type n : ℕ}
    {p : Cursor} {x : α} (h : packGetLoop read fieldName type n p = some x) :
    ∃ q, read q = some x := by
  induction n generalizing p with
  | zero => cases h
  | succ n ih =>
    rw [packGetLoop] at h
    split at h
    · cases h
    · exact ⟨_, h⟩
    · exact ih h

theorem packGet_read {α : Type} {read : Cursor → Option α} {body : List UInt8} {fieldName : CStr}
    {type : ℕ} {x : α} (h : packGet read body fieldName type = some x) : ∃ q, read q = some x := by
  unfold packGet at h
  split at h
  · cases h
  · split at h
    · cases h
    · split at h
      · cases h
      · exact packGetLoop_read h

theorem packReadUint32Safe_lt {p q : Cursor} {len : ℕ}
    (h : packReadUint32Safe p = some (len, q)) : len < 2 ^ 32 := by
  rw [packReadUint32Safe, takeBytes] at h
  split at h
  · cases h
  · obtain ⟨rfl, -⟩ := Prod.mk.inj (Option.some.inj h)
    have hlt := beVal_lt (p.take 4)
    have hlen : (p.take 4).length = 4 := by
      rw [List.length_take]
      omega
    rw [hlen] at hlt
    exact hlt

/-- **A string that is read** has a length on `uint32_t`. -/
theorem packGetStr_length {body s : List UInt8} {name : CStr} {outSize : ℕ}
    (h : packGetStr body name outSize = some s) : s.length < 2 ^ 32 := by
  unfold packGetStr at h
  split at h
  · cases h
  · obtain ⟨q, hq⟩ := packGet_read h
    obtain ⟨⟨t, rest⟩, hread, rfl⟩ := Option.map_eq_some_iff.mp hq
    unfold packReadStringSafe at hread
    obtain ⟨⟨len, p⟩, hlen, hread⟩ := Option.bind_eq_some_iff.mp hread
    obtain ⟨⟨bytes, p'⟩, hbytes, hread⟩ := Option.bind_eq_some_iff.mp hread
    obtain ⟨rfl, -⟩ := Prod.mk.inj (Option.some.inj hread)
    -- the string is a part of `bytes`, which are `len` many
    have hlt := packReadUint32Safe_lt hlen
    have htake : bytes.length ≤ len := by
      rw [takeBytes] at hbytes
      split at hbytes
      · cases hbytes
      · obtain ⟨rfl, -⟩ := Prod.mk.inj (Option.some.inj hbytes)
        exact List.length_take_le _ _
    have hcut : (cString (bytes.take (if len < outSize - 1 then len else outSize - 1))).length ≤
        bytes.length :=
      ((List.takeWhile_prefix _).sublist.trans (List.take_sublist _ _)).length_le
    show (cString _).length < 2 ^ 32
    omega

/-! ### When the login PACK is consistent -/

/-- The encoded login: the count and the elements. -/
def encodedSize (env : LoginEnv) (conn : LoginConn) (args : LoginArgs) : ℕ :=
  4 + (((loginCalls env conn args).map Call.add).flatMap encodeElem).length

theorem loginBytes_length (env : LoginEnv) (conn : LoginConn) (args : LoginArgs) :
    (loginBytes env conn args).length =
      4 + ((loginCalls env conn args).map Call.written).sum := by
  rw [loginBytes, writes_length (loginCalls_short env conn args), packWriteUint32,
    List.nil_append, beBytes_length]

theorem loginSize_eq (env : LoginEnv) (conn : LoginConn) (args : LoginArgs) :
    loginSize env conn args = (loginBytes env conn args).length % 2 ^ 32 := by
  rw [loginBytes_length, loginSize, loginSizes_eq]
  exact sizes_foldl (loginCalls_short env conn args) 4

/-- Without long strings the buffer holds the encoded login. -/
theorem loginBytes_eq
    (hstr : ∀ c ∈ loginCalls env conn args, ∀ val, c.arg = .str val → val.strlen < 2 ^ 32) :
    loginBytes env conn args = beBytes 4 (loginCalls env conn args).length ++
      ((loginCalls env conn args).map Call.add).flatMap encodeElem := by
  rw [loginBytes, writes_eq (loginCalls_short env conn args) hstr, packWriteUint32,
    List.nil_append, loginNumElems_eq env]

theorem consistent_small (h : Consistent env conn args) :
    encodedSize env conn args + 64 < 2 ^ 32 := by
  have hstr : ∀ c ∈ loginCalls env conn args, ∀ val, c.arg = .str val → val.strlen < 2 ^ 32 := by
    intro c hc val harg
    have hread := h.readsBack c hc
    rw [ReadsBack, harg] at hread
    exact packGetStr_length (hread (val.strlen + 1) (Nat.lt_succ_self _))
  have hlen : (loginBytes env conn args).length = encodedSize env conn args := by
    rw [loginBytes_eq hstr, List.length_append, beBytes_length, encodedSize]
  have hsize := h.size
  have hfits := h.fits
  rw [loginCapacity, hsize] at hfits
  rw [loginSize_eq] at hsize
  omega

/-- In a login that fits a `uint32_t` every element does. -/
theorem calls_fit (h : encodedSize env conn args + 64 < 2 ^ 32) :
    ∀ c ∈ loginCalls env conn args, c.add.Fits := by
  have htotal := @fits_of_total ((loginCalls env conn args).map fun c => (c.add, true))
  rw [List.map_map] at htotal
  intro c hc
  refine htotal ?_ ?_ (c.add, true) (List.mem_map_of_mem hc)
  · intro d hd
    obtain ⟨e, he, rfl⟩ := List.mem_map.mp hd
    exact loginCalls_short env conn args e he
  · exact lt_of_le_of_lt (Nat.le_add_right _ 64) h

/-- **Self-consistency of the login PACK.** For every hub name, user name, password, client
    information, authentication type and UDP-acceleration context: the declared count is the
    number of elements, the computed size is the number of bytes, the bytes fit the buffer and
    every field is read back, if and only if the encoded login and the margin of 64 bytes fit a
    `uint32_t`. -/
theorem login_consistent_iff (env : LoginEnv) (conn : LoginConn) (args : LoginArgs) :
    Consistent env conn args ↔ encodedSize env conn args + 64 < 2 ^ 32 := by
  constructor
  · exact consistent_small
  · intro hsmall
    have hfits := calls_fit hsmall
    have hstr : ∀ c ∈ loginCalls env conn args, ∀ val, c.arg = .str val → val.strlen < 2 ^ 32 := by
      intro c hc val harg
      have hvalue := (hfits c hc).value_length
      rw [Call.add, harg] at hvalue
      simp only [Arg.value, encodeValue_str_length] at hvalue
      omega
    have hbytes := loginBytes_eq hstr
    have hlen : (loginBytes env conn args).length = encodedSize env conn args := by
      rw [hbytes, List.length_append, beBytes_length, encodedSize]
    have hsize : loginSize env conn args = (loginBytes env conn args).length := by
      rw [loginSize_eq, Nat.mod_eq_of_lt (by omega)]
    refine ⟨loginNumElems_eq env conn args, hsize, ?_, ?_, ?_⟩
    · rw [loginCapacity, hsize, Nat.mod_eq_of_lt (by omega)]
      exact Nat.le_add_right _ 64
    · intro buf outLen hbuild
      unfold buildLoginPack at hbuild
      split at hbuild
      · obtain ⟨rfl, rfl⟩ := Prod.mk.inj (Option.some.inj hbuild)
        exact Nat.mod_eq_of_lt (by omega)
      · cases hbuild
    · intro c hc
      rw [hbytes]
      refine calls_readBack ?_ ?_ hfits hc
      · exact (loginCalls_names env conn args).nodup fieldNames_distinct.1
      · have hle := (loginCalls_names env conn args).length_le
        rw [List.length_map] at hle
        exact le_trans hle (by decide)

/-! ### A user name of 4 GiB -/

theorem zeroDigest_length : (List.replicate 20 (0 : UInt8)).length = 20 := List.length_replicate

/-- An environment that answers nothing. -/
def sampleEnv : LoginEnv where
  sscanf := fun _ => (0, 0, 0)
  inetAddr := fun _ => 0
  getsockname := none
  sha1Hash := fun _ => ⟨List.replicate 20 0, zeroDigest_length⟩
  pencore := ⟨[], by decide⟩
  malloc := true
  calloc := true

/-- A connection without names. -/
def sampleConn : LoginConn where
  clientProductName := ⟨⟨[], List.not_mem_nil⟩, by decide⟩
  clientProductVersion := ⟨⟨[], List.not_mem_nil⟩, by decide⟩
  clientProductBuild := 0
  clientOsName := ⟨⟨[], List.not_mem_nil⟩, by decide⟩
  clientOsVersion := ⟨⟨[], List.not_mem_nil⟩, by decide⟩
  clientOsProductId := ⟨⟨[], List.not_mem_nil⟩, by decide⟩
  clientHostName := ⟨⟨[], List.not_mem_nil⟩, by decide⟩
  clientIpAddress := ⟨⟨[], List.not_mem_nil⟩, by decide⟩
  clientPort := 0
  serverHostName := ⟨⟨[], List.not_mem_nil⟩, by decide⟩
  serverIpAddress := ⟨⟨[], List.not_mem_nil⟩, by decide⟩
  serverPortReported := 0
  clientIpV6 := ⟨⟨[], List.not_mem_nil⟩, by decide⟩
  maxConnection := 1
  halfConnection := 0
  socketFd := 5

/-- A name of `2 ^ 32` letters. -/
def hugeName : CStr where
  bytes := List.replicate (2 ^ 32) 97
  nulFree := fun h => absurd (List.eq_of_mem_replicate h) (by decide)

/-- An anonymous login with this name. -/
def hugeLogin : LoginArgs where
  hubName := lit "vpngate"
  username := hugeName
  authType := 0
  securePassword := none
  plainPassword := none
  rudp := none

/-- `(uint32_t)strlen(username)` is 0, and the name that is read back is empty. -/
theorem huge_login_inconsistent :
    ¬ ∀ (env : LoginEnv) (conn : LoginConn) (args : LoginArgs), Consistent env conn args := by
  intro h
  have hsmall := consistent_small (h sampleEnv sampleConn hugeLogin)
  have hmem : ⟨lit "username", .str hugeName⟩ ∈ loginCalls sampleEnv sampleConn hugeLogin := by
    simp [loginCalls, hugeLogin]
  have hvalue := (calls_fit hsmall _ hmem).value_length
  have hlen : hugeName.strlen = 2 ^ 32 := List.length_replicate
  simp only [Call.add, Arg.value, encodeValue_str_length, hlen] at hvalue
  omega

end SoftEther.Pack.Login
