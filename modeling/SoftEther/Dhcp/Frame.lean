import SoftEther.Lib.BigEndian

namespace SoftEther.Dhcp

open Lib

/-!
# DHCP frames

The client sends and receives whole Ethernet frames.  `parse_dhcp_response` writes the result while
it walks over a frame, whether it accepts the frame in the end or not.

* `DhcpResult`, `Lease`, `Field` — the result, the result with the server id, and its values;
* `buildDhcpFrame` — a DISCOVER or REQUEST;
* `dhcpReply` — the DHCP message of a frame that answers this client;
* `parseDhcpResponse`, `parseOptions`, `applyOption` — the parser;
* `carried` — the value a frame carries for a field;
* `parseDhcpResponse_get` — the parser overwrites exactly the fields the frame carries.

A read of a field is the bytes of the frame at its place; the length checks of the parser keep all
of them inside the frame.
-/

abbrev ETH_HLEN : ℕ := 14
abbrev ETH_P_IP : ℕ := 0x0800
abbrev IP_HLEN : ℕ := 20
abbrev IP_PROTO_UDP : ℕ := 17
abbrev UDP_HLEN : ℕ := 8
abbrev DHCP_BOOTREQUEST : UInt8 := 1
abbrev DHCP_BOOTREPLY : UInt8 := 2
abbrev DHCP_HTYPE_ETH : UInt8 := 1
abbrev DHCP_HLEN_ETH : UInt8 := 6
abbrev DHCP_MAGIC_COOKIE : ℕ := 0x63825363
abbrev DHCP_MIN_LEN : ℕ := 236

abbrev DHCP_DISCOVER : ℕ := 1
abbrev DHCP_OFFER : ℕ := 2
abbrev DHCP_REQUEST : ℕ := 3
abbrev DHCP_ACK : ℕ := 5
abbrev DHCP_NAK : ℕ := 6

abbrev OPT_SUBNET_MASK : UInt8 := 1
abbrev OPT_ROUTER : UInt8 := 3
abbrev OPT_DNS_SERVER : UInt8 := 6
abbrev OPT_REQUESTED_IP : UInt8 := 50
abbrev OPT_LEASE_TIME : UInt8 := 51
abbrev OPT_MSG_TYPE : UInt8 := 53
abbrev OPT_SERVER_ID : UInt8 := 54
abbrev OPT_PARAM_REQUEST : UInt8 := 55
abbrev OPT_END : UInt8 := 255

/-! ### The result -/

/-- `dhcp_result_t`. -/
structure DhcpResult where
  assignedIp : ℕ
  subnetMask : ℕ
  gateway : ℕ
  dnsServer : ℕ
  dnsServer2 : ℕ
  leaseTime : ℕ
  success : Bool
  deriving DecidableEq

/-- The result after `memset`. -/
def DhcpResult.zero : DhcpResult := ⟨0, 0, 0, 0, 0, 0, false⟩

/-- What the parser writes to: the result and the server id. -/
structure Lease where
  result : DhcpResult
  serverId : ℕ
  deriving DecidableEq

/-- The values of a lease. -/
inductive Field
  | assignedIp
  | subnetMask
  | gateway
  | dnsServer
  | dnsServer2
  | leaseTime
  | serverId
  deriving DecidableEq

def Field.get (l : Lease) : Field → ℕ
  | .assignedIp => l.result.assignedIp
  | .subnetMask => l.result.subnetMask
  | .gateway => l.result.gateway
  | .dnsServer => l.result.dnsServer
  | .dnsServer2 => l.result.dnsServer2
  | .leaseTime => l.result.leaseTime
  | .serverId => l.serverId

def Field.set (l : Lease) (v : ℕ) : Field → Lease
  | .assignedIp => { l with result.assignedIp := v }
  | .subnetMask => { l with result.subnetMask := v }
  | .gateway => { l with result.gateway := v }
  | .dnsServer => { l with result.dnsServer := v }
  | .dnsServer2 => { l with result.dnsServer2 := v }
  | .leaseTime => { l with result.leaseTime := v }
  | .serverId => { l with serverId := v }

theorem Field.get_set (l : Lease) (v : ℕ) (f g : Field) :
    f.get (g.set l v) = if g = f then v else f.get l := by
  cases f <;> cases g <;> rfl

@[simp] theorem Field.set_success (l : Lease) (v : ℕ) (f : Field) :
    (f.set l v).result.success = l.result.success := by
  cases f <;> rfl

/-- A lease is its values and the flag. -/
theorem Lease.ext_get {l m : Lease} (h : ∀ f : Field, f.get l = f.get m)
    (hsuccess : l.result.success = m.result.success) : l = m := by
  obtain ⟨⟨ip, mask, gateway, dns, dns2, time, success⟩, id⟩ := l
  obtain ⟨⟨ip', mask', gateway', dns', dns2', time', success'⟩, id'⟩ := m
  obtain rfl : ip = ip' := h .assignedIp
  obtain rfl : mask = mask' := h .subnetMask
  obtain rfl : gateway = gateway' := h .gateway
  obtain rfl : dns = dns' := h .dnsServer
  obtain rfl : dns2 = dns2' := h .dnsServer2
  obtain rfl : time = time' := h .leaseTime
  obtain rfl : id = id' := h .serverId
  obtain rfl : success = success' := hsuccess
  rfl

/-! ### Requests -/

/-- The client of an exchange: transaction id and hardware address. -/
structure Client where
  xid : ℕ
  mac : List UInt8
  mac_length : mac.length = 6

/-- The sum over a header in `uint16_t` of the host, low byte first. -/
def wordSum : List UInt8 → ℕ
  | lo :: hi :: rest => lo.toNat + 256 * hi.toNat + wordSum rest
  | [last] => last.toNat
  | [] => 0

/-- `ip_checksum`. -/
def ipChecksum (data : List UInt8) : ℕ :=
  let sum := wordSum data
  let sum := sum / 2 ^ 16 + sum % 2 ^ 16
  let sum := sum + sum / 2 ^ 16
  2 ^ 16 - 1 - sum % 2 ^ 16

/-- The two options only a REQUEST has. -/
def requestOptions (msgType requestedIp serverId : ℕ) : List UInt8 :=
  if msgType = DHCP_REQUEST then
    (if requestedIp ≠ 0 then [OPT_REQUESTED_IP, 4] ++ beBytes 4 requestedIp else []) ++
      (if serverId ≠ 0 then [OPT_SERVER_ID, 4] ++ beBytes 4 serverId else [])
  else []

/-- The DHCP message. -/
def buildDhcp (client : Client) (msgType requestedIp serverId : ℕ) : List UInt8 :=
  [DHCP_BOOTREQUEST, DHCP_HTYPE_ETH, DHCP_HLEN_ETH, 0] ++ beBytes 4 client.xid ++
    [0, 0, 0x80, 0] ++ List.replicate 16 0 ++ client.mac ++ List.replicate 202 0 ++
    beBytes 4 DHCP_MAGIC_COOKIE ++ [OPT_MSG_TYPE, 1, UInt8.ofNat msgType] ++
    requestOptions msgType requestedIp serverId ++
    [OPT_PARAM_REQUEST, 4, OPT_SUBNET_MASK, OPT_ROUTER, OPT_DNS_SERVER, OPT_LEASE_TIME, OPT_END]

/-- The IP header, from `0.0.0.0` to broadcast; the identification is random. -/
def buildIp (totalLen : ℕ) (ipId : UInt8 × UInt8) : List UInt8 :=
  let front := [0x45, 0] ++ beBytes 2 totalLen ++ [ipId.1, ipId.2, 0, 0, 128, 17]
  let back := [0, 0, 0, 0, 255, 255, 255, 255]
  let cksum := ipChecksum (front ++ [0, 0] ++ back)
  front ++ [UInt8.ofNat (cksum % 256), UInt8.ofNat (cksum / 256)] ++ back

/-- `build_dhcp_frame`; `none` is the return value -1. -/
def buildDhcpFrame (maxLen : ℕ) (client : Client) (ipId : UInt8 × UInt8)
    (msgType requestedIp serverId : ℕ) : Option (List UInt8) :=
  let dhcp := buildDhcp client msgType requestedIp serverId
  let udpLen := UDP_HLEN + dhcp.length
  let udp := [0, 68, 0, 67] ++ beBytes 2 udpLen ++ [0, 0]
  let ipTotalLen := IP_HLEN + udpLen
  if ETH_HLEN + ipTotalLen > maxLen then none
  else
    some (List.replicate 6 0xFF ++ client.mac ++ beBytes 2 ETH_P_IP ++ buildIp ipTotalLen ipId ++
      udp ++ dhcp)

/-! ### Responses -/

def be16 (bytes : List UInt8) (pos : ℕ) : ℕ := beVal ((bytes.drop pos).take 2)

def be32 (bytes : List UInt8) (pos : ℕ) : ℕ := beVal ((bytes.drop pos).take 4)

/-- The checks at the head of `parse_dhcp_response`: the DHCP message of a frame that answers
    the client, and `none` for another frame. -/
def dhcpReply (client : Client) (frame : List UInt8) : Option (List UInt8) :=
  if frame.length < ETH_HLEN + IP_HLEN + UDP_HLEN + DHCP_MIN_LEN + 4 then none
  else if be16 frame 12 ≠ ETH_P_IP then none
  else
    let ip := frame.drop ETH_HLEN
    if (ip.getD 0 0).toNat / 16 ≠ 4 then none
    else if (ip.getD 9 0).toNat ≠ IP_PROTO_UDP then none
    else
      let ipHlen := (ip.getD 0 0).toNat % 16 * 4
      let udp := ip.drop ipHlen
      if be16 udp 0 ≠ 67 ∨ be16 udp 2 ≠ 68 then none
      else
        let dhcp := udp.drop UDP_HLEN
        if dhcp.length < DHCP_MIN_LEN + 4 then none
        else if dhcp.getD 0 0 ≠ DHCP_BOOTREPLY then none
        else if be32 dhcp 4 ≠ client.xid then none
        else if (dhcp.drop 28).take 6 ≠ client.mac then none
        else some dhcp

/-- The `switch` over an option with the bytes `data`, on the message type and the lease. -/
def applyOption (opt : UInt8) (data : List UInt8) (acc : ℕ × Lease) : ℕ × Lease :=
  let store (f : Field) (pos : ℕ) (l : Lease) : Lease :=
    if data.length ≥ pos + 4 then f.set l (be32 data pos) else l
  if opt = OPT_MSG_TYPE then
    if data.length ≥ 1 then ((data.getD 0 0).toNat, acc.2) else acc
  else if opt = OPT_SUBNET_MASK then (acc.1, store .subnetMask 0 acc.2)
  else if opt = OPT_ROUTER then (acc.1, store .gateway 0 acc.2)
  else if opt = OPT_DNS_SERVER then (acc.1, store .dnsServer2 4 (store .dnsServer 0 acc.2))
  else if opt = OPT_LEASE_TIME then (acc.1, store .leaseTime 0 acc.2)
  else if opt = OPT_SERVER_ID then (acc.1, store .serverId 0 acc.2)
  else acc

/-- The loop over the options; every turn takes a byte at least, so it needs no more fuel than
    there are bytes. -/
def parseOptions : ℕ → List UInt8 → ℕ × Lease → ℕ × Lease
  | 0, _, acc => acc
  | _ + 1, [], acc => acc
  | fuel + 1, opt :: rest, acc =>
    if opt = OPT_END then acc
    else if opt = 0 then parseOptions fuel rest acc
    else
      match rest with
      | [] => acc
      | optLen :: rest =>
        if optLen.toNat > rest.length then acc
        else
          parseOptions fuel (rest.drop optLen.toNat) (applyOption opt (rest.take optLen.toNat) acc)

/-- `parse_dhcp_response`: the return value, and the lease that is left.  The address is written
    before the magic cookie is compared. -/
def parseDhcpResponse (client : Client) (frame : List UInt8) (l : Lease) : ℕ × Lease :=
  match dhcpReply client frame with
  | none => (0, l)
  | some dhcp =>
    let l := Field.assignedIp.set l (be32 dhcp 16)
    if be32 dhcp 236 ≠ DHCP_MAGIC_COOKIE then (0, l)
    else parseOptions dhcp.length (dhcp.drop 240) (0, l)

/-! ### Requests are always built -/

theorem requestOptions_length (msgType requestedIp serverId : ℕ) :
    (requestOptions msgType requestedIp serverId).length ≤ 12 := by
  unfold requestOptions
  split_ifs <;> simp

theorem buildDhcp_length (client : Client) (msgType requestedIp serverId : ℕ) :
    (buildDhcp client msgType requestedIp serverId).length ≤ 262 := by
  have hopts := requestOptions_length msgType requestedIp serverId
  simp only [buildDhcp, List.length_append, beBytes_length, List.length_replicate,
    client.mac_length, List.length_cons, List.length_nil]
  omega

/-- The buffer of `softether_do_dhcp`. -/
abbrev DHCP_MAX_FRAME : ℕ := 600

/-- A frame fits the buffer. -/
theorem buildDhcpFrame_isSome (client : Client) (ipId : UInt8 × UInt8)
    (msgType requestedIp serverId : ℕ) :
    ∃ frame, buildDhcpFrame DHCP_MAX_FRAME client ipId msgType requestedIp serverId =
      some frame := by
  have hlen := buildDhcp_length client msgType requestedIp serverId
  have hfits : ¬ ETH_HLEN +
      (IP_HLEN + (UDP_HLEN + (buildDhcp client msgType requestedIp serverId).length)) >
        DHCP_MAX_FRAME := by
    simp only [ETH_HLEN, IP_HLEN, UDP_HLEN, DHCP_MAX_FRAME]
    omega
  unfold buildDhcpFrame
  rw [if_neg hfits]
  exact ⟨_, rfl⟩

/-! ### What a frame carries -/

/-- The options the loop comes to, with their bytes. -/
def dhcpOptions : ℕ → List UInt8 → List (UInt8 × List UInt8)
  | 0, _ => []
  | _ + 1, [] => []
  | fuel + 1, opt :: rest =>
    if opt = OPT_END then []
    else if opt = 0 then dhcpOptions fuel rest
    else
      match rest with
      | [] => []
      | optLen :: rest =>
        if optLen.toNat > rest.length then []
        else (opt, rest.take optLen.toNat) :: dhcpOptions fuel (rest.drop optLen.toNat)

/-- The option a value comes in, and its place there; the address is not an option. -/
def Field.option? : Field → Option (UInt8 × ℕ)
  | .assignedIp => none
  | .subnetMask => some (OPT_SUBNET_MASK, 0)
  | .gateway => some (OPT_ROUTER, 0)
  | .dnsServer => some (OPT_DNS_SERVER, 0)
  | .dnsServer2 => some (OPT_DNS_SERVER, 4)
  | .leaseTime => some (OPT_LEASE_TIME, 0)
  | .serverId => some (OPT_SERVER_ID, 0)

/-- The value of a field in an option. -/
def optionValue (f : Field) (o : UInt8 × List UInt8) : Option ℕ :=
  match f.option? with
  | none => none
  | some (opt, pos) =>
    if o.1 = opt ∧ pos + 4 ≤ o.2.length then some (be32 o.2 pos) else none

/-- The value of a field in a list of options: the last one counts. -/
def optionsValue (f : Field) (opts : List (UInt8 × List UInt8)) : Option ℕ :=
  opts.reverse.findSome? (optionValue f)

/-- **What a frame carries.** Nothing, when it does not answer the client; else the address, and
    behind the magic cookie what the options say. -/
def carried (client : Client) (frame : List UInt8) (f : Field) : Option ℕ :=
  match dhcpReply client frame with
  | none => none
  | some dhcp =>
    if f = .assignedIp then some (be32 dhcp 16)
    else if be32 dhcp 236 ≠ DHCP_MAGIC_COOKIE then none
    else optionsValue f (dhcpOptions dhcp.length (dhcp.drop 240))

/-- The type of the DHCP message in a frame, 0 for none: what the parser returns. -/
def msgType (client : Client) (frame : List UInt8) : ℕ :=
  (parseDhcpResponse client frame ⟨.zero, 0⟩).1

/-! ### The parser overwrites what the frame carries -/

theorem parseOptions_eq (fuel : ℕ) (bytes : List UInt8) (acc : ℕ × Lease) :
    parseOptions fuel bytes acc =
      (dhcpOptions fuel bytes).foldl (fun acc o => applyOption o.1 o.2 acc) acc := by
  induction fuel, bytes, acc using parseOptions.induct with
  | case1 bytes acc => rfl
  | case2 fuel acc => rfl
  | case3 fuel rest acc => simp [parseOptions, dhcpOptions]
  | case4 fuel rest acc hend ih => simp [parseOptions, dhcpOptions, hend, ih]
  | case5 fuel opt acc hend hpad => simp [parseOptions, dhcpOptions, hend, hpad]
  | case6 fuel opt acc hend hpad optLen rest hlen =>
    simp [parseOptions, dhcpOptions, hend, hpad, hlen]
  | case7 fuel opt acc hend hpad optLen rest hlen ih =>
    simp [parseOptions, dhcpOptions, hend, hpad, hlen, ih]

/-- A store that is made or not. -/
theorem Field.get_store (f g : Field) (c : Prop) [Decidable c] (l : Lease) (v : ℕ) :
    f.get (if c then g.set l v else l) = (if g = f ∧ c then some v else none).getD (f.get l) := by
  by_cases hc : c
  · by_cases hg : g = f <;> simp [hc, hg, Field.get_set]
  · simp [hc]

/-- An option overwrites the values it carries. -/
theorem applyOption_get (f : Field) (o : UInt8 × List UInt8) (acc : ℕ × Lease) :
    f.get (applyOption o.1 o.2 acc).2 = (optionValue f o).getD (f.get acc.2) := by
  obtain ⟨opt, data⟩ := o
  unfold applyOption optionValue
  split_ifs with htype hbyte hmask hrouter hdns htime hid
  · subst htype
    cases f <;> rfl
  · subst htype
    cases f <;> rfl
  · subst hmask
    cases f <;> simp [Field.option?, Field.get_store, OPT_SUBNET_MASK, OPT_ROUTER, OPT_DNS_SERVER,
      OPT_LEASE_TIME, OPT_SERVER_ID]
  · subst hrouter
    cases f <;> simp [Field.option?, Field.get_store, OPT_SUBNET_MASK, OPT_ROUTER, OPT_DNS_SERVER,
      OPT_LEASE_TIME, OPT_SERVER_ID]
  · subst hdns
    cases f <;> simp [Field.option?, Field.get_store, OPT_SUBNET_MASK, OPT_ROUTER, OPT_DNS_SERVER,
      OPT_LEASE_TIME, OPT_SERVER_ID]
  · subst htime
    cases f <;> simp [Field.option?, Field.get_store, OPT_SUBNET_MASK, OPT_ROUTER, OPT_DNS_SERVER,
      OPT_LEASE_TIME, OPT_SERVER_ID]
  · subst hid
    cases f <;> simp [Field.option?, Field.get_store, OPT_SUBNET_MASK, OPT_ROUTER, OPT_DNS_SERVER,
      OPT_LEASE_TIME, OPT_SERVER_ID]
  · cases f <;> simp_all [Field.option?]

@[simp] theorem Field.store_success (f : Field) (c : Prop) [Decidable c] (l : Lease) (v : ℕ) :
    (if c then f.set l v else l).result.success = l.result.success := by
  split
  · exact f.set_success l v
  · rfl

theorem applyOption_success (o : UInt8 × List UInt8) (acc : ℕ × Lease) :
    (applyOption o.1 o.2 acc).2.result.success = acc.2.result.success := by
  unfold applyOption
  split_ifs <;> simp

/-- Which type an option leaves does not depend on the lease. -/
theorem applyOption_type (o : UInt8 × List UInt8) (type : ℕ) (l m : Lease) :
    (applyOption o.1 o.2 (type, l)).1 = (applyOption o.1 o.2 (type, m)).1 := by
  unfold applyOption
  split_ifs <;> rfl

theorem foldl_options_get (f : Field) (opts : List (UInt8 × List UInt8)) (acc : ℕ × Lease) :
    f.get (opts.foldl (fun acc o => applyOption o.1 o.2 acc) acc).2 =
      (optionsValue f opts).getD (f.get acc.2) := by
  induction opts generalizing acc with
  | nil => rfl
  | cons o opts ih =>
    rw [List.foldl_cons, ih, applyOption_get, optionsValue, optionsValue, List.reverse_cons,
      List.findSome?_append]
    cases List.findSome? (optionValue f) opts.reverse with
    | none =>
      rw [Option.none_or, List.findSome?_cons]
      cases optionValue f o <;> rfl
    | some v => rfl

theorem foldl_options_success (opts : List (UInt8 × List UInt8)) (acc : ℕ × Lease) :
    (opts.foldl (fun acc o => applyOption o.1 o.2 acc) acc).2.result.success =
      acc.2.result.success := by
  induction opts generalizing acc with
  | nil => rfl
  | cons o opts ih => rw [List.foldl_cons, ih, applyOption_success]

theorem foldl_options_type (opts : List (UInt8 × List UInt8)) (type : ℕ) (l m : Lease) :
    (opts.foldl (fun acc o => applyOption o.1 o.2 acc) (type, l)).1 =
      (opts.foldl (fun acc o => applyOption o.1 o.2 acc) (type, m)).1 := by
  induction opts generalizing type l m with
  | nil => rfl
  | cons o opts ih =>
    rw [List.foldl_cons, List.foldl_cons, ← Prod.eta (applyOption o.1 o.2 (type, l)),
      ← Prod.eta (applyOption o.1 o.2 (type, m)), applyOption_type o type l m]
    exact ih _ _ _

/-- **The parser overwrites exactly the fields that the frame carries**, whatever it returns. -/
theorem parseDhcpResponse_get (client : Client) (frame : List UInt8) (l : Lease) (f : Field) :
    f.get (parseDhcpResponse client frame l).2 = (carried client frame f).getD (f.get l) := by
  unfold parseDhcpResponse carried
  cases dhcpReply client frame with
  | none => rfl
  | some dhcp =>
    simp only []
    by_cases hmagic : be32 dhcp 236 ≠ DHCP_MAGIC_COOKIE
    · rw [if_pos hmagic, if_pos hmagic, Field.get_set]
      by_cases hf : f = .assignedIp
      · simp [hf]
      · simp [hf, Ne.symm hf]
    · rw [if_neg hmagic, if_neg hmagic, parseOptions_eq, foldl_options_get, Field.get_set]
      by_cases hf : f = .assignedIp
      · -- no option carries the address
        have hnone : ∀ opts, optionsValue .assignedIp opts = none := by
          intro opts
          exact List.findSome?_eq_none_iff.mpr fun o _ => rfl
        simp [hf, hnone]
      · simp [hf, Ne.symm hf]

theorem parseDhcpResponse_success (client : Client) (frame : List UInt8) (l : Lease) :
    (parseDhcpResponse client frame l).2.result.success = l.result.success := by
  unfold parseDhcpResponse
  cases dhcpReply client frame with
  | none => rfl
  | some dhcp =>
    simp only []
    split
    · exact Field.set_success _ _ _
    · rw [parseOptions_eq, foldl_options_success]
      exact Field.set_success _ _ _

/-- What the parser returns depends on the frame alone. -/
theorem parseDhcpResponse_fst (client : Client) (frame : List UInt8) (l : Lease) :
    (parseDhcpResponse client frame l).1 = msgType client frame := by
  unfold msgType parseDhcpResponse
  cases dhcpReply client frame with
  | none => rfl
  | some dhcp =>
    simp only []
    split
    · rfl
    · rw [parseOptions_eq, parseOptions_eq]
      exact foldl_options_type _ _ _ _

/-- **Unchanged** is a lease after a frame exactly when it has the values the frame carries. -/
theorem parseDhcpResponse_unchanged_iff (client : Client) (frame : List UInt8) (l : Lease) :
    (parseDhcpResponse client frame l).2 = l ↔
      ∀ f v, carried client frame f = some v → f.get l = v := by
  constructor
  · intro h f v hv
    have hget := parseDhcpResponse_get client frame l f
    rw [h, hv] at hget
    exact hget
  · intro h
    refine Lease.ext_get (fun f => ?_) (parseDhcpResponse_success client frame l)
    rw [parseDhcpResponse_get]
    cases hv : carried client frame f with
    | none => rfl
    | some v => exact (h f v hv).symm

/-! ### The fuel of the options -/

/-- Fuel for every byte is enough. -/
theorem dhcpOptions_enough {m n : ℕ} {bytes : List UInt8} (hm : bytes.length ≤ m)
    (hn : bytes.length ≤ n) : dhcpOptions m bytes = dhcpOptions n bytes := by
  induction m generalizing n bytes with
  | zero =>
    rw [List.eq_nil_of_length_eq_zero (Nat.le_zero.mp hm)]
    cases n <;> rfl
  | succ m ih =>
    cases bytes with
    | nil => cases n <;> rfl
    | cons opt rest =>
      cases n with
      | zero => simp at hn
      | succ n =>
        rw [List.length_cons] at hm hn
        unfold dhcpOptions
        rw [ih (by omega) (Nat.le_of_succ_le_succ hn)]
        cases rest with
        | nil => rfl
        | cons optLen rest =>
          rw [List.length_cons] at hm hn
          have hdrop : (rest.drop optLen.toNat).length ≤ rest.length := by
            rw [List.length_drop]
            omega
          have hrest : dhcpOptions m (rest.drop optLen.toNat) =
              dhcpOptions n (rest.drop optLen.toNat) := ih (by omega) (by omega)
          simp only [hrest]

/-- The loop of the parser never runs out of fuel. -/
theorem parseOptions_enough {n : ℕ} {bytes : List UInt8} (h : bytes.length ≤ n)
    (acc : ℕ × Lease) : parseOptions n bytes acc = parseOptions bytes.length bytes acc := by
  rw [parseOptions_eq, parseOptions_eq, dhcpOptions_enough h (le_refl _)]

end SoftEther.Dhcp
