import SoftEther.AutoMode.Candidate

namespace SoftEther.AutoMode

/-!
# What automatic connection may use of a server (`AutoModeProtocol.kt`)

* `AutoModeProtocol`, `supports`, `usableProtocols` — the protocols that may be attempted, in the
  user's order;
* `endpointPort` — the endpoint that a protocol dials;
* `ReachabilityTarget`, `probeTargets` — the endpoints that are probed, one for each protocol of
  each server.

A list of a run holds objects, which the code tells apart even where they are equal. A `Server` is
such an object: a candidate and its place in the ranked list.
-/

/-- `AutoModeProtocol`. -/
inductive AutoModeProtocol
  | SOFTETHER_TCP
  | SOFTETHER_UDP
  | OPENVPN_TCP
  | OPENVPN_UDP
  | L2TP_IPSEC
  | MS_SSTP
  deriving DecidableEq, Repr

def L2TP_PORT : ℤ := 1701

namespace AutoModeProtocol

/-- `supports`. -/
def supports (c : AutoModeCandidate) : AutoModeProtocol → Bool
  | SOFTETHER_TCP => decide (c.seTcpPort > 0)
  | SOFTETHER_UDP => (c.seUdpSupported || decide (c.seUdpPort > 0)) && decide (c.seTcpPort > 0)
  | OPENVPN_TCP => c.openVpnConfigAvailable && decide (c.openVpnTcpPort > 0)
  | OPENVPN_UDP => c.openVpnConfigAvailable && decide (c.openVpnUdpPort > 0)
  | L2TP_IPSEC => c.l2tpSupported
  | MS_SSTP => c.sstpSupported && decide (c.sstpConnectPort > 0)

/-- `isAutomatable`, and `canAutoConnect` of the adapter. -/
def isAutomatable : AutoModeProtocol → Bool
  | L2TP_IPSEC => false
  | _ => true

/-- `isUsableFor`. -/
def isUsableFor (c : AutoModeCandidate) (protocol : AutoModeProtocol) : Bool :=
  supports c protocol && protocol.isAutomatable

/-- `endpointPort`. -/
def endpointPort (c : AutoModeCandidate) : AutoModeProtocol → ℤ
  | SOFTETHER_TCP => c.seTcpPort
  | SOFTETHER_UDP => c.seUdpPort
  | OPENVPN_TCP => c.openVpnTcpPort
  | OPENVPN_UDP => c.openVpnUdpPort
  | MS_SSTP => c.sstpConnectPort
  | L2TP_IPSEC => L2TP_PORT

end AutoModeProtocol

/-- `usableProtocols`. -/
def usableProtocols (c : AutoModeCandidate) (priorities : List AutoModeProtocol) :
    List AutoModeProtocol :=
  priorities.filter fun protocol => protocol.isUsableFor c

/-- `probeEndpoint`. -/
def probeEndpoint (c : AutoModeCandidate) (protocol : AutoModeProtocol) : ℤ :=
  max (protocol.endpointPort c) 0

/-- An object of a run's list. -/
abbrev Server := AutoModeCandidate × ℕ

/-- `ReachabilityTarget`. -/
structure ReachabilityTarget where
  candidate : Server
  protocol : AutoModeProtocol
  port : ℤ
  deriving DecidableEq, Repr

/-- `probeTargets`. -/
def probeTargets (servers : List Server) (priorities : List AutoModeProtocol) :
    List ReachabilityTarget :=
  servers.flatMap fun server =>
    (usableProtocols server.1 priorities).map fun protocol =>
      ⟨server, protocol, probeEndpoint server.1 protocol⟩

theorem mem_probeTargets {servers : List Server} {priorities : List AutoModeProtocol}
    {t : ReachabilityTarget} :
    t ∈ probeTargets servers priorities ↔
      t.candidate ∈ servers ∧ t.protocol ∈ usableProtocols t.candidate.1 priorities ∧
        t.port = probeEndpoint t.candidate.1 t.protocol := by
  simp only [probeTargets, List.mem_flatMap, List.mem_map]
  constructor
  · rintro ⟨server, hserver, protocol, hprotocol, rfl⟩
    exact ⟨hserver, hprotocol, rfl⟩
  · rintro ⟨hserver, hprotocol, hport⟩
    exact ⟨t.candidate, hserver, t.protocol, hprotocol, by rw [← hport]⟩

end SoftEther.AutoMode
