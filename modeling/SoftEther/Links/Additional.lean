import SoftEther.Lib.Table
import SoftEther.Lib.Transition

namespace SoftEther.Links

open Lib

/-!
# The table of additional connections

`conn->additional[]` and `conn->num_additional`, with every path that fills or empties a
slot: the background connect (`softether_additional_connect`), the cleanup in
`softether_maintain_links`, the read failure of `softether_fill_recv_queue`
(`CLOSE_FAILED_ADDITIONAL_SOCKET`), the failover of `softether_transmit_block` and
`softether_close_additional`.

The receiving threads take turns freely, each with its own place in the code; the send path is
one thread at a time (`write_mutex`), and so is the connect (`additional_connecting`). One step
is a section that the code runs under the `io_mutex` of the slot, with the adjustment of the
counter that follows it. File descriptors and `ssl_context_t*` values are numbers that the
system may hand out again.

`LinkAction` and `linkStep` are the steps of the paths, in any order.
-/

/-! ### The table -/

/-- `MAX_SE_CONNECTIONS`. -/
abbrev maxSeConnections : ℕ := 32

/-- An index of `conn->additional[]`. -/
abbrev SlotIndex := Fin maxSeConnections

/-- `TCP_DIRECTION_BOTH`. -/
def tcpDirectionBoth : ℕ := 0

/-- `TCP_DIRECTION_SERVER_TO_CLIENT`. -/
def tcpDirectionServerToClient : ℕ := 1

/-- `TCP_DIRECTION_CLIENT_TO_SERVER`. -/
def tcpDirectionClientToServer : ℕ := 2

/-- The connection in a slot. The code sets `ssl` and `socket_fd` together and clears them
    together. `link` tells the connection from every other, earlier or later. -/
structure Sock where
  ssl : ℕ
  socketFd : ℕ
  direction : ℕ
  link : ℕ
deriving DecidableEq

/-- `softether_tcp_sock_t`; `sock` is `none` where `ssl` is `NULL` and `socket_fd` is -1. -/
structure TcpSock where
  active : Bool
  sock : Option Sock
deriving DecidableEq

/-- A slot as `softether_create` and every retirement leave it. -/
def TcpSock.empty : TcpSock := ⟨false, none⟩

/-- The client may receive on the socket. -/
def Sock.canRecv (k : Sock) : Bool :=
  k.direction == tcpDirectionBoth || k.direction == tcpDirectionServerToClient

/-- The client may send on the socket. -/
def Sock.canSend (k : Sock) : Bool :=
  k.direction == tcpDirectionBoth || k.direction == tcpDirectionClientToServer

/-- `additional[MAX_SE_CONNECTIONS]`. -/
abbrev SlotTable := SlotIndex → TcpSock

/-- The writes of every retirement: `active = 0`, `ssl = NULL`, `socket_fd = -1`. -/
def retireSlot (t : SlotTable) (i : SlotIndex) : SlotTable := Function.update t i TcpSock.empty

theorem retireSlot_self (t : SlotTable) (i : SlotIndex) : retireSlot t i i = TcpSock.empty :=
  Function.update_self i _ t

theorem retireSlot_of_ne (t : SlotTable) {i j : SlotIndex} (h : j ≠ i) :
    retireSlot t i j = t j :=
  Function.update_of_ne h _ t

/-- What a path captured of an active slot: where it is, and the `ssl` and `fd` to use. -/
structure Capture where
  slot : SlotIndex
  ssl : ℕ
  fd : ℕ
  link : ℕ
deriving DecidableEq

/-- The slot holds the `ssl` and the `fd` of the capture. -/
def SlotTable.holds (t : SlotTable) (cap : Capture) : Bool :=
  match (t cap.slot).sock with
  | none => false
  | some k => k.ssl == cap.ssl && k.socketFd == cap.fd

/-- The connection that is in the slot. -/
def SlotTable.link (t : SlotTable) (i : SlotIndex) : Option ℕ := (t i).sock.map Sock.link

/-- `link_io_resolve`: the slot that holds a captured pair. -/
def linkIoResolve (t : SlotTable) (ssl fd : ℕ) : Option SlotIndex :=
  (List.finRange maxSeConnections).find? fun i => t.holds ⟨i, ssl, fd, 0⟩

/-- `data_read_all_sock`: without SSL the answer of `recv`, with SSL a failure when the pair
    has been retired. -/
def dataReadAllSock (useSslData : Bool) (t : SlotTable) (cap : Capture) (answer : Bool) : Bool :=
  if useSslData then
    match linkIoResolve t cap.ssl cap.fd with
    | none => false
    | some _ => answer
  else answer

/-! ### The paths -/

/-- Where a receiving thread is: outside, in `softether_maintain_links` after `poll` reported
    an error on the slot's `fd`, or in `softether_fill_recv_queue` with a captured slot, before
    and after it is validated again. -/
inductive Receiver
  | idle
  | polled (i : SlotIndex) (fd : ℕ)
  | selected (cap : Capture)
  | reading (cap : Capture)
deriving DecidableEq

/-- The slot a receive pass has captured. -/
def Receiver.capture? : Receiver → Option Capture
  | .idle => none
  | .polled _ _ => none
  | .selected cap => some cap
  | .reading cap => some cap

/-- How far the one `softether_additional_connect` in progress is. -/
inductive Connecting
  | idle
  | started
  | picked (i : SlotIndex)
  | filled (i : SlotIndex)
deriving DecidableEq

/-- The slot the connect has chosen. -/
def Connecting.slot? : Connecting → Option SlotIndex
  | .idle => none
  | .started => none
  | .picked i => some i
  | .filled i => some i

/-- The connection's multi-connection fields and the threads that use them.
    `additionalConnectSlot` is the slot noted for the background thread while it runs.
    `retired` records, for each retirement after a read failure, the link the failure was
    observed on and the link that was in the slot. -/
structure Additional (ι : Type) where
  additional : SlotTable
  numAdditional : ℤ
  additionalFailedCount : ℕ
  additionalConnectSlot : Option SlotIndex
  connecting : Connecting
  receivers : ι → Receiver
  transmit : Option Capture
  nextLink : ℕ
  retired : List (ℕ × Option ℕ)

/-- A step of one of the paths. -/
inductive LinkAction (ι : Type)
  | maintainPoll (th : ι) (i : SlotIndex)
  | maintainRetire (th : ι)
  | maintainConnect
  | establishFirst
  | connectPick
  | connectFail
  | connectFill (ssl fd direction : ℕ)
  | connectActivate
  | rxSelect (th : ι) (i : SlotIndex)
  | rxRevalidate (th : ι)
  | rxRead (th : ι) (answer : Bool)
  | rxDone (th : ι)
  | txSelect (i : SlotIndex)
  | txDone
  | txFail
  | closeAdditional

variable {ι : Type}

/-- `softether_create`: nothing is connected. -/
def Additional.initial : Additional ι where
  additional := fun _ => TcpSock.empty
  numAdditional := 0
  additionalFailedCount := 0
  additionalConnectSlot := none
  connecting := .idle
  receivers := fun _ => .idle
  transmit := none
  nextLink := 0
  retired := []

/-- The capture of an active slot whose direction `allowed` admits. -/
def captureSlot (t : SlotTable) (allowed : Sock → Bool) (i : SlotIndex) : Option Capture :=
  match (t i).sock with
  | none => none
  | some k =>
    if (t i).active && allowed k then some ⟨i, k.ssl, k.socketFd, k.link⟩ else none

section Paths

variable [DecidableEq ι]

/-- A receiving thread moves. -/
def Additional.moveTo (s : Additional ι) (th : ι) (r : Receiver) : Additional ι :=
  { s with receivers := Function.update s.receivers th r }

/-- `softether_maintain_links`: `poll` reports an error on an active slot that the background
    thread is not connecting. -/
def maintainPoll (s : Additional ι) (th : ι) (i : SlotIndex) : Additional ι :=
  match s.receivers th, (s.additional i).sock with
  | .idle, some k =>
    if (s.additional i).active && s.additionalConnectSlot != some i then
      s.moveTo th (.polled i k.socketFd)
    else s
  | _, _ => s

/-- `softether_maintain_links`: the slot is locked, checked again and retired. -/
def maintainRetire (s : Additional ι) (th : ι) : Additional ι :=
  match s.receivers th with
  | .polled i fd =>
    if (s.additional i).active && (s.additional i).sock.map Sock.socketFd == some fd then
      { s.moveTo th .idle with
        additional := retireSlot s.additional i
        numAdditional := s.numAdditional - 1 }
    else s.moveTo th .idle
  | _ => s

/-- `softether_maintain_links`: the launch of the background connect. -/
def maintainConnect (maxConnection : ℤ) (s : Additional ι) : Additional ι :=
  if s.connecting = .idle ∧ s.numAdditional < maxConnection - 1 ∧ s.additionalFailedCount < 16 then
    match firstFree TcpSock.active s.additional with
    | none => s
    | some i => { s with additionalConnectSlot := some i, connecting := .started }
  else s

/-- `softether_establish_first_additional`: the same connect, in the foreground. -/
def establishFirst (s : Additional ι) : Additional ι :=
  if s.connecting = .idle then { s with connecting := .started } else s

/-- `softether_additional_connect`: its own scan for a free slot. -/
def connectPick (s : Additional ι) : Additional ι :=
  match s.connecting with
  | .started =>
    match firstFree TcpSock.active s.additional with
    | none => { s with connecting := .idle, additionalConnectSlot := none }
    | some i => { s with connecting := .picked i }
  | _ => s

/-- `softether_additional_connect`: an error before the slot is written. -/
def connectFail (s : Additional ι) : Additional ι :=
  match s.connecting with
  | .picked _ =>
    { s with
      connecting := .idle
      additionalConnectSlot := none
      additionalFailedCount := s.additionalFailedCount + 1 }
  | _ => s

/-- `softether_additional_connect`: the fields of the slot, before `active = 1`. -/
def connectFill (s : Additional ι) (ssl fd direction : ℕ) : Additional ι :=
  match s.connecting with
  | .picked i =>
    { s with
      additional := Function.update s.additional i
        { s.additional i with sock := some ⟨ssl, fd, direction, s.nextLink⟩ }
      connecting := .filled i
      nextLink := s.nextLink + 1 }
  | _ => s

/-- `softether_additional_connect`: `active = 1` and `num_additional++`. -/
def connectActivate (s : Additional ι) : Additional ι :=
  match s.connecting with
  | .filled i =>
    { s with
      additional := Function.update s.additional i { s.additional i with active := true }
      numAdditional := s.numAdditional + 1
      additionalFailedCount := 0
      connecting := .idle
      additionalConnectSlot := none }
  | _ => s

/-- `softether_fill_recv_queue`: an active slot is captured, and its socket is the one to
    read. -/
def rxSelect (s : Additional ι) (th : ι) (i : SlotIndex) : Additional ι :=
  match s.receivers th, captureSlot s.additional Sock.canRecv i with
  | .idle, some cap => s.moveTo th (.selected cap)
  | _, _ => s

/-- `softether_fill_recv_queue`: the captured slot is validated before the read. -/
def rxRevalidate (s : Additional ι) (th : ι) : Additional ι :=
  match s.receivers th with
  | .selected cap =>
    if (s.additional cap.slot).active &&
        (s.additional cap.slot).sock.map Sock.ssl == some cap.ssl then
      s.moveTo th (.reading cap)
    else s.moveTo th .idle
  | _ => s

/-- `CLOSE_FAILED_ADDITIONAL_SOCKET`: the captured slot is retired as it stands. -/
def closeFailedAdditionalSocket (s : Additional ι) (th : ι) (cap : Capture) : Additional ι :=
  { s.moveTo th .idle with
    additional := retireSlot s.additional cap.slot
    numAdditional := s.numAdditional - 1
    retired := s.retired ++ [(cap.link, s.additional.link cap.slot)] }

/-- `softether_fill_recv_queue`: one of the reads of the pass. -/
def rxRead (useSslData : Bool) (s : Additional ι) (th : ι) (answer : Bool) : Additional ι :=
  match s.receivers th with
  | .reading cap =>
    if dataReadAllSock useSslData s.additional cap answer then s
    else closeFailedAdditionalSocket s th cap
  | _ => s

/-- The receive pass ends. -/
def rxDone (s : Additional ι) (th : ι) : Additional ι :=
  match (s.receivers th).capture? with
  | none => s
  | some _ => s.moveTo th .idle

omit [DecidableEq ι] in
/-- `softether_transmit_block_nolock`: the next candidate, under `write_mutex`. -/
def txSelect (s : Additional ι) (i : SlotIndex) : Additional ι :=
  match s.transmit with
  | none => { s with transmit := captureSlot s.additional Sock.canSend i }
  | some _ => s

/-- `softether_transmit_block_nolock`: the write failed; the slot is locked, compared with the
    capture and retired. -/
def txFail (s : Additional ι) : Additional ι :=
  match s.transmit with
  | none => s
  | some cap =>
    if s.additional.holds cap then
      { s with
        additional := retireSlot s.additional cap.slot
        numAdditional := s.numAdditional - 1
        transmit := none }
    else { s with transmit := none }

/-- `softether_close_additional`, which `softether_disconnect` runs after it has joined the
    connect thread and under locks that exclude the receive and the send path. -/
def closeAdditional [Fintype ι] (s : Additional ι) : Additional ι :=
  if s.connecting = .idle ∧ s.transmit = none ∧ ∀ th, (s.receivers th).capture? = none then
    { s with
      additional := fun i => if (s.additional i).active then TcpSock.empty else s.additional i
      numAdditional := 0
      additionalFailedCount := 0 }
  else s

/-- One step. `max_connection` and `use_ssl_data` are fixed when the session starts. -/
def linkStep [Fintype ι] (maxConnection : ℤ) (useSslData : Bool) (s : Additional ι) :
    LinkAction ι → Additional ι
  | .maintainPoll th i => maintainPoll s th i
  | .maintainRetire th => maintainRetire s th
  | .maintainConnect => maintainConnect maxConnection s
  | .establishFirst => establishFirst s
  | .connectPick => connectPick s
  | .connectFail => connectFail s
  | .connectFill ssl fd direction => connectFill s ssl fd direction
  | .connectActivate => connectActivate s
  | .rxSelect th i => rxSelect s th i
  | .rxRevalidate th => rxRevalidate s th
  | .rxRead th answer => rxRead useSslData s th answer
  | .rxDone th => rxDone s th
  | .txSelect i => txSelect s i
  | .txDone => { s with transmit := none }
  | .txFail => txFail s
  | .closeAdditional => closeAdditional s

end Paths

end SoftEther.Links
