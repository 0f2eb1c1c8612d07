import SoftEther.Connection.Connect
import SoftEther.Lib.BigEndian
import SoftEther.Lib.FrameLog
import SoftEther.Links.Additional

namespace SoftEther.Packet

open Lib SoftEther.Links
open SoftEther.Connection (ConnState)

/-!
# Sending over the links

The send side of `packet_handler.c`: the block of one packet or keep-alive, the loops that
write it to a socket, and the three paths that choose the socket — `softether_transmit_block`
with its failover, `softether_send_packet` and the keep-alives.

One turn of a write loop is one step, so the writes of different threads mix as far as the locks
let them. One thread at a time sends data (`write_mutex`), any number send keep-alives. Without
SSL the loops take no lock and use the captured descriptor, whatever link it belongs to by
then. With SSL a block is one `SSL_write` under the `io_mutex` of its link, as it writes the
whole block or fails; what it has built into records before it fails stays in the SSL object,
goes out before anything else, and counts as the start of the next block that is written
(`SSL_MODE_ACCEPT_MOVING_WRITE_BUFFER`). What `send` or `SSL_write` answers is given with the
step. Each link has a log of what it accepted; the code keeps none.
-/

/-! ### Blocks -/

/-- `KEEP_ALIVE_MAGIC`. -/
def keepAliveMagic : ℕ := 0xFFFFFFFF

/-- `[block_count=1][block_size][block_data]`. -/
def dataBlock (payload : List UInt8) : List UInt8 :=
  beBytes 4 1 ++ beBytes 4 payload.length ++ payload

/-- `[KEEP_ALIVE_MAGIC][ka_size][random_data]`. -/
def keepAliveBlock (data : List UInt8) : List UInt8 :=
  beBytes 4 keepAliveMagic ++ beBytes 4 data.length ++ data

/-- The block frames of the data channel. -/
inductive IsBlock : List UInt8 → Prop
  | data (payload : List UInt8) : IsBlock (dataBlock payload)
  | keepAlive (data : List UInt8) : IsBlock (keepAliveBlock data)

theorem IsBlock.length_pos {f : List UInt8} (h : IsBlock f) : 0 < f.length := by
  cases h <;> simp [dataBlock, keepAliveBlock]

/-! ### Writes -/

/-- The socket a path sends on: index 0 or `i + 1` in the source. -/
inductive SendSocket
  | primary
  | additional (i : SlotIndex)
deriving DecidableEq

/-- The sockets in the order in which the code goes through them. -/
def sendSockets : List SendSocket :=
  .primary :: (List.finRange maxSeConnections).map .additional

/-- The function that makes a write. -/
inductive WritePath
  | failover
  | packet
  | keepAlive
deriving DecidableEq

/-- A write: the path, and the socket it was captured from with its `ssl` and `fd`. -/
structure Attempt where
  id : ℕ
  path : WritePath
  socket : SendSocket
  sock : Sock
deriving DecidableEq

/-- The path writes with `data_write_all`, which uses the primary's fields as they are;
    otherwise with `data_write_all_sock` and the captured pair. -/
def Attempt.usesPrimary (a : Attempt) : Bool := a.path != .keepAlive && a.socket == .primary

/-- The path retires the socket when the write fails. -/
def Attempt.retires (a : Attempt) : Bool := a.path == .failover && a.socket != .primary

/-- A write in progress: what has been sent of its block, and the link that took the bytes. -/
structure Writing where
  attempt : Attempt
  frame : List UInt8
  sent : ℕ
  begun : Option ℕ

/-- What the log notes of a write: which one, and where in its block the entry starts. -/
structure Piece where
  attempt : Attempt
  start : ℕ

/-- What a link accepted. -/
abbrev LinkLog := List (Write UInt8 Piece)

/-- What one `send` answers. `error` is also the primary's loop finding that the connection is
    going down. -/
inductive SendAnswer
  | accepted (n : ℕ)
  | again
  | interrupted
  | error
deriving DecidableEq

/-- What `ssl_write_all` does, or the SSL loop of `data_write_all_sock`: it writes the block, or
    fails with `n` bytes more in records, as when the send time-out expires. -/
inductive SslAnswer
  | written
  | failed (n : ℕ)
deriving DecidableEq

/-- How many of the `left` bytes go into records. -/
def SslAnswer.bytes : SslAnswer → ℕ → ℕ
  | .written, left => left
  | .failed n, left => min n left

/-- `m` more bytes of a write, behind the bytes that the link accepted last. -/
def record (log : LinkLog) (x : Writing) (m : ℕ) : LinkLog :=
  match log.getLast? with
  | none => [⟨x.frame.drop x.sent, m, x.attempt, x.sent⟩]
  | some e =>
    if e.origin.attempt.id = x.attempt.id then log.dropLast ++ [{ e with sent := e.sent + m }]
    else log ++ [⟨x.frame.drop x.sent, m, x.attempt, x.sent⟩]

/-! ### The connection -/

/-- What is fixed for the session. -/
structure TxConfig where
  useSslData : Bool
  sendBlockCap : ℕ

/-- The links of a connection and the writes in progress, `writing none` that of the thread
    with `write_mutex` and `writing (some th)` those of keep-alives. `transmitting` is the
    payload and the candidates still to be tried of `softether_transmit_block`, `failed` its
    write that failed on an additional socket, until the socket has been looked at. `resume` is
    what the SSL object of a link takes for written of the block it is given next, its
    `wnum + wpend_tot`, or `none` after a fatal error. -/
structure TxState (ι : Type) where
  state : ConnState
  primary : Option Sock
  additional : SlotTable
  sendRrIdx : ℕ
  transmitting : Option (List UInt8 × List SendSocket)
  failed : Option Attempt
  writing : Option ι → Option Writing
  nextLink : ℕ
  nextWrite : ℕ
  log : ℕ → LinkLog
  resume : ℕ → Option ℕ

variable {ι : Type}

/-- `softether_create`. -/
def TxState.initial : TxState ι where
  state := .disconnected
  primary := none
  additional := fun _ => TcpSock.empty
  sendRrIdx := 0
  transmitting := none
  failed := none
  writing := fun _ => none
  nextLink := 0
  nextWrite := 0
  log := fun _ => []
  resume := fun _ => some 0

/-- The connection that a socket index stands for. -/
def TxState.held (s : TxState ι) : SendSocket → Option Sock
  | .primary => s.primary
  | .additional i => (s.additional i).sock

/-- The socket can be used: the primary while it is there, an additional one while its slot is
    active. -/
def TxState.usable (s : TxState ι) : SendSocket → Option Sock
  | .primary => s.primary
  | .additional i => if (s.additional i).active then (s.additional i).sock else none

/-- The socket is there and its direction lets the client send. -/
def TxState.sendCapable (s : TxState ι) (c : SendSocket) : Bool :=
  match s.usable c with
  | none => false
  | some k => k.canSend

/-- The send-capable sockets, the primary first. -/
def TxState.capable (s : TxState ι) : List SendSocket := sendSockets.filter s.sendCapable

/-- `softether_select_send_socket`: round robin, with the primary as fallback. -/
def softetherSelectSendSocket (s : TxState ι) : SendSocket × ℕ :=
  match s.capable[s.sendRrIdx % s.capable.length]? with
  | none => (.primary, s.sendRrIdx)
  | some c => (c, (s.sendRrIdx + 1) % s.capable.length)

/-- The candidates of the failover: the selected socket when it is not the primary, the primary
    when it can send, and the other sockets that can. -/
def transmitCandidates (s : TxState ι) (best : SendSocket) : List SendSocket :=
  (if best = .primary then [] else [best]) ++
    s.capable.filter fun c => c = .primary || c != best

/-- `write_mutex` is free. -/
def TxState.senderFree (s : TxState ι) : Prop :=
  s.transmitting = none ∧ s.failed = none ∧ (s.writing none).isNone

instance (s : TxState ι) : Decidable s.senderFree := inferInstanceAs (Decidable (_ ∧ _))

/-- The socket holds the `ssl` and the `fd` of the write. -/
def TxState.holds (s : TxState ι) (a : Attempt) (c : SendSocket) : Bool :=
  match s.held c with
  | none => false
  | some k => k.ssl == a.sock.ssl && k.socketFd == a.sock.socketFd

/-- With SSL, the socket whose `io_mutex` a write takes: the primary's, or the one that
    `link_io_resolve` finds. -/
def linkIoResolve (s : TxState ι) (a : Attempt) : Option SendSocket :=
  if a.usesPrimary then s.primary.map fun _ => .primary else sendSockets.find? (s.holds a)

/-- Without SSL, the socket that a descriptor belongs to. -/
def descriptorOwner (s : TxState ι) (a : Attempt) : Option SendSocket :=
  if a.usesPrimary then s.primary.map fun _ => .primary
  else sendSockets.find? fun c => (s.held c).map Sock.socketFd == some a.sock.socketFd

/-- The link that the next turn of a write loop writes to. -/
def destination (cfg : TxConfig) (s : TxState ι) (x : Writing) : Option Sock :=
  (if cfg.useSslData then linkIoResolve s x.attempt else descriptorOwner s x.attempt).bind s.held

/-! ### The steps -/

/-- A step of the links or of a path that writes to them. -/
inductive TxAction (ι : Type)
  | setState (state : ConnState)
  | openPrimary (ssl fd direction : ℕ)
  | setPrimaryDirection (direction : ℕ)
  | disconnect
  | addLink (i : SlotIndex) (ssl fd direction : ℕ)
  | retireLink (i : SlotIndex)
  | sendData (payload : List UInt8)
  | transmitNext
  | retireFailed
  | sendPacket (payload : List UInt8)
  | keepAlive (th : ι) (c : SendSocket) (data : List UInt8)
  | send (w : Option ι) (answer : SendAnswer)
  | sslWrite (w : Option ι) (answer : SslAnswer)

/-- `softether_connect`: a new primary link. -/
def openPrimary (s : TxState ι) (ssl fd direction : ℕ) : TxState ι :=
  if s.primary = none then
    { s with primary := some ⟨ssl, fd, direction, s.nextLink⟩, nextLink := s.nextLink + 1 }
  else s

/-- `softether_disconnect`, with `write_mutex` and every `io_mutex`. -/
def disconnect (s : TxState ι) : TxState ι :=
  if s.senderFree then
    { s with state := .disconnected, primary := none, additional := fun _ => TcpSock.empty }
  else s

/-- `softether_additional_connect`: a new link in a free slot. -/
def addLink (s : TxState ι) (i : SlotIndex) (ssl fd direction : ℕ) : TxState ι :=
  if s.additional i = TcpSock.empty then
    { s with
      additional := Function.update s.additional i
        ⟨true, some ⟨ssl, fd, direction, s.nextLink⟩⟩
      nextLink := s.nextLink + 1 }
  else s

/-- A read failure or `softether_maintain_links` retires a slot, with its `io_mutex`. -/
def retireLink (s : TxState ι) (i : SlotIndex) : TxState ι :=
  { s with additional := retireSlot s.additional i }

/-- `softether_send`: the block is built and `softether_transmit_block_nolock` starts on its
    candidates. -/
def sendData (cfg : TxConfig) (s : TxState ι) (payload : List UInt8) : TxState ι :=
  if s.state = .connected ∧ s.primary.isSome ∧ s.senderFree ∧
      (dataBlock payload).length ≤ cfg.sendBlockCap then
    let best := softetherSelectSendSocket s
    { s with
      sendRrIdx := best.2
      transmitting := some (payload, transmitCandidates s best.1) }
  else s

section Threads

variable [DecidableEq ι]

/-- A thread's write is `y` from now on. -/
def TxState.setWriting (s : TxState ι) (w : Option ι) (y : Option Writing) : TxState ι :=
  { s with writing := Function.update s.writing w y }

/-- A thread starts to write a block with what it captured of socket `c`. -/
def beginWrite (s : TxState ι) (w : Option ι) (path : WritePath) (c : SendSocket) (k : Sock)
    (frame : List UInt8) : TxState ι :=
  { s.setWriting w (some ⟨⟨s.nextWrite, path, c, k⟩, frame, 0, none⟩) with
    nextWrite := s.nextWrite + 1 }

/-- `softether_transmit_block_nolock`: the next candidate. -/
def transmitNext (s : TxState ι) : TxState ι :=
  if s.failed = none ∧ (s.writing none).isNone then
    match s.transmitting with
    | none => s
    | some (_, []) => { s with transmitting := none }
    | some (payload, c :: rest) =>
      match s.usable c with
      | none => { s with transmitting := some (payload, rest) }
      | some k =>
        { beginWrite s none .failover c k (dataBlock payload) with
          transmitting := some (payload, rest) }
  else s

omit [DecidableEq ι] in
/-- `softether_transmit_block_nolock`: the socket whose write failed is locked, compared with
    the capture and retired. -/
def retireFailed (s : TxState ι) : TxState ι :=
  match s.failed with
  | none => s
  | some a =>
    match a.socket with
    | .primary => { s with failed := none }
    | .additional i =>
      if s.holds a (.additional i) then
        { s with additional := retireSlot s.additional i, failed := none }
      else { s with failed := none }

/-- `softether_send_packet`: one selected socket, no failover. `payload` is what goes into the
    block, compressed or not. -/
def softetherSendPacket (cfg : TxConfig) (s : TxState ι) (payload : List UInt8) : TxState ι :=
  if s.state ≠ .disconnected ∧ s.state ≠ .disconnecting ∧ s.primary.isSome ∧ s.senderFree ∧
      (dataBlock payload).length ≤ cfg.sendBlockCap then
    let best := softetherSelectSendSocket s
    match s.usable best.1 with
    | none => { s with sendRrIdx := best.2 }
    | some k =>
      { beginWrite s none .packet best.1 k (dataBlock payload) with sendRrIdx := best.2 }
  else s

omit [DecidableEq ι] in
/-- The socket a keep-alive captures: `softether_send_keepalive` takes the primary as it is,
    `softether_send_keepalive_all` an additional one that can send. -/
def keepAliveSocket (s : TxState ι) (c : SendSocket) : Option Sock :=
  match c with
  | .primary => s.primary
  | .additional _ => if s.sendCapable c then s.usable c else none

/-- `softether_send_keepalive_sock`; `ka_size` is below 64. -/
def sendKeepalive (s : TxState ι) (th : ι) (c : SendSocket) (data : List UInt8) : TxState ι :=
  if s.state = .connected ∧ s.primary.isSome ∧ data.length < 64 ∧
      (s.writing (some th)).isNone then
    match keepAliveSocket s c with
    | none => s
    | some k => beginWrite s (some th) .keepAlive c k (keepAliveBlock data)
  else s

/-- The write ends with 0. -/
def writeDone (s : TxState ι) (w : Option ι) (x : Writing) : TxState ι :=
  match x.attempt.path with
  | .failover => { s.setWriting w none with transmitting := none }
  | _ => s.setWriting w none

/-- The write ends with -1. -/
def writeFailed (s : TxState ι) (w : Option ι) (x : Writing) : TxState ι :=
  if x.attempt.retires then { s.setWriting w none with failed := some x.attempt }
  else s.setWriting w none

/-- `n` bytes are accepted, of those that are left. -/
def acceptBytes (s : TxState ι) (w : Option ι) (x : Writing) (k : Sock) (n : ℕ) : TxState ι :=
  let m := min n (x.frame.length - x.sent)
  let s' := { s with log := Function.update s.log k.link (record (s.log k.link) x m) }
  if x.sent + m = x.frame.length then writeDone s' w x
  else s'.setWriting w (some { x with sent := x.sent + m, begun := some k.link })

/-- One turn of `raw_write_all` or of the raw loop of `data_write_all_sock`. An `EAGAIN` is asked
    again; every other answer that is not positive ends the loop. -/
def sendTurn (cfg : TxConfig) (s : TxState ι) (w : Option ι) (answer : SendAnswer) : TxState ι :=
  match s.writing w with
  | none => s
  | some x =>
    if cfg.useSslData then s
    else
      match destination cfg s x with
      | none => writeFailed s w x
      | some k =>
        match answer with
        | .accepted n => if n = 0 then writeFailed s w x else acceptBytes s w x k n
        | .again => s
        | .interrupted => writeFailed s w x
        | .error => writeFailed s w x

/-- `SSL_write` puts `m` bytes into records, behind the `r` that it takes for written; the next
    block starts at byte `resume`. -/
def sealBytes (s : TxState ι) (x : Writing) (k : Sock) (r m resume : ℕ) : TxState ι :=
  { s with
    log := if m = 0 then s.log
      else Function.update s.log k.link (record (s.log k.link) { x with sent := r } m)
    resume := Function.update s.resume k.link (some resume) }

/-- `ssl_write_all`, or the SSL loop of `data_write_all_sock`, on the link of the write. A block
    shorter than what is taken for written is a fatal error of the SSL object. -/
def sslWrite (s : TxState ι) (w : Option ι) (x : Writing) (k : Sock) (answer : SslAnswer) :
    TxState ι :=
  match s.resume k.link with
  | none => writeFailed s w x
  | some r =>
    if x.frame.length < r then
      writeFailed { s with resume := Function.update s.resume k.link none } w x
    else
      let m := answer.bytes (x.frame.length - r)
      match answer with
      | .written => writeDone (sealBytes s x k r m 0) w x
      | .failed _ => writeFailed (sealBytes s x k r m (r + m)) w x

/-- The write of a block with SSL: it fails when its socket holds the link no more. -/
def sslTurn (cfg : TxConfig) (s : TxState ι) (w : Option ι) (answer : SslAnswer) : TxState ι :=
  match s.writing w with
  | none => s
  | some x =>
    if cfg.useSslData then
      match destination cfg s x with
      | none => writeFailed s w x
      | some k => sslWrite s w x k answer
    else s

/-- One step. -/
def txStep (cfg : TxConfig) (s : TxState ι) : TxAction ι → TxState ι
  | .setState state => { s with state := state }
  | .openPrimary ssl fd direction => openPrimary s ssl fd direction
  | .setPrimaryDirection direction =>
    { s with primary := s.primary.map fun k => { k with direction := direction } }
  | .disconnect => disconnect s
  | .addLink i ssl fd direction => addLink s i ssl fd direction
  | .retireLink i => retireLink s i
  | .sendData payload => sendData cfg s payload
  | .transmitNext => transmitNext s
  | .retireFailed => retireFailed s
  | .sendPacket payload => softetherSendPacket cfg s payload
  | .keepAlive th c data => sendKeepalive s th c data
  | .send w answer => sendTurn cfg s w answer
  | .sslWrite w answer => sslTurn cfg s w answer

end Threads

end SoftEther.Packet
