import FrostByte.Fd.Io
import FrostByte.Lib.Run

/-!
# Sockets

The Unix sockets of `socket.c`: a table of 256 slots, each with a ring of 8192 bytes, a link to the
peer, and a queue of clients. A call that has to wait is cut at the wait; what `sys_connect` and
`socket_vfs_write` keep across it is part of the state.

## Main definitions

* `Socket`, `Sockets` — a socket, and the table with what waits.
* `socketVfsRead`, `socketVfsWrite`, `socketVfsClose` — the operations of a node.
* `sysConnect`, `sysAccept` — linking two sockets.
* `socketCalls` — all runs.
-/

namespace FrostByte.Ipc

open Function

/-- The states of a socket. -/
inductive SockState
  | unbound
  | bound
  | listening
  | connected
  | closed
  deriving DecidableEq

/-- `MAX_SOCKETS`. -/
def maxSockets : ℕ := 256

/-- `SOCK_BUFFER_SIZE`. -/
def sockBufferSize : ℕ := 8192

/-- `MAX_PENDING_CONNECTIONS`. -/
def maxPendingConnections : ℤ := 32

/-- `socket_t`, with `listen_queue` as a list. -/
structure Socket where
  valid : Bool
  domain : ℤ
  type : ℤ
  protocol : ℤ
  state : SockState
  flags : ℕ
  path : List ℕ
  recvBuffer : RingBuffer ℕ
  peer : Option ℕ
  listenQueue : List ℕ
  maxBacklog : ℤ

/-- A slot of the table that was never used. -/
def Socket.zero : Socket where
  valid := false
  domain := 0
  type := 0
  protocol := 0
  state := .unbound
  flags := 0
  path := []
  recvBuffer := ⟨fun _ => 0, 0, 0, 0⟩
  peer := none
  listenQueue := []
  maxBacklog := 0

/-- `O_NONBLOCK` among the flags. -/
def Socket.nonblocking (x : Socket) : Bool := x.flags.testBit 11

/-- A write that waits: its socket, the one it writes to, the bytes that remain and the number
written. -/
structure PendingWrite where
  sock : ℕ
  rb : ℕ
  rest : List ℕ
  written : ℕ

/-- The table, the writes that wait, and the sockets on which `connect` waits. -/
structure Sockets where
  sockets : ℕ → Socket
  pending : List PendingWrite
  connecting : List ℕ

namespace Sockets

/-- One socket replaced. -/
def set (s : Sockets) (i : ℕ) (x : Socket) : Sockets := { s with sockets := update s.sockets i x }

@[simp] lemma set_self (s : Sockets) (i : ℕ) (x : Socket) : (s.set i x).sockets i = x :=
  update_self _ _ _

lemma set_of_ne (s : Sockets) {i j : ℕ} (h : j ≠ i) (x : Socket) :
    (s.set i x).sockets j = s.sockets j := update_of_ne h _ _

@[simp] lemma set_set (s : Sockets) (i : ℕ) (x y : Socket) : (s.set i x).set i y = s.set i y := by
  unfold set
  rw [update_idem]

/-- The table after boot. -/
def boot : Sockets := ⟨fun _ => Socket.zero, [], []⟩

/-- The peer of a socket is missing, freed or closed. -/
def peerGone (s : Sockets) (i : ℕ) : Bool :=
  match (s.sockets i).peer with
  | none => true
  | some p => !(s.sockets p).valid || (s.sockets p).state = .closed

/-- The peer of a socket is there and connected. -/
def peerConnected (s : Sockets) (i : ℕ) : Bool :=
  match (s.sockets i).peer with
  | none => false
  | some p => (s.sockets p).valid && (s.sockets p).state = .connected

end Sockets

/-- `alloc_socket`: the first slot that is not valid, cleared. -/
def allocSocket (s : Sockets) : Option (ℕ × Sockets) :=
  match (List.range maxSockets).find? fun i => !(s.sockets i).valid with
  | none => none
  | some i => some (i, s.set i { Socket.zero with valid := true })

/-- `find_listening_socket`, by its whole path. -/
def findListeningSocket (path : List ℕ) (s : Sockets) : Option ℕ :=
  (List.range maxSockets).find? fun i =>
    (s.sockets i).valid && (s.sockets i).state = .listening && (s.sockets i).path = path

/-! ## Operations of the nodes -/

/-- The loop of `socket_vfs_read`, and the transfer after it. -/
def socketReadLoop (i size : ℕ) (s : Sockets) : (IoResult × List ℕ) × Sockets :=
  let sock := s.sockets i
  if sock.recvBuffer.count = 0 then
    if s.peerGone i then ((.done 0, []), s)
    else if sock.nonblocking then ((.done (-eagain), []), s)
    else ((.blocked, []), s)
  else
    let toRead := if size < sock.recvBuffer.count then size else sock.recvBuffer.count
    let r := sock.recvBuffer.popN sockBufferSize toRead
    ((.done toRead, r.1), s.set i { sock with recvBuffer := r.2 })

/-- `socket_vfs_read`, up to its first wait. -/
def socketVfsRead (i size : ℕ) (s : Sockets) : (IoResult × List ℕ) × Sockets :=
  if (s.sockets i).valid = false then ((.done (-9), []), s)
  else if (s.sockets i).state ≠ .connected then ((.done (-107), []), s)
  else socketReadLoop i size s

/-- `socket_vfs_read`, when it is woken. -/
def socketReadResume (i size : ℕ) (s : Sockets) : (IoResult × List ℕ) × Sockets :=
  if (s.sockets i).valid = false ∨ (s.sockets i).state ≠ .connected then ((.done 0, []), s)
  else socketReadLoop i size s

/-- What a write comes to: the result, what remains and what is written. -/
structure WriteStep where
  result : IoResult
  rest : List ℕ
  written : ℕ
  sockets : Sockets

/-- One byte into the buffer of a socket. -/
def Sockets.push (rb b : ℕ) (s : Sockets) : Sockets :=
  s.set rb { s.sockets rb with recvBuffer := (s.sockets rb).recvBuffer.push sockBufferSize b }

/-- The loop of `socket_vfs_write`, up to a wait. `rb` is the buffer of the peer at the call. -/
def socketWriteLoop (i rb : ℕ) : List ℕ → ℕ → Sockets → WriteStep
  | [], written, s => ⟨.done written, [], written, s⟩
  | b :: bs, written, s =>
    if s.peerConnected i = false then
      ⟨.done (if written = 0 then -32 else written), b :: bs, written, s⟩
    else if sockBufferSize ≤ (s.sockets rb).recvBuffer.count then
      if (s.sockets i).nonblocking then
        ⟨.done (if written = 0 then -eagain else written), b :: bs, written, s⟩
      else ⟨.blocked, b :: bs, written, s⟩
    else socketWriteLoop i rb bs (written + 1) (s.push rb b)

/-- A write that has to wait remembers what is left of it. -/
def WriteStep.keep (i rb : ℕ) (w : WriteStep) : Sockets :=
  match w.result with
  | .done _ => w.sockets
  | .blocked => { w.sockets with pending := w.sockets.pending ++ [⟨i, rb, w.rest, w.written⟩] }

/-- `socket_vfs_write`, up to its first wait. -/
def socketVfsWrite (i : ℕ) (bytes : List ℕ) (s : Sockets) : IoResult × List ℕ × Sockets :=
  if (s.sockets i).valid = false then (.done (-9), bytes, s)
  else
    match (s.sockets i).peer with
    | none => (.done (-32), bytes, s)
    | some p =>
      if (s.sockets i).state ≠ .connected ∨ (s.sockets p).valid = false then (.done (-32), bytes, s)
      else
        let w := socketWriteLoop i p bytes 0 s
        (w.result, w.rest, w.keep i p)

/-- `socket_vfs_write`, when the `k`-th waiting write is woken. -/
def socketWriteResume (k : ℕ) (s : Sockets) : IoResult × List ℕ × Sockets :=
  match s.pending[k]? with
  | none => (.blocked, [], s)
  | some p =>
    let w := socketWriteLoop p.sock p.rb p.rest p.written
      { s with pending := s.pending.eraseIdx k }
    (w.result, w.rest, w.keep p.sock p.rb)

/-- `socket_vfs_close`: the peer becomes closed, and queues are not looked at. -/
def socketVfsClose (i : ℕ) (s : Sockets) : Sockets :=
  if (s.sockets i).valid = false then s
  else
    let s := match (s.sockets i).peer with
      | none => s
      | some p =>
        let s := s.set i { s.sockets i with peer := none }
        s.set p { s.sockets p with peer := none, state := .closed }
    s.set i { s.sockets i with state := .closed, valid := false }

/-! ## System calls -/

/-- `sys_socket`. When `fd_alloc` fails, it closes the node. -/
def sysSocket (domain type protocol : ℤ) (nodeOk fdOk : Bool) (s : Sockets) : IoResult × Sockets :=
  if domain ≠ 1 then (.done (-97), s)
  else if type ≠ 1 ∧ type ≠ 2 then (.done (-22), s)
  else
    match allocSocket s with
    | none => (.done (-12), s)
    | some (i, s) =>
      let s := s.set i { s.sockets i with
        domain := domain, type := type, protocol := protocol, state := .unbound }
      if nodeOk = false then (.done (-12), s.set i { s.sockets i with valid := false })
      else if fdOk = false then
        let s := socketVfsClose i s
        (.done (-24), s.set i { s.sockets i with valid := false })
      else (.done i, s)

/-- `sys_bind`, which goes on without a file for the path. -/
def sysBind (i family : ℕ) (sunPath : List ℕ) (s : Sockets) : IoResult × Sockets :=
  if (s.sockets i).state ≠ .unbound then (.done (-22), s)
  else if family ≠ 1 then (.done (-22), s)
  else (.done 0, s.set i { s.sockets i with path := sunPath.take 107, state := .bound })

/-- `sys_listen`. -/
def sysListen (i : ℕ) (backlog : ℤ) (s : Sockets) : IoResult × Sockets :=
  if (s.sockets i).state ≠ .bound then (.done (-22), s)
  else if (s.sockets i).type ≠ 1 then (.done (-95), s)
  else (.done 0, s.set i { s.sockets i with
    state := .listening
    maxBacklog := if maxPendingConnections < backlog then maxPendingConnections else backlog })

/-- The links between a new socket and a client. -/
def linkPeers (server client : ℕ) (listener : Socket) (s : Sockets) : Sockets :=
  let s := s.set server { s.sockets server with
    domain := listener.domain
    type := listener.type
    protocol := listener.protocol
    state := .connected
    peer := some client }
  s.set client { s.sockets client with peer := some server }

/-- `sys_accept`. When `fd_alloc` fails, it closes the node. -/
def sysAccept (i : ℕ) (nodeOk fdOk : Bool) (s : Sockets) : IoResult × Sockets :=
  if (s.sockets i).state ≠ .listening then (.done (-22), s)
  else
    match (s.sockets i).listenQueue with
    | [] => (if (s.sockets i).nonblocking then .done (-eagain) else .blocked, s)
    | client :: rest =>
      let s := s.set i { s.sockets i with listenQueue := rest }
      match allocSocket s with
      | none => (.done (-12), s)
      | some (server, s) =>
        let s := linkPeers server client (s.sockets i) s
        if nodeOk = false then
          let s := s.set server { s.sockets server with valid := false }
          (.done (-12), s.set client { s.sockets client with peer := none })
        else if fdOk = false then
          let s := socketVfsClose server s
          let s := s.set server { s.sockets server with valid := false }
          (.done (-24), s.set client { s.sockets client with peer := none })
        else (.done server, s)

/-- `sys_connect`, up to its wait. -/
def sysConnect (i family : ℕ) (sunPath : List ℕ) (s : Sockets) : IoResult × Sockets :=
  if (s.sockets i).state ≠ .unbound ∧ (s.sockets i).state ≠ .connected then (.done (-22), s)
  else if family ≠ 1 then (.done (-22), s)
  else
    match findListeningSocket sunPath s with
    | none => (.done (-111), s)
    | some l =>
      if (s.sockets l).maxBacklog ≤ (s.sockets l).listenQueue.length then (.done (-111), s)
      else
        let s := s.set i { s.sockets i with state := .connected, peer := none }
        let s := s.set l { s.sockets l with listenQueue := (s.sockets l).listenQueue ++ [i] }
        if (s.sockets i).nonblocking then (.done 0, s)
        else (.blocked, { s with connecting := i :: s.connecting })

/-- `sys_connect`, when it is woken. -/
def connectResume (i : ℕ) (s : Sockets) : IoResult × Sockets :=
  if (s.sockets i).peer = none ∧ (s.sockets i).state = .connected then (.blocked, s)
  else
    let s := { s with connecting := s.connecting.erase i }
    if (s.sockets i).peer = none then (.done (-111), s.set i { s.sockets i with state := .closed })
    else (.done 0, s)

/-- `fcntl` with `F_SETFL` on a socket. -/
def setFlags (i arg : ℕ) (s : Sockets) : Sockets := s.set i { s.sockets i with flags := arg }

/-! ## Runs -/

/-- A step: a call, or a call that goes on after a wait. -/
inductive SocketOp
  | socket (domain type protocol : ℤ) (nodeOk fdOk : Bool)
  | bind (i family : ℕ) (sunPath : List ℕ)
  | listen (i : ℕ) (backlog : ℤ)
  | accept (i : ℕ) (nodeOk fdOk : Bool)
  | connect (i family : ℕ) (sunPath : List ℕ)
  | connectResume (i : ℕ)
  | close (i : ℕ)
  | setFlags (i arg : ℕ)
  | read (i size : ℕ)
  | readResume (i size : ℕ)
  | write (i : ℕ) (bytes : List ℕ)
  | writeResume (k : ℕ)
  /-- The process of the `k`-th waiting write is gone. -/
  | abandon (k : ℕ)

/-- The table after a call. -/
def Sockets.call (s : Sockets) : SocketOp → Sockets
  | .socket domain type protocol nodeOk fdOk => (sysSocket domain type protocol nodeOk fdOk s).2
  | .bind i family sunPath => (sysBind i family sunPath s).2
  | .listen i backlog => (sysListen i backlog s).2
  | .accept i nodeOk fdOk => (sysAccept i nodeOk fdOk s).2
  | .connect i family sunPath => (sysConnect i family sunPath s).2
  | .connectResume i => (Ipc.connectResume i s).2
  | .close i => socketVfsClose i s
  | .setFlags i arg => Ipc.setFlags i arg s
  | .read i size => (socketVfsRead i size s).2
  | .readResume i size => (socketReadResume i size s).2
  | .write i bytes => (socketVfsWrite i bytes s).2.2
  | .writeResume k => (socketWriteResume k s).2.2
  | .abandon k => { s with pending := s.pending.eraseIdx k }

/-- A call names a socket with a descriptor, and only a waiting `connect` goes on.
`get_socket_from_fd` takes the private data of any device node for a socket; a call on a node that
is none is left out of the runs. -/
def SocketOp.Enabled (s : Sockets) : SocketOp → Prop
  | .socket .. | .readResume .. | .writeResume _ | .abandon _ => True
  | .bind i _ _ | .listen i _ | .accept i _ _ | .connect i _ _ | .close i | .setFlags i _
  | .read i _ | .write i _ => (s.sockets i).valid = true
  | .connectResume i => i ∈ s.connecting ∧ (s.sockets i).valid = true

instance (s : Sockets) (op : SocketOp) : Decidable (op.Enabled s) := by
  cases op <;> unfold SocketOp.Enabled <;> infer_instance

/-- The calls on sockets, from boot on. -/
def socketCalls : System Sockets SocketOp where
  init s := s = Sockets.boot
  guard s op := op.Enabled s
  step s op s' := s' = s.call op

instance (s : Sockets) (op : SocketOp) : Decidable (socketCalls.guard s op) :=
  inferInstanceAs (Decidable (op.Enabled s))

end FrostByte.Ipc
