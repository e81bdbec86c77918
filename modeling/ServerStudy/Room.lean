import ServerStudy.Server
import ServerStudy.SessionManager.Relay
import ServerStudy.Threads

/-!
# ServerStudy.Room

The sessions that are connected and their clients, while nobody joins: what the
clients send, what they are sent, and the threads that handle the completions.

A thread dequeues the completion of a receive or of a send of any session and
dispatches it.  The bytes of a receive are those its client sends next; those of
a send reach its client.  The kernel decides how many there are, which calls and
which operations fail, and when.

The setting is a conversation among clients that are there: nobody is accepted,
so nobody is greeted, and a session that is disconnected gets no further than
`DisconnectEx`, whose completion nobody handles.  So there is no `Clear`, no slot
is released or used again, and no pointer of the manager is reset.  The references
that `sessionPtr_` takes and drops are left out; `ServerStudy.Server.Runs` is about
those, and about joining and leaving.
-/

namespace ServerStudy

open SessionManager

variable {N : Nat}

/-! ## the state -/

/-- The manager's memory, and the sockets of its sessions. -/
structure Room (N : Nat) where
  manager : SessionManager N
  /-- the receive that is outstanding -/
  receiving : Fin N → Option WsaBuf
  /-- the send that is outstanding -/
  sending : Fin N → Option WsaBuf
  /-- what has come from the client -/
  heard : Fin N → List UInt8
  /-- what has reached the client -/
  sent : Fin N → List UInt8
  /-- a `SendPacket` of a `Broadcast` returned false -/
  refused : Fin N → Bool

namespace Room

/-- What the kernel decides. -/
inductive Kernel (N : Nat) : Type → Type where
  | wsaRecv (w : Fin N) (wsaBuf : WsaBuf) : Kernel N WsaResult
  | wsaSend (w : Fin N) (wsaBuf : WsaBuf) : Kernel N WsaResult
  | disconnectEx (w : Fin N) : Kernel N BoolResult
  /-- a receive completes with these bytes, or fails -/
  | received (w : Fin N) : Kernel N (Option (List UInt8))
  /-- a send completes with so many bytes, or fails -/
  | sent (w : Fin N) : Kernel N (Option Nat)

/-- Write a session back. -/
def setSession (s : Room N) (w : Fin N) (x : Session) : Room N :=
  { s with manager := s.manager.setSession w x }

/-- A receive is posted. -/
def postRecv (s : Room N) (w : Fin N) (wsaBuf : WsaBuf) : Room N :=
  { s with receiving := Function.update s.receiving w (some wsaBuf) }

/-- A send is posted. -/
def postSend (s : Room N) (w : Fin N) (wsaBuf : WsaBuf) : Room N :=
  { s with sending := Function.update s.sending w (some wsaBuf) }

/-- A receive has completed: the bytes are where its `WSABUF` points to. -/
def hear (s : Room N) (w : Fin N) (bytes : List UInt8) : Room N :=
  let x := s.manager.session w
  let off := ((s.receiving w).getD {}).buf
  { s with
    manager := s.manager.setSession w { x with
      readOv_.buffer_ := x.readOv_.buffer_.write off bytes }
    receiving := Function.update s.receiving w none
    heard := Function.update s.heard w (s.heard w ++ bytes) }

/-- A send has completed: the bytes are those its `WSABUF` points to. -/
def tell (s : Room N) (w : Fin N) (n : Nat) : Room N :=
  let wsaBuf := (s.sending w).getD {}
  let bytes := (s.manager.session w).writeOv_.buffer_.slice wsaBuf.buf wsaBuf.len
  { s with
    sending := Function.update s.sending w none
    sent := Function.update s.sent w (s.sent w ++ bytes.take n) }

/-- A `SendPacket` returns false. -/
def refuse (s : Room N) (v : Fin N) : Room N :=
  { s with refused := Function.update s.refused v true }

section Fields

variable (s : Room N) (w : Fin N) (x : Session) (wsaBuf : WsaBuf)

/-- Writing a session changes that session in the manager. -/
@[simp] theorem manager_setSession : (s.setSession w x).manager = s.manager.setSession w x := rfl

/-- It leaves the outstanding receives. -/
@[simp] theorem receiving_setSession : (s.setSession w x).receiving = s.receiving := rfl

/-- It leaves the outstanding sends. -/
@[simp] theorem sending_setSession : (s.setSession w x).sending = s.sending := rfl

/-- It leaves what was received. -/
@[simp] theorem heard_setSession : (s.setSession w x).heard = s.heard := rfl

/-- It leaves what was sent. -/
@[simp] theorem sent_setSession : (s.setSession w x).sent = s.sent := rfl

/-- It leaves what was refused. -/
@[simp] theorem refused_setSession : (s.setSession w x).refused = s.refused := rfl

/-- A `WSASend` that is accepted is outstanding. -/
@[simp] theorem sending_postSend : (s.postSend w wsaBuf).sending w = some wsaBuf :=
  Function.update_self _ _ _

/-- So is a `WSARecv`. -/
@[simp] theorem receiving_postRecv : (s.postRecv w wsaBuf).receiving w = some wsaBuf :=
  Function.update_self _ _ _

/-- A refusal is remembered. -/
@[simp] theorem refused_refuse : (s.refuse w).refused w = true := Function.update_self _ _ _

end Fields

/-! ## the programs' view -/

/-- The manager; a thread has no registers. -/
def managerLens : Lens (Room N × Unit) (SessionManager N) where
  get s := s.1.manager
  set m s := ({ s.1 with manager := m }, ())
  get_set _ _ := rfl

/-- Change the room. -/
def change (f : Room N → Room N) : Prog (Room N × Unit) (Kernel N) Fault Unit :=
  Prog.modify fun s => (f s.1, ())

/-- Only what is outstanding completes, and with no more bytes than there is room for. -/
def answers : Answers (Room N × Unit) (Kernel N) := fun _ s q a =>
  match q, a with
  | .received w, bytes => ∃ wsaBuf, s.1.receiving w = some wsaBuf ∧
      (bytes.getD []).length ≤ wsaBuf.len
  | .sent w, n => ∃ wsaBuf, s.1.sending w = some wsaBuf ∧ n.getD 0 ≤ wsaBuf.len
  | _, _ => True

/-- The sockets.  Nothing is accepted, and no session is released. -/
def port (N : Nat) : ServerPort (Room N × Unit) (Kernel N) N where
  manager := managerLens
  postRelease := .done ()
  wsaRecv w wsaBuf := Prog.atomically do
    let r ← Prog.query (.wsaRecv w wsaBuf)
    if r.posted then
      change fun s => s.postRecv w wsaBuf
    return r
  wsaSend w wsaBuf := Prog.atomically do
    let r ← Prog.query (.wsaSend w wsaBuf)
    if r.posted then
      change fun s => s.postSend w wsaBuf
    return r
  disconnectEx w := Prog.query (.disconnectEx w)
  acceptEx _ := Prog.fault .emptyFunction
  setsockopt _ := Prog.fault .emptyFunction

/-- A session, less what its `sessionPtr_`s do. -/
def sessionWith (execute : Nat → Prog (Room N × Unit) (Kernel N) Fault Bool) (w : Fin N) :
    SessionPort (Room N × Unit) (Kernel N) :=
  { sessionPort (port N) execute w with
    assignSessionPtr := fun _ _ => .done ()
    resetSessionPtr := fun _ => .done () }

/-- `SendPacket` as `Broadcast` calls it. -/
def send (packet : List UInt8) (_handle : UInt64) (v : Fin N) :
    Prog (Room N × Unit) (Kernel N) Fault Bool := Prog.atomically do
  let accepted ← Session.sendPacket (sessionWith (fun _ => Prog.fault .emptyFunction) v) packet
  if !accepted then
    change fun s => s.refuse v
  return accepted

/-- The session in a slot. -/
def session (w : Fin N) : SessionPort (Room N × Unit) (Kernel N) :=
  sessionWith (execute (port N) send w) w

/-- `ioType_` of one of a session's three `OverlappedEx`. -/
def ioType (w : Fin N) (i : Ov) : Prog (Room N × Unit) (Kernel N) Fault IoType :=
  (Server.ovLens (port N) w i).read OverlappedEx.ioType_

/-! ## the threads -/

/-- The operation whose completion a thread deals with. -/
inductive Op (N : Nat) where
  | received (w : Fin N)
  | sent (w : Fin N)

/-- The session of it. -/
def Op.slot : Op N → Fin N
  | .received w | .sent w => w

/-- Its `OverlappedEx`. -/
def Op.ov : Op N → Ov
  | .received _ => .read
  | .sent _ => .write

/-- `GetQueuedCompletionStatus`: how many bytes, or that the operation failed. -/
def dequeue : Op N → Prog (Room N × Unit) (Kernel N) Fault (Option Nat)
  | .received w => Prog.atomically do
    let bytes ← Prog.query (.received w)
    change fun s => s.hear w (bytes.getD [])
    return bytes.map List.length
  | .sent w => Prog.atomically do
    let n ← Prog.query (.sent w)
    change fun s => s.tell w (n.getD 0)
    return n

/-- A turn of `WorkerThread`: `Dispatch`, or what `HandleError` does of a receive or a send. -/
def Op.prog (op : Op N) : Prog (Room N × Unit) (Kernel N) Fault Unit := do
  match ← dequeue op with
  | some bytesTransferred =>
    IocpCore.dispatchBy (.done op.slot) session (.done false) (← ioType op.slot op.ov)
      bytesTransferred
  | none =>
    let _ ← Session.disconnect (session op.slot)

/-- The threads. -/
abbrev client (N : Nat) : Client (Room N) Unit (Kernel N) Fault where
  Op := Op N
  Reg := Unit
  can _ _ := True
  enter _ _ := ()
  prog := Op.prog
  leave _ _ _ := ()

variable {ι : Type}

/-- All threads are about to start. -/
def start (s : Room N) : Config (client N) ι := ⟨s, fun _ => ⟨(), none⟩⟩

/-! ## the packets -/

/-- A packet that is relayed as it is meant: its size is 16 bits still when its sender's handle
has been added, or it has both coordinates. -/
def Proper (packet : List UInt8) : Prop :=
  ((PacketHeader.ofBytes packet).id.toNat = C2SPacketId.kMove.toNat ∧
    C2SMove.sizeOf ≤ packet.length) ∨
  ((PacketHeader.ofBytes packet).id.toNat = C2SPacketId.kChat.toNat ∧ packet.length + 8 < 2 ^ 16)

instance (packet : List UInt8) : Decidable (Proper packet) := inferInstanceAs (Decidable (_ ∨ _))

/-- What the others are sent for a packet of the session with this handle. -/
def relayed (handle : UInt64) (packet : List UInt8) : List UInt8 :=
  if (PacketHeader.ofBytes packet).id.toNat = C2SPacketId.kMove.toNat then
    S2CMove.bytes ⟨UInt16.ofNat S2CMove.sizeOf, S2CPacketId.kMove.toUInt16⟩ handle
      ((packet.drop 4).take 4) ((packet.drop 8).take 4)
  else Relay.chat handle (packet.drop 4)

/-- The packet says that it comes from the session with this handle. -/
def isFrom (handle : UInt64) (packet : List UInt8) : Bool :=
  S2CChat.sessionHandle packet = handle.toNat

/-- All packets that have come in so far are proper. -/
def Civil (s : Room N) : Prop := ∀ u, ∀ packet ∈ (packets.cut (s.heard u)).frames, Proper packet

/-- Before anything was sent: the connected sessions have a receive outstanding, and all buffers
are empty. -/
structure Fresh (s : Room N) : Prop where
  serving : Serving s.manager
  receiving : ∀ u wsaBuf, s.receiving u = some wsaBuf →
    s.manager.state u = SessionState.kConnected.toNat ∧
    (s.manager.session u).readOv_.Holds [] ∧
    (s.manager.session u).readOv_.readPos_ < OverlappedEx.getSize ∧
    (s.manager.session u).readOv_.ioType_ = .kRecv ∧
    wsaBuf = ⟨(s.manager.session u).readOv_.writePos_, OverlappedEx.getSize⟩
  listening : ∀ u, s.manager.state u = SessionState.kConnected.toNat → (s.receiving u).isSome
  sending : ∀ v, s.sending v = none
  queued : ∀ v, (s.manager.session v).Queued []
  idle : ∀ v, (s.manager.session v).isSending_ = false
  heard : ∀ u, s.heard u = []
  sent : ∀ v, s.sent v = []

variable [DecidableEq ι]

/-- Reached from there by steps of any threads, while the packets that come in are proper. -/
def Reachable (s : Room N) (c : Config (client N) ι) : Prop :=
  Config.Reach answers Civil (start s) c

end Room

end ServerStudy
