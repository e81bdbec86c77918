import ServerStudy.Server
import ServerStudy.SessionManager.Pointers
import ServerStudy.Threads

/-!
# ServerStudy.Server.World

The whole server: any number of threads that post accepts and handle
completions, the sessions they share, and what the kernel does with the sockets.

A thread calls `PostAccept` for a turn, or dequeues a completion and handles it;
it may do either at any time, so the call that the pool's post-release function
makes is one more thread's.  The kernel answers as it likes, but for two things:
a completion is delivered only for an operation that is outstanding, and nothing
can be received or sent on a socket from the delivery of a disconnect until it
is handed to `AcceptEx` again.

One action is an access to memory, a section under a mutex, a call of the kernel or
the delivery of a completion.  So the operations on a `SharedPoolPtr` and the deleter
of a last release come in their parts, between which other threads go on; a
`SendPacket`, which is a section under `writeMtx_`, does not.  In `client N true`
a whole `Broadcast` is one action.
-/

namespace ServerStudy

namespace Server

open SessionManager

variable {N : Nat}

/-! ## sockets -/

/-- The operations on a session's socket that end in a completion. -/
inductive SocketOp where
  | accept | recv | send | disconnect
  deriving DecidableEq

/-- The `OverlappedEx` of an operation. -/
def SocketOp.ov : SocketOp → Ov
  | .accept | .recv => .read
  | .send => .write
  | .disconnect => .disconnect

/-- A completion: the result and the bytes of `GetQueuedCompletionStatus`, and,
of a receive, what the buffer has become. -/
structure Completion where
  result : Bool
  bytesTransferred : Nat
  buffer_ : Mirror kMagicBufferSize

/-- What the kernel decides. -/
inductive Socket (N : Nat) : Type → Type where
  | acceptEx (w : Fin N) : Socket N BoolResult
  | setsockopt (w : Fin N) : Socket N Int
  | wsaRecv (w : Fin N) (wsaBuf : WsaBuf) : Socket N WsaResult
  | wsaSend (w : Fin N) (wsaBuf : WsaBuf) : Socket N WsaResult
  | disconnectEx (w : Fin N) : Socket N BoolResult
  | deliver (w : Fin N) (op : SocketOp) : Socket N Completion

/-! ## the state -/

/-- The server's memory and its sockets.  The last six fields are history; what they say of a
slot, they say of the handle it had. -/
structure World (N : Nat) where
  manager : SessionManager N
  /-- outstanding operations -/
  posted : Fin N → SocketOp → Nat
  /-- nothing can be received or sent -/
  closed : Fin N → Bool
  /-- the socket was handed to `AcceptEx` -/
  accepted : Fin N → Bool
  /-- the handle under which `DisconnectEx` was last called, and how often under it -/
  disconnects : Fin N → UInt64 × Nat
  /-- what `CreateSession` returned: the session, and what is outstanding on it -/
  created : List (Session × (SocketOp → Nat))
  /-- the handle under which `SetListener` was last called -/
  listening : Fin N → UInt64
  /-- the handle under which the completion of an accept was last dequeued -/
  dequeued : Fin N → UInt64
  /-- what the completions of accepts were handled with: the session, the slot's handle, and
  the handle under which `SetListener` was last called -/
  handled : List (Session × UInt64 × UInt64)

namespace World

/-- Before `Start`. -/
def new (N : Nat) : World N where
  manager := .new N
  posted _ _ := 0
  closed _ := false
  accepted _ := false
  disconnects _ := (kInvalidHandle, 0)
  created := []
  listening _ := kInvalidHandle
  dequeued _ := kInvalidHandle
  handled := []

/-- How many operations are outstanding. -/
def setPosted (s : World N) (w : Fin N) (op : SocketOp) (n : Nat) : World N :=
  { s with posted := Function.update s.posted w (Function.update (s.posted w) op n) }

/-- An operation is posted. -/
def post (s : World N) (w : Fin N) (op : SocketOp) : World N := s.setPosted w op (s.posted w op + 1)

/-- A socket is handed to `AcceptEx`, so it may be connected from now on. -/
def listen (s : World N) (w : Fin N) : World N :=
  { s.post w .accept with
    closed := Function.update s.closed w false
    accepted := Function.update s.accepted w true }

/-- How often `DisconnectEx` was called under the slot's handle. -/
def calls (s : World N) (w : Fin N) : Nat :=
  if (s.disconnects w).1 = s.manager.handleAt w then (s.disconnects w).2 else 0

/-- `DisconnectEx` is called. -/
def countDisconnect (s : World N) (w : Fin N) : World N :=
  { s with
    disconnects := Function.update s.disconnects w (s.manager.handleAt w, s.calls w + 1) }

/-- `SetListener` is called. -/
def hear (s : World N) (w : Fin N) : World N :=
  { s with listening := Function.update s.listening w (s.manager.handleAt w) }

/-- A completion is delivered. -/
def deliver (s : World N) (w : Fin N) (op : SocketOp) (c : Completion) : World N :=
  let s := s.setPosted w op (s.posted w op - 1)
  match op with
  | .accept => { s with dequeued := Function.update s.dequeued w (s.manager.handleAt w) }
  | .send => s
  | .recv =>
    { s with
      manager := s.manager.setSession w { s.manager.session w with readOv_.buffer_ := c.buffer_ } }
  | .disconnect => { s with closed := Function.update s.closed w true }

/-- Write down what `CreateSession` returned. -/
def record (s : World N) (p : SharedPoolPtr) : World N :=
  if h : p.pool_ = true ∧ (whoOf p.handle_).toNat < N then
    { s with created := (s.manager.session ⟨_, h.2⟩, s.posted ⟨_, h.2⟩) :: s.created }
  else s

/-- Write down what the completion of an accept is handled with. -/
def handle (s : World N) (w : Fin N) : World N :=
  { s with handled := (s.manager.session w, s.manager.handleAt w, s.listening w) :: s.handled }

/-! ## the programs' view -/

/-- The manager; a thread has no registers. -/
def managerLens : Lens (World N × Unit) (SessionManager N) where
  get s := s.1.manager
  set m s := ({ s.1 with manager := m }, ())
  get_set _ _ := rfl

/-- Change the world. -/
def change (f : World N → World N) : Prog (World N × Unit) (Socket N) Fault Unit :=
  Prog.modify fun s => (f s.1, ())

/-- Nothing can be received or sent on a closed socket; what is delivered is
outstanding. -/
def answers : Answers (World N × Unit) (Socket N) := fun _ s q a =>
  match q, a with
  | .wsaRecv w _, r | .wsaSend w _, r => s.1.closed w = true → r.posted = false
  | .deliver w op, _ => 0 < s.1.posted w op
  | _, _ => True

/-- The server's sockets. -/
def port (N : Nat) : ServerPort (World N × Unit) (Socket N) N where
  manager := managerLens
  postRelease := return
  wsaRecv w wsaBuf := Prog.atomically do
    let r ← Prog.query (.wsaRecv w wsaBuf)
    if r.posted then
      change fun s => s.post w .recv
    return r
  wsaSend w wsaBuf := Prog.atomically do
    let r ← Prog.query (.wsaSend w wsaBuf)
    if r.posted then
      change fun s => s.post w .send
    return r
  disconnectEx w := Prog.atomically do
    let r ← Prog.query (.disconnectEx w)
    change fun s => s.countDisconnect w
    if r.posted then
      change fun s => s.post w .disconnect
    return r
  acceptEx w := Prog.atomically do
    let r ← Prog.query (.acceptEx w)
    if r.posted then
      change fun s => s.listen w
    return r
  setsockopt w := Prog.query (.setsockopt w)

/-- `Broadcast` of the session in a slot: its parts, or all of it as one step. -/
def relay (whole : Bool) (w : Fin N) (packet : List UInt8) (sessionHandle : UInt64) :
    Prog (World N × Unit) (Socket N) Fault Bool := do
  managerOf (port N) w
  let broadcast := SessionManager.broadcast (port N) (send (port N) packet) sessionHandle
  if whole then Prog.atomically broadcast else broadcast

/-- `PacketHandler::Execute` of the session in a slot. -/
def execute (whole : Bool) (w : Fin N) : Nat → Prog (World N × Unit) (Socket N) Fault Bool :=
  let self := sessionLens (port N) w
  PacketHandler.execute self (PacketHandler.handlers
    (PacketHandler.handleC2SMove self (relay whole w))
    (PacketHandler.handleC2SChat self (relay whole w)))

/-- `SetListener`. -/
def setListener (w : Fin N) : Prog (World N × Unit) (Socket N) Fault Unit :=
  Prog.atomically do
    Server.setListener (port N) w
    change fun s => s.hear w

/-- `GetQueuedCompletionStatus`, when it delivers this completion. -/
def dequeue (w : Fin N) (op : SocketOp) : Prog (World N × Unit) (Socket N) Fault Completion :=
  Prog.atomically do
    let c ← Prog.query (.deliver w op)
    change fun s => s.deliver w op c
    return c

/-! ## the threads -/

/-- What a thread does. -/
inductive Op (N : Nat) where
  /-- a turn of `PostAccept` -/
  | postAccept
  /-- a turn of `WorkerThread`, with a completion of this operation -/
  | complete (w : Fin N) (op : SocketOp)

/-- The code of it. -/
def Op.prog (whole : Bool) : Op N → Prog (World N × Unit) (Socket N) Fault Unit
  | .postAccept => do
    let sessionPtr ← createSession (port N)
    change fun s => s.record sessionPtr
    let _ ← Server.postAccept (port N) (execute whole) setListener sessionPtr
  | .complete w op => do
    let c ← dequeue w op
    workerThread (port N) (execute whole) (fun w => change fun s => s.handle w) w op.ov c.result
      c.bytesTransferred

/-- The server; with `whole`, a `Broadcast` is one action. -/
abbrev client (N : Nat) (whole : Bool) : Client (World N) Unit (Socket N) Fault where
  Op := Op N
  Reg := Unit
  can _ _ := True
  enter _ _ := ()
  prog := Op.prog whole
  leave _ _ _ := ()

variable {ι : Type}

/-- All threads are about to start. -/
def start (N : Nat) (whole : Bool) : Config (client N whole) ι := ⟨.new N, fun _ => ⟨(), none⟩⟩

variable [DecidableEq ι] {whole : Bool}

/-- Reached by steps of any threads. -/
def Reachable (c : Config (client N whole) ι) : Prop :=
  Config.Reach answers (fun _ => True) (start N whole) c

end World

end Server

end ServerStudy
