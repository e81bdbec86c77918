import ServerStudy.IocpCore
import ServerStudy.Listener
import ServerStudy.PacketHandler

/-!
# ServerStudy.SessionManager

`SessionManager` (`Network/Server/SessionManager.cpp`): the pool of sessions,
and the array of pointers that keeps a session alive while it is in use.

The methods are programs over any state with the manager in it; a `ServerPort`
says where, what the pool's post-release function does, and what the kernel
does with a session's socket.  The operations on a `SharedPoolPtr` and the deleter
come in their parts, each one access to memory: `IsValid`, the `fetch_add` or
`fetch_sub`, and the fields of the pointer.  What the source does under a mutex is a
section, that is one action, and so is the snapshot that `Broadcast` takes;
`Prog.inParts` takes the sections apart as well.
-/

namespace ServerStudy

/-! ## data -/

/-- The fields of `SessionManager`, with the sessions that its pool owns. -/
structure SessionManager (N : Nat) where
  sessionPool_ : Pool N SessionState.kCnt
  session : FixedArray N Session
  sessionPtrs_ : FixedArray N SharedPoolPtr

/-- `SessionManager::SessionManager`. -/
def SessionManager.new (N : Nat) : SessionManager N where
  sessionPool_ := .new N SessionState.kCnt
  session _ := {}
  sessionPtrs_ _ := .null

namespace Session

/-- One of the three `OverlappedEx`. -/
def ov (s : Session) : Ov → OverlappedEx
  | .read => s.readOv_
  | .write => s.writeOv_
  | .disconnect => s.disconnectOv_

/-- Replace one of them. -/
def setOv (s : Session) (x : OverlappedEx) : Ov → Session
  | .read => { s with readOv_ := x }
  | .write => { s with writeOv_ := x }
  | .disconnect => { s with disconnectOv_ := x }

@[simp] theorem ov_setOv (s : Session) (x : OverlappedEx) (i : Ov) : (s.setOv x i).ov i = x := by
  cases i <;> rfl

theorem ov_setOv_ne (s : Session) (x : OverlappedEx) {i j : Ov} (h : j ≠ i) :
    (s.setOv x i).ov j = s.ov j := by
  cases i <;> cases j <;> first | rfl | exact absurd rfl h

/-- One of them, within a session. -/
def ovLens (i : Ov) : Lens Session OverlappedEx where
  get s := s.ov i
  set x s := s.setOv x i
  get_set x s := s.ov_setOv x i

end Session

/-- `OverlappedEx::sessionPtr_`. -/
def OverlappedEx.sessionPtr : Lens OverlappedEx SharedPoolPtr where
  get ov := ov.sessionPtr_
  set p ov := { ov with sessionPtr_ := p }
  get_set _ _ := rfl

/-- A `SessionManager` within a state, and the kernel's side of its sessions. -/
structure ServerPort (σ : Type) (Q : Type → Type) (N : Nat) where
  manager : Lens σ (SessionManager N)
  /-- `postReleaseFunc_` of the pool -/
  postRelease : Prog σ Q Fault Unit
  /-- the deleter, for a last release within a deleter: alone there is none -/
  nested : Nat → Prog σ Q Fault Unit := fun _ => Prog.fault .endless
  wsaRecv : Fin N → WsaBuf → Prog σ Q Fault WsaResult
  wsaSend : Fin N → WsaBuf → Prog σ Q Fault WsaResult
  disconnectEx : Fin N → Prog σ Q Fault BoolResult
  acceptEx : Fin N → Prog σ Q Fault BoolResult
  setsockopt : Fin N → Prog σ Q Fault Int

namespace SessionManager

variable {σ : Type} {Q : Type → Type} {N : Nat} (P : ServerPort σ Q N)

/-! ## parts -/

/-- `sessionPool_`. -/
def poolLens : Lens σ (Pool N SessionState.kCnt) :=
  P.manager.comp ⟨fun m => m.sessionPool_, fun p m => { m with sessionPool_ := p }, fun _ _ => rfl⟩

/-- The session in a slot. -/
def sessionLens (w : Fin N) : Lens σ Session :=
  (P.manager.comp ⟨fun m => m.session, fun s m => { m with session := s }, fun _ _ => rfl⟩).comp
    (.element w)

/-- `sessionPtrs_[w]`. -/
def ptrLens (w : Fin N) : Lens σ SharedPoolPtr :=
  (P.manager.comp ⟨fun m => m.sessionPtrs_, fun s m => { m with sessionPtrs_ := s },
    fun _ _ => rfl⟩).comp (.element w)

/-- `sessionPtr_` of one of a session's three `OverlappedEx`. -/
def ovPtrLens (w : Fin N) (i : Ov) : Lens σ SharedPoolPtr :=
  ((sessionLens P w).comp (Session.ovLens i)).comp OverlappedEx.sessionPtr

/-- The slot a handle points to. -/
def slot (handle : UInt64) : Prog σ Q Fault (Fin N) :=
  Prog.lift (if h : (whoOf handle).toNat < N then .ok ⟨_, h⟩ else .error (.outOfRange .sessions))

/-! ## the pool -/

/-- The pool as the deleter sees it: the slot is not counted any more, so
`sessionPtr_.Reset()` has nothing to release, unless other threads come in between. -/
def innerPool : PoolPort σ Q N SessionState.kCnt where
  pool := poolLens P
  deleter := P.nested
  postRelease := P.postRelease

/-- `OverlappedEx::Reset` on one of a session's three. -/
def resetOv (w : Fin N) (i : Ov) : Prog σ Q Fault Unit := do
  ((sessionLens P w).comp (Session.ovLens i)).modify OverlappedEx.reset
  let _ ← SharedPoolPtr.reset (innerPool P) (ovPtrLens P w i)

/-- `sessionPool_.Release(idx)`: the deleter given by `SessionManager::SessionManager`. -/
def deleter (idx : Nat) : Prog σ Q Fault Unit := do
  let w ← Prog.lift (if h : idx < N then .ok ⟨idx, h⟩ else .error (.outOfRange .sessions))
  resetOv P w .read
  resetOv P w .write
  (sessionLens P w).modify fun s => { s with isSending_ := false }
  (sessionLens P w).modify fun s => { s with handle_ := kInvalidHandle }

/-- `sessionPool_`. -/
def pool : PoolPort σ Q N SessionState.kCnt where
  pool := poolLens P
  deleter := deleter P
  postRelease := P.postRelease

/-! ## pointers -/

/-- Copy a `SharedPoolPtr` that lies somewhere. -/
def copyOf (p : Lens σ SharedPoolPtr) : Prog σ Q Fault SharedPoolPtr := do
  SharedPoolPtr.copy (pool P) (← p.read id)

/-- `operator=(const SharedPoolPtr&)` from a local pointer. -/
def copyAssign (this : Lens σ SharedPoolPtr) (p : SharedPoolPtr) : Prog σ Q Fault Unit := do
  let current ← this.read id
  this.modify fun _ => p
  if p.pool_ then
    let _ ← SparsePool.addRef (pool P) p.handle_
  if current.pool_ then
    let _ ← SparsePool.releaseRef (pool P) current.handle_

/-- Assign a temporary to a `SharedPoolPtr`. -/
def assign (this : Lens σ SharedPoolPtr) (p : SharedPoolPtr) : Prog σ Q Fault Unit :=
  SharedPoolPtr.moveAssignTemp (pool P) this p

/-- `Reset` of a `SharedPoolPtr`. -/
def reset (this : Lens σ SharedPoolPtr) : Prog σ Q Fault Unit := do
  let _ ← SharedPoolPtr.reset (pool P) this

/-- The end of a local `SharedPoolPtr`'s life. -/
def destroy (p : SharedPoolPtr) : Prog σ Q Fault Unit :=
  SharedPoolPtr.destroy (pool P) p

/-- `SharedPoolPtr::operator->`, with what becomes of a null pointer.  `Get` checks
the handle, and `GetObj` checks it again. -/
def derefOr (null : Prog σ Q Fault (Fin N)) (p : SharedPoolPtr) : Prog σ Q Fault (Fin N) := do
  if !(← SharedPoolPtr.isValid (pool P) p) then
    null
  else if !(← SparsePool.isValid (pool P) p.handle_) then
    null
  else
    slot p.handle_

/-- The session that a pointer leads to. -/
def deref (p : SharedPoolPtr) : Prog σ Q Fault (Fin N) := derefOr P (Prog.fault .nullPointer) p

/-! ## methods -/

/-- `SessionManager::CreateSession`. -/
def createSession : Prog σ Q Fault SharedPoolPtr := do
  let sessionPtr ← SparsePool.acquire (pool P) SessionState.kPending.toNat
  if !(← SharedPoolPtr.isValid (pool P) sessionPtr) then
    return .null
  let handle := sessionPtr.handle_
  (sessionLens P (← deref P sessionPtr)).modify fun s => { s with sessionManager_ := true }
  (sessionLens P (← deref P sessionPtr)).modify fun s => { s with handle_ := handle }
  let idx ← slot handle
  assign P (ptrLens P idx) sessionPtr
  copyOf P (ptrLens P idx)

/-- `SessionManager::ConnectSession`. -/
def connectSession (handle : UInt64) : Prog σ Q Fault Bool :=
  SparsePool.moveToState (pool P) handle SessionState.kConnected.toNat

/-- `SessionManager::DisconnectSession`. -/
def disconnectSession (handle : UInt64) : Prog σ Q Fault Unit := do
  if !(← SparsePool.isValid (pool P) handle) then
    return
  let idx ← slot handle
  reset P (ptrLens P idx)

/-- `SessionManager::GetSession`. -/
def getSession (handle : UInt64) : Prog σ Q Fault SharedPoolPtr := do
  if !(← SparsePool.isValid (pool P) handle) then
    return .null
  let idx ← slot handle
  copyOf P (ptrLens P idx)

/-- `SessionManager::GetState`. -/
def getState (handle : UInt64) : Prog σ Q Fault (Option Nat) :=
  SparsePool.getState (pool P) handle

/-- `SessionManager::SetState`. -/
def setState (handle : UInt64) (newState : SessionState) : Prog σ Q Fault Bool :=
  SparsePool.moveToState (pool P) handle newState.toNat

/-- A turn of `Broadcast`, for a handle to send to; `follow` is `sessionPtrs_[idx]->`
and `send` is `SendPacket`. -/
def sendBy (follow : Fin N → Prog σ Q Fault (Fin N)) (send : Fin N → Prog σ Q Fault Bool)
    (handle : UInt64) : Prog σ Q Fault Unit := do
  let idx ← slot handle
  if ← SharedPoolPtr.isValid (pool P) (← (ptrLens P idx).read id) then
    let _ ← send (← follow idx)

/-- The turn as it is. -/
def sendTo (send : UInt64 → Fin N → Prog σ Q Fault Bool) (handle : UInt64) :
    Prog σ Q Fault Unit :=
  sendBy P (fun idx => do deref P (← (ptrLens P idx).read id)) (send handle) handle

/-- The loop of `Broadcast`. -/
def broadcastLoop (turn : UInt64 → Prog σ Q Fault Unit) (sessionHandle : UInt64) :
    List UInt64 → Prog σ Q Fault Bool
  | [] => return true
  | handle :: handles => do
    if handle ≠ sessionHandle then
      turn handle
    broadcastLoop turn sessionHandle handles

/-- `SessionManager::Broadcast`. -/
def broadcast (send : UInt64 → Fin N → Prog σ Q Fault Bool) (sessionHandle : UInt64) :
    Prog σ Q Fault Bool := do
  let handles ← SparsePool.getIndicesInState (pool P) SessionState.kConnected.toNat
  broadcastLoop (sendTo P send) sessionHandle handles

/-! ## the sessions -/

/-- `*sessionManager_` of a session. -/
def managerOf (w : Fin N) : Prog σ Q Fault Unit :=
  (sessionLens P w).view fun s => if s.sessionManager_ then .ok () else .error .nullPointer

/-- The session in a slot, with a given `PacketHandler::Execute`. -/
def sessionPort (execute : Nat → Prog σ Q Fault Bool) (w : Fin N) : SessionPort σ Q where
  self := sessionLens P w
  assignSessionPtr i handle := do
    managerOf P w
    assign P (ovPtrLens P w i) (← getSession P handle)
  resetSessionPtr i := reset P (ovPtrLens P w i)
  getState handle := do
    managerOf P w
    getState P handle
  setState handle newState := do
    managerOf P w
    setState P handle newState
  connectSession handle := do
    managerOf P w
    connectSession P handle
  disconnectSession handle := do
    managerOf P w
    disconnectSession P handle
  execute := execute
  wsaRecv := P.wsaRecv w
  wsaSend := P.wsaSend w
  disconnectEx := do
    let r ← P.disconnectEx w
    return (r.toBOOL, r.errorCode)

/-- `SendPacket` on the session in a slot; it executes nothing. -/
def sendPacket (packet : List UInt8) (w : Fin N) : Prog σ Q Fault Bool :=
  Session.sendPacket (sessionPort P (fun _ => Prog.fault .emptyFunction) w) packet

/-- `PacketHandler::Execute` of the session in a slot, whose handlers send
packets by `send`. -/
def execute (send : List UInt8 → UInt64 → Fin N → Prog σ Q Fault Bool) (w : Fin N) :
    Nat → Prog σ Q Fault Bool :=
  let relay := fun packet sessionHandle => do
    managerOf P w
    broadcast P (send packet) sessionHandle
  PacketHandler.execute (sessionLens P w) (PacketHandler.handlers
    (PacketHandler.handleC2SMove (sessionLens P w) relay)
    (PacketHandler.handleC2SChat (sessionLens P w) relay))

end SessionManager

end ServerStudy
