import ServerStudy.SessionManager

/-!
# ServerStudy.Server

The code that runs the sessions: `Listener::PostAccept` less its counter, and
`HandleError`, `Dispatch` and `WorkerThread` of `IocpCore`, for one completion.

Like the methods of `SessionManager` they are programs over any state with the
manager in it; `execute` is `PacketHandler::Execute` of the session in a slot.
A turn of `PostAccept` comes in two parts, `CreateSession` and the rest; how
many turns are made is the counter's business, which `ServerStudy.Listener` is
about.
-/

namespace ServerStudy

namespace Server

open SessionManager

variable {σ : Type} {Q : Type → Type} {N : Nat} (P : ServerPort σ Q N)
  (execute : Fin N → Nat → Prog σ Q Fault Bool)

/-! ## sessions -/

/-- `SendPacket` as `Broadcast` calls it. -/
def send (packet : List UInt8) (_handle : UInt64) (w : Fin N) : Prog σ Q Fault Bool :=
  sendPacket P packet w

/-- The session in a slot. -/
def session (w : Fin N) : SessionPort σ Q := sessionPort P (execute w) w

/-- One of a session's three `OverlappedEx`, as a part of the state. -/
def ovLens (w : Fin N) (i : Ov) : Lens σ OverlappedEx :=
  (sessionLens P w).comp (Session.ovLens i)

/-! ## accepting -/

/-- `Listener::RegisterAccept`. -/
def registerAccept (sessionPtr : SharedPoolPtr) : Prog σ Q Fault Bool := do
  (ovLens P (← deref P sessionPtr) .read).modify fun ov =>
    { ov with ioType_ := .kAccept }
  (ovLens P (← deref P sessionPtr) .read).modify fun ov =>
    { ov with wsaBuf_ := ⟨0, toULong OverlappedEx.getSize⟩ }
  copyAssign P (ovPtrLens P (← deref P sessionPtr) .read) sessionPtr
  let result ← P.acceptEx (← deref P sessionPtr)
  return Listener.registerAccept result

/-- `Session::SetListener`. -/
def setListener (w : Fin N) : Prog σ Q Fault Unit :=
  (sessionLens P w).modify fun s => { s with listener_ := true }

/-- The rest of a turn of `PostAccept`, with what `CreateSession` returned;
`false` is its `return false`.  `setListener` is `SetListener`. -/
def postAccept (setListener : Fin N → Prog σ Q Fault Unit) (sessionPtr : SharedPoolPtr) :
    Prog σ Q Fault Bool := do
  if !(← SharedPoolPtr.isValid (pool P) sessionPtr) then
    return false
  if !(← registerAccept P sessionPtr) then
    let _ ← Session.disconnect (session P execute (← deref P sessionPtr))
    destroy P sessionPtr
    return false
  setListener (← deref P sessionPtr)
  destroy P sessionPtr
  return true

/-! ## completions -/

/-- `sessionPtr->GetListener()`, which is then called. -/
def getListener (sessionPtr : SharedPoolPtr) : Prog σ Q Fault Unit := do
  (sessionLens P (← deref P sessionPtr)).view fun s =>
    if s.listener_ then .ok () else .error .noListener

/-- `IocpCore::HandleError`. -/
def handleError (w : Fin N) (i : Ov) : Prog σ Q Fault Unit := do
  let sessionPtr ← copyOf P (ovPtrLens P w i)
  if (← (ovLens P w i).read OverlappedEx.ioType_) = .kDisconnect then
    let _ ← Session.clear (session P execute (← deref P sessionPtr))
  else
    reset P (ovPtrLens P w i)
    let _ ← Session.disconnect (session P execute (← deref P sessionPtr))
  destroy P sessionPtr

/-- `IocpCore::Dispatch`. -/
def dispatch (w : Fin N) (i : Ov) (bytesTransferred : Nat) : Prog σ Q Fault Unit := do
  let sessionPtr ← copyOf P (ovPtrLens P w i)
  reset P (ovPtrLens P w i)
  let arrow := deref P sessionPtr
  IocpCore.dispatchBy arrow (session P execute)
    (do
      getListener P sessionPtr
      Listener.handleAccept arrow (session P execute) P.setsockopt)
    (← (ovLens P w i).read OverlappedEx.ioType_) bytesTransferred
  destroy P sessionPtr

/-- A turn of `IocpCore::WorkerThread`, from the completion it dequeued on: its
`OverlappedEx`, and the result and the bytes of `GetQueuedCompletionStatus`.
`accepting` is `DecrementPendingAccepts`. -/
def workerThread (accepting : Fin N → Prog σ Q Fault Unit) (w : Fin N) (i : Ov) (result : Bool)
    (bytesTransferred : Nat) : Prog σ Q Fault Unit := do
  let sessionPtr ← copyOf P (ovPtrLens P w i)
  if (← (ovLens P w i).read OverlappedEx.ioType_) = .kAccept then
    getListener P sessionPtr
    accepting w
  if result then
    dispatch P execute w i bytesTransferred
  else
    handleError P execute w i
  destroy P sessionPtr

end Server

end ServerStudy
