import ServerStudy.Session

/-!
# ServerStudy.IocpCore

What a completion makes a session do: the `switch` of `IocpCore::Dispatch`
(`Network/Server/IocpCore.cpp`) and `Listener::HandleAccept`
(`Network/Server/Listener.cpp`).

Both reach the session through a `SharedPoolPtr`, so each of their calls begins
with `operator->`; `session` is that operator, and `P` the session it leads to.
-/

namespace ServerStudy

variable {σ : Type} {Q : Type → Type} {ι : Type} (session : Prog σ Q Fault ι)
  (P : ι → SessionPort σ Q)

/-- `Listener::HandleAccept`, with a given `Session::Connect`. -/
def Listener.handleAcceptBy (connect : ι → Prog σ Q Fault Bool)
    (setsockopt : ι → Prog σ Q Fault Int) : Prog σ Q Fault Bool := do
  if (← setsockopt (← session)) = SOCKET_ERROR then
    return false
  if (← setsockopt (← session)) = SOCKET_ERROR then
    return false
  if !(← connect (← session)) then
    return false
  return true

/-- `Listener::HandleAccept`. -/
def Listener.handleAccept (setsockopt : ι → Prog σ Q Fault Int) : Prog σ Q Fault Bool :=
  Listener.handleAcceptBy session (fun w => Session.connect (P w)) setsockopt

/-- The `switch` of `IocpCore::Dispatch`; `handleAccept` is the call of
`HandleAccept` on the session's listener. -/
def IocpCore.dispatchBy (handleAccept : Prog σ Q Fault Bool) (ioType : IoType)
    (bytesTransferred : Nat) : Prog σ Q Fault Unit :=
  match ioType with
  | .kAccept => do
    if !(← handleAccept) then
      let _ ← Session.disconnect (P (← session))
  | .kDisconnect => do
    let _ ← Session.clear (P (← session))
  | .kRecv | .kSend => do
    if bytesTransferred = 0 then
      let _ ← Session.disconnect (P (← session))
      return
    if !(← Session.handleIO (P (← session)) ioType bytesTransferred) then
      let _ ← Session.disconnect (P (← session))
  | .kNone => do
    let _ ← Session.disconnect (P (← session))

end ServerStudy
