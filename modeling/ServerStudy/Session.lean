import ServerStudy.OverlappedEx

/-!
# ServerStudy.Session

`Session` (`Network/Server/Session.cpp`): one client connection, with a ring
buffer for what it receives and one for what it sends.

The methods are programs over any state with the session in it.  What they call
outside the class is a `SessionPort`: the session manager, the packet handler,
the kernel, and the two things they do with an `OverlappedEx::sessionPtr_`.
Accesses to the fields between two calls are one action, and a section under
`writeMtx_` or `connectMtx_` is atomic.  The log lines are left out.
-/

namespace ServerStudy

/-! ## data -/

/-- `SessionState`, less its `kCnt`. -/
inductive SessionState where
  | kIdle | kPending | kConnected | kDisconnecting
  deriving DecidableEq

/-- `static_cast<size_t>` of a `SessionState`. -/
def SessionState.toNat : SessionState → Nat
  | .kIdle => 0
  | .kPending => 1
  | .kConnected => 2
  | .kDisconnecting => 3

/-- `SessionState::kCnt`. -/
def SessionState.kCnt : Nat := 4

/-- The fields of `Session`.  The socket is the kernel's, and there is one
session manager and one listener, so those two are whether they are set. -/
structure Session where
  readOv_ : OverlappedEx := {}
  writeOv_ : OverlappedEx := {}
  disconnectOv_ : OverlappedEx := {}
  handle_ : UInt64 := kInvalidHandle
  sessionManager_ : Bool := false
  listener_ : Bool := false
  isSending_ : Bool := false

/-- Which of the three `OverlappedEx` of a session. -/
inductive Ov where
  | read | write | disconnect
  deriving DecidableEq

/-- `WSA_IO_PENDING`. -/
def WSA_IO_PENDING : Nat := 997

/-- What `WSARecv` or `WSASend` returns: `0`, or `SOCKET_ERROR` and an error
code from `WSAGetLastError`. -/
inductive WsaResult where
  | ok
  | socketError (errorCode : Nat)
  deriving DecidableEq

/-- Whether the operation was posted, so that a completion will follow. -/
def WsaResult.posted : WsaResult → Bool
  | .ok => true
  | .socketError errorCode => errorCode = WSA_IO_PENDING

/-- `SOCKET_ERROR`. -/
def SOCKET_ERROR : Int := -1

/-! ## outside the class -/

/-- A session within a state, and the calls it makes. -/
structure SessionPort (σ : Type) (Q : Type → Type) where
  self : Lens σ Session
  /-- `ov.sessionPtr_ = sessionManager_->GetSession(handle)` -/
  assignSessionPtr : Ov → UInt64 → Prog σ Q Fault Unit
  /-- `ov.sessionPtr_.Reset()` -/
  resetSessionPtr : Ov → Prog σ Q Fault Unit
  /-- `sessionManager_->GetState(handle)` -/
  getState : UInt64 → Prog σ Q Fault (Option Nat)
  /-- `sessionManager_->SetState(handle, newState)` -/
  setState : UInt64 → SessionState → Prog σ Q Fault Bool
  /-- `sessionManager_->ConnectSession(handle)` -/
  connectSession : UInt64 → Prog σ Q Fault Bool
  /-- `sessionManager_->DisconnectSession(handle)` -/
  disconnectSession : UInt64 → Prog σ Q Fault Unit
  /-- `PacketHandler::Execute(*this, header)`, the header at an offset of `readOv_.buffer_` -/
  execute : Nat → Prog σ Q Fault Bool
  /-- `WSARecv` on `readOv_` -/
  wsaRecv : WsaBuf → Prog σ Q Fault WsaResult
  /-- `WSASend` on `writeOv_` -/
  wsaSend : WsaBuf → Prog σ Q Fault WsaResult
  /-- `DisconnectEx` on `disconnectOv_`: its `BOOL` and `WSAGetLastError()` -/
  disconnectEx : Prog σ Q Fault (Int × Nat)

namespace Session

variable {σ : Type} {Q : Type → Type} (P : SessionPort σ Q)

/-! ## receiving -/

/-- `Session::RegisterRead`. -/
def registerRead : Prog σ Q Fault Bool := do
  let len ← P.self.update fun s =>
    let len := toULong (add64 (sub64 OverlappedEx.getSize s.readOv_.writePos_) s.readOv_.readPos_)
    .ok (len, { s with readOv_.wsaBuf_.len := len })
  if len = 0 then
    return false
  P.self.modify fun s =>
    { s with readOv_.ioType_ := .kRecv, readOv_.wsaBuf_.buf := s.readOv_.writePos_ }
  P.assignSessionPtr .read (← P.self.read fun s => s.handle_)
  match ← P.wsaRecv (← P.self.read fun s => s.readOv_.wsaBuf_) with
  | .ok => return true
  | .socketError errorCode =>
    if errorCode = WSA_IO_PENDING then
      return true
    P.resetSessionPtr .read
    return false

/-- `*header`: the `PACKET_HEADER` at an offset of `readOv_.buffer_`. -/
def readHeader (off : Nat) : Prog σ Q Fault PacketHeader :=
  P.self.view fun s => (s.readOv_.load off PacketHeader.sizeOf).map .ofBytes

/-- The loop of `OnRead`, for at most `turns` turns; `false` is its `return
false`, `true` its `break`. -/
def parse : Nat → Prog σ Q Fault Bool
  | 0 => Prog.fault .endless
  | turns + 1 => do
    let availableData ← P.self.read fun s => s.readOv_.available
    if availableData < PacketHeader.sizeOf then
      return true
    let off ← P.self.read fun s => s.readOv_.readPos_
    let header ← readHeader P off
    if header.size.toNat < PacketHeader.sizeOf ∨ header.size.toNat ≥ OverlappedEx.getSize then
      return false
    if availableData < header.size.toNat then
      return true
    if !(← P.execute off) then
      return false
    -- `header` still points into the buffer
    let header ← readHeader P off
    P.self.modify fun s => { s with readOv_ := s.readOv_.consume header.size.toNat }
    parse turns

/-- `Session::OnRead`. -/
def onRead (bytesTransferred : Nat) : Prog σ Q Fault Bool := do
  P.self.modify fun s => { s with readOv_ := s.readOv_.produce bytesTransferred }
  -- every turn but the last takes at least a header off the available data
  let turns ← P.self.read fun s => s.readOv_.available + 1
  if !(← parse P turns) then
    return false
  P.self.modify fun s => { s with readOv_ := s.readOv_.rewind }
  if !(← registerRead P) then
    return false
  return true

/-! ## sending -/

/-- `Session::RegisterWriteInternal`. -/
def registerWriteInternal : Prog σ Q Fault Bool := do
  P.self.update fun s =>
    if s.isSending_ then
      .ok ((), { s with
        writeOv_.ioType_ := .kSend
        writeOv_.wsaBuf_ := ⟨s.writeOv_.readPos_, toULong s.writeOv_.available⟩ })
    else .error .assertion
  P.assignSessionPtr .write (← P.self.read fun s => s.handle_)
  match ← P.wsaSend (← P.self.read fun s => s.writeOv_.wsaBuf_) with
  | .ok => return true
  | .socketError errorCode =>
    if errorCode = WSA_IO_PENDING then
      return true
    P.resetSessionPtr .write
    return false

/-- `Session::OnWrite`. -/
def onWrite (bytesTransferred : Nat) : Prog σ Q Fault Bool := Prog.atomically do
  P.self.view fun s => if s.isSending_ then .ok () else .error .assertion
  P.self.modify fun s => { s with writeOv_ := (s.writeOv_.consume bytesTransferred).rewind }
  if ← P.self.read fun s => decide (s.writeOv_.readPos_ = s.writeOv_.writePos_) then
    P.self.modify fun s => { s with isSending_ := false }
    return true
  if !(← registerWriteInternal P) then
    return false
  return true

/-- The `memcpy` of `SendPacket` and the line after it: `size` bytes from the
start of an object join the end of `writeOv_`. -/
def copyIn (packet : List UInt8) (size : Nat) (s : Session) : Except Fault (Unit × Session) :=
  if packet.length < size then .error (.outOfRange .packet)
  else (s.writeOv_.store s.writeOv_.writePos_ (packet.take size)).map
    fun ov => ((), { s with writeOv_ := ov.produce size })

/-- `Session::SendPacket`, the object behind the header given as its bytes. -/
def sendPacket (packet : List UInt8) : Prog σ Q Fault Bool := Prog.atomically do
  let size := (PacketHeader.ofBytes packet).size.toNat
  if add64 (← P.self.read fun s => s.writeOv_.available) size > OverlappedEx.getSize then
    return false
  P.self.update (copyIn packet size)
  if !(← P.self.read fun s => s.isSending_) then
    P.self.modify fun s => { s with isSending_ := true }
    if !(← registerWriteInternal P) then
      return false
  return true

/-- `Session::HandleIO`. -/
def handleIO (ioType : IoType) (bytesTransferred : Nat) : Prog σ Q Fault Bool :=
  match ioType with
  | .kRecv => onRead P bytesTransferred
  | .kSend => onWrite P bytesTransferred
  | _ => return false

/-! ## connecting -/

/-- The `S2C_CHAT` that `Connect` fills in: its bytes and its size. -/
def welcomePacket (handle : UInt64) : List UInt8 :=
  let message := signedDecimal handle
  let header : PacketHeader :=
    ⟨UInt16.ofNat (PacketHeader.sizeOf + message.length + 1), S2CPacketId.kChat.toUInt16⟩
  header.bytes ++ leBytes 8 0 ++ message ++ List.replicate (kChatPacketSize - message.length) 0

/-- The section under `connectMtx_` of `Connect`. -/
def connectLocked : Prog σ Q Fault Bool := Prog.atomically do
  let handle ← P.self.read fun s => s.handle_
  if (← P.getState handle) ≠ some SessionState.kPending.toNat then
    return false
  if !(← P.connectSession handle) then
    return false
  return true

/-- `Session::Connect`, with a given `SendPacket`. -/
def connectBy (sendPacket : List UInt8 → Prog σ Q Fault Bool) : Prog σ Q Fault Bool := do
  if !(← connectLocked P) then
    return false
  let handle ← P.self.read fun s => s.handle_
  if !(← sendPacket (welcomePacket handle)) then
    return false
  if !(← registerRead P) then
    return false
  return true

/-- `Session::Connect`. -/
def connect : Prog σ Q Fault Bool := connectBy P (sendPacket P)

/-- The section under `connectMtx_` of `Disconnect`; `some b` is its `return b`. -/
def disconnectLocked : Prog σ Q Fault (Option Bool) := Prog.atomically do
  let handle ← P.self.read fun s => s.handle_
  let state ← P.getState handle
  if state = some SessionState.kPending.toNat ∨ state = some SessionState.kConnected.toNat then
    if !(← P.setState handle .kDisconnecting) then
      return some false
    return none
  else if state = some SessionState.kDisconnecting.toNat then
    return some true
  else
    return some false

/-- `Session::Disconnect`. -/
def disconnect : Prog σ Q Fault Bool := do
  match ← disconnectLocked P with
  | some result => return result
  | none =>
    P.self.modify fun s => { s with disconnectOv_.ioType_ := .kDisconnect }
    P.assignSessionPtr .disconnect (← P.self.read fun s => s.handle_)
    let (result, errorCode) ← P.disconnectEx
    if result = SOCKET_ERROR then
      if errorCode = WSA_IO_PENDING then
        return true
      return false
    return true

/-- `Session::Clear`. -/
def clear : Prog σ Q Fault Bool := do
  P.disconnectSession (← P.self.read fun s => s.handle_)
  return true

end Session

/-! ## a session on its own -/

/-- The calls of a session, as questions to its environment. -/
inductive SessionCall : Type → Type where
  | getState (handle : UInt64) : SessionCall (Option Nat)
  | setState (handle : UInt64) (newState : SessionState) : SessionCall Bool
  | connectSession (handle : UInt64) : SessionCall Bool
  | disconnectSession (handle : UInt64) : SessionCall Unit
  | handle (packet : List UInt8) : SessionCall Bool
  | wsaRecv (wsaBuf : WsaBuf) : SessionCall WsaResult
  | wsaSend (wsaBuf : WsaBuf) : SessionCall WsaResult
  | disconnectEx : SessionCall (Int × Nat)

/-- A session whose calls are all questions.  What `sessionPtr_` holds on to is
the pool's business and left out. -/
def SessionPort.alone {σ : Type} (self : Lens σ Session)
    (execute : Nat → Prog σ SessionCall Fault Bool) : SessionPort σ SessionCall where
  self := self
  assignSessionPtr _ _ := .done ()
  resetSessionPtr _ := .done ()
  getState handle := Prog.query (.getState handle)
  setState handle newState := Prog.query (.setState handle newState)
  connectSession handle := Prog.query (.connectSession handle)
  disconnectSession handle := Prog.query (.disconnectSession handle)
  execute := execute
  wsaRecv wsaBuf := Prog.query (.wsaRecv wsaBuf)
  wsaSend wsaBuf := Prog.query (.wsaSend wsaBuf)
  disconnectEx := Prog.query .disconnectEx

end ServerStudy
