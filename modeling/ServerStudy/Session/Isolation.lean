import Mathlib.Data.Multiset.Count
import Mathlib.Data.Multiset.Filter
import ServerStudy.IocpCore
import ServerStudy.PacketHandler
import ServerStudy.Session.Apart
import ServerStudy.Session.Reader

/-!
# ServerStudy.Session.Isolation

What the packets of other clients do to a session.

One session is shared, from its accept on: other clients' packets go through
`OnRead`, the packet handlers and `Broadcast` to its `SendPacket`, and workers
deal with its own completions meanwhile, action by action.  Every thread has
another client's session to itself.

Here are the model and what the threads keep; `ServerStudy.Session.Isolation.Completions`
and `ServerStudy.Session.Isolation.Packets` are about what they do, and
`ServerStudy.Session.Isolation.Runs` is about every run.
-/

namespace ServerStudy

namespace Isolation

/-! ## a session and its neighbours -/

/-- The calls that leave the shared session. -/
inductive Call : Type → Type where
  /-- whether `Broadcast` gets to the session: its handle was listed, its pointer is valid -/
  | reaches : Call Bool
  /-- whether `Broadcast` finds the pointers of other sessions as it has checked them -/
  | finds : Call Bool
  /-- the session's own packet is executed -/
  | handle (off : Nat) : Call Bool
  | setsockopt : Call Int
  | wsaRecv (wsaBuf : WsaBuf) : Call WsaResult
  /-- on behalf of a `Broadcast`, or of the session itself -/
  | wsaSend (relayed : Bool) (wsaBuf : WsaBuf) : Call WsaResult
  | disconnectEx : Call (Int × Nat)

/-- The calls of a client's own session, and those of the shared one. -/
abbrev Calls (β : Type) : Type := SessionCall β ⊕ Call β

/-- How far the session's receives are. -/
inductive Receive where
  /-- none was posted -/
  | unposted
  /-- one is outstanding -/
  | posted
  /-- one has completed, and its bytes are being handled -/
  | handling
  deriving DecidableEq

/-- A `SendPacket` on the session, and what it found. -/
structure Request where
  /-- the header of the packet that is relayed, or none for the welcome packet -/
  cause : Option PacketHeader
  /-- the size of what is to be sent -/
  size : Nat
  /-- whether the session was sending -/
  sending : Bool
  /-- how many bytes were waiting -/
  waiting : Nat

/-- A header in another client's buffer that `Execute` was called on. -/
structure Executed where
  header : PacketHeader
  off : Nat

/-- A session, the state of its slot, and its operations: the accept, the
receive, the lengths of the `WSASend`s outstanding; and a history. -/
structure Neighbour where
  session : Session
  state : SessionState
  accepting : Bool
  receive : Receive
  outstanding : List Nat
  /-- how many receives have completed -/
  heard : Nat
  requests : List Request
  /-- what other clients had executed -/
  executed : List Executed
  /-- how often a `Broadcast` followed another session's pointer that was reset since its check -/
  lost : Nat

/-- Another client's session, and whether a receive is outstanding on it. -/
structure Other where
  session : Session
  receiving : Bool

/-- The session within the state of a thread. -/
def self : Lens (Neighbour × Other) Session where
  get s := s.1.session
  set session s := ({ s.1 with session }, s.2)
  get_set _ _ := rfl

/-- The thread's own session. -/
def own : Lens (Neighbour × Other) Session where
  get s := s.2.session
  set session s := (s.1, { s.2 with session })
  get_set _ _ := rfl

/-- The state of the slot. -/
def stateLens : Lens (Neighbour × Other) SessionState where
  get s := s.1.state
  set state s := ({ s.1 with state }, s.2)
  get_set _ _ := rfl

/-- `WSARecv`: the next receive is outstanding. -/
def wsaRecv (wsaBuf : WsaBuf) : Prog (Neighbour × Other) Calls Fault WsaResult := do
  let result ← Prog.query (.inr (.wsaRecv wsaBuf))
  if result.posted then
    Prog.modify fun s => ({ s.1 with receive := .posted }, s.2)
  return result

/-- `WSASend`: the kernel takes note of an operation it accepts. -/
def wsaSend (relayed : Bool) (wsaBuf : WsaBuf) :
    Prog (Neighbour × Other) Calls Fault WsaResult := do
  let result ← Prog.query (.inr (.wsaSend relayed wsaBuf))
  if result.posted then
    Prog.modify fun s => ({ s.1 with outstanding := s.1.outstanding ++ [wsaBuf.len] }, s.2)
  return result

/-- The session in its slot.  A handler's `Broadcast` passes over the session it
handles a packet of. -/
def port (relayed : Bool) : SessionPort (Neighbour × Other) Calls where
  self := self
  assignSessionPtr _ _ := .done ()
  resetSessionPtr _ := .done ()
  getState _ := stateLens.read fun state => some state.toNat
  setState _ newState := do
    stateLens.modify fun _ => newState
    return true
  connectSession _ := do
    stateLens.modify fun _ => .kConnected
    return true
  disconnectSession _ := .done ()
  execute off := Prog.query (.inr (.handle off))
  wsaRecv := wsaRecv
  wsaSend := wsaSend relayed
  disconnectEx := Prog.query (.inr .disconnectEx)

theorem port_apart (relayed : Bool) : (port relayed).Apart stateLens :=
  ⟨fun _ _ => rfl, fun _ => rfl, fun _ => rfl, fun _ _ => rfl, fun _ => rfl⟩

/-- A `SendPacket` is noted. -/
def Neighbour.note (cause : Option PacketHeader) (packet : List UInt8) (s : Neighbour) :
    Neighbour :=
  { s with
    requests := ⟨cause, packets.size packet, s.session.isSending_, s.session.writeOv_.available⟩ ::
      s.requests }

/-- `SendPacket` on the session. -/
def send (cause : Option PacketHeader) (packet : List UInt8) :
    Prog (Neighbour × Other) Calls Fault Bool := Prog.atomically do
  Prog.modify fun s => (s.1.note cause packet, s.2)
  Session.sendPacket (port cause.isSome) packet

/-! ## its own completions -/

/-- `Dispatch` of a completion of the session. -/
def dispatch (ioType : IoType) (bytesTransferred : Nat) :
    Prog (Neighbour × Other) Calls Fault Unit :=
  IocpCore.dispatchBy (Prog.done ()) (fun _ => port false)
    (Listener.handleAcceptBy (Prog.done ())
      (fun _ => Session.connectBy (port false) (send none)) fun _ => Prog.query (.inr .setsockopt))
    ioType bytesTransferred

/-- A worker dequeues the completion of the accept. -/
def dequeueAccept : Prog (Neighbour × Other) Calls Fault Bool := Prog.update fun s =>
  if s.1.accepting then .ok (true, ({ s.1 with accepting := false }, s.2)) else .ok (false, s)

/-- A worker dequeues the completion of the receive: the kernel has written
these bytes, for which there was room. -/
def dequeueRecv (chunk : List UInt8) : Prog (Neighbour × Other) Calls Fault Bool :=
  Prog.update fun s =>
    if s.1.receive = .posted ∧ chunk.length ≤ s.1.session.readOv_.wsaBuf_.len then
      .ok (true, ({ s.1 with
        session.readOv_.buffer_ := s.1.session.readOv_.buffer_.write
          s.1.session.readOv_.wsaBuf_.buf chunk
        receive := .handling
        heard := s.1.heard + 1 }, s.2))
    else .ok (false, s)

/-- A worker dequeues the completion of the `i`th `WSASend`: some of its bytes
were sent, if it has any. -/
def dequeueSend (i n : Nat) : Prog (Neighbour × Other) Calls Fault Bool := Prog.update fun s =>
  match s.1.outstanding[i]? with
  | some len =>
    if n ≤ len ∧ (0 < len → 0 < n) then
      .ok (true, ({ s.1 with outstanding := s.1.outstanding.eraseIdx i }, s.2))
    else .ok (false, s)
  | none => .ok (false, s)

/-! ## the others' packets -/

/-- `Broadcast` at other sessions: a pointer that was reset since its check is noted, and
followed. -/
def pass : Prog (Neighbour × Other) Calls Fault Unit := do
  if !(← Prog.query (.inr .finds)) then
    Prog.modify fun s => ({ s.1 with lost := s.1.lost + 1 }, s.2)
    Prog.fault .nullPointer

/-- `Broadcast`: some sessions are before this one, and some after it. -/
def relay (header : PacketHeader) (packet : List UInt8) (_sessionHandle : UInt64) :
    Prog (Neighbour × Other) Calls Fault Bool := do
  pass
  if ← Prog.query (.inr .reaches) then
    let _ ← send (some header) packet
  pass
  return true

/-- `Execute` on a packet of the client, which is noted first. -/
def execute (off : Nat) : Prog (Neighbour × Other) Calls Fault Bool := do
  let header ← own.view fun s => (s.readOv_.load off PacketHeader.sizeOf).map PacketHeader.ofBytes
  Prog.modify fun s => ({ s.1 with executed := ⟨header, off⟩ :: s.1.executed }, s.2)
  PacketHandler.execute own (PacketHandler.handlers
    (PacketHandler.handleC2SMove own (relay header))
    (PacketHandler.handleC2SChat own (relay header))) off

/-- `WSARecv` on the client's session. -/
def wsaRecvOwn (wsaBuf : WsaBuf) : Prog (Neighbour × Other) Calls Fault WsaResult := do
  let result ← Prog.query (.inl (.wsaRecv wsaBuf))
  if result.posted then
    Prog.modify fun s => (s.1, { s.2 with receiving := true })
  return result

/-- The client's own session: all its calls but those of the packet handlers are questions. -/
def ownPort : SessionPort (Neighbour × Other) Calls where
  self := own
  assignSessionPtr _ _ := .done ()
  resetSessionPtr _ := .done ()
  getState handle := Prog.query (.inl (.getState handle))
  setState handle newState := Prog.query (.inl (.setState handle newState))
  connectSession handle := Prog.query (.inl (.connectSession handle))
  disconnectSession handle := Prog.query (.inl (.disconnectSession handle))
  execute := execute
  wsaRecv := wsaRecvOwn
  wsaSend wsaBuf := Prog.query (.inl (.wsaSend wsaBuf))
  disconnectEx := Prog.query (.inl .disconnectEx)

/-- `Dispatch` of a receive of the client. -/
def dispatchOwn (bytesTransferred : Nat) : Prog (Neighbour × Other) Calls Fault Unit :=
  IocpCore.dispatchBy (Prog.done ()) (fun _ => ownPort) (Prog.fault .emptyFunction) .kRecv
    bytesTransferred

/-- A worker dequeues the completion of a receive of the client: the kernel has written
these bytes. -/
def dequeueOwn (chunk : List UInt8) : Prog (Neighbour × Other) Calls Fault Unit :=
  Prog.modify fun s => (s.1, { s.2 with
    session.readOv_.buffer_ := s.2.session.readOv_.buffer_.write
      s.2.session.readOv_.wsaBuf_.buf chunk
    receiving := false })

/-- What a thread does. -/
inductive Op where
  /-- `Dispatch` of the session's accept -/
  | accept
  /-- `Dispatch` of the session's `i`th send, of `n` bytes -/
  | sent (i n : Nat)
  /-- `Dispatch` of bytes that the session itself has sent -/
  | heard (chunk : List UInt8)
  /-- `Dispatch` of bytes that the thread's client has sent -/
  | recv (chunk : List UInt8)

/-- The code of it. -/
def prog : Op → Prog (Neighbour × Other) Calls Fault Unit
  | .accept => do
    if ← dequeueAccept then
      dispatch .kAccept 0
  | .sent i n => do
    if ← dequeueSend i n then
      dispatch .kSend n
  | .heard chunk => do
    if ← dequeueRecv chunk then
      dispatch .kRecv chunk.length
  | .recv chunk => do
    dequeueOwn chunk
    dispatchOwn chunk.length

/-- The threads: each has a client's session. -/
abbrev client : Client Neighbour Other Calls Fault where
  Op := Op
  Reg := Other
  can op l := ∀ chunk, op = .recv chunk →
    l.receiving = true ∧ chunk.length ≤ l.session.readOv_.wsaBuf_.len
  enter _ l := l
  prog := prog
  leave _ _ reg := reg

/-- The session's own calls succeed; a `WSASend` of a `Broadcast` may fail. -/
def successful : Answers (Neighbour × Other) Calls
  | _, _, .inr .setsockopt, result => result ≠ SOCKET_ERROR
  | _, _, .inr (.wsaRecv _), result => result.posted = true
  | _, _, .inr (.wsaSend relayed _), result => relayed = false → result.posted = true
  | _, _, _, _ => True

/-- A `kChat` whose size is 8 short of `2 ^ 16`: the relayed size is 0. -/
def LongChat (header : PacketHeader) : Prop :=
  header.id.toNat = C2SPacketId.kChat.toNat ∧ header.size.toNat + 8 = 65536

/-- Not a long chat for an idle session, and not a welcome packet without room. -/
def Request.Harmless (e : Request) : Prop :=
  match e.cause with
  | some header => LongChat header → e.sending = true
  | none => e.waiting + e.size ≤ OverlappedEx.getSize

/-- There is a handler for the id, and what `HandleC2S_MOVE` reads, even of a shorter packet, lies
within the two mappings of the buffer. -/
structure Executed.Proper (x : Executed) : Prop where
  registered : PacketHandler.Registered x.header.id
  mapped : x.header.id.toNat = C2SPacketId.kMove.toNat → x.off + 12 ≤ 2 * OverlappedEx.getSize

/-- Nothing harmful was asked of the session, no other client's packet is improper, and no
`Broadcast` has followed a null pointer. -/
structure Sheltered (s : Neighbour) : Prop where
  harmless : ∀ e ∈ s.requests, e.Harmless
  proper : ∀ x ∈ s.executed, x.Proper
  found : s.lost = 0

/-- As `CreateSession` and `AcceptEx` leave it. -/
structure Born (s : Neighbour) : Prop where
  state : s.state = .kPending
  accepting : s.accepting = true
  receive : s.receive = .unposted
  readPos : s.session.readOv_.readPos_ = 0
  writePos : s.session.readOv_.writePos_ = 0
  empty : s.session.writeOv_.writePos_ = s.session.writeOv_.readPos_
  low : s.session.writeOv_.readPos_ < OverlappedEx.getSize
  idle : s.session.isSending_ = false
  outstanding : s.outstanding = []
  requests : s.requests = []
  executed : s.executed = []
  found : s.lost = 0

/-- The receive that is outstanding on it is for the room there is. -/
def Other.Ready (l : Other) : Prop :=
  l.receiving = true → ∃ rest, l.session.readOv_.Awaits rest

/-- Threads that have not begun, with any clients. -/
def start {ι : Type} (s : Neighbour) (clients : ι → Other) : Config client ι :=
  ⟨s, fun t => ⟨clients t, none⟩⟩

/-! ## the discipline -/

/-- What a thread may be in charge of. -/
inductive Duty where
  /-- a completed `WSASend` of `n` bytes -/
  | completion (n : Nat)
  /-- the accept, until the session is connected -/
  | accept
  /-- the receiving side, until the next receive is posted: of a session that was just
  connected, or of one whose own bytes are `heard` -/
  | reading (heard : Bool) (ov : OverlappedEx)

/-- It is about the receiving side. -/
def Duty.opens : Duty → Bool
  | .completion _ => false
  | _ => true

/-- The completions in the hands of threads. -/
def completions (R : Multiset Duty) : Multiset Nat :=
  R.filterMap fun
    | .completion n => some n
    | _ => none

@[simp] theorem completions_zero : completions 0 = 0 := rfl

@[simp] theorem completions_add (R R' : Multiset Duty) :
    completions (R + R') = completions R + completions R' := Multiset.filterMap_add _ _ _

@[simp] theorem completions_completion (n : Nat) : completions {.completion n} = {n} := rfl

/-- A duty about the receiving side is no completion. -/
theorem completions_opens {d : Duty} (hd : d.opens = true) : completions {d} = 0 := by
  cases d with
  | completion n => cases hd
  | accept => rfl
  | reading heard ov => rfl

/-- The `WSASend`s not dealt with. -/
def due (s : Neighbour) (R : Multiset Duty) : Multiset Nat := ↑s.outstanding + completions R

/-- While the session is sending, at most one `WSASend` is not dealt with: of some of what waits. -/
abbrev Sends (s : Neighbour) (R : Multiset Duty) (waiting : List UInt8) : Prop :=
  Session.Outgoing (fun n => 0 < n) True s.session (due s R) waiting

/-- The receiving side is one thread's, or the kernel's: with the accept nothing was received
before, and with a receive there is room for it. -/
structure Receives (s : Neighbour) (R : Multiset Duty) : Prop where
  one : s.accepting.toNat + (decide (s.receive = .posted)).toNat + R.countP (·.opens) ≤ 1
  fresh : s.accepting = true ∨ .accept ∈ R → s.session.readOv_.readPos_ = 0 ∧
    s.session.readOv_.writePos_ = 0 ∧ s.state ≠ .kConnected
  reading : ∀ heard ov, .reading heard ov ∈ R → s.session.readOv_ = ov ∧
    (heard = true → s.receive = .handling)
  awaits : s.receive = .posted → ∃ rest, s.session.readOv_.Awaits rest

/-- The sending side and the receiving side. -/
def Sane (s : Neighbour) (R : Multiset Duty) : Prop := (∃ waiting, Sends s R waiting) ∧ Receives s R

/-- While none of its receives completes, and no bytes of it are being handled, a connected
session stays connected. -/
structure Keeps (s s' : Neighbour) : Prop where
  heard : s.heard ≤ s'.heard
  quiet : s'.heard = s.heard → s.receive ≠ .handling → s'.receive ≠ .handling
  connected : s.receive ≠ .handling → s.state = .kConnected → s'.state = .kConnected

theorem Keeps.same {s s' : Neighbour} (hheard : s'.heard = s.heard)
    (hreceive : s'.receive = s.receive) (hstate : s'.state = s.state) : Keeps s s' :=
  ⟨hheard.ge, fun _ h => hreceive ▸ h, fun _ h => hstate.trans h⟩

/-- Nobody takes a quiet session out of `kConnected`, and nothing faults. -/
def discipline : Discipline client Duty where
  guard := Sheltered
  bad _ := False
  inv := Sane
  idle l r := l.Ready ∧ r = 0
  held _ _ _ := True
  change s s' _ := Keeps s s'

/-- A program keeps the discipline. -/
abbrev Safely {α : Type} (p : Prog (Neighbour × Other) Calls Fault α)
    (post : α → Other → Multiset Duty → Prop) (reg : Other) (r : Multiset Duty) : Prop :=
  Safe discipline successful (fun _ => True) p post reg r

variable {α β : Type} {s s' : Neighbour} {R F r : Multiset Duty} {w : List UInt8} {reg : Other}
  {d : Duty}

/-! ## duties -/

theorem due_add (s : Neighbour) (R R' : Multiset Duty) :
    due s (R + R') = completions R + due s R' := by
  rw [due, due, completions_add, add_left_comm]

/-- A duty about the receiving side does not matter to the sending side. -/
theorem due_opens (s : Neighbour) (F : Multiset Duty) (hd : d.opens = true) :
    due s ({d} + F) = due s F := by
  rw [due_add, completions_opens hd, zero_add]

theorem countP_singleton_add (d : Duty) (F : Multiset Duty) :
    ({d} + F : Multiset Duty).countP (·.opens) = d.opens.toNat + F.countP (·.opens) := by
  rw [Multiset.singleton_add]
  cases hd : d.opens with
  | false =>
      rw [Multiset.countP_cons_of_neg (p := (·.opens)) F (by simp [hd])]
      exact (Nat.zero_add _).symm
  | true =>
      rw [Multiset.countP_cons_of_pos (p := (·.opens)) F hd]
      exact Nat.add_comm _ _

theorem not_mem_of_countP (hF : F.countP (·.opens) = 0) (hd : d.opens = true) : d ∉ F :=
  fun hmem => Multiset.countP_eq_zero.mp hF d hmem hd

theorem mem_singleton_add {d' : Duty} : d' ∈ ({d} + F : Multiset Duty) ↔ d' = d ∨ d' ∈ F := by
  rw [Multiset.mem_add, Multiset.mem_singleton]

/-- Who has the receiving side has it alone. -/
theorem Receives.alone (h : Receives s ({d} + F)) (hd : d.opens = true) :
    s.accepting = false ∧ s.receive ≠ .posted ∧ F.countP (·.opens) = 0 := by
  have hone := h.one
  rw [countP_singleton_add, hd, Bool.toNat_true] at hone
  refine ⟨Bool.toNat_eq_zero.mp (by omega), fun hposted => ?_, by omega⟩
  rw [decide_eq_true hposted, Bool.toNat_true] at hone
  omega

/-- What it takes for one thread to have the receiving side. -/
theorem receives_singleton (hF : F.countP (·.opens) = 0) (haccepting : s.accepting = false)
    (hposted : s.receive ≠ .posted)
    (hfresh : d = .accept → s.session.readOv_.readPos_ = 0 ∧ s.session.readOv_.writePos_ = 0 ∧
      s.state ≠ .kConnected)
    (hreading : ∀ heard ov, d = .reading heard ov → s.session.readOv_ = ov ∧
      (heard = true → s.receive = .handling)) : Receives s ({d} + F) := by
  refine ⟨?_, fun h => hfresh ?_, fun heard ov hmem => hreading heard ov ?_,
    fun h => absurd h hposted⟩
  · rw [countP_singleton_add, hF, haccepting, decide_eq_false hposted]
    cases d.opens <;> decide
  · rcases h with h | h
    · exact Bool.noConfusion (haccepting.symm.trans h)
    · exact ((mem_singleton_add.mp h).resolve_right (not_mem_of_countP hF rfl)).symm
  · exact ((mem_singleton_add.mp hmem).resolve_right (not_mem_of_countP hF rfl)).symm

/-- What it takes when no thread has it. -/
theorem receives_none (hF : F.countP (·.opens) = 0)
    (hone : s.accepting = true → s.receive ≠ .posted)
    (hfresh : s.accepting = true → s.session.readOv_.readPos_ = 0 ∧
      s.session.readOv_.writePos_ = 0 ∧ s.state ≠ .kConnected)
    (hawaits : s.receive = .posted → ∃ rest, s.session.readOv_.Awaits rest) :
    Receives s (0 + F) := by
  rw [zero_add]
  refine ⟨?_, fun h => hfresh ?_,
    fun heard ov hmem => absurd hmem (not_mem_of_countP hF rfl), hawaits⟩
  · rw [hF]
    cases haccepting : s.accepting with
    | false => exact Nat.add_le_add (Nat.add_le_add le_rfl (Bool.toNat_le _)) le_rfl
    | true =>
        rw [decide_eq_false (hone haccepting)]
        decide
  · exact h.resolve_right (not_mem_of_countP hF rfl)

/-- Tokens of completions are not about the receiving side. -/
theorem receives_completion {n : Nat} : Receives s ({.completion n} + F) ↔ Receives s F := by
  have hcount : ({.completion n} + F : Multiset Duty).countP (·.opens) = F.countP (·.opens) := by
    rw [countP_singleton_add]
    exact Nat.zero_add _
  have hmem : ∀ d : Duty, d.opens = true → (d ∈ ({.completion n} + F : Multiset Duty) ↔ d ∈ F) := by
    intro d hd
    rw [mem_singleton_add]
    refine or_iff_right fun he => ?_
    subst he
    cases hd
  constructor
  · intro h
    exact ⟨hcount ▸ h.one, fun ha => h.fresh (ha.imp_right (hmem _ rfl).mpr),
      fun heard ov ho => h.reading heard ov ((hmem _ rfl).mpr ho), h.awaits⟩
  · intro h
    exact ⟨hcount.symm ▸ h.one, fun ha => h.fresh (ha.imp_right (hmem _ rfl).mp),
      fun heard ov ho => h.reading heard ov ((hmem _ rfl).mp ho), h.awaits⟩

/-- It is about the receiving side alone. -/
theorem Receives.congr (h : Receives s R) (haccepting : s'.accepting = s.accepting)
    (hstate : s'.state = s.state) (hreceive : s'.receive = s.receive)
    (hov : s'.session.readOv_ = s.session.readOv_) : Receives s' R := by
  refine ⟨?_, ?_, ?_, ?_⟩
  · rw [haccepting, hreceive]
    exact h.one
  · rw [haccepting, hov, hstate]
    exact h.fresh
  · rw [hov, hreceive]
    exact h.reading
  · rw [hreceive, hov]
    exact h.awaits

/-! ## single actions -/

variable {post : β → Other → Multiset Duty → Prop}

theorem safely_read {f : Neighbour × Other → β} (hpost : ∀ b, post b reg r) :
    Safely (Prog.read f) post reg r :=
  ⟨trivial, fun _ _ _ hi _ => ⟨.same rfl rfl rfl, r, hi, trivial, hpost _⟩⟩

theorem safely_query {q : Calls β}
    (hpost : ∀ s b, successful β (s, reg) q b → post b reg r) :
    Safely (Prog.query q) post reg r :=
  ⟨trivial, fun s _ _ hi b hb => ⟨.same rfl rfl rfl, r, hi, trivial, hpost s b hb⟩⟩

/-- An action on other fields of the session. -/
theorem safely_modify {f : Session → Session} {post : Unit → Other → Multiset Duty → Prop}
    (hread : ∀ x, (f x).readOv_ = x.readOv_) (hwrite : ∀ x, (f x).writeOv_ = x.writeOv_)
    (hflag : ∀ x, (f x).isSending_ = x.isSending_) (hpost : post () reg r) :
    Safely (self.modify f) post reg r := by
  refine ⟨trivial, fun s F _ hi _ => ⟨.same rfl rfl rfl, r, ?_, trivial, hpost⟩⟩
  obtain ⟨⟨w, hw⟩, hr⟩ := hi
  exact ⟨⟨w, hw.congr (hwrite _) (hflag _)⟩, hr.congr rfl rfl rfl (hread _)⟩

/-- A thread that has the receiving side of the session has its `readOv_` to itself. -/
theorem reader_self (heard : Bool) (reg₀ : Other) :
    Session.Reader discipline successful (port false)
      (fun ov reg r => reg = reg₀ ∧ r = {.reading heard ov}) := by
  have hov : ∀ {s : Neighbour} {ov : OverlappedEx} {F : Multiset Duty},
      Sane s ({.reading heard ov} + F) → s.session.readOv_ = ov := fun hi =>
    (hi.2.reading heard _ (mem_singleton_add.mpr (.inl rfl))).1
  have hset : ∀ {s : Neighbour} {ov ov' : OverlappedEx} {F : Multiset Duty},
      Sane s ({.reading heard ov} + F) →
      Sane { s with session.readOv_ := ov' } ({.reading heard ov'} + F) := by
    rintro s ov ov' F ⟨⟨w, hw⟩, hr⟩
    obtain ⟨haccepting, hposted, hF⟩ := hr.alone rfl
    refine ⟨⟨w, ?_⟩, receives_singleton hF haccepting hposted (fun h => Duty.noConfusion h) ?_⟩
    · rw [Sends, due_opens _ _ rfl] at hw ⊢
      exact hw.congr rfl rfl
    · intro heard' ov'' he
      cases he
      exact ⟨rfl, (hr.reading heard ov (mem_singleton_add.mpr (.inl rfl))).2⟩
  refine ⟨?_, ?_, ?_, ?_⟩
  · rintro β f ov reg r ⟨rfl, rfl⟩
    exact ⟨trivial, fun s F _ hi _ => ⟨.same rfl rfl rfl, _, hi, trivial,
      ⟨s.session, hov hi, rfl⟩, rfl, rfl⟩⟩
  · rintro β f b ov reg r ⟨rfl, rfl⟩ hf
    refine ⟨trivial, fun s F _ hi => ?_⟩
    simp only [port, self, hf s.session (hov hi)]
    exact fun _ => ⟨.same rfl rfl rfl, _, hi, trivial, rfl, rfl, rfl⟩
  · rintro β f b ov ov' reg r ⟨rfl, rfl⟩ hf
    refine ⟨trivial, fun s F _ hi => ?_⟩
    simp only [port, self, hf s.session (hov hi)]
    exact fun _ => ⟨.same rfl rfl rfl, _, hset hi, trivial, rfl, rfl, rfl⟩
  · rintro f ov ov' reg r ⟨rfl, rfl⟩ hf
    refine ⟨trivial, fun s F _ hi _ => ?_⟩
    simp only [port, self, hf s.session (hov hi)]
    exact ⟨.same rfl rfl rfl, _, hset hi, trivial, rfl, rfl⟩

end Isolation

end ServerStudy
