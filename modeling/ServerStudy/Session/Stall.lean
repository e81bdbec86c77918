import Mathlib.Data.Multiset.Filter
import ServerStudy.IocpCore
import ServerStudy.Listener
import ServerStudy.Session.Apart
import ServerStudy.Threads.Play

/-!
# ServerStudy.Session.Stall

The sending side of the session in one slot, from the first `CreateSession` on and
through all its occupancies, under any interleaving of the threads that work on it:
`PostAccept`, `Dispatch` and `HandleError` of its completions, the last release with
the deleter and `Push`, and the `SendPacket` that `Broadcast` makes on behalf of other
sessions, whose result it ignores.  A section under `writeMtx_` is one action; the
deleter, which does not take that lock, goes statement by statement.

* `no_stall` — as long as no such `SendPacket` fails to post its `WSASend`, or comes
  in while the slot changes hands, a connected session is sending exactly when one
  `WSASend` is outstanding;
* `broadcast_stalls` — one that fails leaves the session connected, with unsent bytes
  and nothing outstanding;
* `late_broadcast_stalls` — and so does one that comes in after the deleter has
  cleared `isSending_`: the slot's next session never sends.
-/

namespace ServerStudy

/-! ## one slot and its threads -/

/-- The calls that leave the session. -/
inductive LifeCall : Type → Type where
  | setsockopt : LifeCall Int
  | handle (off : Nat) : LifeCall Bool
  | acceptEx : LifeCall BoolResult
  | wsaRecv (wsaBuf : WsaBuf) : LifeCall WsaResult
  | wsaSend (wsaBuf : WsaBuf) : LifeCall WsaResult
  | disconnectEx : LifeCall BoolResult
  /-- nobody answers this: a `Broadcast` calls `SendPacket` now -/
  | sendPacket : LifeCall Unit

/-- A slot of the pool, and the operations on its session.  An operation outstanding,
or completed and not dequeued, has a pointer in its `OverlappedEx`. -/
structure Life where
  session : Session
  state : SessionState
  refCount_ : Nat
  /-- whether `sessionPtrs_[idx]` is set -/
  entry : Bool
  /-- the accepts, receives and disconnects outstanding -/
  posted : List IoType
  /-- the `WSASend`s outstanding, by their lengths -/
  outstanding : List Nat

/-- What a thread does with the session. -/
inductive LifeOp where
  /-- a turn of `PostAccept` that finds the slot, with this handle -/
  | postAccept (handle : UInt64)
  /-- `SendPacket` of these bytes by a `Broadcast` -/
  | broadcast (packet : List UInt8)
  /-- `Dispatch` of an accept -/
  | accept
  /-- `Dispatch` of a receive of `n` bytes -/
  | recv (n : Nat)
  /-- `Dispatch` of a disconnect -/
  | disconnect
  /-- `HandleError` of one of these -/
  | failed (ioType : IoType)
  /-- `Dispatch` of the `i`th send, of `n` bytes -/
  | send (i n : Nat)
  /-- `HandleError` of the `i`th send -/
  | sendFailed (i : Nat)

/-- Whether it is done for another session. -/
def LifeOp.isBroadcast : LifeOp → Bool
  | .broadcast _ => true
  | _ => false

namespace Life

/-- The session within the state of a thread; the register says whether the
operation is a `Broadcast`'s. -/
def self : Lens (Life × Bool) Session where
  get s := s.1.session
  set session s := ({ s.1 with session }, s.2)
  get_set _ _ := rfl

/-- The state of the slot. -/
def stateLens : Lens (Life × Bool) SessionState where
  get s := s.1.state
  set state s := ({ s.1 with state }, s.2)
  get_set _ _ := rfl

/-- `GetSession`: a copy of `sessionPtrs_[idx]`. -/
def getSession (s : Life) : Life := { s with refCount_ := s.refCount_ + s.entry.toNat }

/-- An operation is outstanding, with a copy of `sessionPtrs_[idx]`.  Without one it is
left out: no thread gets past the null pointer in its `OverlappedEx`. -/
def post (ioType : IoType) (s : Life) : Life :=
  if s.entry then { s.getSession with posted := ioType :: s.posted } else s

/-- `WSASend`: the kernel takes note of an operation it accepts. -/
def wsaSend (wsaBuf : WsaBuf) : Prog (Life × Bool) LifeCall Fault WsaResult := do
  let result ← Prog.query (.wsaSend wsaBuf)
  if result.posted then
    Prog.modify fun s =>
      ({ s.1.getSession with outstanding := s.1.outstanding ++ [wsaBuf.len] }, s.2)
  return result

/-- `WSARecv`. -/
def wsaRecv (wsaBuf : WsaBuf) : Prog (Life × Bool) LifeCall Fault WsaResult := do
  let result ← Prog.query (.wsaRecv wsaBuf)
  if result.posted then
    Prog.modify fun s => (s.1.post .kRecv, s.2)
  return result

/-- `DisconnectEx`; `disconnectOv_` keeps its pointer though nothing was posted. -/
def disconnectEx : Prog (Life × Bool) LifeCall Fault (Int × Nat) := do
  let r ← Prog.query .disconnectEx
  Prog.modify fun s => (if r.posted then s.1.post .kDisconnect else s.1.getSession, s.2)
  return (r.toBOOL, r.errorCode)

/-- The session in its slot, for a thread that has a pointer to it: so its handle is
valid, and `sessionPtrs_[idx].Reset()` is not the last release.  The pointer of an
operation is counted when the operation is posted. -/
def port : SessionPort (Life × Bool) LifeCall where
  self := self
  assignSessionPtr _ _ := .done ()
  resetSessionPtr _ := .done ()
  getState _ := stateLens.read fun state => some state.toNat
  setState _ newState := do
    stateLens.modify fun _ => newState
    return true
  connectSession _ := do
    stateLens.modify fun _ => .kConnected
    return true
  disconnectSession _ := Prog.modify fun s =>
    ({ s.1 with entry := false, refCount_ := s.1.refCount_ - s.1.entry.toNat }, s.2)
  execute off := Prog.query (.handle off)
  wsaRecv := wsaRecv
  wsaSend := wsaSend
  disconnectEx := disconnectEx

theorem port_apart : port.Apart stateLens :=
  ⟨fun _ _ => rfl, fun _ => rfl, fun _ => rfl, fun _ _ => rfl, fun _ => rfl⟩

/-! ## the pool -/

/-- The deleter given by `SessionManager::SessionManager`. -/
def deleter : Prog (Life × Bool) LifeCall Fault Unit := do
  self.modify fun s => { s with readOv_ := s.readOv_.reset }
  self.modify fun s => { s with writeOv_ := s.writeOv_.reset }
  self.modify fun s => { s with isSending_ := false }
  self.modify fun s => { s with handle_ := kInvalidHandle }

/-- The end of the thread's pointer: `ReleaseRef`. -/
def releaseRef : Prog (Life × Bool) LifeCall Fault Unit := do
  let last ← Prog.update fun s =>
    .ok (decide (s.1.refCount_ = 1), ({ s.1 with refCount_ := s.1.refCount_ - 1 }, s.2))
  if last then
    deleter
    -- `Push`
    stateLens.modify fun _ => .kIdle

/-- `Acquire`, if the slot is idle. -/
def acquire : Prog (Life × Bool) LifeCall Fault Bool := do
  let popped ← Prog.update fun s =>
    if s.1.state = .kIdle then .ok (true, ({ s.1 with state := .kPending }, s.2))
    else .ok (false, s)
  if popped then
    Prog.modify fun s => ({ s.1 with refCount_ := s.1.refCount_ + 1 }, s.2)
  return popped

/-- `AcceptEx`; `readOv_` keeps its pointer though nothing was posted. -/
def acceptEx : Prog (Life × Bool) LifeCall Fault BoolResult := do
  let r ← Prog.query .acceptEx
  Prog.modify fun s =>
    ({ s.1 with
      refCount_ := s.1.refCount_ + 1
      posted := if r.posted then .kAccept :: s.1.posted else s.1.posted }, s.2)
  return r

/-- A turn of `PostAccept`, if the slot is idle. -/
def postAccept (handle : UInt64) : Prog (Life × Bool) LifeCall Fault Unit := do
  if ← acquire then
    self.modify fun s => { s with sessionManager_ := true }
    self.modify fun s => { s with handle_ := handle }
    -- the pointer moves to `sessionPtrs_[idx]`, of which `CreateSession` returns a copy
    Prog.modify fun s => ({ s.1 with entry := true, refCount_ := s.1.refCount_ + 1 }, s.2)
    self.modify fun s => { s with readOv_.ioType_ := .kAccept }
    self.modify fun s => { s with readOv_.wsaBuf_ := ⟨0, toULong OverlappedEx.getSize⟩ }
    if Listener.registerAccept (← acceptEx) then
      self.modify fun s => { s with listener_ := true }
    else
      let _ ← Session.disconnect port
    releaseRef

/-! ## completions and broadcasts -/

/-- A worker dequeues a completion, if there is one; the pointer in its `OverlappedEx`
becomes the thread's. -/
def take (ioType : IoType) : Prog (Life × Bool) LifeCall Fault Bool := Prog.update fun s =>
  if ioType ∈ s.1.posted then .ok (true, ({ s.1 with posted := s.1.posted.erase ioType }, s.2))
  else .ok (false, s)

/-- A worker dequeues the completion of the `i`th `WSASend`, of `n` bytes, if
there is one. -/
def dequeue (i n : Nat) : Prog (Life × Bool) LifeCall Fault Bool := Prog.update fun s =>
  match s.1.outstanding[i]? with
  | some len =>
    if n ≤ len then
      .ok (true, ({ s.1 with outstanding := s.1.outstanding.eraseIdx i }, s.2))
    else .ok (false, s)
  | none => .ok (false, s)

/-- `Dispatch` of a completion of this session. -/
def dispatch (ioType : IoType) (bytesTransferred : Nat) :
    Prog (Life × Bool) LifeCall Fault Unit :=
  IocpCore.dispatchBy (Prog.done ()) (fun _ => port)
    (Listener.handleAccept (Prog.done ()) (fun _ => port) fun _ => Prog.query .setsockopt)
    ioType bytesTransferred

/-- `HandleError` of a completion of this session; it leaves the pointer in
`disconnectOv_`, and the thread has a copy. -/
def handleError (ioType : IoType) : Prog (Life × Bool) LifeCall Fault Unit :=
  if ioType = .kDisconnect then do
    Prog.modify fun s => ({ s.1 with refCount_ := s.1.refCount_ + 1 }, s.2)
    let _ ← Session.clear port
  else do
    let _ ← Session.disconnect port

/-- A turn of `WorkerThread`. -/
def workerThread (dequeue : Prog (Life × Bool) LifeCall Fault Bool)
    (handle : Prog (Life × Bool) LifeCall Fault Unit) : Prog (Life × Bool) LifeCall Fault Unit := do
  if ← dequeue then
    handle
    releaseRef

/-- `SendPacket` on the session by a `Broadcast`. -/
def sendPacket (packet : List UInt8) : Prog (Life × Bool) LifeCall Fault Bool :=
  Prog.atomically do
    Prog.query .sendPacket
    Session.sendPacket port packet

/-- `Broadcast` on the way to the session: its handle is listed, its pointer is valid. -/
def broadcast (packet : List UInt8) : Prog (Life × Bool) LifeCall Fault Unit := do
  if ← stateLens.read fun state => decide (state = .kConnected) then
    if ← Prog.read fun s => s.1.entry then
      let _ ← sendPacket packet

/-- The code each operation runs. -/
def prog : LifeOp → Prog (Life × Bool) LifeCall Fault Unit
  | .postAccept handle => postAccept handle
  | .broadcast packet => broadcast packet
  | .accept => workerThread (take .kAccept) (dispatch .kAccept 0)
  | .recv n => workerThread (take .kRecv) (dispatch .kRecv n)
  | .disconnect => workerThread (take .kDisconnect) (dispatch .kDisconnect 0)
  | .failed ioType => workerThread (take ioType) (handleError ioType)
  | .send i n => workerThread (dequeue i n) (dispatch .kSend n)
  | .sendFailed i => workerThread (dequeue i 0) (handleError .kSend)

/-- Threads on one session.  A packet is an object at least as long as its
header says. -/
abbrev client : Client Life Unit LifeCall Fault where
  Op := LifeOp
  Reg := Bool
  can op _ := ∀ packet, op = .broadcast packet → packets.size packet ≤ packet.length
  enter op _ := op.isBroadcast
  prog := prog
  leave _ _ _ := ()

/-- `sessionPtrs_[idx]` is empty from the end of the connection to the next `AcceptEx`:
meanwhile the kernel posts no `WSASend`. -/
def kernel : Answers (Life × Bool) LifeCall
  | _, s, .wsaSend _, result => s.1.entry = false → result.posted = false
  | _, _, _, _ => True

/-- Of a `Broadcast`'s `SendPacket`: its `WSASend` is posted, unless the session is
being disconnected; and it does not come in between the last release of the session
and `CreateSession`. -/
def fits : Answers (Life × Bool) LifeCall
  | _, s, .wsaSend _, result => s.2 = true → s.1.state ≠ .kDisconnecting → result.posted = true
  | _, s, .sendPacket, _ => s.1.entry = true ∨ s.1.state = .kDisconnecting ∧ 0 < s.1.refCount_
  | _, _, _, _ => True

/-- The kernel's answers, in runs whose broadcasts fit. -/
def posting : Answers (Life × Bool) LifeCall := fun β s q a => kernel β s q a ∧ fits β s q a

/-- A slot that was never used. -/
def unused : Life := ⟨{}, .kIdle, 0, false, [], []⟩

/-- Threads that have not begun. -/
def start (ι : Type) : Config client ι := ⟨unused, fun _ => ⟨(), none⟩⟩

/-! ## the discipline -/

/-- How far a thread is that has the slot to itself. -/
inductive Stage where
  /-- the slot was popped -/
  | acquired
  /-- its first pointer was made -/
  | created
  /-- its last pointer was dropped -/
  | released
  /-- `writeOv_` was reset -/
  | emptied
  /-- `isSending_` was cleared -/
  | cleared

/-- What a thread may be in charge of. -/
inductive Duty where
  /-- a pointer to the session -/
  | user
  /-- one, and a completed `WSASend` of `n` bytes -/
  | completion (n : Nat)
  /-- one, and a session to disconnect -/
  | leave
  /-- a slot that nobody has a pointer to but the thread -/
  | alone (stage : Stage)

/-- The thread has a pointer to a session that others may have pointers to. -/
def Duty.Holds : Duty → Prop
  | .alone _ => False
  | _ => True

/-- The completions in the hands of threads. -/
def inHand (R : Multiset Duty) : Multiset Nat :=
  R.filterMap fun
    | .completion n => some n
    | _ => none

@[simp] theorem inHand_zero : inHand 0 = 0 := rfl

@[simp] theorem inHand_add (R R' : Multiset Duty) : inHand (R + R') = inHand R + inHand R' :=
  Multiset.filterMap_add _ _ _

@[simp] theorem inHand_completion (n : Nat) : inHand {.completion n} = {n} := rfl

@[simp] theorem inHand_user : inHand {.user} = 0 := rfl

@[simp] theorem inHand_leave : inHand {.leave} = 0 := rfl

/-- The `WSASend`s not dealt with. -/
def due (s : Life) (R : Multiset Duty) : Multiset Nat := ↑s.outstanding + inHand R

/-- A session without a `WSASend` is being disconnected, or someone is about to. -/
def Leaving (s : Life) (R : Multiset Duty) : Prop := s.state = .kDisconnecting ∨ .leave ∈ R

/-- While the session is in use everything that has a pointer to it is counted. -/
structure Used (s : Life) (R : Multiset Duty) : Prop where
  holders : ∀ d ∈ R, d.Holds
  state : s.state ≠ .kIdle
  count : s.entry.toNat + s.posted.length + s.outstanding.length + R.card ≤ s.refCount_

/-- And while it is sending, one `WSASend` is not dealt with, or it is `stuck`. -/
structure Live (stuck : Prop) (s : Life) (R : Multiset Duty) : Prop extends Used s R where
  outgoing : ∃ w, Session.Outgoing (fun _ => True) stuck s.session (due s R) w

/-- Nothing waits, and nothing is being sent. -/
structure Clean (s : Life) : Prop where
  queued : s.session.Queued []
  idle : s.session.isSending_ = false

/-- What holds of the slot while a thread has it to itself. -/
def Stage.Fits (s : Life) : Stage → Prop
  | .acquired => s.state = .kPending ∧ s.refCount_ = 0 ∧ Clean s
  | .created => s.state = .kPending ∧ s.refCount_ = 1 ∧ Clean s
  | .released => s.state ≠ .kIdle ∧ s.refCount_ = 0
  | .emptied => s.state ≠ .kIdle ∧ s.refCount_ = 0 ∧ s.session.Queued []
  | .cleared => s.state ≠ .kIdle ∧ s.refCount_ = 0 ∧ Clean s

/-- Otherwise nothing has a pointer to the session, but for a thread that has the slot to
itself. -/
structure Vacant (s : Life) (R : Multiset Duty) : Prop where
  entry : s.entry = false
  posted : s.posted = []
  outstanding : s.outstanding = []
  stage : R = 0 ∧ s.state = .kIdle ∧ s.refCount_ = 0 ∧ Clean s ∨
    ∃ stage : Stage, R = {.alone stage} ∧ stage.Fits s

/-- The slot is in use or changes hands. -/
def Sane (s : Life) (R : Multiset Duty) : Prop := Live (Leaving s R) s R ∨ Vacant s R

/-- Threads between operations are in charge of nothing, nor are those that broadcast;
and no assertion fails. -/
def discipline : Discipline client Duty where
  guard _ := True
  bad e := e ≠ .assertion
  inv := Sane
  idle _ r := r = 0
  held op _ r := op.isBroadcast = true → r = 0
  change _ _ _ := True

/-- A program keeps the discipline. -/
abbrev Safely {α : Type} (p : Prog (Life × Bool) LifeCall Fault α)
    (post : α → Bool → Multiset Duty → Prop) (reg : Bool) (r : Multiset Duty) : Prop :=
  Safe discipline posting (fun _ => True) p post reg r

abbrev Neutrally {α : Type} (p : Prog (Life × Bool) LifeCall Fault α) : Prop :=
  Neutral discipline posting p

variable {α β : Type} {stuck stuck' : Prop} {s s' : Life} {R F r : Multiset Duty} {reg : Bool}
  {w : List UInt8}

/-- A thread that has a pointer to the session knows that it is in use. -/
theorem Sane.live {d : Duty} (h : Sane s ({d} + F)) (hd : d.Holds) :
    Live (Leaving s ({d} + F)) s ({d} + F) := by
  refine h.resolve_right fun hvacant => ?_
  rcases hvacant.stage with ⟨hnone, -⟩ | ⟨stage, hone, -⟩
  · exact Multiset.singleton_ne_zero d (add_eq_zero.mp hnone).1
  · have hmem : d ∈ ({.alone stage} : Multiset Duty) := hone ▸ Multiset.mem_add.mpr (.inl (by simp))
    rw [Multiset.mem_singleton.mp hmem] at hd
    exact hd

/-- `sessionPtrs_[idx]` is set while the session is in use only. -/
theorem Sane.live_of_entry (h : Sane s R) (hentry : s.entry = true) : Live (Leaving s R) s R :=
  h.resolve_right fun hvacant => Bool.noConfusion (hentry.symm.trans hvacant.entry)

/-- A thread that has the slot to itself knows how far it is. -/
theorem Sane.vacant {stage : Stage} (h : Sane s ({.alone stage} + F)) :
    F = 0 ∧ Vacant s {.alone stage} ∧ stage.Fits s := by
  have hmem : Duty.alone stage ∈ {.alone stage} + F := Multiset.mem_add.mpr (.inl (by simp))
  have hvacant := h.resolve_left fun hlive => hlive.holders _ hmem
  rcases hvacant.stage with ⟨hnone, -⟩ | ⟨stage', hone, hfits⟩
  · exact absurd (add_eq_zero.mp hnone).1 (Multiset.singleton_ne_zero _)
  · have hcard := congrArg Multiset.card hone
    rw [Multiset.card_add, Multiset.card_singleton, Multiset.card_singleton] at hcard
    have hF : F = 0 := Multiset.card_eq_zero.mp (by omega)
    rw [hF, add_zero, Multiset.singleton_inj] at hone
    cases hone
    rw [hF, add_zero] at hvacant
    exact ⟨hF, hvacant, hfits⟩

theorem due_add (s : Life) (R R' : Multiset Duty) : due s (R + R') = inHand R + due s R' := by
  rw [due, due, inHand_add, add_left_comm]

theorem due_completion (s : Life) (n : Nat) (F : Multiset Duty) :
    due s ({.completion n} + F) = n ::ₘ due s F := by
  rw [due_add, inHand_completion, Multiset.singleton_add]

/-- A duty for another one. -/
theorem Used.trade {d d' : Duty} (h : Used s ({d} + F)) (hd' : d'.Holds) : Used s ({d'} + F) := by
  refine ⟨fun e he => ?_, h.state, ?_⟩
  · rcases Multiset.mem_add.mp he with hmem | hmem
    · rw [Multiset.mem_singleton.mp hmem]
      exact hd'
    · exact h.holders e (Multiset.mem_add.mpr (.inr hmem))
  · have hcount := h.count
    rw [Multiset.card_add, Multiset.card_singleton] at hcount ⊢
    exact hcount

/-- Being stuck may mean less. -/
theorem Live.mono (h : Live stuck s R) (hstuck : stuck → stuck') : Live stuck' s R :=
  ⟨h.toUsed, h.outgoing.imp fun _ hw => hw.mono fun _ => hstuck⟩

/-- Other fields of the session do not matter. -/
theorem Sane.withSession (h : Sane s R) {y : Session} (hov : y.writeOv_ = s.session.writeOv_)
    (hflag : y.isSending_ = s.session.isSending_) : Sane { s with session := y } R := by
  have hqueued : s.session.Queued [] → y.Queued [] := fun hq =>
    ⟨hov ▸ hq.holds, hov ▸ hq.low, hq.fits⟩
  have hclean : Clean s → Clean { s with session := y } := fun hc =>
    ⟨hqueued hc.queued, hflag.trans hc.idle⟩
  refine h.imp (fun hlive => ?_) fun hvacant => ?_
  · exact ⟨⟨hlive.holders, hlive.state, hlive.count⟩,
      hlive.outgoing.imp fun _ hw => hw.congr hov hflag⟩
  · refine ⟨hvacant.entry, hvacant.posted, hvacant.outstanding, ?_⟩
    refine hvacant.stage.imp (fun hidle => ⟨hidle.1, hidle.2.1, hidle.2.2.1, hclean hidle.2.2.2⟩) ?_
    rintro ⟨stage, hR, hfits⟩
    refine ⟨stage, hR, ?_⟩
    cases stage with
    | acquired => exact ⟨hfits.1, hfits.2.1, hclean hfits.2.2⟩
    | created => exact ⟨hfits.1, hfits.2.1, hclean hfits.2.2⟩
    | released => exact hfits
    | emptied => exact ⟨hfits.1, hfits.2.1, hqueued hfits.2.2⟩
    | cleared => exact ⟨hfits.1, hfits.2.1, hclean hfits.2.2⟩

/-- Pointers more, as long as they are counted. -/
theorem Live.counted (h : Live stuck s R) (hsession : s'.session = s.session)
    (hstate : s'.state = s.state) (hout : s'.outstanding = s.outstanding)
    (hcount : s'.entry.toNat + s'.posted.length + s.refCount_ ≤
      s.entry.toNat + s.posted.length + s'.refCount_) : Live stuck s' R := by
  have hle := h.count
  refine ⟨⟨h.holders, hstate ▸ h.state, ?_⟩, ?_⟩
  · rw [hout]
    omega
  · rw [hsession, due, hout]
    exact h.outgoing

/-! ## what does not send -/

/-- An action on the other fields. -/
theorem neutral_update {f : Session → Except Fault (β × Session)}
    (hf : ∀ s, match f s with
      | .error e => e ≠ .assertion
      | .ok x => x.2.writeOv_ = s.writeOv_ ∧ x.2.isSending_ = s.isSending_) :
    Neutrally (self.update f) := by
  refine fun reg r => ⟨trivial, fun s F _ hi => ?_⟩
  have hs := hf s.session
  simp only [self] at *
  cases hx : f s.session with
  | error e =>
      rw [hx] at hs
      exact hs
  | ok x =>
      rw [hx] at hs
      exact fun _ => ⟨trivial, r, hi.withSession hs.1 hs.2, trivial, rfl⟩

theorem neutral_modify {f : Session → Session} (hov : ∀ s, (f s).writeOv_ = s.writeOv_)
    (hflag : ∀ s, (f s).isSending_ = s.isSending_) : Neutrally (self.modify f) :=
  fun _ r => ⟨trivial, fun _ _ _ hi _ =>
    ⟨trivial, r, hi.withSession (hov _) (hflag _), trivial, rfl⟩⟩

theorem neutral_read (f : Life × Bool → β) : Neutrally (Prog.read f) :=
  fun _ r => ⟨trivial, fun _ _ _ hi _ => ⟨trivial, r, hi, trivial, rfl⟩⟩

theorem neutral_query (q : LifeCall β) : Neutrally (Prog.query q) :=
  fun _ r => ⟨trivial, fun _ _ _ hi _ _ => ⟨trivial, r, hi, trivial, rfl⟩⟩

theorem neutral_fault {e : Fault} (he : e ≠ .assertion) :
    Neutrally (Prog.fault e : Prog (Life × Bool) LifeCall Fault β) :=
  fun _ _ => ⟨trivial, fun _ _ _ _ => he⟩

/-- Pointers more, to a session in use. -/
theorem neutral_count {f : Life → Life}
    (hf : ∀ s stuck R, s.entry = true → Live stuck s R → Live stuck (f s) R)
    (hstate : ∀ s, (f s).state = s.state) (hnone : ∀ s, s.entry = false → f s = s) :
    Neutrally (Prog.modify fun x => (f x.1, x.2)) := by
  refine fun _ r => ⟨trivial, fun s F _ hi _ => ⟨trivial, r, ?_, trivial, rfl⟩⟩
  cases hentry : s.entry with
  | false =>
      rw [hnone s hentry]
      exact hi
  | true =>
      left
      refine (hf s _ _ hentry (hi.live_of_entry hentry)).mono fun hleaving => ?_
      rwa [Leaving, hstate]

theorem Live.getSession (h : Live stuck s R) : Live stuck s.getSession R := by
  refine h.counted rfl rfl rfl ?_
  simp only [Life.getSession]
  omega

theorem getSession_of_none (h : s.entry = false) : s.getSession = s := by
  obtain ⟨session, state, refCount, entry, posted, outstanding⟩ := s
  simp only at h
  rw [Life.getSession, h]
  rfl

theorem Live.post (h : Live stuck s R) (ioType : IoType) : Live stuck (s.post ioType) R := by
  unfold Life.post
  split_ifs with hentry
  · refine h.counted rfl rfl rfl ?_
    simp only [Life.getSession, hentry, List.length_cons, Bool.toNat_true]
    omega
  · exact h

theorem state_post (s : Life) (ioType : IoType) : (s.post ioType).state = s.state := by
  unfold Life.post
  split_ifs <;> rfl

theorem post_of_none (h : s.entry = false) (ioType : IoType) : s.post ioType = s := by
  rw [Life.post, h]
  rfl

theorem neutral_wsaRecv (wsaBuf : WsaBuf) : Neutrally (wsaRecv wsaBuf) := by
  refine .bind (neutral_query _) fun result => .ite (.bind ?_ fun _ => .done _) (.done _)
  exact neutral_count (f := Life.post .kRecv) (fun s stuck R _ h => h.post _)
    (fun s => state_post s _) fun s h => post_of_none h _

theorem neutral_disconnectEx : Neutrally disconnectEx := by
  refine .bind (neutral_query _) fun r => .bind ?_ fun _ => .done _
  cases hposted : r.posted with
  | true =>
      exact neutral_count (f := Life.post .kDisconnect) (fun s stuck R _ h => h.post _)
        (fun s => state_post s _) fun s h => post_of_none h _
  | false =>
      exact neutral_count (f := Life.getSession) (fun s stuck R _ h => h.getSession)
        (fun s => rfl) fun s h => getSession_of_none h

theorem neutral_registerRead : Neutrally (Session.registerRead port) := by
  refine .bind (neutral_update fun s => ⟨rfl, rfl⟩) fun len => .ite (.done _) ?_
  refine .bind (neutral_modify (fun _ => rfl) fun _ => rfl) fun _ => ?_
  refine .bind (neutral_read _) fun handle => ?_
  refine .bind (.done _) fun _ => .bind (neutral_read _) fun wsaBuf => ?_
  refine .bind (neutral_wsaRecv _) fun result => ?_
  cases result with
  | ok => exact .done _
  | socketError errorCode => exact .ite (.done _) (.bind (.done _) fun _ => .done _)

theorem neutral_readHeader (off : Nat) : Neutrally (Session.readHeader port off) := by
  refine fun reg r => ⟨trivial, fun s F _ hi => ?_⟩
  simp only [port, self, OverlappedEx.load]
  cases s.session.readOv_.buffer_.read? off PacketHeader.sizeOf with
  | none => exact fun he => Fault.noConfusion he
  | some bs => exact fun _ => ⟨trivial, r, hi, trivial, rfl⟩

theorem neutral_parse (turns : Nat) : Neutrally (Session.parse port turns) := by
  induction turns with
  | zero => exact neutral_fault fun he => Fault.noConfusion he
  | succ turns ih =>
      refine .bind (neutral_read _) fun availableData => .ite (.done _) ?_
      refine .bind (neutral_read _) fun off => .bind (neutral_readHeader off) fun header => ?_
      refine .ite (.done _) (.ite (.done _) (.bind (neutral_query _) fun success => ?_))
      refine .ite (.done _) (.bind (neutral_readHeader off) fun header => ?_)
      exact .bind (neutral_modify (fun _ => rfl) fun _ => rfl) fun _ => ih

theorem neutral_onRead (n : Nat) : Neutrally (Session.onRead port n) := by
  refine .bind (neutral_modify (fun _ => rfl) fun _ => rfl) fun _ => ?_
  refine .bind (neutral_read _) fun turns => .bind (neutral_parse turns) fun success => ?_
  refine .ite (.done _) (.bind (neutral_modify (fun _ => rfl) fun _ => rfl) fun _ => ?_)
  exact .bind neutral_registerRead fun success => .ite (.done _) (.done _)

/-- `Clear` empties `sessionPtrs_[idx]`, which counts no more. -/
theorem neutral_clear : Neutrally (Session.clear port) := by
  refine .bind (neutral_read _) fun handle => .bind ?_ fun _ => .done _
  refine neutral_count
    (f := fun s => { s with entry := false, refCount_ := s.refCount_ - s.entry.toNat })
    (fun s stuck R hentry h => ?_) (fun s => rfl) fun s hentry => ?_
  · have hcount := h.count
    refine h.counted rfl rfl rfl ?_
    simp only [hentry, Bool.toNat_true, Bool.toNat_false] at hcount ⊢
    omega
  · obtain ⟨session, state, refCount, entry, posted, outstanding⟩ := s
    simp only at hentry
    rw [hentry]
    rfl

/-! ## what sends -/

theorem wp_wsaSend {bad : Fault → Prop} {wsaBuf : WsaBuf} {post : WsaResult → Life × Bool → Prop} :
    Prog.wp posting bad (wsaSend wsaBuf) post (s, reg) ↔
      ∀ result : WsaResult, posting WsaResult (s, reg) (.wsaSend wsaBuf) result →
        post result (if result.posted then
          ({ s.getSession with outstanding := s.outstanding ++ [wsaBuf.len] }, reg)
        else (s, reg)) := by
  simp only [wsaSend, Prog.bind_eq, Prog.wp_bind, Prog.wp_query]
  refine forall₂_congr fun result _ => ?_
  cases result.posted with
  | true => exact Iff.rfl
  | false => exact Iff.rfl

/-- A `WSASend` more. -/
theorem due_append (s : Life) (R : Multiset Duty) (n : Nat) :
    due { s with outstanding := s.outstanding ++ [n] } R = n ::ₘ due s R := by
  rw [due, due, ← Multiset.coe_add, Multiset.coe_singleton, add_right_comm, add_comm,
    Multiset.singleton_add]

/-- Posting all that waits, with no `WSASend` not dealt with: it succeeds, or nothing is
outstanding. -/
theorem Used.wp_registerWriteInternal {bad : Fault → Prop} {y : Session}
    {post : Bool → Life × Bool → Prop} (h : Used s R) (hdue : due s R = 0)
    (hqueued : y.Queued w) (hsending : y.isSending_ = true)
    (hpost : ∀ s', s'.state = s.state → Live False s' R → post true (s', reg))
    (hfail : ∀ s', s'.state = s.state → Live True s' R →
      (reg = true → s.state = .kDisconnecting) → post false (s', reg)) :
    Prog.wp posting bad (Session.registerWriteInternal port) post
      ({ s with session := y }, reg) := by
  refine Session.wp_registerWriteInternal_apart port_apart hsending ?_
  refine wp_wsaSend.mpr fun result hresult => ?_
  have hcount := h.count
  cases hposted : result.posted with
  | true =>
      have hentry : s.entry = true := by
        by_contra hnone
        have hrefused := hresult.1 (Bool.eq_false_iff.mpr hnone)
        rw [hposted] at hrefused
        exact Bool.noConfusion hrefused
      refine hpost _ rfl ⟨⟨h.holders, h.state, ?_⟩, w, ?_⟩
      · simp only [Life.getSession, hentry, List.length_append, List.length_singleton,
          Bool.toNat_true] at hcount ⊢
        omega
      · have hone := due_append s R y.prepareSend.writeOv_.wsaBuf_.len
        rw [hdue] at hone
        exact hone ▸ .posted hqueued hsending trivial
  | false =>
      refine hfail _ rfl ⟨⟨h.holders, h.state, hcount⟩, w, ?_⟩ fun hreg => ?_
      · have hnone : due { s with session := y.prepareSend } R = 0 := hdue
        exact hnone ▸ .refused hqueued hsending trivial
      · by_contra hstate
        have hok := hresult.2 hreg hstate
        rw [hposted] at hok
        exact Bool.noConfusion hok

/-- `SendPacket` refuses the packet, queues it, or posts it. -/
theorem Live.wp_sendPacket {bad : Fault → Prop} {packet : List UInt8}
    (hobj : packets.size packet ≤ packet.length) {post : Bool → Life × Bool → Prop}
    (h : Live stuck s R) (hrefused : post false (s, reg))
    (hpost : ∀ s', s'.state = s.state → Live stuck s' R → post true (s', reg))
    (hfail : ∀ s', s'.state = s.state → Live True s' R →
      (reg = true → s.state = .kDisconnecting) → post false (s', reg)) :
    Prog.wp posting bad (Session.sendPacket port packet) post (s, reg) := by
  obtain ⟨w, hw⟩ := h.outgoing
  have hqueued : (port.self.get (s, reg)).Queued w := hw.queued
  refine Session.wp_sendPacket port hqueued hobj (fun _ => hrefused) fun hroom => ?_
  have hlen : (packet.take (packets.size packet)).length = packets.size packet :=
    List.length_take_of_le hobj
  change if s.session.isSending_ = true then _ else _
  cases hsending : s.session.isSending_ with
  | true => exact hpost _ rfl ⟨⟨h.holders, h.state, h.count⟩, _, hw.queue hsending (by omega)⟩
  | false =>
      have hjoined := hw.queued.queue (packet.take (packets.size packet)) (by omega)
      exact h.toUsed.wp_registerWriteInternal (hw.idle hsending).2 (hjoined.withSending true) rfl
        (fun s' hstate hs' => hpost s' hstate (hs'.mono False.elim)) hfail

/-- A session that is stuck may be left to the caller, who is to disconnect it. -/
theorem Live.left (h : Live True s ({.user} + F)) :
    Live (Leaving s ({.leave} + F)) s ({.leave} + F) := by
  have hmem : Duty.leave ∈ ({.leave} + F : Multiset Duty) := Multiset.mem_add.mpr (.inl (by simp))
  have hdue : due s ({.user} + F) = due s ({.leave} + F) := by
    rw [due_add, due_add, inHand_user, inHand_leave]
  exact ⟨h.toUsed.trade trivial, hdue ▸ h.outgoing.imp fun _ hw => hw.mono fun _ _ => .inr hmem⟩

/-- `SendPacket` within `Connect` may leave the caller in charge of disconnecting. -/
theorem safely_sendPacket {packet : List UInt8} (hobj : packets.size packet ≤ packet.length)
    {post : Bool → Bool → Multiset Duty → Prop} (hpost : post true reg {.user})
    (hrefused : post false reg {.user}) (hfail : post false reg {.leave}) :
    Safely (Session.sendPacket port packet) post reg {.user} := by
  refine Safe.atomically trivial fun s F _ hi => ?_
  have hlive := hi.live trivial
  refine hlive.wp_sendPacket hobj (fun _ => ⟨trivial, {.user}, hi, trivial, hrefused⟩)
    (fun s' hstate hs' _ => ⟨trivial, {.user}, .inl (hs'.mono fun hleaving => ?_), trivial, hpost⟩)
    fun s' _ hs' _ _ => ⟨trivial, {.leave}, .inl hs'.left, trivial, hfail⟩
  rwa [Leaving, hstate]

/-- `SendPacket` by a `Broadcast` that fits owes nothing to anyone. -/
theorem safe_broadcast {packet : List UInt8} (hobj : packets.size packet ≤ packet.length) :
    Safe discipline posting (fun r => r = 0) (broadcast packet) (fun _ _ r => r = 0) true 0 := by
  refine Safe.bind ⟨rfl, fun s F _ hi _ => ⟨trivial, 0, hi, rfl, ?_⟩⟩
  dsimp only
  split_ifs
  · refine Safe.bind ⟨rfl, fun s F _ hi _ => ⟨trivial, 0, hi, rfl, ?_⟩⟩
    dsimp only
    split_ifs
    · refine Safe.bind (Safe.atomically rfl fun s F _ hi => ?_)
      rw [Prog.wp_atomically, Prog.bind_eq, Prog.wp_bind, Prog.wp_query]
      rintro ⟨⟩ ⟨-, hfits⟩
      have hlive : Live (Leaving s (0 + F)) s (0 + F) := by
        refine hi.resolve_right fun hvacant => ?_
        rcases hfits with hentry | ⟨hstate, hcount⟩
        · exact Bool.noConfusion (hentry.symm.trans hvacant.entry)
        · rcases hvacant.stage with ⟨-, -, hnone, -⟩ | ⟨stage, -, hstage⟩
          · exact absurd hnone (Nat.pos_iff_ne_zero.mp hcount)
          · cases stage with
            | acquired => exact absurd (hstate.symm.trans hstage.1) fun h => by cases h
            | created => exact absurd (hstate.symm.trans hstage.1) fun h => by cases h
            | released => exact absurd hstage.2 (Nat.pos_iff_ne_zero.mp hcount)
            | emptied => exact absurd hstage.2.1 (Nat.pos_iff_ne_zero.mp hcount)
            | cleared => exact absurd hstage.2.1 (Nat.pos_iff_ne_zero.mp hcount)
      refine hlive.wp_sendPacket hobj (fun _ => ⟨trivial, 0, hi, rfl, rfl, rfl⟩)
        (fun s' hstate hs' _ => ⟨trivial, 0, .inl (hs'.mono fun hleaving => ?_), rfl, rfl, rfl⟩)
        fun s' hstate hs' hreg _ => ⟨trivial, 0, .inl (hs'.mono fun _ => .inl ?_), rfl, rfl, rfl⟩
      · rwa [Leaving, hstate]
      · exact hstate.trans (hreg rfl)
    · exact ⟨rfl, rfl⟩
  · exact ⟨rfl, rfl⟩

/-- `OnWrite` deals with a completion, or leaves the caller in charge of
disconnecting. -/
theorem safely_onWrite {n : Nat} {post : Bool → Bool → Multiset Duty → Prop}
    (hpost : post true reg {.user}) (hfail : post false reg {.leave}) :
    Safely (Session.onWrite port n) post reg {.completion n} := by
  refine Safe.atomically trivial fun s F _ hi => ?_
  have hlive := hi.live trivial
  obtain ⟨w, hw⟩ := hlive.outgoing
  have hone := hw
  rw [due_completion] at hone
  obtain ⟨hsending, -, hn, hdue⟩ := hone.of_cons
  have hnone : due s ({.user} + F) = 0 := by rw [due_add, inHand_user, hdue, add_zero]
  have hq := hw.queued.sentOff hn
  have huser : Used s ({.user} + F) := hlive.toUsed.trade trivial
  refine Session.wp_onWrite port (s := (s, reg)) hw.queued hsending hn rfl (fun hall => ?_)
    fun hmore => ?_
  · have hempty : w.drop n = [] := by rw [hall, List.drop_length]
    rw [hempty] at hq
    have hsane : Sane { s with session := { s.session.sentOff n with isSending_ := false } }
        ({.user} + F) :=
      .inl ⟨⟨huser.holders, huser.state, huser.count⟩, [], hnone ▸ .none (hq.withSending false) rfl⟩
    exact fun _ => ⟨trivial, {Duty.user}, hsane, trivial, hpost⟩
  · refine huser.wp_registerWriteInternal hnone hq hsending (fun s' _ hs' _ => ?_)
      fun s' _ hs' _ _ => ⟨trivial, {.leave}, .inl hs'.left, trivial, hfail⟩
    exact ⟨trivial, {.user}, .inl (hs'.mono False.elim), trivial, hpost⟩

/-! ## connecting and disconnecting -/

/-- The locked section of `Connect` moves a pending session on. -/
theorem safely_connectLocked {post : Bool → Bool → Multiset Duty → Prop}
    (hpost : ∀ b, post b reg {.user}) : Safely (Session.connectLocked port) post reg {.user} := by
  refine Safe.atomically trivial fun s F _ hi => (Session.wp_connectLocked port_apart).mpr ?_
  have hlive := hi.live trivial
  split_ifs with hstate
  · have hleave : Leaving s ({.user} + F) → .leave ∈ ({.user} + F : Multiset Duty) := fun h =>
      h.resolve_left fun hleaving => SessionState.noConfusion (hstate.symm.trans hleaving)
    have hused : Used { s with state := .kConnected } ({.user} + F) :=
      ⟨hlive.holders, fun h => SessionState.noConfusion h, hlive.count⟩
    have hsane : Sane { s with state := .kConnected } ({.user} + F) := .inl ⟨hused,
      hlive.outgoing.imp fun _ hw => hw.mono fun _ hs => .inr (hleave hs)⟩
    exact fun _ => ⟨trivial, {Duty.user}, hsane, trivial, hpost _⟩
  · exact fun _ => ⟨trivial, {Duty.user}, hi, trivial, hpost _⟩

/-- Once a session is being disconnected nothing more is owed to it. -/
theorem Live.disconnecting {d : Duty} (h : Live (Leaving s ({d} + F)) s ({d} + F)) :
    Sane { s with state := .kDisconnecting } ({.user} + F) := by
  have hused : Used s ({.user} + F) := h.toUsed.trade trivial
  refine .inl ⟨⟨hused.holders, fun he => SessionState.noConfusion he, hused.count⟩, ?_⟩
  obtain ⟨w, hw⟩ := h.outgoing
  have hleft : Session.Outgoing (fun _ => True)
      (Leaving { s with state := .kDisconnecting } ({.user} + F)) s.session (due s ({d} + F)) w :=
    hw.mono fun _ _ => .inl rfl
  change ∃ w, Session.Outgoing _ _ s.session (due s ({.user} + F)) w
  rw [due_add, inHand_user, zero_add]
  cases d with
  | user =>
      rw [due_add, inHand_user, zero_add] at hleft
      exact ⟨w, hleft⟩
  | leave =>
      rw [due_add, inHand_leave, zero_add] at hleft
      exact ⟨w, hleft⟩
  | completion n =>
      rw [due_completion] at hleft
      obtain ⟨hsending, -, -, hdue⟩ := hleft.of_cons
      rw [hdue]
      exact ⟨w, hleft.queued, fun hidle => Bool.noConfusion (hsending.symm.trans hidle),
        fun _ => .inl ⟨rfl, .inl rfl⟩⟩
  | alone stage =>
      have hmem : Duty.alone stage ∈ {Duty.alone stage} + F := Multiset.mem_add.mpr (.inl (by simp))
      exact False.elim (h.holders _ hmem)

/-- After `Disconnect` a thread is in charge of a pointer only. -/
theorem safely_disconnectLocked {d : Duty} (hd : d.Holds)
    {post : Option Bool → Bool → Multiset Duty → Prop} (hpost : ∀ a, post a reg {.user}) :
    Safely (Session.disconnectLocked port) post reg {d} := by
  refine Safe.atomically trivial fun s F _ hi => (Session.wp_disconnectLocked port_apart).mpr ?_
  have hlive := hi.live hd
  have hout := hlive.disconnecting
  split_ifs with hstate
  · exact fun _ => ⟨trivial, {Duty.user}, hout, trivial, hpost _⟩
  · have hleft : s.state = .kDisconnecting := by
      have hidle := hlive.state
      change ¬ (s.state = .kPending ∨ s.state = .kConnected) at hstate
      cases hcase : s.state with
      | kIdle => exact absurd hcase hidle
      | kPending => exact absurd (.inl hcase) hstate
      | kConnected => exact absurd (.inr hcase) hstate
      | kDisconnecting => rfl
    rw [← hleft] at hout
    exact fun _ => ⟨trivial, {Duty.user}, hout, trivial, hpost _⟩

theorem safely_disconnect {d : Duty} (hd : d.Holds) {post : Bool → Bool → Multiset Duty → Prop}
    (hpost : ∀ a reg', post a reg' {.user}) : Safely (Session.disconnect port) post reg {d} := by
  refine Safe.bind (safely_disconnectLocked hd fun a => ?_)
  cases a with
  | some result => exact ⟨trivial, hpost _ _⟩
  | none =>
      refine (neutral_modify (f := fun s => { s with disconnectOv_.ioType_ := .kDisconnect })
        (fun _ => rfl) fun _ => rfl).before fun _ _ => ?_
      refine (neutral_read _).before fun handle _ => ?_
      refine neutral_disconnectEx.before fun x _ => ?_
      obtain ⟨result, errorCode⟩ := x
      dsimp only
      split_ifs
      · exact ⟨trivial, hpost _ _⟩
      · exact ⟨trivial, hpost _ _⟩
      · exact ⟨trivial, hpost _ _⟩

/-- When `Connect` fails, the session may have to be disconnected. -/
theorem safely_connect {post : Bool → Bool → Multiset Duty → Prop}
    (htrue : ∀ reg', post true reg' {.user}) (hfalse : ∀ reg' d, d.Holds → post false reg' {d}) :
    Safely (Session.connect port) post reg {.user} := by
  refine Safe.bind (safely_connectLocked fun connected => ?_)
  cases connected with
  | false => exact ⟨trivial, hfalse _ _ trivial⟩
  | true =>
      refine (neutral_read _).before fun handle _ => ?_
      refine Safe.bind (safely_sendPacket (Session.size_le_welcomePacket handle) ?_
        ⟨trivial, hfalse _ _ trivial⟩ ⟨trivial, hfalse _ _ trivial⟩)
      refine neutral_registerRead.before fun posted _ => ?_
      cases posted with
      | false => exact ⟨trivial, hfalse _ _ trivial⟩
      | true => exact ⟨trivial, htrue _⟩

/-! ## the slot changes hands -/

/-- A thread that has the slot to itself gets further. -/
theorem safely_alone (stage stage' : Stage) {f : Life → Life}
    {post : Unit → Bool → Multiset Duty → Prop}
    (hrest : ∀ s, (f s).entry = s.entry ∧ (f s).posted = s.posted ∧
      (f s).outstanding = s.outstanding)
    (hf : ∀ s, stage.Fits s → stage'.Fits (f s)) (hpost : post () reg {.alone stage'}) :
    Safely (Prog.modify fun x => (f x.1, x.2)) post reg {.alone stage} := by
  refine ⟨trivial, fun s F _ hi _ => ⟨trivial, {.alone stage'}, .inr ?_, trivial, hpost⟩⟩
  obtain ⟨hF, hvacant, hfits⟩ := hi.vacant
  obtain ⟨hentry, hposted, hout⟩ := hrest s
  rw [hF, add_zero]
  exact ⟨hentry.trans hvacant.entry, hposted.trans hvacant.posted, hout.trans hvacant.outstanding,
    .inr ⟨stage', rfl, hf s hfits⟩⟩

/-- An action on the session of a thread that has the slot to itself. -/
theorem safely_clean (stage stage' : Stage) {f : Session → Session}
    {post : Unit → Bool → Multiset Duty → Prop}
    (hf : ∀ s, stage.Fits s → stage'.Fits { s with session := f s.session })
    (hpost : post () reg {.alone stage'}) : Safely (self.modify f) post reg {.alone stage} :=
  safely_alone stage stage' (f := fun s => { s with session := f s.session })
    (fun _ => ⟨rfl, rfl, rfl⟩) hf hpost

/-- `OverlappedEx::Reset` leaves nothing waiting. -/
theorem queued_reset (x : Session) : Session.Queued { x with writeOv_ := x.writeOv_.reset } [] :=
  ⟨.nil rfl (Nat.zero_le _), Nat.zero_lt_succ _, Nat.zero_le _⟩

/-- The last release cleans the session and gives the slot back. -/
theorem safely_deleter {post : Unit → Bool → Multiset Duty → Prop} (hpost : post () reg 0) :
    Safely (deleter.bind fun _ => stateLens.modify fun _ => .kIdle) post reg
      {.alone .released} := by
  refine Safe.bind (Safe.bind (safely_clean .released .released (fun s h => h) ?_))
  refine Safe.bind (safely_clean .released .emptied
    (fun s h => ⟨h.1, h.2, queued_reset s.session⟩) ?_)
  refine Safe.bind (safely_clean .emptied .cleared
    (fun s h => ⟨h.1, h.2.1, h.2.2.withSending false, rfl⟩) ?_)
  refine safely_clean .cleared .cleared (fun s h => ⟨h.1, h.2.1, ⟨h.2.2.queued.holds,
    h.2.2.queued.low, h.2.2.queued.fits⟩, h.2.2.idle⟩) ?_
  refine ⟨trivial, fun s F _ hi _ => ⟨trivial, 0, .inr ?_, trivial, hpost⟩⟩
  obtain ⟨hF, hvacant, -, hcount, hclean⟩ := hi.vacant
  rw [hF, add_zero]
  exact ⟨hvacant.entry, hvacant.posted, hvacant.outstanding,
    .inl ⟨rfl, rfl, hcount, hclean.queued, hclean.idle⟩⟩

/-- A thread drops its pointer; the last one leaves the slot idle. -/
theorem safely_releaseRef {post : Unit → Bool → Multiset Duty → Prop} (hpost : post () reg 0) :
    Safely releaseRef post reg {.user} := by
  refine Safe.bind (Safe.update trivial fun s F _ hi => ⟨_, _, _, rfl, fun _ => ⟨trivial, ?_⟩⟩)
  have hlive := hi.live trivial
  have hcount := hlive.count
  rw [Multiset.card_add, Multiset.card_singleton] at hcount
  by_cases hlast : s.refCount_ = 1
  · refine ⟨{.alone .released}, .inr ?_, trivial, ?_⟩
    · have hF : F = 0 := Multiset.card_eq_zero.mp (by omega)
      have hentry : s.entry = false := Bool.toNat_eq_zero.mp (by omega)
      have hposted : s.posted = [] := List.eq_nil_of_length_eq_zero (by omega)
      have hout : s.outstanding = [] := List.eq_nil_of_length_eq_zero (by omega)
      rw [hF, add_zero]
      exact ⟨hentry, hposted, hout, .inr ⟨.released, rfl, hlive.state,
        Nat.sub_eq_zero_of_le hlast.le⟩⟩
    · rw [decide_eq_true hlast]
      exact safely_deleter hpost
  · refine ⟨0, .inl ⟨⟨fun d hd => ?_, hlive.state, ?_⟩, ?_⟩, trivial, ?_⟩
    · rw [zero_add] at hd
      exact hlive.holders d (Multiset.mem_add.mpr (.inr hd))
    · rw [zero_add]
      change s.entry.toNat + s.posted.length + s.outstanding.length + F.card ≤ s.refCount_ - 1
      omega
    · have hout := hlive.outgoing
      rw [due_add, inHand_user] at hout
      refine hout.imp fun _ hw => ?_
      change Session.Outgoing _ _ s.session (due s (0 + F)) _
      rw [due_add, inHand_zero]
      refine hw.mono fun _ hleaving => hleaving.imp_right fun hmem => ?_
      rcases Multiset.mem_add.mp hmem with h | h
      · exact Duty.noConfusion (Multiset.mem_singleton.mp h)
      · exact Multiset.mem_add.mpr (.inr h)
    · rw [decide_eq_false hlast]
      exact ⟨trivial, hpost⟩

/-- `Acquire` of an idle slot. -/
theorem safely_acquire {post : Bool → Bool → Multiset Duty → Prop} (hnone : post false reg 0)
    (hsome : post true reg {.alone .created}) : Safely acquire post reg 0 := by
  refine Safe.bind (Safe.update trivial fun s F _ hi => ?_)
  by_cases hstate : s.state = .kIdle
  · refine ⟨true, { s with state := .kPending }, reg, if_pos hstate, fun _ => ⟨trivial,
      {.alone .acquired}, .inr ?_, trivial, ?_⟩⟩
    · have hvacant := hi.resolve_left fun hlive => hlive.state hstate
      rw [zero_add] at hvacant
      rcases hvacant.stage with ⟨hF, -, hcount, hclean⟩ | ⟨stage, -, hfits⟩
      · rw [hF, add_zero]
        exact ⟨hvacant.entry, hvacant.posted, hvacant.outstanding,
          .inr ⟨.acquired, rfl, rfl, hcount, hclean.queued, hclean.idle⟩⟩
      · cases stage with
        | acquired => exact SessionState.noConfusion (hstate.symm.trans hfits.1)
        | created => exact SessionState.noConfusion (hstate.symm.trans hfits.1)
        | released => exact absurd hstate hfits.1
        | emptied => exact absurd hstate hfits.1
        | cleared => exact absurd hstate hfits.1
    · refine Safe.bind (safely_alone .acquired .created
        (f := fun s => { s with refCount_ := s.refCount_ + 1 }) (fun _ => ⟨rfl, rfl, rfl⟩)
        (fun s h => ⟨h.1, ?_, h.2.2.queued, h.2.2.idle⟩) ⟨trivial, hsome⟩)
      change s.refCount_ + 1 = 1
      rw [h.2.1]
  · exact ⟨false, s, reg, if_neg hstate, fun _ => ⟨trivial, 0, hi, trivial, trivial, hnone⟩⟩

/-- A thread that has a pointer posts an accept with a copy of it. -/
theorem safely_acceptEx {post : BoolResult → Bool → Multiset Duty → Prop}
    (hpost : ∀ r reg', post r reg' {.user}) : Safely acceptEx post reg {.user} := by
  refine (neutral_query _).before fun r reg' => Safe.bind ⟨trivial, fun s F _ hi _ =>
    ⟨trivial, {Duty.user}, .inl ?_, trivial, trivial, hpost r _⟩⟩
  refine (hi.live trivial).counted rfl rfl rfl ?_
  dsimp only
  split_ifs
  · rw [List.length_cons]
    omega
  · omega

/-- A turn of `PostAccept` leaves the session to the kernel. -/
theorem safely_postAccept (handle : UInt64) :
    Safely (postAccept handle) (fun _ _ r' => r' = 0) reg 0 := by
  refine Safe.bind (safely_acquire ⟨trivial, rfl⟩ ?_)
  have hkeep : ∀ s : Life, ∀ y : Session, y.writeOv_ = s.session.writeOv_ →
      y.isSending_ = s.session.isSending_ → Stage.created.Fits s →
      Stage.created.Fits { s with session := y } := fun s y hov hflag h =>
    ⟨h.1, h.2.1, ⟨hov ▸ h.2.2.queued.holds, hov ▸ h.2.2.queued.low, h.2.2.queued.fits⟩,
      hflag.trans h.2.2.idle⟩
  refine Safe.bind (safely_clean .created .created (fun s h => hkeep s _ rfl rfl h) ?_)
  refine Safe.bind (safely_clean .created .created (fun s h => hkeep s _ rfl rfl h) ?_)
  refine Safe.bind ⟨trivial, fun s F _ hi _ => ⟨trivial, {Duty.user}, ?_, trivial, ?_⟩⟩
  · obtain ⟨hF, hvacant, hstate, hcount, hclean⟩ := hi.vacant
    rw [hF, add_zero]
    refine .inl ⟨⟨fun d hd => ?_, fun h => SessionState.noConfusion (hstate.symm.trans h), ?_⟩,
      [], ?_⟩
    · rw [Multiset.mem_singleton.mp hd]
      trivial
    · simp only [hvacant.posted, hvacant.outstanding, hcount, List.length_nil, Bool.toNat_true,
        Multiset.card_singleton]
      omega
    · have hdue : due s {.user} = 0 := by
        rw [due, hvacant.outstanding, inHand_user]
        rfl
      exact hdue ▸ .none hclean.queued hclean.idle
  · refine (neutral_modify (f := fun s => { s with readOv_.ioType_ := .kAccept }) (fun _ => rfl)
      fun _ => rfl).before fun _ _ => ?_
    refine (neutral_modify (f := fun s =>
      { s with readOv_.wsaBuf_ := ⟨0, toULong OverlappedEx.getSize⟩ }) (fun _ => rfl)
      fun _ => rfl).before fun _ _ => ?_
    refine Safe.bind (safely_acceptEx fun r _ => ?_)
    dsimp only
    split_ifs
    · refine (neutral_modify (f := fun s => { s with listener_ := true }) (fun _ => rfl)
        fun _ => rfl).before fun _ _ => ?_
      exact safely_releaseRef rfl
    · exact Safe.bind (safely_disconnect (d := .user) trivial fun _ _ => safely_releaseRef rfl)

/-! ## the operations -/

/-- Threads end in charge of a pointer, which they drop. -/
abbrev Leaves (p : Prog (Life × Bool) LifeCall Fault Unit) (r : Multiset Duty) : Prop :=
  ∀ reg, Safely p (fun _ _ r' => r' = {.user}) reg r

theorem leaves_disconnect (d : Duty) (hd : d.Holds) :
    Leaves ((Session.disconnect port).bind fun _ => .done ()) {d} := fun _ =>
  Safe.bind (safely_disconnect hd fun _ _ => ⟨trivial, rfl⟩)

theorem leaves_accept : Leaves (dispatch .kAccept 0) {.user} := by
  intro reg
  refine Safe.bind (Safe.mono (fun _ h => h) ?_ (?_ : Safely _ (fun b _ r' =>
    ∃ d : Duty, r' = {d} ∧ d.Holds ∧ (b = true → d = .user)) reg {.user}))
  · rintro b reg' r' ⟨d, rfl, hd, hb⟩
    cases b with
    | false => exact leaves_disconnect d hd reg'
    | true => exact ⟨trivial, hb rfl ▸ rfl⟩
  · have hkept : ∃ d : Duty, ({.user} : Multiset Duty) = {d} ∧ d.Holds ∧
        (false = true → d = .user) := ⟨.user, rfl, trivial, fun _ => rfl⟩
    refine (neutral_query _).before fun result _ => ?_
    split_ifs
    · exact ⟨trivial, hkept⟩
    · refine (neutral_query _).before fun result _ => ?_
      split_ifs
      · exact ⟨trivial, hkept⟩
      · refine Safe.bind ⟨trivial, Safe.bind (safely_connect (fun _ => ?_) fun _ d hd => ?_)⟩
        · exact ⟨trivial, .user, rfl, trivial, fun _ => rfl⟩
        · exact ⟨trivial, d, rfl, hd, fun h => Bool.noConfusion h⟩

theorem leaves_recv (n : Nat) : Leaves (dispatch .kRecv n) {.user} := by
  intro reg
  simp only [dispatch, IocpCore.dispatchBy]
  split_ifs
  · exact leaves_disconnect .user trivial reg
  · refine (neutral_onRead n).before fun b reg' => ?_
    cases b with
    | false => exact leaves_disconnect .user trivial reg'
    | true => exact ⟨trivial, rfl⟩

theorem leaves_clear : Leaves ((Session.clear port).bind fun _ => .done ()) {.user} := fun _ =>
  neutral_clear.before fun _ _ => ⟨trivial, rfl⟩

theorem leaves_send (n : Nat) : Leaves (dispatch .kSend n) {.completion n} := by
  intro reg
  simp only [dispatch, IocpCore.dispatchBy]
  split_ifs
  · exact leaves_disconnect (.completion n) trivial reg
  · refine Safe.bind ⟨trivial, Safe.bind (safely_onWrite ⟨trivial, rfl⟩ ?_)⟩
    exact leaves_disconnect .leave trivial reg

/-- `HandleError` of a completion with a pointer of its own. -/
theorem leaves_handleError (ioType : IoType) : Leaves (handleError ioType) {.user} := by
  intro reg
  unfold handleError
  split_ifs
  · refine Safe.bind ⟨trivial, fun s F _ hi _ => ⟨trivial, {Duty.user}, .inl ?_, trivial,
      leaves_clear reg⟩⟩
    exact (hi.live trivial).counted rfl rfl rfl (by simp only; omega)
  · exact leaves_disconnect .user trivial reg

/-- A completion that is dequeued comes with a pointer. -/
theorem safely_take {ioType : IoType} {post : Bool → Bool → Multiset Duty → Prop}
    (hnone : post false reg 0) (hsome : post true reg {.user}) :
    Safely (take ioType) post reg 0 := by
  refine Safe.update trivial fun s F _ hi => ?_
  by_cases hmem : ioType ∈ s.posted
  · refine ⟨true, { s with posted := s.posted.erase ioType }, reg, if_pos hmem,
      fun _ => ⟨trivial, {Duty.user}, .inl ?_, trivial, hsome⟩⟩
    have hlive := hi.resolve_right fun hvacant => by
      rw [hvacant.posted] at hmem
      exact List.not_mem_nil hmem
    rw [zero_add] at hlive
    have hcount := hlive.count
    have hpos := List.length_pos_of_mem hmem
    refine ⟨⟨fun d hd => ?_, hlive.state, ?_⟩, ?_⟩
    · rcases Multiset.mem_add.mp hd with h | h
      · rw [Multiset.mem_singleton.mp h]
        trivial
      · exact hlive.holders d h
    · rw [Multiset.card_add, Multiset.card_singleton, List.length_erase_of_mem hmem]
      change s.entry.toNat + (s.posted.length - 1) + s.outstanding.length + _ ≤ s.refCount_
      omega
    · change ∃ w, Session.Outgoing _ _ s.session (due s ({.user} + F)) w
      rw [due_add, inHand_user, zero_add]
      refine hlive.outgoing.imp fun _ hw => hw.mono fun _ hleaving => hleaving.imp_right fun h => ?_
      exact Multiset.mem_add.mpr (.inr h)
  · exact ⟨false, s, reg, if_neg hmem, fun _ => ⟨trivial, 0, hi, trivial, hnone⟩⟩

/-- Dequeuing the completion of a `WSASend` puts the thread in charge of it. -/
theorem safely_dequeue {i n : Nat} {post : Bool → Bool → Multiset Duty → Prop}
    (hnone : post false reg 0) (hsome : post true reg {.completion n}) :
    Safely (dequeue i n) post reg 0 := by
  refine Safe.update trivial fun s F _ hi => ?_
  have hstay : discipline.guard s → discipline.change s s 0 ∧
      ∃ r', discipline.inv s (r' + F) ∧ True ∧ post false reg r' :=
    fun _ => ⟨trivial, 0, hi, trivial, hnone⟩
  cases hlen : s.outstanding[i]? with
  | none => exact ⟨false, s, reg, rfl, hstay⟩
  | some len =>
      by_cases hn : n ≤ len
      · refine ⟨true, { s with outstanding := s.outstanding.eraseIdx i }, reg, if_pos hn,
          fun _ => ⟨trivial, {.completion n}, .inl ?_, trivial, hsome⟩⟩
        have hlive := hi.resolve_right fun hvacant => by
          rw [hvacant.outstanding] at hlen
          exact Option.some_ne_none len hlen.symm
        rw [zero_add] at hlive
        obtain ⟨w, hw⟩ := hlive.outgoing
        have hcount := hlive.count
        have hmem : len ∈ (s.outstanding : Multiset Nat) := List.mem_of_getElem? hlen
        obtain ⟨hsending, -, hle, hone⟩ := hw.of_mem (Multiset.mem_add.mpr (.inl hmem))
        have hcard := congrArg Multiset.card hone
        rw [due, Multiset.card_add, Multiset.card_singleton, Multiset.coe_card] at hcard
        obtain ⟨hi, -⟩ := List.getElem?_eq_some_iff.mp hlen
        have hin : inHand F = 0 := Multiset.card_eq_zero.mp (by omega)
        have herase : s.outstanding.eraseIdx i = [] := by
          refine List.eq_nil_of_length_eq_zero ?_
          rw [List.length_eraseIdx_of_lt hi]
          omega
        refine ⟨⟨fun d hd => ?_, hlive.state, ?_⟩, w, ?_⟩
        · rcases Multiset.mem_add.mp hd with h | h
          · rw [Multiset.mem_singleton.mp h]
            trivial
          · exact hlive.holders d h
        · rw [Multiset.card_add, Multiset.card_singleton, herase]
          change s.entry.toNat + s.posted.length + 0 + _ ≤ s.refCount_
          omega
        · rw [due_completion, due, hin, herase]
          exact ⟨hw.queued, fun h => Bool.noConfusion (hsending.symm.trans h),
            fun _ => .inr ⟨n, trivial, hn.trans hle, rfl⟩⟩
      · exact ⟨false, s, reg, if_neg hn, hstay⟩

/-- A turn of `WorkerThread` ends in charge of nothing. -/
theorem safely_workerThread {d : Duty} {dequeue : Prog (Life × Bool) LifeCall Fault Bool}
    {handle : Prog (Life × Bool) LifeCall Fault Unit}
    (hdequeue : ∀ post : Bool → Bool → Multiset Duty → Prop, post false reg 0 → post true reg {d} →
      Safely dequeue post reg 0)
    (hhandle : Leaves handle {d}) :
    Safely (workerThread dequeue handle) (fun _ _ r' => r' = 0) reg 0 := by
  refine Safe.bind (hdequeue _ ⟨trivial, rfl⟩ (Safe.bind ?_))
  refine Safe.mono (fun _ h => h) ?_ (hhandle reg)
  rintro _ reg' r' rfl
  exact safely_releaseRef rfl

/-- Every operation keeps the discipline. -/
theorem sound : discipline.Sound posting := by
  rintro op l r hcan rfl
  by_cases hop : op.isBroadcast = true
  · cases op with
    | broadcast packet =>
        exact Safe.mono (fun r hr _ => hr) (fun _ _ _ h => h) (safe_broadcast (hcan packet rfl))
    | _ => cases hop
  refine Safe.mono (fun _ _ h => absurd h hop) (fun _ _ _ h => h)
    (?_ : Safely (prog op) (fun _ _ r' => r' = 0) _ 0)
  cases op with
  | broadcast packet => exact absurd rfl hop
  | postAccept handle => exact safely_postAccept handle
  | accept => exact safely_workerThread (fun _ => safely_take) leaves_accept
  | recv n => exact safely_workerThread (fun _ => safely_take) (leaves_recv n)
  | disconnect => exact safely_workerThread (fun _ => safely_take) leaves_clear
  | failed ioType => exact safely_workerThread (fun _ => safely_take) (leaves_handleError ioType)
  | send i n => exact safely_workerThread (fun _ => safely_dequeue) (leaves_send n)
  | sendFailed i =>
      exact safely_workerThread (fun _ => safely_dequeue) (leaves_disconnect _ trivial)

/-! ## every run -/

variable {ι : Type} [Fintype ι] [DecidableEq ι]

/-- No thread is in an operation on the session, but for those that broadcast; and they
are not within `SendPacket`, which is one action. -/
def Settled (c : Config client ι) : Prop :=
  ∀ t r, (c.thread t).running = some r → r.op.isBroadcast = true

theorem sane_unused : Sane unused 0 :=
  .inr ⟨rfl, rfl, rfl, .inl ⟨rfl, rfl, rfl, ⟨.nil rfl (Nat.zero_le _), Nat.zero_lt_succ _,
    Nat.zero_le _⟩, rfl⟩⟩

/-- **No send stalls**: while the broadcasts fit, whenever no operation is in progress on
a connected session, it is sending exactly when one `WSASend` is outstanding, there is
never a second, and without one nothing waits; and no assertion ever fails. -/
theorem no_stall (c : Config client ι)
    (hc : Config.Reach posting (fun _ => True) (start ι) c) :
    (Settled c → c.shared.state = .kConnected →
      (c.shared.session.isSending_ = true ↔ c.shared.outstanding.length = 1) ∧
      c.shared.outstanding.length ≤ 1 ∧
      (c.shared.outstanding = [] → c.shared.session.writeOv_.available = 0)) ∧
    ∀ t, ¬ c.Faults posting t .assertion := by
  have hstart : Good discipline posting (start ι) fun _ => 0 := by
    refine ⟨?_, fun t => rfl⟩
    rw [Finset.sum_const_zero]
    exact sane_unused
  obtain ⟨-, R, hgood⟩ := hstart.run sound trivial hc
  refine ⟨fun hsettled hconn => ?_, fun t hf => hgood.tolerated trivial hf rfl⟩
  have hzero : ∑ t, R t = 0 := Finset.sum_eq_zero fun t _ => by
    cases hrun : (c.thread t).running with
    | none =>
        have hown := hgood.owns t
        unfold Thread.Owns at hown
        rw [hrun] at hown
        exact hown
    | some x => exact hgood.held hrun (hsettled t x hrun)
  have hsane : Sane c.shared 0 := hzero ▸ hgood.inv
  have hlive : Live (Leaving c.shared 0) c.shared 0 := by
    refine hsane.resolve_right fun hvacant => ?_
    rcases hvacant.stage with ⟨-, hidle, -⟩ | ⟨stage, hone, -⟩
    · exact SessionState.noConfusion (hidle.symm.trans hconn)
    · exact Multiset.singleton_ne_zero _ hone.symm
  obtain ⟨w, hw⟩ := hlive.outgoing
  have hdue : due c.shared 0 = c.shared.outstanding := add_zero _
  have havailable := hw.queued.available
  cases hsending : c.shared.session.isSending_ with
  | false =>
      obtain ⟨rfl, hnone⟩ := hw.idle hsending
      have hout : c.shared.outstanding = [] := (Multiset.coe_eq_zero _).mp (hdue.symm.trans hnone)
      rw [hout]
      exact ⟨by simp, by simp, fun _ => havailable⟩
  | true =>
      rcases hw.sending hsending with ⟨-, hstate | hleave⟩ | ⟨n, -, -, hone⟩
      · exact absurd (hconn.symm.trans hstate) (fun h => SessionState.noConfusion h)
      · exact absurd hleave (Multiset.notMem_zero _)
      · have hout : c.shared.outstanding = [n] :=
          Multiset.coe_eq_singleton.mp (hdue.symm.trans hone)
        rw [hout]
        exact ⟨by simp, le_rfl, fun h => absurd h (List.cons_ne_nil _ _)⟩

/-! ## two runs -/

instance (op : LifeOp) (l : Unit) : Decidable (client.can op l) :=
  match op with
  | .broadcast packet => decidable_of_iff (packets.size packet ≤ packet.length)
      ⟨fun h _ he => LifeOp.broadcast.inj he ▸ h, fun h => h packet rfl⟩
  | .postAccept _ => isTrue fun _ h => LifeOp.noConfusion h
  | .accept => isTrue fun _ h => LifeOp.noConfusion h
  | .recv _ => isTrue fun _ h => LifeOp.noConfusion h
  | .disconnect => isTrue fun _ h => LifeOp.noConfusion h
  | .failed _ => isTrue fun _ h => LifeOp.noConfusion h
  | .send _ _ => isTrue fun _ h => LifeOp.noConfusion h
  | .sendFailed _ => isTrue fun _ h => LifeOp.noConfusion h

/-- Every call succeeds, but a `WSASend` fails while `fails` says so. -/
def answersBy (fails : Life × Bool → Bool) : ∀ β : Type, Life × Bool → LifeCall β → β
  | _, _, .setsockopt => 0
  | _, _, .handle _ => true
  | _, _, .acceptEx | _, _, .disconnectEx => ⟨true, 0⟩
  | _, _, .wsaRecv _ => .ok
  | _, s, .wsaSend _ => if fails s then .socketError 10055 else .ok
  | _, _, .sendPacket => ()

/-- `WSASend` fails when nothing is connected. -/
def closed (s : Life × Bool) : Bool := !s.1.entry

/-- `WSASend` fails with `WSAENOBUFS` for a broadcast. -/
def noBuffers (s : Life × Bool) : Bool := s.2

variable (fails : Life × Bool → Bool)

instance (β : Type) (s : Life × Bool) (q : LifeCall β) :
    Decidable (kernel β s q (answersBy fails β s q)) :=
  match q with
  | .wsaSend _ => inferInstanceAs (Decidable (_ → _))
  | .setsockopt => isTrue trivial
  | .handle _ => isTrue trivial
  | .acceptEx => isTrue trivial
  | .wsaRecv _ => isTrue trivial
  | .disconnectEx => isTrue trivial
  | .sendPacket => isTrue trivial

instance (β : Type) (s : Life × Bool) (q : LifeCall β) :
    Decidable (fits β s q (answersBy fails β s q)) :=
  match q with
  | .wsaSend _ => inferInstanceAs (Decidable (_ → _ → _))
  | .sendPacket => inferInstanceAs (Decidable (_ ∨ _))
  | .setsockopt => isTrue trivial
  | .handle _ => isTrue trivial
  | .acceptEx => isTrue trivial
  | .wsaRecv _ => isTrue trivial
  | .disconnectEx => isTrue trivial

instance (β : Type) (s : Life × Bool) (q : LifeCall β) :
    Decidable (posting β s q (answersBy fails β s q)) := inferInstanceAs (Decidable (_ ∧ _))

/-- The session is accepted and its welcome packet sent, a packet is relayed to it and sent
in two parts, its connection ends and the slot is given back; it is accepted again, with
another handle, and its welcome packet is being sent while another broadcast has begun. -/
def twice {ι : Type} (t u : ι) : List (ι × Config.Move client) :=
  [(t, .whole (.postAccept 1)), (t, .whole .accept), (u, .whole (.send 0 6)),
    (u, .whole (.broadcast [4, 0, 2, 0])), (t, .whole (.send 0 1)), (t, .whole (.send 0 3)),
    (t, .whole (.recv 0)), (u, .whole .disconnect), (u, .whole (.postAccept 4294967297)),
    (t, .whole .accept), (u, .start (.broadcast [4, 0, 2, 0])), (u, .acts 2)]

theorem no_stall_twice : ∃ c : Config client (Fin 2),
    Config.Reach posting (fun _ => True) (start (Fin 2)) c ∧ c.shared.session.handle_ = 4294967297 ∧
      ((c.shared.session.isSending_ = true ↔ c.shared.outstanding.length = 1) ∧
        c.shared.outstanding.length ≤ 1 ∧
        (c.shared.outstanding = [] → c.shared.session.writeOv_.available = 0)) ∧
      c.shared.outstanding = [15] ∧ ∀ t, ¬ c.Faults posting t .assertion := by
  have hplay : ((Config.play posting (answersBy closed) (fun _ => True) (twice 0 1)
      (start (Fin 2))).map fun c => (c.shared.state, c.shared.session.handle_, c.shared.outstanding,
        (c.thread 0).running.isNone, (c.thread 1).running.map fun r => r.op.isBroadcast)) =
      some (.kConnected, 4294967297, [15], true, some true) := by decide +kernel
  obtain ⟨c, hc, hvals⟩ := Option.map_eq_some_iff.mp hplay
  simp only [Prod.mk.injEq] at hvals
  obtain ⟨hstate, hhandle, hout, hidle, hbroadcast⟩ := hvals
  have hreach := (Config.Reach.play .refl trivial hc).1
  obtain ⟨hall, hfault⟩ := no_stall c hreach
  refine ⟨c, hreach, hhandle, hall (Fin.forall_fin_two.mpr ⟨fun r hrun => ?_, fun r hrun => ?_⟩)
    hstate, hout, hfault⟩
  · rw [hrun] at hidle
    cases hidle
  · rw [hrun] at hbroadcast
    exact Option.some.inj hbroadcast

/-! ## a send that stalls -/

/-- Where a schedule leads to that the kernel allows, if no operation is in progress then. -/
theorem reach_alone (moves : List (Fin 2 × Config.Move client))
    (s : SessionState × Bool × List Nat × Nat)
    (hplay : (Config.play kernel (answersBy fails) (fun _ => True) moves (start (Fin 2))).map
      (fun c => (((c.thread 0).running.isNone, (c.thread 1).running.isNone), c.shared.state,
        c.shared.session.isSending_, c.shared.outstanding, c.shared.session.writeOv_.available)) =
      some ((true, true), s)) :
    ∃ c : Config client (Fin 2), Config.Reach kernel (fun _ => True) (start (Fin 2)) c ∧
      c.Quiescent ∧ (c.shared.state, c.shared.session.isSending_, c.shared.outstanding,
        c.shared.session.writeOv_.available) = s := by
  obtain ⟨c, hc, hvals⟩ := Option.map_eq_some_iff.mp hplay
  obtain ⟨hidle, hfields⟩ := Prod.mk.inj hvals
  obtain ⟨hidle₀, hidle₁⟩ := Prod.mk.inj hidle
  exact ⟨c, (Config.Reach.play .refl trivial hc).1, Fin.forall_fin_two.mpr
    ⟨Option.isNone_iff_eq_none.mp hidle₀, Option.isNone_iff_eq_none.mp hidle₁⟩, hfields⟩

/-- The session is accepted and its welcome packet sent; a packet is relayed to it. -/
def relayed {ι : Type} (t u : ι) : List (ι × Config.Move client) :=
  [(t, .whole (.postAccept 1)), (t, .whole .accept), (t, .whole (.send 0 6)),
    (u, .whole (.broadcast [4, 0, 2, 0]))]

/-- **A `Broadcast` whose `WSASend` fails stalls the session**: it stays
connected, sending, with nothing outstanding and bytes unsent. -/
theorem broadcast_stalls :
    ∃ c : Config client (Fin 2), Config.Reach kernel (fun _ => True) (start (Fin 2)) c ∧
      c.Quiescent ∧ c.shared.state = .kConnected ∧ c.shared.session.isSending_ = true ∧
      c.shared.outstanding = [] ∧ c.shared.session.writeOv_.available = 4 := by
  obtain ⟨c, hc, hq, hfields⟩ := reach_alone noBuffers (relayed 0 1)
    (.kConnected, true, [], 4) (by decide +kernel)
  simp only [Prod.mk.injEq] at hfields
  exact ⟨c, hc, hq, hfields⟩

/-- A packet is about to be relayed to the session when its connection ends; the last
release has cleared `isSending_` when `SendPacket` comes in, and the session is accepted
again afterwards. -/
def late {ι : Type} (t u : ι) : List (ι × Config.Move client) :=
  [(t, .whole (.postAccept 1)), (t, .whole .accept), (t, .whole (.send 0 6)),
    (u, .start (.broadcast [4, 0, 2, 0])), (u, .acts 2), (t, .whole (.recv 0)),
    (t, .start .disconnect), (t, .acts 7), (u, .acts 1), (u, .finish), (t, .acts 2), (t, .finish),
    (t, .whole (.postAccept 4294967297)), (t, .whole .accept)]

/-- **So does one that comes in while the slot changes hands**, though its `WSASend` fails on a
session that is being disconnected: the next client's welcome packet is never sent. -/
theorem late_broadcast_stalls :
    ∃ c : Config client (Fin 2), Config.Reach kernel (fun _ => True) (start (Fin 2)) c ∧
      c.Quiescent ∧ c.shared.state = .kConnected ∧ c.shared.session.isSending_ = true ∧
      c.shared.outstanding = [] ∧ c.shared.session.writeOv_.available = 19 := by
  obtain ⟨c, hc, hq, hfields⟩ := reach_alone closed (late 0 1)
    (.kConnected, true, [], 19) (by decide +kernel)
  simp only [Prod.mk.injEq] at hfields
  exact ⟨c, hc, hq, hfields⟩

end Life

end ServerStudy
